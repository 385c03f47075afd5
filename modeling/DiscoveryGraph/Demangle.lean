import DiscoveryGraph.Prefs

/-!
# Names shown to observers

The transport carries topic and type names in a mangled form. A demangler turns such a name into
the one that observers see; an empty result hides the name.

* `splitAtFirst_eq_some`: the two halves around the first mark give the text back.
* `splitAtFirst_eq_none`: only a text without the mark has no halves.
-/

namespace DiscoveryGraph

/-- A transformation of raw names. The empty result hides a name. -/
abbrev Demangler := String → String

namespace Demangler

/-- What is left of `raw` after `mark`, provided that a slash follows the mark. -/
def afterMark? (raw mark : List Char) : Option (List Char) :=
  if mark.isPrefixOf raw && (raw.drop mark.length).head? == some '/' then
    some (raw.drop mark.length)
  else none

/-- The first of the prefixes that marks the name is removed from it. A name without a mark is
hidden or shown as it is, whichever the preferences say. -/
def topic (prefs : DemanglePrefs) : Demangler := fun raw =>
  match prefs.topicPrefixes.findSome? fun mark => afterMark? raw.toList mark.toList with
  | some rest => String.ofList rest
  | none => if prefs.hideUnprefixed then "" else raw

/-- The parts of a text before and after the first occurrence of `mark`. -/
def splitAtFirst (mark : List Char) : List Char → Option (List Char × List Char)
  | [] => if mark.isPrefixOf [] then some ([], []) else none
  | c :: rest =>
    if mark.isPrefixOf (c :: rest) then some ([], (c :: rest).drop mark.length)
    else (splitAtFirst mark rest).map fun parts => (c :: parts.1, parts.2)

/-- Every double colon, taken from the left, becomes a slash. -/
def slashed : List Char → List Char
  | ':' :: ':' :: rest => '/' :: slashed rest
  | c :: rest => c :: slashed rest
  | [] => []

/-- The text without its last character, if that is `c`. -/
def dropFinal (c : Char) (cs : List Char) : List Char :=
  if cs.getLast? = some c then cs.dropLast else cs

/-- What stands between the package and the name of a mangled type. -/
def typeMark : List Char :=
  "::dds_::".toList

/-- A mangled type such as `std_msgs::msg::dds_::String_` is shown as `std_msgs/msg/String`. A
type without the mark is shown as it is. -/
def type : Demangler := fun raw =>
  match splitAtFirst typeMark raw.toList with
  | some (package, tail) => String.ofList (slashed package ++ '/' :: dropFinal '_' tail)
  | none => raw

theorem splitAtFirst_eq_some {mark cs before after : List Char}
    (h : splitAtFirst mark cs = some (before, after)) : cs = before ++ mark ++ after := by
  induction cs generalizing before with
  | nil =>
    rw [splitAtFirst] at h
    split at h
    · next hm =>
      cases h
      have := List.isPrefixOf_iff_prefix.mp hm
      simp_all
    · cases h
  | cons c rest ih =>
    rw [splitAtFirst] at h
    split at h
    · next hm =>
      cases h
      obtain ⟨tail, htail⟩ := List.isPrefixOf_iff_prefix.mp hm
      rw [← htail]
      simp
    · obtain ⟨⟨b, a⟩, hparts, heq⟩ := Option.map_eq_some_iff.mp h
      cases heq
      simp [ih hparts]

theorem splitAtFirst_eq_none {mark cs : List Char} :
    splitAtFirst mark cs = none ↔ ¬ mark <:+: cs := by
  induction cs with
  | nil =>
    rw [splitAtFirst]
    split
    · next hm =>
      have := List.isPrefixOf_iff_prefix.mp hm
      simp_all
    · next hm =>
      rw [List.isPrefixOf_iff_prefix] at hm
      simpa using hm
  | cons c rest ih =>
    rw [splitAtFirst]
    split
    · next hm =>
      simp [List.infix_cons_iff, List.isPrefixOf_iff_prefix.mp hm]
    · next hm =>
      rw [List.isPrefixOf_iff_prefix] at hm
      simp [List.infix_cons_iff, hm, ih]

end Demangler

end DiscoveryGraph
