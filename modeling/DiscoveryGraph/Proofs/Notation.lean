import DiscoveryGraph.Prefs.Json
import DiscoveryGraph.Proofs.Printed
import Mathlib.Data.List.Forall2

/-!
# Ways to write preferences

JSON leaves a choice to the writer. White space may stand around every value, the members of an
object stand in any order, characters may be escaped, and a number has many spellings. A file may
also have members that nobody here knows, with any values. All of this is described by relations
between values and octets, without any reader.

* `Item`: any value, by the kind of value that it is.
* `SpellsObject`: an object with these members.
* `FlawedRecord`: an object in which a field is there twice, or has a value of a wrong kind.
* `Prefs.Given`: some of the preferences. `Prefs.Given.complete` fills in the standard values.
* `Prefs.Given.Spells`, `Prefs.Flawed`: files with some of the preferences, and damaged files.
-/

namespace DiscoveryGraph

namespace Json

open Reader (Blank blank_newLine blank_space)

/-! ## Lists and objects -/

/-- The parts, with commas between them and white space around each of them. -/
inductive Listed : List Bytes → Bytes → Prop where
  | last {part w w' : Bytes} (hw : Blank w) (hw' : Blank w') : Listed [part] (w ++ (part ++ w'))
  | cons {part w w' bs : Bytes} {parts : List Bytes} (hw : Blank w) (hw' : Blank w')
      (hparts : Listed parts bs) : Listed (part :: parts) (w ++ (part ++ (w' ++ 0x2C :: bs)))

/-- A list or object of these parts, from its opening to its closing bracket. -/
inductive Encloses (opening closing : UInt8) : List Bytes → Bytes → Prop where
  | empty {w : Bytes} (hw : Blank w) : Encloses opening closing [] (opening :: (w ++ [closing]))
  | listed {parts : List Bytes} {bs : Bytes} (h : Listed parts bs) :
      Encloses opening closing parts (opening :: (bs ++ [closing]))

theorem blank_nil : Blank [] :=
  fun _ hb => absurd hb List.not_mem_nil

theorem Listed.length_le {parts : List Bytes} {bs : Bytes} (h : Listed parts bs) :
    parts.length ≤ bs.length + 1 := by
  induction h with
  | last => exact Nat.succ_le_succ (Nat.zero_le _)
  | cons _ _ _ ih =>
    simp only [List.length_cons, List.length_append]
    omega

/-- White space in front of the first part can be left out. -/
theorem Listed.trim {parts : List Bytes} {bs : Bytes} (h : Listed parts bs) :
    ∃ w, Blank w ∧ ∃ part ∈ parts, ∃ tail,
      bs = w ++ (part ++ tail) ∧ Listed parts (part ++ tail) := by
  cases h with
  | @last part w w' hw hw' =>
    exact ⟨w, hw, part, List.mem_cons_self, w', rfl, .last (w := []) blank_nil hw'⟩
  | @cons part w w' bs parts hw hw' hparts =>
    refine ⟨w, hw, part, List.mem_cons_self, w' ++ 0x2C :: bs, rfl, ?_⟩
    exact .cons (w := []) blank_nil hw' hparts

theorem listed_write (depth : Nat) (first : Bytes) (others : List Bytes) : Listed (first :: others)
    (newLine (depth + 1) ++ first ++
      (others.flatMap fun part => 0x2C :: newLine (depth + 1) ++ part) ++ newLine depth) := by
  induction others generalizing first with
  | nil =>
    rw [List.flatMap_nil, List.append_nil, List.append_assoc]
    exact .last (blank_newLine _) (blank_newLine _)
  | cons second others ih =>
    have hw := blank_newLine (depth + 1)
    have hmore : Listed (first :: second :: others) (newLine (depth + 1) ++ (first ++ ([] ++ 0x2C ::
        (newLine (depth + 1) ++ second ++
          (others.flatMap fun part => 0x2C :: newLine (depth + 1) ++ part) ++ newLine depth)))) :=
      .cons hw blank_nil (ih second)
    rw [List.flatMap_cons]
    simpa only [List.append_assoc, List.cons_append, List.nil_append] using hmore

/-- What is written here stands between brackets. -/
theorem encloses_write (opening closing : UInt8) (depth : Nat) (parts : List Bytes) :
    Encloses opening closing parts (writeParts opening closing depth parts) := by
  cases parts with
  | nil => exact .empty (w := []) blank_nil
  | cons first others => exact .listed (listed_write depth first others)

/-- A key, a colon and a value, with white space around the colon. -/
def SpellsMember (key value octets : Bytes) : Prop :=
  ∃ w w', Blank w ∧ Blank w' ∧ octets = key ++ (w ++ 0x3A :: (w' ++ value))

/-! ## Numbers -/

/-- At least one decimal digit. -/
def Digits (ds : Bytes) : Prop :=
  ds ≠ [] ∧ ∀ d ∈ ds, isDigit d = true

/-- The digits before the point. Only zero begins with a zero. -/
inductive SpellsInteger : Bytes → Prop where
  | zero : SpellsInteger [0x30]
  | positive {d : UInt8} {ds : Bytes} (hzero : d ≠ 0x30) (hdigits : Digits (d :: ds)) :
      SpellsInteger (d :: ds)

/-- Nothing, or a point and digits. -/
inductive SpellsFraction : Bytes → Prop where
  | none : SpellsFraction []
  | digits {ds : Bytes} (hdigits : Digits ds) : SpellsFraction (0x2E :: ds)

/-- Nothing, or a letter and digits, with or without a sign. -/
inductive SpellsExponent : Bytes → Prop where
  | none : SpellsExponent []
  | digits {letter : UInt8} {sign ds : Bytes} (hletter : letter ∈ [0x65, 0x45])
      (hsign : sign ∈ [[], [0x2B], [0x2D]]) (hdigits : Digits ds) :
      SpellsExponent (letter :: (sign ++ ds))

/-- A number, however large or precise. -/
def SpellsNumber (octets : Bytes) : Prop :=
  ∃ sign whole fraction exponent, sign ∈ [[], [0x2D]] ∧ SpellsInteger whole ∧
    SpellsFraction fraction ∧ SpellsExponent exponent ∧
    octets = sign ++ (whole ++ (fraction ++ exponent))

/-! ## Strings -/

/-- What a string is made of: octets that stand for themselves, and escapes. -/
inductive Piece : Bytes → Prop where
  | plain {b : UInt8} (hquote : b ≠ 0x22) (hslash : b ≠ 0x5C) (hcontrol : ¬ b < 0x20) : Piece [b]
  | short {letter octet : UInt8} (h : shortEscape? letter = some octet) : Piece [0x5C, letter]
  | numeric {x y z t : UInt8} {n : Nat} (h : hexValues? x y z t = some n) :
      Piece [0x5C, 0x75, x, y, z, t]

/-- A string, be it the spelling of a text or not: the halves of surrogate pairs may stand alone. -/
def SpellsString (octets : Bytes) : Prop :=
  ∃ pieces : List Bytes,
    (∀ piece ∈ pieces, Piece piece) ∧ octets = 0x22 :: (pieces.flatten ++ [0x22])

/-- A character of a text, as it is or as an escape. -/
inductive SpellsChar (c : Char) : Bytes → Prop where
  | plain (hquote : c ≠ '"') (hslash : c ≠ '\\') (hcontrol : 0x20 ≤ c.toNat) :
      SpellsChar c (String.utf8EncodeChar c)
  | short {letter octet : UInt8} (h : shortEscape? letter = some octet)
      (hc : c.toNat = octet.toNat) : SpellsChar c [0x5C, letter]
  | numeric {x y z t : UInt8} (h : hexValues? x y z t = some c.toNat) :
      SpellsChar c [0x5C, 0x75, x, y, z, t]
  | pair {x y z t x' y' z' t' : UInt8} {leading trailing : Nat}
      (h : hexValues? x y z t = some leading) (h' : hexValues? x' y' z' t' = some trailing)
      (hleading : isLeading leading = true) (htrailing : isTrailing trailing = true)
      (hc : c.toNat = paired leading trailing) :
      SpellsChar c [0x5C, 0x75, x, y, z, t, 0x5C, 0x75, x', y', z', t']

/-- The spelling of a text. -/
def SpellsText (s : String) (octets : Bytes) : Prop :=
  ∃ pieces, List.Forall₂ SpellsChar s.toList pieces ∧ octets = 0x22 :: (pieces.flatten ++ [0x22])

theorem SpellsString.exists_cons {octets : Bytes} (h : SpellsString octets) :
    ∃ more, octets = 0x22 :: more := by
  obtain ⟨pieces, -, rfl⟩ := h
  exact ⟨_, rfl⟩

theorem SpellsText.exists_cons {s : String} {octets : Bytes} (h : SpellsText s octets) :
    ∃ more, octets = 0x22 :: more := by
  obtain ⟨pieces, -, rfl⟩ := h
  exact ⟨_, rfl⟩

theorem SpellsMember.exists_cons {key value part : Bytes} (h : SpellsMember key value part)
    (hkey : ∃ more, key = 0x22 :: more) : ∃ more, part = 0x22 :: more := by
  obtain ⟨w, w', -, -, rfl⟩ := h
  obtain ⟨more, rfl⟩ := hkey
  exact ⟨_, rfl⟩

/-! ## Values -/

/-- The kinds of values. -/
inductive Kind where
  | null
  | boolean
  | number
  | string
  | list
  | object
deriving DecidableEq

/-- A member of an object, all of its octets included. -/
structure Member where
  key : Bytes
  kind : Kind
  value : Bytes
  octets : Bytes

/-- A value of this kind. Lists and objects hold any values, nested to any depth. -/
inductive Item : Kind → Bytes → Prop where
  | null : Item .null (Bytes.ofText "null")
  | boolean (b : Bool) : Item .boolean (writeBoolean b)
  | number {octets : Bytes} (h : SpellsNumber octets) : Item .number octets
  | string {octets : Bytes} (h : SpellsString octets) : Item .string octets
  | list {parts : List (Kind × Bytes)} {octets : Bytes}
      (hparts : ∀ part ∈ parts, Item part.1 part.2)
      (h : Encloses 0x5B 0x5D (parts.map Prod.snd) octets) : Item .list octets
  | object {members : List Member} {octets : Bytes}
      (hkeys : ∀ member ∈ members, SpellsString member.key)
      (hvalues : ∀ member ∈ members, Item member.kind member.value)
      (hmembers : ∀ member ∈ members, SpellsMember member.key member.value member.octets)
      (h : Encloses 0x7B 0x7D (members.map (·.octets)) octets) : Item .object octets

/-- How values of this kind begin. -/
def Kind.Starts : Kind → UInt8 → Prop
  | .null, b => b = 0x6E
  | .boolean, b => b = 0x74 ∨ b = 0x66
  | .number, b => b = 0x2D ∨ isDigit b = true
  | .string, b => b = 0x22
  | .list, b => b = 0x5B
  | .object, b => b = 0x7B

theorem Encloses.exists_cons {opening closing : UInt8} {parts : List Bytes} {octets : Bytes}
    (h : Encloses opening closing parts octets) : ∃ more, octets = opening :: more := by
  cases h with
  | empty => exact ⟨_, rfl⟩
  | listed => exact ⟨_, rfl⟩

theorem SpellsNumber.exists_cons {octets : Bytes} (h : SpellsNumber octets) :
    ∃ b more, octets = b :: more ∧ Kind.number.Starts b := by
  obtain ⟨sign, whole, fraction, exponent, hsign, hwhole, -, -, rfl⟩ := h
  simp only [List.mem_cons, List.not_mem_nil, or_false] at hsign
  rcases hsign with rfl | rfl
  · cases hwhole with
    | zero => exact ⟨_, _, rfl, .inr rfl⟩
    | positive _ hdigits => exact ⟨_, _, rfl, .inr (hdigits.2 _ List.mem_cons_self)⟩
  · exact ⟨_, _, rfl, .inl rfl⟩

/-- A value begins like its kind. -/
theorem Item.exists_cons {kind : Kind} {octets : Bytes} (h : Item kind octets) :
    ∃ b more, octets = b :: more ∧ kind.Starts b := by
  cases h with
  | null => exact ⟨_, _, rfl, rfl⟩
  | boolean b =>
    cases b with
    | true => exact ⟨_, _, rfl, .inl rfl⟩
    | false => exact ⟨_, _, rfl, .inr rfl⟩
  | number h => exact h.exists_cons
  | string h =>
    obtain ⟨more, rfl⟩ := h.exists_cons
    exact ⟨_, _, rfl, rfl⟩
  | list _ h =>
    obtain ⟨more, rfl⟩ := h.exists_cons
    exact ⟨_, _, rfl, rfl⟩
  | object _ _ _ h =>
    obtain ⟨more, rfl⟩ := h.exists_cons
    exact ⟨_, _, rfl, rfl⟩

/-- A digit is no octet that is not a digit. -/
theorem ne_of_isDigit {b c : UInt8} (hb : isDigit b = true) (hc : isDigit c = false) : b ≠ c := by
  rintro rfl
  rw [hb] at hc
  cases hc

/-- No value begins with white space or a closing bracket. -/
theorem Kind.Starts.plain {kind : Kind} {b : UInt8} (h : kind.Starts b) :
    isBlank b = false ∧ b ≠ 0x5D ∧ b ≠ 0x7D := by
  have hdigit : isDigit b = true → isBlank b = false ∧ b ≠ 0x5D ∧ b ≠ 0x7D := by
    intro hb
    have hne : ∀ c, isDigit c = false → b ≠ c := fun c => ne_of_isDigit hb
    refine ⟨?_, hne _ rfl, hne _ rfl⟩
    simp only [isBlank, hne 0x20 rfl, hne 0x0A rfl, hne 0x09 rfl, hne 0x0D rfl, decide_false,
      Bool.or_false]
  cases kind with
  | null =>
    obtain rfl : b = 0x6E := h
    decide
  | boolean => rcases h with rfl | rfl <;> decide
  | number =>
    rcases h with rfl | hb
    · decide
    · exact hdigit hb
  | string =>
    obtain rfl : b = 0x22 := h
    decide
  | list =>
    obtain rfl : b = 0x5B := h
    decide
  | object =>
    obtain rfl : b = 0x7B := h
    decide

/-- The kind of the values that begin with this octet, if there are any. -/
def Kind.ofFirst (b : UInt8) : Kind :=
  if b = 0x6E then .null
  else if b = 0x74 ∨ b = 0x66 then .boolean
  else if b = 0x22 then .string
  else if b = 0x5B then .list
  else if b = 0x7B then .object
  else .number

/-- The first octet of a value tells its kind. -/
theorem Kind.Starts.eq_ofFirst {kind : Kind} {b : UInt8} (h : kind.Starts b) :
    kind = .ofFirst b := by
  cases kind with
  | null =>
    obtain rfl : b = 0x6E := h
    rfl
  | boolean => rcases h with rfl | rfl <;> rfl
  | number =>
    rcases h with rfl | hb
    · rfl
    · have hne : ∀ c, isDigit c = false → b ≠ c := fun c => ne_of_isDigit hb
      simp only [ofFirst, hne 0x6E rfl, hne 0x74 rfl, hne 0x66 rfl, hne 0x22 rfl, hne 0x5B rfl,
        hne 0x7B rfl, or_self, if_false]
  | string =>
    obtain rfl : b = 0x22 := h
    rfl
  | list =>
    obtain rfl : b = 0x5B := h
    rfl
  | object =>
    obtain rfl : b = 0x7B := h
    rfl

theorem Kind.Starts.ne {kind kind' : Kind} {b c : UInt8} (hb : kind.Starts b) (hc : kind'.Starts c)
    (hne : kind ≠ kind') : b ≠ c := by
  rintro rfl
  exact hne (hb.eq_ofFirst.trans hc.eq_ofFirst.symm)

/-- A value that is of none of these kinds. -/
def Mistyped (kinds : List Kind) (octets : Bytes) : Prop :=
  ∃ kind, kind ∉ kinds ∧ Item kind octets

/-- A list with these elements. -/
def SpellsList {α : Type} (written : α → Bytes → Prop) (xs : List α) (octets : Bytes) : Prop :=
  ∃ parts, List.Forall₂ written xs parts ∧ Encloses 0x5B 0x5D parts octets

/-- A list in which some element is not of this kind. -/
def MistypedList (kind : Kind) (octets : Bytes) : Prop :=
  ∃ parts : List (Kind × Bytes), (∀ part ∈ parts, Item part.1 part.2) ∧
    Encloses 0x5B 0x5D (parts.map Prod.snd) octets ∧ ∃ part ∈ parts, part.1 ≠ kind

/-! ## Records -/

/-- A member whose name is this text. -/
def SpellsEntry (entry : String × Bytes) (octets : Bytes) : Prop :=
  ∃ key, SpellsText entry.1 key ∧ SpellsMember key entry.2 octets

/-- An object with these members. Their names are texts. -/
def SpellsObject (entries : List (String × Bytes)) (octets : Bytes) : Prop :=
  ∃ parts, List.Forall₂ SpellsEntry entries parts ∧ Encloses 0x7B 0x7D parts octets

/-- The values of the members with this name. -/
def valuesOf (name : String) (entries : List (String × Bytes)) : List Bytes :=
  (entries.filter (·.1 = name)).map (·.2)

/-- The member with this name, if there is one, has this value, and there is only one. -/
def Given {α : Type} (written : α → Bytes → Prop) (name : String)
    (entries : List (String × Bytes)) (a : Option α) : Prop :=
  List.Forall₂ written a.toList (valuesOf name entries)

/-- An object with these members. Those that are no fields have any values. -/
structure SpellsRecord (names : List String) (entries : List (String × Bytes)) (octets : Bytes) :
    Prop where
  object : SpellsObject entries octets
  unknown : ∀ entry ∈ entries, entry.1 ∉ names → ∃ kind, Item kind entry.2

/-- An object in which a field is there several times, or the value of a field is flawed. The other
members have any values. -/
def FlawedRecord (names : List String) (flaw : String → Bytes → Prop) (octets : Bytes) : Prop :=
  ∃ entries, SpellsObject entries octets ∧ (∀ entry ∈ entries, ∃ kind, Item kind entry.2) ∧
    ((∃ name ∈ names, 2 ≤ (valuesOf name entries).length) ∨
      ∃ entry ∈ entries, entry.1 ∈ names ∧ flaw entry.1 entry.2)

end Json

open Json

/-! ## Preferences -/

namespace ReconcilePrefs

/-- The fields of merging preferences. -/
def fieldNames : List String :=
  ["defer_unknown_endpoints"]

/-- The octets spell an object with these of the merging preferences. -/
def Draft.Spells (given : Draft) (octets : Bytes) : Prop :=
  ∃ entries, SpellsRecord fieldNames entries octets ∧
    Json.Given (fun b value => value = writeBoolean b) "defer_unknown_endpoints" entries
      given.deferUnknownEndpoints

/-- The value does not fit the field. -/
def Flaw (name : String) (value : Bytes) : Prop :=
  name = "defer_unknown_endpoints" ∧ Mistyped [.boolean] value

/-- The octets spell merging preferences, but a field is there twice, or its value does not fit. -/
def Flawed (octets : Bytes) : Prop :=
  FlawedRecord fieldNames Flaw octets

end ReconcilePrefs

namespace DemanglePrefs

/-- The fields of naming preferences. -/
def fieldNames : List String :=
  ["topic_prefixes", "hide_unprefixed"]

/-- The octets spell an object with these of the naming preferences. -/
def Draft.Spells (given : Draft) (octets : Bytes) : Prop :=
  ∃ entries, SpellsRecord fieldNames entries octets ∧
    Json.Given (SpellsList SpellsText) "topic_prefixes" entries given.topicPrefixes ∧
    Json.Given (fun b value => value = writeBoolean b) "hide_unprefixed" entries
      given.hideUnprefixed

/-- The value does not fit the field. -/
def Flaw (name : String) (value : Bytes) : Prop :=
  (name = "topic_prefixes" ∧ (Mistyped [.list] value ∨ MistypedList .string value)) ∨
    (name = "hide_unprefixed" ∧ Mistyped [.boolean] value)

/-- The octets spell naming preferences, but a field is there twice, or its value does not fit. -/
def Flawed (octets : Bytes) : Prop :=
  FlawedRecord fieldNames Flaw octets

end DemanglePrefs

namespace Prefs

/-- The fields of preferences. -/
def fieldNames : List String :=
  ["reconcile", "demangle"]

/-- Some of the preferences. -/
structure Given where
  reconcile : Option ReconcilePrefs.Draft
  demangle : Option DemanglePrefs.Draft

/-- The octets spell an object with these of the preferences. -/
def Given.Spells (given : Given) (octets : Bytes) : Prop :=
  ∃ entries, SpellsRecord fieldNames entries octets ∧
    Json.Given ReconcilePrefs.Draft.Spells "reconcile" entries given.reconcile ∧
    Json.Given DemanglePrefs.Draft.Spells "demangle" entries given.demangle

/-- What is given, and the standard values of the rest. -/
def Given.complete (given : Given) : Prefs where
  reconcile :=
    { deferUnknownEndpoints := (given.reconcile.bind (·.deferUnknownEndpoints)).getD
        ReconcilePrefs.standard.deferUnknownEndpoints }
  demangle :=
    { topicPrefixes := (given.demangle.bind (·.topicPrefixes)).getD
        DemanglePrefs.standard.topicPrefixes
      hideUnprefixed := (given.demangle.bind (·.hideUnprefixed)).getD
        DemanglePrefs.standard.hideUnprefixed }

/-- The value does not fit the field. A list may stand for an object, if it has the values of the
fields in their order. -/
def Flaw (name : String) (value : Bytes) : Prop :=
  (name = "reconcile" ∧ (Mistyped [.object, .list] value ∨ ReconcilePrefs.Flawed value)) ∨
    (name = "demangle" ∧ (Mistyped [.object, .list] value ∨ DemanglePrefs.Flawed value))

/-- The octets spell an object, but a field of it, or of an object in it, is there twice, or its
value does not fit. -/
def Flawed (octets : Bytes) : Prop :=
  FlawedRecord fieldNames Flaw octets

end Prefs

end DiscoveryGraph
