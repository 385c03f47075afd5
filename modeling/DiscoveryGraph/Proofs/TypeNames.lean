import DiscoveryGraph.Graph.Command
import DiscoveryGraph.Proofs.Topics
import Mathlib.Data.List.Nodup

/-!
# Names of types

The transport writes the name of a type behind the segments of its package: the segments are set
apart by double colons, a mark stands between package and name, and an underscore at the end. What
observers see has slashes instead. As no segment holds a colon or is what the mark holds, the mark
is found where it was written, whatever the name of the type looks like. As there are no slashes
in the parts, they can be told apart again.

* `splitAtFirst_typeMark`: the mark is found behind the package.
* `slashed_intercalate`: the segments are set apart by slashes.
* `type_eq_shown`: a mangled type is shown by its parts.
* `shown_injective`: different types are shown differently.
* `type_injective`: types are shown as they are, and never merged.
-/

namespace DiscoveryGraph.Demangler

variable {segment rest tail : List Char} {segments : List (List Char)}

/-- What stands before the first colon is determined by the whole. -/
theorem eq_of_append_colon {first other rest rest' : List Char} (hfirst : ':' ∉ first)
    (hother : ':' ∉ other) (h : first ++ ':' :: rest = other ++ ':' :: rest') :
    first = other ∧ rest = rest' := by
  rcases List.append_eq_append_iff.mp h with ⟨more, rfl, hmore⟩ | ⟨more, rfl, hmore⟩
  all_goals
    cases more with
    | nil => exact ⟨by simp, by simpa [eq_comm] using hmore⟩
    | cons c more =>
      obtain ⟨rfl, -⟩ := List.cons.inj hmore
      simp at hfirst hother

/-! ## The mark -/

/-- What the mark holds between its colons. -/
def markWord : List Char :=
  "dds_".toList

theorem typeMark_eq : typeMark = ':' :: ':' :: (markWord ++ [':', ':']) := by
  decide

/-- What stands before the first colon holds no part of the mark. -/
theorem splitAtFirst_append (h : ':' ∉ segment) (rest : List Char) :
    splitAtFirst typeMark (segment ++ rest) =
      (splitAtFirst typeMark rest).map fun parts => (segment ++ parts.1, parts.2) := by
  induction segment with
  | nil => simp
  | cons c segment ih =>
    obtain ⟨hc, hsegment⟩ := List.ne_and_not_mem_of_not_mem_cons h
    have hmark : ¬ typeMark.isPrefixOf (c :: (segment ++ rest)) := by
      rw [typeMark_eq, List.isPrefixOf_iff_prefix, List.cons_prefix_cons]
      exact fun hmark => hc hmark.1
    rw [List.cons_append, splitAtFirst, if_neg hmark, ih hsegment, Option.map_map]
    rfl

theorem splitAtFirst_mark (tail : List Char) :
    splitAtFirst typeMark (typeMark ++ tail) = some ([], tail) := by
  have hmark : typeMark.isPrefixOf (typeMark ++ tail) :=
    List.isPrefixOf_iff_prefix.mpr (List.prefix_append _ _)
  have hcons : typeMark ++ tail = ':' :: ':' :: (markWord ++ [':', ':'] ++ tail) := by
    rw [typeMark_eq]
    rfl
  rw [hcons] at hmark ⊢
  rw [splitAtFirst, if_pos hmark, ← hcons, List.drop_left]

/-- Two colons in front of a segment belong to no mark, unless the segment is what the mark
holds. -/
theorem splitAtFirst_colons (hsegment : ':' ∉ segment) (hne : segment ≠ markWord)
    (rest : List Char) :
    splitAtFirst typeMark (':' :: ':' :: (segment ++ ':' :: ':' :: rest)) =
      (splitAtFirst typeMark (segment ++ ':' :: ':' :: rest)).map
        fun parts => (':' :: ':' :: parts.1, parts.2) := by
  have hword : ':' ∉ markWord := by decide
  have hfirst : ¬ typeMark.isPrefixOf (':' :: ':' :: (segment ++ ':' :: ':' :: rest)) := by
    rw [typeMark_eq, List.isPrefixOf_iff_prefix, List.cons_prefix_cons, List.cons_prefix_cons]
    rintro ⟨-, -, tail, htail⟩
    rw [List.append_assoc] at htail
    exact hne (eq_of_append_colon hword hsegment htail).1.symm
  have hsecond : ¬ typeMark.isPrefixOf (':' :: (segment ++ ':' :: ':' :: rest)) := by
    rw [typeMark_eq, List.isPrefixOf_iff_prefix, List.cons_prefix_cons]
    rintro ⟨-, tail, htail⟩
    have hnil : ':' ∉ ([] : List Char) := List.not_mem_nil
    obtain ⟨-, hcolon⟩ := eq_of_append_colon hnil hsegment htail
    cases hcolon
  rw [splitAtFirst, if_neg hfirst, splitAtFirst, if_neg hsecond, Option.map_map]
  rfl

/-- The first mark stands behind the package. -/
theorem splitAtFirst_typeMark (hne : segments ≠ []) (hplain : ∀ segment ∈ segments, ':' ∉ segment)
    (hmark : markWord ∉ segments) (tail : List Char) :
    splitAtFirst typeMark ([':', ':'].intercalate segments ++ typeMark ++ tail) =
      some ([':', ':'].intercalate segments, tail) := by
  induction segments with
  | nil => exact absurd rfl hne
  | cons segment segments ih =>
    obtain ⟨hsegment, hplain⟩ := List.forall_mem_cons.mp hplain
    have hmark := List.not_mem_of_not_mem_cons hmark
    cases segments with
    | nil =>
      rw [List.intercalate_singleton, List.append_assoc, splitAtFirst_append hsegment,
        splitAtFirst_mark]
      simp
    | cons next segments =>
      have hnext : ':' ∉ next := hplain next List.mem_cons_self
      have hne : next ≠ markWord := fun h => hmark (h ▸ List.mem_cons_self)
      -- Two colons follow the next segment, of the package or of the mark.
      obtain ⟨rest, hrest⟩ : ∃ rest,
          [':', ':'].intercalate (next :: segments) ++ typeMark ++ tail =
            next ++ ':' :: ':' :: rest := by
        cases segments with
        | nil =>
          refine ⟨markWord ++ ':' :: ':' :: tail, ?_⟩
          rw [List.intercalate_singleton, typeMark_eq]
          simp
        | cons later segments =>
          refine ⟨[':', ':'].intercalate (later :: segments) ++ (typeMark ++ tail), ?_⟩
          rw [List.intercalate_cons_cons]
          simp
      have hsplit := ih (List.cons_ne_nil _ _) hplain hmark
      rw [hrest] at hsplit
      have hall : [':', ':'].intercalate (segment :: next :: segments) ++ typeMark ++ tail =
          segment ++ ':' :: ':' :: (next ++ ':' :: ':' :: rest) := by
        rw [List.intercalate_cons_cons, ← hrest]
        simp
      rw [hall, splitAtFirst_append hsegment, splitAtFirst_colons hnext hne, hsplit,
        List.intercalate_cons_cons]
      simp

/-! ## Slashes -/

theorem slashed_append (h : ':' ∉ segment) (rest : List Char) :
    slashed (segment ++ rest) = segment ++ slashed rest := by
  induction segment with
  | nil => rfl
  | cons c segment ih =>
    obtain ⟨hc, hsegment⟩ := List.ne_and_not_mem_of_not_mem_cons h
    rw [List.cons_append, slashed, ih hsegment, List.cons_append]
    rintro rest rfl
    exact absurd rfl hc

/-- The segments of a package are set apart by slashes. -/
theorem slashed_intercalate (hplain : ∀ segment ∈ segments, ':' ∉ segment) :
    slashed ([':', ':'].intercalate segments) = ['/'].intercalate segments := by
  induction segments with
  | nil => rfl
  | cons segment segments ih =>
    obtain ⟨hsegment, hplain⟩ := List.forall_mem_cons.mp hplain
    cases segments with
    | nil =>
      have hslashed := slashed_append hsegment []
      rw [List.append_nil, slashed, List.append_nil] at hslashed
      rw [List.intercalate_singleton, List.intercalate_singleton, hslashed]
    | cons next segments =>
      rw [List.intercalate_cons_cons, List.intercalate_cons_cons, List.append_assoc,
        slashed_append hsegment, List.append_assoc, ← ih hplain]
      rfl

theorem dropFinal_concat (c : Char) (cs : List Char) : dropFinal c (cs ++ [c]) = cs := by
  rw [dropFinal, List.getLast?_concat, if_pos rfl, List.dropLast_concat]

end Demangler

/-! ## The parts of a name -/

/-- A type, by the segments of its package and its own name. No segment holds a colon or is what
the mark holds, and slashes are nowhere. -/
@[ext] structure TypePath where
  package : List String
  name : String
  package_ne_nil : package ≠ []
  noColon : ∀ segment ∈ package, ':' ∉ segment.toList
  noSlash : ∀ segment ∈ package, '/' ∉ segment.toList
  unmarked : "dds_" ∉ package
  noSlash_name : '/' ∉ name.toList

namespace TypePath

/-- The type as the transport carries it. -/
def mangled (path : TypePath) : String :=
  "::".intercalate path.package ++ "::dds_::" ++ path.name ++ "_"

/-- The type as observers see it. -/
def shown (path : TypePath) : String :=
  "/".intercalate path.package ++ "/" ++ path.name

theorem toList_shown (path : TypePath) : path.shown.toList =
    ['/'].intercalate (path.package.map String.toList ++ [path.name.toList]) := by
  have hsplit : ∀ segments : List (List Char), segments ≠ [] → ∀ last : List Char,
      ['/'].intercalate (segments ++ [last]) = ['/'].intercalate segments ++ '/' :: last := by
    intro segments hne last
    induction segments with
    | nil => exact absurd rfl hne
    | cons segment segments ih =>
      cases segments with
      | nil => simp
      | cons next segments =>
        rw [List.cons_append, List.cons_append, List.intercalate_cons_cons, ← List.cons_append,
          ih (List.cons_ne_nil _ _), List.intercalate_cons_cons, List.append_assoc,
          List.append_assoc, List.append_assoc]
  rw [hsplit _ (by simpa using path.package_ne_nil)]
  simp [shown]

/-- Different types are shown differently. -/
theorem shown_injective : Function.Injective shown := by
  intro path other h
  have hslash : ∀ path : TypePath, ∀ part ∈ path.package.map String.toList ++ [path.name.toList],
      '/' ∉ part := by
    intro path part hpart
    rcases List.mem_append.mp hpart with hsegment | hname
    · obtain ⟨segment, hmem, rfl⟩ := List.mem_map.mp hsegment
      exact path.noSlash segment hmem
    · rw [List.mem_singleton.mp hname]
      exact path.noSlash_name
  have hparts := congrArg (fun s : String => s.toList.splitOn '/') h
  simp only [toList_shown] at hparts
  rw [List.splitOn_intercalate '/' (hslash path) (by simp),
    List.splitOn_intercalate '/' (hslash other) (by simp)] at hparts
  obtain ⟨hpackage, hname⟩ := List.append_inj' hparts rfl
  refine TypePath.ext ?_ (String.toList_injective (List.singleton_inj.mp hname))
  exact List.map_injective_iff.mpr (fun _ _ => String.toList_injective) hpackage

end TypePath

namespace Demangler

/-- A mangled type is shown by its parts. -/
theorem type_eq_shown (path : TypePath) : type path.mangled = path.shown := by
  have hplain : ∀ segment ∈ path.package.map String.toList, ':' ∉ segment := by
    intro segment hsegment
    obtain ⟨segment, hmem, rfl⟩ := List.mem_map.mp hsegment
    exact path.noColon segment hmem
  have hmark : markWord ∉ path.package.map String.toList := by
    intro hword
    obtain ⟨segment, hsegment, hsame⟩ := List.mem_map.mp hword
    rw [markWord, String.toList_inj] at hsame
    exact path.unmarked (hsame ▸ hsegment)
  have hraw : path.mangled.toList =
      [':', ':'].intercalate (path.package.map String.toList) ++ typeMark ++
        (path.name.toList ++ ['_']) := by
    rw [TypePath.mangled, String.toList_append, String.toList_append, String.toList_append,
      String.toList_intercalate, List.append_assoc]
    rfl
  have hne : path.package.map String.toList ≠ [] :=
    fun h => path.package_ne_nil (List.map_eq_nil_iff.mp h)
  have hsplit := splitAtFirst_typeMark hne hplain hmark (path.name.toList ++ ['_'])
  rw [type, hraw, hsplit]
  dsimp only
  rw [slashed_intercalate hplain, dropFinal_concat]
  apply String.toList_injective
  simp [TypePath.shown]

/-- A type without the mark is shown as it is. -/
theorem type_of_not_infix {raw : String} (h : ¬ typeMark <:+: raw.toList) : type raw = raw := by
  rw [type, splitAtFirst_eq_none.mpr h]

/-- Mangled types are shown by their parts and stay apart: no two of them have one name, and a
topic that carries some of them is listed with a name for each. All other types are shown as they
are. -/
theorem type_injective :
    (∀ path : TypePath, type path.mangled = path.shown) ∧
    (∀ path other : TypePath, type path.mangled = type other.mangled → path = other) ∧
    (∀ (g : Graph) (demangleTopic : Demangler) (topic : String) (paths : List TypePath),
      topic ≠ "" → paths.Nodup →
      (∀ path ∈ paths, ∃ id endpoint, g.endpoint? id = some endpoint ∧
        demangleTopic endpoint.topic = topic ∧ endpoint.type = path.mangled) →
      (paths.map TypePath.shown).Nodup ∧
        ∀ path ∈ paths, (g.namesAndTypes demangleTopic type).Carries topic path.shown) ∧
    ∀ raw : String, ¬ typeMark <:+: raw.toList → type raw = raw := by
  refine ⟨type_eq_shown, fun path other h => ?_,
    fun g demangleTopic topic paths hvisible hnodup hcarried => ⟨?_, fun path hpath => ?_⟩,
    fun raw => type_of_not_infix⟩
  · rw [type_eq_shown, type_eq_shown] at h
    exact TypePath.shown_injective h
  · exact hnodup.map TypePath.shown_injective
  · obtain ⟨id, endpoint, hid, htopic, htype⟩ := hcarried path hpath
    refine NamesAndTypes.carries_ofEndpoints.mpr ⟨hvisible, endpoint, ?_, htopic, ?_⟩
    · exact List.mem_map.mpr ⟨(id, endpoint),
        Std.ExtTreeMap.mem_toList_iff_getElem?_eq_some.mpr hid, rfl⟩
    · rw [htype, type_eq_shown]

/-- A topic carries two types whose names hold the mark and differ by an underscore at the end. -/
theorem type_injective_awkward :
    let first : TypePath := ⟨["", "a_"], "dds_::dds_::T", by decide, by decide, by decide,
      by decide, by decide⟩
    let second : TypePath := ⟨["", "a_"], "dds_::dds_::T_", by decide, by decide, by decide,
      by decide, by decide⟩
    let g := (Graph.empty .standard).run [.addEndpoint ⟨.reader, .zero⟩ "rt/t" first.mangled,
      .addEndpoint ⟨.writer, .zero⟩ "rt/t" second.mangled]
    [first, second].Nodup ∧ [first.shown, second.shown].Nodup ∧
      ∀ path ∈ [first, second], (g.namesAndTypes (topic .standard) type).Carries "/t" path.shown := by
  intro first second g
  have hnodup : [first, second].Nodup := by
    simp [first, second]
  have hcarried : ∀ path ∈ [first, second], ∃ id endpoint, g.endpoint? id = some endpoint ∧
      topic .standard endpoint.topic = "/t" ∧ endpoint.type = path.mangled := by
    simp only [List.forall_mem_cons, List.not_mem_nil, false_implies, implies_true, and_true]
    refine ⟨⟨⟨.reader, .zero⟩, ⟨"rt/t", first.mangled, none⟩, ?_, by decide, rfl⟩,
      ⟨⟨.writer, .zero⟩, ⟨"rt/t", second.mangled, none⟩, ?_, by decide, rfl⟩⟩ <;>
    · simp only [g, first, second]
      decide +kernel
  obtain ⟨hshown, hlisted⟩ := type_injective.2.2.1 g _ "/t" _ (by decide) hnodup hcarried
  exact ⟨hnodup, hshown, hlisted⟩

end Demangler

end DiscoveryGraph
