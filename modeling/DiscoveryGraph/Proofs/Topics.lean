import Mathlib.Logic.Basic
import DiscoveryGraph.Graph.View

/-!
# Topics with their types as pairs

A view of topics comes to a set of pairs: which type is carried on which topic. No topic is without
types, so that the pairs determine the view (`ext_carries`). The view of some endpoints carries
exactly the visible pairs among theirs, so that neither their order nor what else is known of them
matters (`ofEndpoints_congr`).
-/

namespace DiscoveryGraph.NamesAndTypes

open Std (ExtTreeMap ExtTreeSet)

/-- The type is carried on the topic. -/
def Carries (view : NamesAndTypes) (topic type : String) : Prop :=
  type ∈ view.getD topic ∅

/-- No topic is without types. -/
def Populated (view : NamesAndTypes) : Prop :=
  ∀ topic : String, view[topic]? ≠ some ∅

variable {view other : NamesAndTypes} {topic type : String} {endpoints endpoints' : List Endpoint}
  {demangleTopic demangleType : Demangler}

theorem carries_iff : view.Carries topic type ↔ ∃ types, view[topic]? = some types ∧ type ∈ types := by
  unfold Carries
  rw [ExtTreeMap.getD_eq_getD_getElem?]
  cases view[topic]? <;> simp

/-- A topic that one view has and the other lacks would be without types. -/
theorem getElem?_eq_none_of_carries (h : view.Populated)
    (hcarries : ∀ type, view.Carries topic type → other.Carries topic type)
    (hnone : other[topic]? = none) : view[topic]? = none := by
  cases hview : view[topic]? with
  | none => rfl
  | some types =>
    have hempty : types = ∅ := by
      apply ExtTreeSet.ext_mem
      intro type
      refine ⟨fun htype => ?_, fun htype => absurd htype ExtTreeSet.not_mem_empty⟩
      obtain ⟨types', hother, -⟩ := carries_iff.mp
        (hcarries type (carries_iff.mpr ⟨types, hview, htype⟩))
      rw [hnone] at hother
      cases hother
    exact absurd (hempty ▸ hview) (h topic)

theorem ext_carries (h : view.Populated) (h' : other.Populated)
    (hcarries : ∀ topic type, view.Carries topic type ↔ other.Carries topic type) :
    view = other := by
  apply ExtTreeMap.ext_getElem?
  intro topic
  have hlacks := getElem?_eq_none_of_carries h fun type => (hcarries topic type).mp
  have hlacks' := getElem?_eq_none_of_carries h' fun type => (hcarries topic type).mpr
  cases hview : view[topic]? with
  | none => exact (hlacks' hview).symm
  | some types =>
    cases hother : other[topic]? with
    | none =>
      rw [hlacks hother] at hview
      cases hview
    | some types' =>
      have hsame : types = types' := by
        apply ExtTreeSet.ext_mem
        intro type
        have hiff := hcarries topic type
        rw [carries_iff, carries_iff, hview, hother] at hiff
        simpa using hiff
      rw [hsame]

/-! ## One more pair -/

theorem populated_record (h : view.Populated) (topic type : String) :
    (view.record topic type).Populated := by
  intro next
  unfold record
  split
  · exact h next
  · rw [ExtTreeMap.getElem?_insert]
    split
    · intro hempty
      have hmem : type ∈ (view.getD topic ∅).insert type := ExtTreeSet.mem_insert_self
      rw [Option.some.inj hempty] at hmem
      exact ExtTreeSet.not_mem_empty hmem
    · exact h next

theorem carries_record (topic type next nextType : String) :
    (view.record topic type).Carries next nextType ↔
      (topic ≠ "" ∧ topic = next ∧ type = nextType) ∨ view.Carries next nextType := by
  unfold record
  by_cases hhidden : topic = ""
  · simp [hhidden]
  · rw [if_neg (by simpa using hhidden)]
    simp only [Carries, ExtTreeMap.getD_insert, Std.LawfulEqCmp.compare_eq_iff_eq]
    split
    · rename_i heq
      subst heq
      simp [hhidden]
    · rename_i hne
      simp [hne]

/-! ## The pairs of some endpoints -/

theorem populated_foldl (h : view.Populated) (endpoints : List Endpoint) :
    (endpoints.foldl (fun view endpoint =>
      view.record (demangleTopic endpoint.topic) (demangleType endpoint.type)) view).Populated := by
  induction endpoints generalizing view with
  | nil => exact h
  | cons endpoint endpoints ih => exact ih (populated_record h _ _)

theorem carries_foldl (endpoints : List Endpoint) :
    (endpoints.foldl (fun view endpoint =>
      view.record (demangleTopic endpoint.topic) (demangleType endpoint.type)) view).Carries
        topic type ↔
      (topic ≠ "" ∧ ∃ endpoint ∈ endpoints,
        demangleTopic endpoint.topic = topic ∧ demangleType endpoint.type = type) ∨
      view.Carries topic type := by
  induction endpoints generalizing view with
  | nil => simp
  | cons endpoint endpoints ih =>
    rw [List.foldl_cons, ih, carries_record]
    simp only [List.mem_cons, exists_eq_or_imp]
    constructor
    · rintro (⟨hvisible, hrest⟩ | ⟨hvisible, rfl, rfl⟩ | hview)
      · exact Or.inl ⟨hvisible, Or.inr hrest⟩
      · exact Or.inl ⟨hvisible, Or.inl ⟨rfl, rfl⟩⟩
      · exact Or.inr hview
    · rintro (⟨hvisible, ⟨rfl, rfl⟩ | hrest⟩ | hview)
      · exact Or.inr (Or.inl ⟨hvisible, rfl, rfl⟩)
      · exact Or.inl ⟨hvisible, hrest⟩
      · exact Or.inr (Or.inr hview)

theorem populated_ofEndpoints (endpoints : List Endpoint) :
    (ofEndpoints demangleTopic demangleType endpoints).Populated :=
  populated_foldl (fun topic => by simp) endpoints

/-- The pairs of a view are those of its endpoints whose topic is not hidden. -/
theorem carries_ofEndpoints :
    (ofEndpoints demangleTopic demangleType endpoints).Carries topic type ↔
      topic ≠ "" ∧ ∃ endpoint ∈ endpoints,
        demangleTopic endpoint.topic = topic ∧ demangleType endpoint.type = type := by
  have hempty : ¬ Carries ∅ topic type := by simp [Carries]
  rw [ofEndpoints, carries_foldl, or_iff_left hempty]

theorem exists_mem_of_ne_empty {types : ExtTreeSet String} (h : types ≠ ∅) :
    ∃ type, type ∈ types := by
  refine Classical.byContradiction fun hnone => h ?_
  rw [ExtTreeSet.eq_empty_iff_forall_not_mem]
  exact fun type htype => hnone ⟨type, htype⟩

/-- A populated view has some types on a topic exactly if these are the types carried on it. -/
theorem getElem?_eq_some_iff (h : view.Populated) {types : ExtTreeSet String} :
    view[topic]? = some types ↔ types ≠ ∅ ∧ ∀ type, type ∈ types ↔ view.Carries topic type := by
  constructor
  · intro hview
    refine ⟨fun hempty => h topic (hempty ▸ hview), fun type => ?_⟩
    simp [carries_iff, hview]
  · rintro ⟨hne, hcarries⟩
    obtain ⟨type, htype⟩ := exists_mem_of_ne_empty hne
    obtain ⟨types', hview, -⟩ := carries_iff.mp ((hcarries type).mp htype)
    rw [hview, Option.some.injEq]
    apply ExtTreeSet.ext_mem
    intro type
    rw [hcarries, carries_iff, hview]
    simp

/-- The view of some endpoints has a topic exactly if it is the visible topic of one of them, and
then with the types of all of these. -/
theorem getElem?_ofEndpoints_eq_some_iff {types : ExtTreeSet String} :
    (ofEndpoints demangleTopic demangleType endpoints)[topic]? = some types ↔
      topic ≠ "" ∧ types ≠ ∅ ∧ ∀ type, type ∈ types ↔ ∃ endpoint ∈ endpoints,
        demangleTopic endpoint.topic = topic ∧ demangleType endpoint.type = type := by
  rw [getElem?_eq_some_iff (populated_ofEndpoints _)]
  simp only [carries_ofEndpoints]
  constructor
  · rintro ⟨hne, hcarries⟩
    obtain ⟨type, htype⟩ := exists_mem_of_ne_empty hne
    have hvisible : topic ≠ "" := ((hcarries type).mp htype).1
    exact ⟨hvisible, hne, fun type => (hcarries type).trans (and_iff_right hvisible)⟩
  · rintro ⟨hvisible, hne, hcarries⟩
    exact ⟨hne, fun type => (hcarries type).trans (and_iff_right hvisible).symm⟩

/-- Endpoints with the same topics and types give the same view. -/
theorem ofEndpoints_congr
    (h : ∀ topic type, (∃ endpoint ∈ endpoints, endpoint.topic = topic ∧ endpoint.type = type) ↔
      ∃ endpoint ∈ endpoints', endpoint.topic = topic ∧ endpoint.type = type) :
    ofEndpoints demangleTopic demangleType endpoints =
      ofEndpoints demangleTopic demangleType endpoints' := by
  have hpairs : ∀ (endpoints : List Endpoint) (topic type : String),
      (∃ endpoint ∈ endpoints,
        demangleTopic endpoint.topic = topic ∧ demangleType endpoint.type = type) ↔
      ∃ rawTopic rawType,
        (∃ endpoint ∈ endpoints, endpoint.topic = rawTopic ∧ endpoint.type = rawType) ∧
          demangleTopic rawTopic = topic ∧ demangleType rawType = type := by
    intro endpoints topic type
    constructor
    · rintro ⟨endpoint, hmem, htopic, htype⟩
      exact ⟨_, _, ⟨endpoint, hmem, rfl, rfl⟩, htopic, htype⟩
    · rintro ⟨_, _, ⟨endpoint, hmem, rfl, rfl⟩, htopic, htype⟩
      exact ⟨endpoint, hmem, htopic, htype⟩
  refine ext_carries (populated_ofEndpoints _) (populated_ofEndpoints _) fun topic type => ?_
  rw [carries_ofEndpoints, carries_ofEndpoints, hpairs, hpairs]
  simp only [h]

end DiscoveryGraph.NamesAndTypes
