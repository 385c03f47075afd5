import DiscoveryGraph.Proofs.Topics

/-!
# Which topics are visible

A topic is visible if one of the configured prefixes marks it: the prefix stands at the beginning
of the name, and a slash behind it. Which prefix is found first decides how the name is shown, but
not whether it is. Two prefixes that mark one name differ by an extension that begins at a slash;
if there are no such prefixes, their order makes no difference at all.

* `afterMark?_eq_some_iff`: what one prefix makes of a name.
* `topic_eq_empty_iff`: the hidden names.
* `afterMark?_congr`: when all prefixes that mark a name make the same of it.
* `visibility_perm`: the order of the prefixes.
-/

namespace DiscoveryGraph.Demangler

/-- The prefix marks the name: a slash stands behind it. -/
def Marks (mark raw : String) : Prop :=
  ∃ rest, raw = mark ++ "/" ++ rest

variable {raw mark other : String} {rest rest' : List Char} {prefs prefs' : DemanglePrefs}

theorem marks_iff : Marks mark raw ↔ ∃ tail, raw.toList = mark.toList ++ '/' :: tail := by
  constructor
  · rintro ⟨rest, rfl⟩
    exact ⟨rest.toList, by simp⟩
  · rintro ⟨tail, htail⟩
    refine ⟨String.ofList tail, String.toList_injective ?_⟩
    simp [htail]

/-! ## One prefix -/

theorem afterMark?_eq_some_iff {raw mark : List Char} :
    afterMark? raw mark = some rest ↔ raw = mark ++ rest ∧ rest.head? = some '/' := by
  unfold afterMark?
  constructor
  · intro h
    split at h
    · rename_i hmarks
      obtain ⟨hmark, hslash⟩ := Bool.and_eq_true_iff.mp hmarks
      obtain ⟨tail, rfl⟩ := List.isPrefixOf_iff_prefix.mp hmark
      rw [List.drop_left, Option.some.injEq] at h
      rw [List.drop_left, beq_iff_eq] at hslash
      exact ⟨by rw [h], h ▸ hslash⟩
    · cases h
  · rintro ⟨rfl, hslash⟩
    simp [hslash]

theorem isSome_afterMark?_iff :
    (afterMark? raw.toList mark.toList).isSome ↔ Marks mark raw := by
  rw [Option.isSome_iff_exists, marks_iff]
  simp only [afterMark?_eq_some_iff, List.head?_eq_some_iff]
  constructor
  · rintro ⟨_, hraw, tail, rfl⟩
    exact ⟨tail, hraw⟩
  · rintro ⟨tail, hraw⟩
    exact ⟨_, hraw, tail, rfl⟩

/-- Of two prefixes that mark one name, one marks the other, or they are the same. -/
theorem eq_or_marks_of_marks (h : Marks mark raw) (h' : Marks other raw) :
    mark = other ∨ Marks mark other ∨ Marks other mark := by
  obtain ⟨tail, htail⟩ := marks_iff.mp h
  obtain ⟨tail', htail'⟩ := marks_iff.mp h'
  rw [htail] at htail'
  rcases List.append_eq_append_iff.mp htail' with ⟨more, hother, hmore⟩ | ⟨more, hmark, hmore⟩
  · cases more with
    | nil =>
      rw [List.append_nil] at hother
      exact .inl (String.toList_injective hother.symm)
    | cons c more =>
      obtain ⟨rfl, -⟩ := List.cons.inj hmore
      exact .inr (.inl (marks_iff.mpr ⟨more, hother⟩))
  · cases more with
    | nil =>
      rw [List.append_nil] at hmark
      exact .inl (String.toList_injective hmark)
    | cons c more =>
      obtain ⟨rfl, -⟩ := List.cons.inj hmore
      exact .inr (.inr (marks_iff.mpr ⟨more, hmark⟩))

/-- Prefixes none of which marks another leave the same of a name. -/
theorem afterMark?_congr (hmark : ¬ Marks mark other) (hother : ¬ Marks other mark)
    (h : afterMark? raw.toList mark.toList = some rest)
    (h' : afterMark? raw.toList other.toList = some rest') : rest = rest' := by
  have hmarks : Marks mark raw := isSome_afterMark?_iff.mp (Option.isSome_of_eq_some h)
  have hmarks' : Marks other raw := isSome_afterMark?_iff.mp (Option.isSome_of_eq_some h')
  obtain rfl : mark = other :=
    (eq_or_marks_of_marks hmarks hmarks').resolve_right (not_or.mpr ⟨hmark, hother⟩)
  rw [h] at h'
  exact Option.some.inj h'

/-! ## All prefixes -/

/-- What is left of a name behind the first prefix that marks it. -/
def afterFirst? (prefixes : List String) (raw : String) : Option (List Char) :=
  prefixes.findSome? fun mark => afterMark? raw.toList mark.toList

theorem topic_eq (prefs : DemanglePrefs) (raw : String) : topic prefs raw =
    match afterFirst? prefs.topicPrefixes raw with
    | some rest => String.ofList rest
    | none => if prefs.hideUnprefixed then "" else raw :=
  rfl

theorem isSome_afterFirst?_iff {prefixes : List String} :
    (afterFirst? prefixes raw).isSome ↔ ∃ mark ∈ prefixes, Marks mark raw := by
  rw [afterFirst?, List.findSome?_isSome_iff]
  simp only [isSome_afterMark?_iff]

theorem head?_of_afterFirst? {prefixes : List String} (h : afterFirst? prefixes raw = some rest) :
    rest.head? = some '/' := by
  obtain ⟨mark, -, hmark⟩ := List.exists_of_findSome?_eq_some h
  exact (afterMark?_eq_some_iff.mp hmark).2

/-- A name is hidden if no prefix marks it, and names without a prefix are hidden or the name is
empty anyway. -/
theorem topic_eq_empty_iff : topic prefs raw = "" ↔
    (¬ ∃ mark ∈ prefs.topicPrefixes, Marks mark raw) ∧
      (prefs.hideUnprefixed = true ∨ raw = "") := by
  rw [← isSome_afterFirst?_iff, topic_eq]
  cases hafter : afterFirst? prefs.topicPrefixes raw with
  | none => cases prefs.hideUnprefixed <;> simp
  | some rest =>
    have hhead := head?_of_afterFirst? hafter
    have hne : rest ≠ [] := by
      rintro rfl
      cases hhead
    simp [hne]

/-- With unmarked names hidden, what is shown of a visible name begins with a slash. -/
theorem exists_of_topic_ne_empty (hhide : prefs.hideUnprefixed = true)
    (h : topic prefs raw ≠ "") : ∃ rest, topic prefs raw = "/" ++ rest := by
  rw [topic_eq] at h ⊢
  cases hafter : afterFirst? prefs.topicPrefixes raw with
  | none => simp [hafter, hhide] at h
  | some rest =>
    obtain ⟨tail, rfl⟩ := List.head?_eq_some_iff.mp (head?_of_afterFirst? hafter)
    exact ⟨String.ofList tail, String.toList_injective (by simp)⟩

theorem afterFirst?_perm {prefixes prefixes' : List String} (hperm : prefixes.Perm prefixes')
    (hfree : ∀ mark ∈ prefixes, ∀ other ∈ prefixes, ¬ Marks mark other) (raw : String) :
    afterFirst? prefixes raw = afterFirst? prefixes' raw := by
  have hsome : (afterFirst? prefixes raw).isSome ↔ (afterFirst? prefixes' raw).isSome := by
    rw [isSome_afterFirst?_iff, isSome_afterFirst?_iff]
    simp only [hperm.mem_iff]
  cases h : afterFirst? prefixes raw with
  | none =>
    cases h' : afterFirst? prefixes' raw with
    | none => rfl
    | some rest => simp [h, h'] at hsome
  | some rest =>
    cases h' : afterFirst? prefixes' raw with
    | none => simp [h, h'] at hsome
    | some rest' =>
      obtain ⟨mark, hmark, hrest⟩ := List.exists_of_findSome?_eq_some h
      obtain ⟨other, hother, hrest'⟩ := List.exists_of_findSome?_eq_some h'
      have hother := hperm.mem_iff.mpr hother
      rw [afterMark?_congr (hfree _ hmark _ hother) (hfree _ hother _ hmark) hrest hrest']

/-- The order of the prefixes makes no difference for which names are hidden. With unmarked names
hidden, exactly the marked names are visible, and every listed topic begins with a slash. As long
as no prefix marks another one, the order makes no difference for how names are shown either. -/
theorem visibility_perm {prefixes prefixes' : List String} (hperm : prefixes.Perm prefixes')
    (hide : Bool) :
    (∀ raw, topic ⟨prefixes, hide⟩ raw = "" ↔ topic ⟨prefixes', hide⟩ raw = "") ∧
    (hide = true →
      (∀ raw, topic ⟨prefixes, hide⟩ raw ≠ "" ↔ ∃ mark ∈ prefixes, Marks mark raw) ∧
      ∀ (g : Graph) (demangleType : Demangler), ∀ shown ∈
        g.namesAndTypes (topic ⟨prefixes, hide⟩) demangleType, ∃ rest, shown = "/" ++ rest) ∧
    ((∀ mark ∈ prefixes, ∀ other ∈ prefixes, ¬ Marks mark other) →
      ∀ raw, topic ⟨prefixes, hide⟩ raw = topic ⟨prefixes', hide⟩ raw) := by
  refine ⟨fun raw => ?_, fun hhide => ⟨fun raw => ?_, fun g demangleType shown hshown => ?_⟩,
    fun hfree raw => ?_⟩
  · rw [topic_eq_empty_iff, topic_eq_empty_iff]
    simp only [hperm.mem_iff]
  · rw [Ne, topic_eq_empty_iff]
    simp [hhide]
  · obtain ⟨types, htypes⟩ := Option.isSome_iff_exists.mp
      (Std.ExtTreeMap.isSome_getElem?_iff_mem.mpr hshown)
    obtain ⟨hvisible, hne, hcarries⟩ := NamesAndTypes.getElem?_ofEndpoints_eq_some_iff.mp htypes
    obtain ⟨type, htype⟩ := NamesAndTypes.exists_mem_of_ne_empty hne
    obtain ⟨endpoint, -, rfl, -⟩ := (hcarries type).mp htype
    exact exists_of_topic_ne_empty hhide hvisible
  · rw [topic_eq, topic_eq, afterFirst?_perm hperm hfree]

/-- These prefixes overlap, but none of them marks another, so their order makes no difference. -/
theorem visibility_perm_overlapping :
    ["rt", "r", ""].Perm ["", "rt", "r"] ∧
      (∀ raw, topic ⟨["rt", "r", ""], true⟩ raw ≠ "" ↔
        ∃ mark ∈ ["rt", "r", ""], Marks mark raw) ∧
      ∀ raw, topic ⟨["rt", "r", ""], true⟩ raw = topic ⟨["", "rt", "r"], true⟩ raw := by
  have hperm : ["rt", "r", ""].Perm ["", "rt", "r"] := by decide
  have hfree : ∀ mark ∈ ["rt", "r", ""], ∀ other ∈ ["rt", "r", ""], ¬ Marks mark other := by
    simp only [← isSome_afterMark?_iff]
    decide
  obtain ⟨-, hvisible, hsame⟩ := visibility_perm hperm true
  exact ⟨hperm, (hvisible rfl).1, hsame hfree⟩

/-- A prefix that marks another one can be found before it or behind it. -/
example : topic ⟨["rt", "rt/a"], true⟩ "rt/a/b" = "/a/b" ∧
    topic ⟨["rt/a", "rt"], true⟩ "rt/a/b" = "/b" := by
  decide

end DiscoveryGraph.Demangler
