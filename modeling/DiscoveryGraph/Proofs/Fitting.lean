import DiscoveryGraph.Proofs.Escapes
import DiscoveryGraph.Proofs.Skipping

/-!
# Values that fit, and values that do not

A reader of a known type takes all octets of a value, or it fails, and it fails if the value is of
another kind. A record may be written as an object, or as a list of its values.

* `Judges`: what a reader makes of any value.
* `judges_boolean`, `judges_texts`: truth values and lists of texts.
* `settles_lenientRecord`, `settles_positional`: the two forms of a record.
* `settles_entry`: one member of an object.
-/

namespace DiscoveryGraph.Json.Reader

variable {α σ : Type} {kind : Kind} {octets rest w : Bytes} {may : Prop} {parts : List Bytes}

/-! ## Scalars -/

theorem fails_unexpected (b : UInt8) (expected : String) :
    Fails (unexpected b expected : Reader α) := by
  refine .placed ?_
  have hwrong : ∀ found, Fails (reject (.wrongType found expected) : Reader α) :=
    fun found => .reject _
  dsimp only
  split_ifs
  · exact .bind _ fun _ => .bind _ fun _ => hwrong _
  · exact .bind _ fun _ => .bind _ fun _ => hwrong _
  · exact .bind _ fun _ => .bind _ fun _ => hwrong _
  · exact .bind _ fun _ => .bind _ fun _ => hwrong _
  · exact .bind _ fun _ => hwrong _
  · exact .bind _ fun _ => .bind _ fun _ => hwrong _
  · exact hwrong _
  · exact hwrong _
  · exact .failAhead _

/-- A value is refused for its first octet. -/
theorem refuses_value {read : UInt8 → Reader α} (h : Item kind octets) (hw : Blank w)
    (hread : ∀ b, kind.Starts b → Fails (read b)) :
    Settles (value read) (w ++ octets) rest True fun _ => False := by
  obtain ⟨b, more, rfl, hb⟩ := h.exists_cons
  exact .value hw hb.plain.1 ((hread b hb).settles trivial)

/-- A truth value is a boolean. -/
theorem settles_boolean (h : Item kind octets) (hw : Blank w) :
    Settles boolean (w ++ octets) rest True fun _ => kind = .boolean := by
  by_cases hkind : kind = .boolean
  · subst hkind
    cases h with
    | boolean b => exact (takes_boolean hw b).settles.mono fun _ _ => rfl
  · refine (refuses_value h hw fun b hb => ?_).mono fun _ hfalse => hfalse.elim
    have htrue : Kind.boolean.Starts 0x74 := .inl rfl
    have hfalse : Kind.boolean.Starts 0x66 := .inr rfl
    rw [if_neg (hb.ne htrue hkind), if_neg (hb.ne hfalse hkind)]
    exact fails_unexpected b _

/-- Every spelling of a text is read as this text. -/
theorem takes_text {s : String} (h : SpellsText s octets) (hw : Blank w) :
    Takes text (w ++ octets) s := by
  obtain ⟨more, rfl, htext⟩ := takes_spelledText h
  exact .value hw rfl (.placed (.bind_cons (.advance 0x22) (htext.map id)))

/-- A text is a string. -/
theorem settles_text (h : Item kind octets) (hw : Blank w) :
    Settles text (w ++ octets) rest True fun _ => kind = .string := by
  by_cases hkind : kind = .string
  · subst hkind
    cases h with
    | string h =>
      obtain ⟨more, rfl, htext⟩ := settles_textOfString h
      exact .value hw rfl (.placed (.advance ((htext rest).map id fun _ _ => rfl)))
  · refine (refuses_value h hw fun b hb => ?_).mono fun _ hfalse => hfalse.elim
    have hquote : Kind.string.Starts 0x22 := rfl
    rw [if_neg (hb.ne hquote hkind)]
    exact fails_unexpected b _

/-! ## Lists -/

theorem settles_list {element : Reader α} {post : List α → Prop} (hw : Blank w)
    (h : Encloses 0x5B 0x5D parts octets)
    (hstarts : ∀ part ∈ parts, ∃ octet more, part = octet :: more ∧ StartsElement octet)
    (hleads : Leads (fun xs => return xs ++ [← element]) may post parts []) :
    Settles (list element) (w ++ octets) rest may post := by
  obtain ⟨content, rfl, hcontent⟩ := settles_enclosed h (loops_elements _) separates_hasElement
    (by decide) hstarts hleads
  exact .value hw rfl (.placed (.advance (.closedBy (hcontent rest) takes_listEnd)))

theorem forall_right {γ δ : Type} {related : γ → δ → Prop} {holds : δ → Prop} {xs : List γ}
    {ys : List δ} (h : List.Forall₂ related xs ys) (hy : ∀ x y, related x y → holds y) :
    ∀ y ∈ ys, holds y := by
  induction h with
  | nil => exact fun y hmem => absurd hmem List.not_mem_nil
  | cons hxy _ ih => exact List.forall_mem_cons.mpr ⟨hy _ _ hxy, ih⟩

theorem startsElement_item (h : Item kind octets) :
    ∃ octet more, octets = octet :: more ∧ StartsElement octet := by
  obtain ⟨b, more, heq, hb⟩ := h.exists_cons
  exact ⟨b, more, heq, hb.plain.1, hb.plain.2.1⟩

theorem leads_texts {all : List String} (h : List.Forall₂ SpellsText all parts)
    (done : List String) :
    Leads (fun xs => return xs ++ [← text]) may (· = done ++ all) parts done := by
  induction h generalizing done with
  | nil => exact (List.append_nil done).symm
  | @cons s part all parts hpart _ ih =>
    intro rest _
    refine (takes_text hpart blank_nil).settles.map _ fun read hread => ?_
    have hnext := ih (done ++ [s])
    rw [List.append_assoc] at hnext
    rw [hread]
    exact hnext

/-- Every spelling of a list of texts is read as these texts. -/
theorem settles_texts {all : List String} (h : SpellsList SpellsText all octets) (hw : Blank w) :
    Settles (list text) (w ++ octets) rest may (· = all) := by
  obtain ⟨parts, hparts, hencloses⟩ := h
  refine settles_list hw hencloses (forall_right hparts fun s part hpart => ?_)
    (leads_texts hparts [])
  obtain ⟨more, rfl⟩ := hpart.exists_cons
  exact ⟨0x22, more, rfl, rfl, by decide⟩

theorem leads_strings {parts : List (Kind × Bytes)} (h : ∀ part ∈ parts, Item part.1 part.2)
    (done : List String) :
    Leads (fun xs => return xs ++ [← text]) True (fun _ => ∀ part ∈ parts, part.1 = .string)
      (parts.map Prod.snd) done := by
  induction parts generalizing done with
  | nil => exact fun _ hpart => absurd hpart List.not_mem_nil
  | cons part parts ih =>
    obtain ⟨hpart, hparts⟩ := List.forall_mem_cons.mp h
    intro rest _
    refine (settles_text hpart blank_nil).map _ fun read hkind => ?_
    refine Leads.mono (fun _ hothers => ?_) (ih hparts (done ++ [read]))
    exact List.forall_mem_cons.mpr ⟨hkind, hothers⟩

/-- Of any value, the reader takes all octets or it fails, and it fails if the value is flawed. -/
def Judges (r : Reader α) (flaw : Bytes → Prop) : Prop :=
  ∀ {kind octets}, Item kind octets → ∀ {w}, Blank w → ∀ rest, Ends rest →
    Settles r (w ++ octets) rest True fun _ => ¬ flaw octets

theorem judges_boolean : Judges boolean (Mistyped [.boolean]) := by
  intro kind octets h w hw rest _
  by_cases hflaw : Mistyped [.boolean] octets
  · obtain ⟨other, hother, hitem⟩ := hflaw
    refine (settles_boolean hitem hw).mono fun _ hkind => ?_
    exact absurd (List.mem_singleton.mpr hkind) hother
  · exact (settles_boolean h hw).mono fun _ _ => hflaw

theorem judges_texts :
    Judges (list text) fun octets => Mistyped [.list] octets ∨ MistypedList .string octets := by
  intro kind octets h w hw rest _
  have hrefuse : ∀ {kind}, Item kind octets → kind ≠ .list →
      Settles (list text) (w ++ octets) rest True fun _ => False := by
    intro kind h hkind
    refine refuses_value h hw fun b hb => ?_
    have hbracket : Kind.list.Starts 0x5B := rfl
    rw [if_neg (hb.ne hbracket hkind)]
    exact fails_unexpected b _
  have hlist : ∀ parts : List (Kind × Bytes), (∀ part ∈ parts, Item part.1 part.2) →
      Encloses 0x5B 0x5D (parts.map Prod.snd) octets →
      Settles (list text) (w ++ octets) rest True fun _ => ∀ part ∈ parts, part.1 = .string := by
    intro parts hparts h
    refine settles_list hw h (fun part hpart => ?_) (leads_strings hparts [])
    obtain ⟨item, hitem, rfl⟩ := List.mem_map.mp hpart
    exact startsElement_item (hparts item hitem)
  by_cases hflaw : Mistyped [.list] octets ∨ MistypedList .string octets
  · rcases hflaw with ⟨other, hother, hitem⟩ | ⟨parts, hparts, hencloses, part, hpart, hkind⟩
    · exact (hrefuse hitem fun h => hother (List.mem_singleton.mpr h)).mono
        fun _ hfalse => hfalse.elim
    · exact (hlist parts hparts hencloses).mono fun _ hall => absurd (hall part hpart) hkind
  · have hkind : kind = .list := by
      by_contra hkind
      exact hflaw (.inl ⟨kind, fun hmem => hkind (List.mem_singleton.mp hmem), h⟩)
    subst hkind
    cases h with
    | list hparts hencloses => exact (hlist _ hparts hencloses).mono fun _ _ => hflaw

/-! ## Records -/

section Records

variable {name : String} {fields : List (Field Reader σ)} {blank : σ} {finish : σ → α}

/-- A record that is written as an object is read member by member. -/
theorem settles_lenientRecord {post : α → Prop} (hw : Blank w) (h : Encloses 0x7B 0x7D parts octets)
    (hstarts : ∀ part ∈ parts, ∃ more, part = 0x22 :: more)
    (hleads : Leads (entry fields) may (fun d => post (finish d)) parts blank) :
    Settles (lenientRecord name fields blank finish) (w ++ octets) rest may post := by
  obtain ⟨content, rfl, hcontent⟩ := settles_enclosed h (loops_entries fields) separates_hasEntry
    (by decide) (fun part hpart => by
      obtain ⟨more, rfl⟩ := hstarts part hpart
      exact ⟨0x22, more, rfl, rfl⟩) hleads
  have hread := (hcontent rest).map finish fun _ hpost => hpost
  rw [bind_assoc] at hread
  exact .value hw rfl (.placed (.advance (.closedBy hread takes_objectEnd)))

/-- A value of another kind is no record. -/
theorem refuses_lenientRecord (h : Mistyped [.object, .list] octets) (hw : Blank w) :
    Settles (lenientRecord name fields blank finish) (w ++ octets) rest True fun _ => False := by
  obtain ⟨kind, hkind, hitem⟩ := h
  have hlist : Kind.list.Starts 0x5B := rfl
  have hobject : Kind.object.Starts 0x7B := rfl
  refine refuses_value hitem hw fun b hb => ?_
  rw [if_neg (hb.ne hlist fun h => hkind (by simp [h])),
    if_neg (hb.ne hobject fun h => hkind (by simp [h]))]
  exact fails_unexpected b _

/-! ### Lists of the values -/

/-- A list does not end in front of anything but its bracket. -/
theorem refuses_listEnd {b : UInt8} {more : Bytes} (hw : Blank w) (hb : isBlank b = false)
    (hne : b ≠ 0x5D) : Settles listEnd (w ++ b :: more) rest True fun _ => False := by
  refine .peeked hw rfl hb (Fails.settles ?_ trivial)
  dsimp only
  rw [if_neg hne]
  split_ifs
  · refine .bind _ fun _ => .bind _ fun _ => ?_
    split_ifs <;> exact .failAhead _
  · exact .failAhead _

theorem settles_listEnd (hw : Blank w) :
    Settles listEnd (w ++ [0x5D]) rest may fun _ => True :=
  .peeked hw rfl rfl ((Takes.advance 0x5D).settles.mono fun _ _ => trivial)

/-- What is done behind the values that were read. -/
def ended (finish : σ → α) (d : σ) : Reader α := do
  let a ← checked (.ok (finish d))
  listEnd
  return a

theorem settles_ended (hw : Blank w) (d : σ) :
    Settles (ended finish d) (w ++ [0x5D]) rest may fun _ => True :=
  (settles_listEnd hw).bind_nil fun _ _ => .pure trivial

theorem refuses_ended {b : UInt8} {more : Bytes} (hw : Blank w) (hb : isBlank b = false)
    (hne : b ≠ 0x5D) (d : σ) :
    Settles (ended finish d) (w ++ b :: more) rest True fun _ => True := by
  have hrefuse : Settles (do listEnd; return finish d) (w ++ b :: more) rest True fun _ => True :=
    (refuses_listEnd hw hb hne).bind_nil fun _ hfalse => hfalse.elim
  exact hrefuse

/-- Where no further value follows, the list may end. -/
theorem settles_lastValue (hw : Blank w) (count : Nat) (d : σ) :
    Settles (do ended finish (← values (fun _ => none) fields count d)) (w ++ [0x5D]) rest True
      fun _ => True := by
  cases fields with
  | nil => exact settles_ended hw d
  | cons field fields =>
    rw [values, bind_assoc]
    have hlast : Settles (hasElement (count = 0)) w ([0x5D] ++ rest) True (· = false) :=
      separates_hasElement.settles_last _ hw rest
    refine hlast.bind fun follows hfollows => ?_
    rw [hfollows]
    exact settles_ended blank_nil d

/-- What comes next in a list is a comma or a value. -/
theorem Front.exists_next {first : Bool} {front : Bytes} (hfront : Front first front)
    (h : Listed parts octets) (hparts : ∀ part ∈ parts, ∃ kind, Item kind part) :
    ∃ w b more, Blank w ∧ isBlank b = false ∧ b ≠ 0x5D ∧ front ++ octets = w ++ b :: more := by
  cases hfront with
  | first =>
    obtain ⟨w, hw, part, hpart, tail, rfl, -⟩ := h.trim
    obtain ⟨kind, hitem⟩ := hparts part hpart
    obtain ⟨b, more, rfl, hb⟩ := startsElement_item hitem
    exact ⟨w, b, more ++ tail, hw, hb.1, hb.2, rfl⟩
  | @other w hw =>
    refine ⟨w, 0x2C, octets, hw, rfl, by decide, ?_⟩
    rw [List.append_assoc, List.singleton_append]

/-- Where there is no further field, no value may follow. -/
theorem settles_noField (h : Listed parts octets) (hparts : ∀ part ∈ parts, ∃ kind, Item kind part)
    {first : Bool} {front : Bytes} (hfront : Front first front) (d : σ) :
    Settles (ended finish d) (front ++ octets ++ [0x5D]) rest True fun _ => True := by
  obtain ⟨w, b, more, hw, hb, hne, heq⟩ := hfront.exists_next h hparts
  rw [heq, List.append_assoc, List.cons_append]
  exact refuses_ended hw hb hne d

/-- A value of the list goes into the next field. -/
theorem settles_nextValue {field : Field Reader σ} {d : σ} {part tail front : Bytes} {count : Nat}
    (hfront : Front (count = 0) front) (hw : Blank w) (hpart : Item kind part)
    (hfield : Judges (field.read d) fun _ => False) (hends : Ends (tail ++ rest))
    (hmore : ∀ d', Settles (do ended finish (← values (fun _ => none) fields (count + 1) d')) tail
      rest True fun _ => True) :
    Settles (do ended finish (← values (fun _ => none) (field :: fields) count d))
      ((front ++ w) ++ (part ++ tail)) rest True fun _ => True := by
  have hfollows : Settles (hasElement (count = 0)) (front ++ w) (part ++ tail ++ rest) True
      (· = true) := by
    obtain ⟨b, more, rfl, hb⟩ := startsElement_item hpart
    exact separates_hasElement.settles_part hfront hw hb _
  rw [values, bind_assoc]
  refine hfollows.bind fun follows htrue => ?_
  rw [htrue, if_pos rfl, bind_assoc]
  exact (hfield hpart blank_nil _ hends).bind fun d' _ => hmore d'

/-- Values are read until there are no more fields, or no more values. -/
theorem settles_values (h : Listed parts octets)
    (hparts : ∀ part ∈ parts, ∃ kind, Item kind part)
    (hfields : ∀ field ∈ fields, ∀ d, Judges (field.read d) fun _ => False)
    {count : Nat} {front : Bytes} (hfront : Front (count = 0) front) (d : σ) :
    Settles (do ended finish (← values (fun _ => none) fields count d))
      (front ++ octets ++ [0x5D]) rest True fun _ => True := by
  induction h generalizing fields count front d with
  | @last part w w' hw hw' =>
    cases fields with
    | nil => exact settles_noField (.last hw hw') hparts hfront d
    | cons field fields =>
      obtain ⟨kind, hitem⟩ := hparts part List.mem_cons_self
      obtain ⟨hfield, -⟩ := List.forall_mem_cons.mp hfields
      have hends : Ends (w' ++ [0x5D] ++ rest) := by
        rw [List.append_assoc]
        exact .append hw' (by decide) _
      have hmore : ∀ d', Settles (do ended finish (← values (fun _ => none) fields (count + 1) d'))
          (w' ++ [0x5D]) rest True fun _ => True :=
        fun d' => settles_lastValue hw' (count + 1) d'
      have hnext := settles_nextValue hfront hw hitem (hfield d) hends hmore
      simpa only [List.append_assoc] using hnext
  | @cons part w w' bs parts hw hw' hlisted ih =>
    cases fields with
    | nil => exact settles_noField (.cons hw hw' hlisted) hparts hfront d
    | cons field fields =>
      obtain ⟨⟨kind, hitem⟩, hothers⟩ := List.forall_mem_cons.mp hparts
      obtain ⟨hfield, hfields⟩ := List.forall_mem_cons.mp hfields
      have hends : Ends (w' ++ [0x2C] ++ bs ++ [0x5D] ++ rest) := by
        simp only [List.append_assoc]
        exact .append hw' (by decide) _
      have hcount : Front (count + 1 = 0) (w' ++ [0x2C]) := .other hw'
      have hnext := settles_nextValue hfront hw hitem (hfield d) hends fun d' =>
        ih hothers hfields hcount d'
      simpa only [List.append_assoc, List.singleton_append] using hnext

/-- A list may stand for a record. -/
theorem settles_positional (hw : Blank w) (h : Encloses 0x5B 0x5D parts octets)
    (hparts : ∀ part ∈ parts, ∃ kind, Item kind part)
    (hfields : ∀ field ∈ fields, ∀ d, Judges (field.read d) fun _ => False) :
    Settles (lenientRecord name fields blank finish) (w ++ octets) rest True fun _ => True := by
  obtain ⟨content, rfl, hcontent⟩ : ∃ content, octets = 0x5B :: content ∧
      Settles (do ended finish (← values (fun _ => none) fields 0 blank)) content rest True
        fun _ => True := by
    cases h with
    | empty hw => exact ⟨_, rfl, settles_lastValue hw 0 blank⟩
    | listed h =>
      have hfront : Front (0 = 0) [] := .first
      exact ⟨_, rfl, settles_values h hparts hfields hfront blank⟩
  refine .value hw rfl (.placed (.advance (.closedBy_of_bind ?_)))
  rw [bind_assoc]
  exact hcontent

/-! ### Objects -/

/-- One member of an object. -/
theorem settles_entry {key value part : Bytes} {named : String → Prop} {d : σ} {post : σ → Prop}
    (hkey : ∃ more, key = 0x22 :: more ∧ ∀ rest, Settles textOfString more rest may named)
    (hpart : SpellsMember key value part) (hrest : Ends rest)
    (hunknown : ∀ name, named name → name ∉ fields.map (·.name) →
      post d ∧ ∃ kind, Item kind value)
    (htwice : ∀ field ∈ fields, named field.name → field.present d = true → may)
    (hknown : ∀ field ∈ fields, named field.name → field.present d = false →
      ∀ w, Blank w → Settles (field.read d) (w ++ value) rest may post) :
    Settles (entry fields d) part rest may post := by
  obtain ⟨more, rfl, htext⟩ := hkey
  obtain ⟨w, w', hw, hw', rfl⟩ := hpart
  refine .advance (.bind (htext _) fun name hname => ?_)
  have hcolon : w ++ 0x3A :: (w' ++ value) = (w ++ [0x3A]) ++ (w' ++ value) := by
    rw [List.append_assoc, List.singleton_append]
  rw [hcolon]
  cases hfind : fields.find? (·.name = name) with
  | none =>
    have hother : name ∉ fields.map (·.name) := by
      intro hmem
      obtain ⟨field, hfield, hsame⟩ := List.mem_map.mp hmem
      exact List.find?_eq_none.mp hfind field hfield (decide_eq_true hsame)
    obtain ⟨hpost, kind, hitem⟩ := hunknown name hname hother
    refine .after (takes_colon hw) ?_
    exact ((settles_ignored hitem hw' hrest).weaken).bind_nil fun _ _ => .pure hpost
  | some field =>
    have hfield := List.mem_of_find?_eq_some hfind
    have hsame := List.find?_some hfind
    simp only [decide_eq_true_eq] at hsame
    subst hsame
    dsimp only
    split_ifs with hpresent
    · exact (Fails.reject _).settles (htwice field hfield hname hpresent)
    · refine .after (takes_colon hw) ?_
      exact hknown field hfield hname (Bool.eq_false_iff.mpr hpresent) w' hw'

end Records

end DiscoveryGraph.Json.Reader
