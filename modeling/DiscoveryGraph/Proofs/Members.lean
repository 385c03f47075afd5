import DiscoveryGraph.Proofs.Fitting
import Mathlib.Data.List.Nodup

/-!
# Members of objects

The members of an object are read in any order, and those that are no fields are skipped. What one
member does to the draft of a record carries over to all of them by induction, along which it is
counted how often a field was there, or remembered which fields are still to come.

* `judges_lenientRecord`: a record in which something is flawed, or a field is there twice, is not
  read.
* `settles_given`: a record is completed from the fields that are given.
* `Places.heeds`, `Places.settles`: both, for records of two fields.
-/

namespace DiscoveryGraph.Json

/-! ## Members -/

theorem valuesOf_cons_self (name : String) (value : Bytes) (entries : List (String × Bytes)) :
    valuesOf name ((name, value) :: entries) = value :: valuesOf name entries := by
  simp [valuesOf]

theorem valuesOf_cons_of_ne {name : String} {entry : String × Bytes} (h : entry.1 ≠ name)
    (entries : List (String × Bytes)) :
    valuesOf name (entry :: entries) = valuesOf name entries := by
  simp [valuesOf, h]

theorem Given.map {α β : Type} {written : α → Bytes → Prop} {name : String}
    {entries : List (String × Bytes)} {a : Option α} (f : α → β)
    (h : Given written name entries a) :
    Given (fun b value => ∃ a, written a value ∧ f a = b) name entries (a.map f) := by
  rw [Given, Option.toList_map]
  exact List.forall₂_map_left_iff.mpr (h.imp fun a _ ha => ⟨a, ha, rfl⟩)

namespace Reader

variable {α σ : Type} {octets rest w : Bytes} {parts : List Bytes}
  {fields : List (Field Reader σ)} {entries : List (String × Bytes)}

theorem exists_key {may : Prop} {name : String} {key : Bytes} (h : SpellsText name key) :
    ∃ more, key = 0x22 :: more ∧ ∀ rest, Settles textOfString more rest may (· = name) := by
  obtain ⟨more, rfl, htext⟩ := takes_spelledText h
  exact ⟨more, rfl, fun _ => htext.settles⟩

/-! ## Objects are values -/

theorem exists_members (h : List.Forall₂ SpellsEntry entries parts)
    (hvalues : ∀ entry ∈ entries, ∃ kind, Item kind entry.2) :
    ∃ members : List Member, (∀ member ∈ members, SpellsString member.key ∧
      Item member.kind member.value ∧ SpellsMember member.key member.value member.octets) ∧
      members.map (·.octets) = parts := by
  induction h with
  | nil => exact ⟨[], fun _ hmember => absurd hmember List.not_mem_nil, rfl⟩
  | @cons entry part entries parts hpart _ ih =>
    obtain ⟨key, hkey, hmember⟩ := hpart
    obtain ⟨⟨kind, hitem⟩, hitems⟩ := List.forall_mem_cons.mp hvalues
    obtain ⟨members, hmembers, rfl⟩ := ih hitems
    refine ⟨⟨key, kind, entry.2, part⟩ :: members, List.forall_mem_cons.mpr ⟨?_, hmembers⟩, rfl⟩
    exact ⟨spellsString_of_text hkey, hitem, hmember⟩

/-- An object whose members have any values is a value. -/
theorem item_of_object (h : SpellsObject entries octets)
    (hvalues : ∀ entry ∈ entries, ∃ kind, Item kind entry.2) : Item .object octets := by
  obtain ⟨parts, hparts, hencloses⟩ := h
  obtain ⟨members, hmembers, rfl⟩ := exists_members hparts hvalues
  exact .object (fun member h => (hmembers member h).1) (fun member h => (hmembers member h).2.1)
    (fun member h => (hmembers member h).2.2) hencloses

/-! ## Flawed records -/

/-- What reading a value does to a draft. It fills its own place only, and flawed values are not
read. -/
structure Heeds (fields : List (Field Reader σ)) (flaw : String → Bytes → Prop) : Prop where
  nodup : (fields.map (·.name)).Nodup
  read {field : Field Reader σ} (hfield : field ∈ fields) (d : σ) {kind : Kind} {value : Bytes}
    (hvalue : Item kind value) {w : Bytes} (hw : Blank w) (rest : Bytes) (hrest : Ends rest) :
    Settles (field.read d) (w ++ value) rest True fun d' => ¬ flaw field.name value ∧
      field.present d' = true ∧
      ∀ other ∈ fields, other.name ≠ field.name → other.present d' = other.present d

/-- If all members are read, no field was there twice, and no value was flawed. -/
def Clean (fields : List (Field Reader σ)) (flaw : String → Bytes → Prop)
    (entries : List (String × Bytes)) (d : σ) : Prop :=
  (∀ field ∈ fields, (field.present d).toNat + (valuesOf field.name entries).length ≤ 1) ∧
    ∀ entry ∈ entries, entry.1 ∈ fields.map (·.name) → ¬ flaw entry.1 entry.2

section Flawed

variable {flaw : String → Bytes → Prop}

theorem Clean.unknown {entry : String × Bytes} {d : σ} (hname : entry.1 ∉ fields.map (·.name))
    (h : Clean fields flaw entries d) : Clean fields flaw (entry :: entries) d := by
  refine ⟨fun field hfield => ?_, List.forall_mem_cons.mpr ⟨fun hknown => absurd hknown hname, h.2⟩⟩
  have hother : entry.1 ≠ field.name := by
    intro hsame
    exact hname (hsame ▸ List.mem_map_of_mem hfield)
  rw [valuesOf_cons_of_ne hother]
  exact h.1 field hfield

theorem Clean.known {field : Field Reader σ} {value : Bytes} {d d' : σ}
    (hnodup : (fields.map (·.name)).Nodup) (hfield : field ∈ fields)
    (habsent : field.present d = false) (hset : field.present d' = true)
    (hothers : ∀ other ∈ fields, other.name ≠ field.name → other.present d' = other.present d)
    (hclean : ¬ flaw field.name value) (h : Clean fields flaw entries d') :
    Clean fields flaw ((field.name, value) :: entries) d := by
  refine ⟨fun other hother => ?_, List.forall_mem_cons.mpr ⟨fun _ => hclean, h.2⟩⟩
  have hcount := h.1 other hother
  by_cases hname : other.name = field.name
  · obtain rfl := List.inj_on_of_nodup_map hnodup hother hfield hname
    rw [hset, Bool.toNat_true] at hcount
    rw [habsent, Bool.toNat_false, valuesOf_cons_self, List.length_cons]
    omega
  · rw [hothers other hother hname] at hcount
    rw [valuesOf_cons_of_ne (Ne.symm hname)]
    exact hcount

/-- The members of an object are read one after the other, and nothing is wrong with them if all
are read. -/
theorem leads_clean (hheeds : Heeds fields flaw)
    (hparts : List.Forall₂ SpellsEntry entries parts)
    (hvalues : ∀ entry ∈ entries, ∃ kind, Item kind entry.2) (d : σ) :
    Leads (entry fields) True (fun _ => Clean fields flaw entries d) parts d := by
  induction hparts generalizing d with
  | nil =>
    refine ⟨fun field _ => ?_, fun entry hentry => absurd hentry List.not_mem_nil⟩
    exact Bool.toNat_le _
  | @cons entry part entries parts hpart _ ih =>
    obtain ⟨key, hkey, hmember⟩ := hpart
    obtain ⟨⟨kind, hitem⟩, hitems⟩ := List.forall_mem_cons.mp hvalues
    intro rest hrest
    refine settles_entry (exists_key hkey) hmember hrest ?_ (fun _ _ _ _ => trivial) ?_
    · rintro name rfl hname
      exact ⟨(ih hitems d).mono fun _ h => h.unknown hname, kind, hitem⟩
    · intro field hfield hname habsent w hw
      obtain ⟨name, value⟩ := entry
      obtain rfl : field.name = name := hname
      refine (hheeds.read hfield d hitem hw rest hrest).mono fun d' hd' => ?_
      obtain ⟨hclean, hset, hothers⟩ := hd'
      exact (ih hitems d').mono fun _ h => h.known hheeds.nodup hfield habsent hset hothers hclean

theorem leads_any (hheeds : Heeds fields flaw) {members : List Member}
    (hkeys : ∀ member ∈ members, SpellsString member.key)
    (hvalues : ∀ member ∈ members, Item member.kind member.value)
    (hmembers : ∀ member ∈ members, SpellsMember member.key member.value member.octets) (d : σ) :
    Leads (entry fields) True (fun _ => True) (members.map (·.octets)) d := by
  induction members generalizing d with
  | nil => trivial
  | cons member members ih =>
    obtain ⟨hkey, hkeys⟩ := List.forall_mem_cons.mp hkeys
    obtain ⟨hvalue, hvalues⟩ := List.forall_mem_cons.mp hvalues
    obtain ⟨hmember, hmembers⟩ := List.forall_mem_cons.mp hmembers
    have hmore := ih hkeys hvalues hmembers
    intro rest hrest
    refine settles_entry (settles_textOfString hkey) hmember hrest ?_ (fun _ _ _ _ => trivial) ?_
    · exact fun _ _ _ => ⟨hmore d, member.kind, hvalue⟩
    · intro field hfield _ _ w hw
      exact (hheeds.read hfield d hvalue hw rest hrest).mono fun d' _ => hmore d'

theorem startsEntry_member {entries : List (String × Bytes)} {parts : List Bytes}
    (h : List.Forall₂ SpellsEntry entries parts) :
    ∀ part ∈ parts, ∃ more, part = 0x22 :: more :=
  forall_right h fun _ _ ⟨_, hkey, hmember⟩ => hmember.exists_cons hkey.exists_cons

/-- A flawed record is not read. -/
theorem judges_lenientRecord (hheeds : Heeds fields flaw) (name : String) (blank : σ)
    (finish : σ → α) : Judges (lenientRecord name fields blank finish) fun octets =>
      Mistyped [.object, .list] octets ∨ FlawedRecord (fields.map (·.name)) flaw octets := by
  intro kind octets h w hw rest hrest
  by_cases hflaw : Mistyped [.object, .list] octets ∨
    FlawedRecord (fields.map (·.name)) flaw octets
  · rcases hflaw with hmistyped | ⟨entries, ⟨parts, hparts, hencloses⟩, hvalues, hbad⟩
    · exact (refuses_lenientRecord hmistyped hw).mono fun _ hfalse => hfalse.elim
    · refine settles_lenientRecord hw hencloses (startsEntry_member hparts) ?_
      refine Leads.mono (fun _ hclean => ?_) (leads_clean hheeds hparts hvalues blank)
      exfalso
      rcases hbad with ⟨name, hname, htwice⟩ | ⟨entry, hentry, hname, hflaw⟩
      · obtain ⟨field, hfield, rfl⟩ := List.mem_map.mp hname
        have honce := hclean.1 field hfield
        omega
      · exact hclean.2 entry hentry hname hflaw
  · refine Settles.mono ?_ fun _ (_ : True) => hflaw
    have hfields : ∀ field ∈ fields, ∀ d, Judges (field.read d) fun _ => False :=
      fun field hfield d kind octets h w hw rest hrest =>
        (hheeds.read hfield d h hw rest hrest).mono fun _ _ => not_false
    have hkind : kind ∈ [Kind.object, .list] := by
      by_contra hkind
      exact hflaw (.inl ⟨kind, hkind, h⟩)
    cases h with
    | list hparts hencloses =>
      refine settles_positional hw hencloses (fun part hpart => ?_) hfields
      obtain ⟨item, hitem, rfl⟩ := List.mem_map.mp hpart
      exact ⟨_, hparts item hitem⟩
    | object hkeys hvalues hmembers hencloses =>
      refine settles_lenientRecord hw hencloses (fun part hpart => ?_)
        (leads_any hheeds hkeys hvalues hmembers blank)
      obtain ⟨member, hmember, rfl⟩ := List.mem_map.mp hpart
      exact (hmembers member hmember).exists_cons (hkeys member hmember).exists_cons
    | _ => exact absurd hkind (by decide)

end Flawed

/-! ## Given fields -/

/-- A place of a draft, and the members that are still to be read: the given value has been read, or
it follows. -/
inductive Slot {γ : Type} (written : γ → Bytes → Prop) (name : String) (given : Option γ) :
    Option γ → List (String × Bytes) → Prop where
  | filled {entries : List (String × Bytes)} (h : valuesOf name entries = []) :
      Slot written name given given entries
  | empty {entries : List (String × Bytes)} (h : Given written name entries given) :
      Slot written name given none entries

namespace Slot

variable {γ : Type} {written : γ → Bytes → Prop} {name : String} {given read : Option γ}

theorem skip {entry : String × Bytes} (h : Slot written name given read (entry :: entries))
    (hname : entry.1 ≠ name) : Slot written name given read entries := by
  cases h with
  | filled h =>
    rw [valuesOf_cons_of_ne hname] at h
    exact .filled h
  | empty h =>
    rw [Given, valuesOf_cons_of_ne hname] at h
    exact .empty h

theorem fill {value : Bytes} (h : Slot written name given read ((name, value) :: entries)) :
    read.isSome = false ∧ ∃ a, written a value ∧ Slot written name given (some a) entries := by
  cases h with
  | filled h =>
    rw [valuesOf_cons_self] at h
    cases h
  | empty h =>
    rw [Given, valuesOf_cons_self] at h
    cases given with
    | none => cases h
    | some a =>
      obtain ⟨hwritten, hrest⟩ := List.forall₂_cons.mp h
      exact ⟨rfl, a, hwritten, .filled (List.forall₂_nil_left_iff.mp hrest)⟩

theorem done (h : Slot written name given read []) : read = given := by
  cases h with
  | filled => rfl
  | empty h =>
    cases given with
    | none => rfl
    | some a => cases h

end Slot

/-- The fields of a record are read in any order, and between any others. -/
theorem leads_given (awaits : σ → List (String × Bytes) → Prop)
    (hunknown : ∀ {d entry entries}, awaits d (entry :: entries) →
      entry.1 ∉ fields.map (·.name) → awaits d entries)
    (hknown : ∀ {d field value entries}, field ∈ fields →
      awaits d ((field.name, value) :: entries) → field.present d = false ∧
        ∀ w, Blank w → ∀ rest, Ends rest →
          Settles (field.read d) (w ++ value) rest False fun d' => awaits d' entries)
    (hparts : List.Forall₂ SpellsEntry entries parts)
    (hvalues : ∀ entry ∈ entries, entry.1 ∉ fields.map (·.name) → ∃ kind, Item kind entry.2)
    {d : σ} (h : awaits d entries) : Leads (entry fields) False (awaits · []) parts d := by
  induction hparts generalizing d with
  | nil => exact h
  | @cons entry part entries parts hpart _ ih =>
    obtain ⟨key, hkey, hmember⟩ := hpart
    obtain ⟨hitem, hitems⟩ := List.forall_mem_cons.mp hvalues
    intro rest hrest
    refine settles_entry (exists_key hkey) hmember hrest ?_ ?_ ?_
    · rintro name rfl hname
      exact ⟨ih hitems (hunknown h hname), hitem hname⟩
    · intro field hfield hname hpresent
      obtain ⟨name, value⟩ := entry
      obtain rfl : field.name = name := hname
      rw [(hknown hfield h).1] at hpresent
      cases hpresent
    · intro field hfield hname _ w hw
      obtain ⟨name, value⟩ := entry
      obtain rfl : field.name = name := hname
      exact ((hknown hfield h).2 w hw rest hrest).mono fun d' hd' => ih hitems hd'

/-- A record is completed from the fields that are given. -/
theorem settles_given {name : String} {blank : σ} {finish : σ → α} {goal : α}
    (awaits : σ → List (String × Bytes) → Prop)
    (h : SpellsRecord (fields.map (·.name)) entries octets) (hblank : awaits blank entries)
    (hdone : ∀ {d}, awaits d [] → finish d = goal)
    (hunknown : ∀ {d entry entries}, awaits d (entry :: entries) →
      entry.1 ∉ fields.map (·.name) → awaits d entries)
    (hknown : ∀ {d field value entries}, field ∈ fields →
      awaits d ((field.name, value) :: entries) → field.present d = false ∧
        ∀ w, Blank w → ∀ rest, Ends rest →
          Settles (field.read d) (w ++ value) rest False fun d' => awaits d' entries)
    (hw : Blank w) :
    Settles (lenientRecord name fields blank finish) (w ++ octets) rest False (· = goal) := by
  obtain ⟨⟨parts, hparts, hencloses⟩, hvalues⟩ := h
  refine settles_lenientRecord hw hencloses (startsEntry_member hparts) ?_
  exact (leads_given awaits hunknown hknown hparts hvalues hblank).mono fun _ => hdone

/-! ## Records of two fields -/

/-- Two places of a draft. To fill one of them does not change the other. -/
structure Places {γ δ : Type} (place : σ → Option γ) (place' : σ → Option δ) (put : σ → γ → σ)
    (put' : σ → δ → σ) : Prop where
  filled (d : σ) (c : γ) : place (put d c) = some c
  kept (d : σ) (c : γ) : place' (put d c) = place' d
  filled' (d : σ) (c : δ) : place' (put' d c) = some c
  kept' (d : σ) (c : δ) : place (put' d c) = place d

section Places

variable {γ δ : Type} {r : Reader γ} {r' : Reader δ} {name name' : String} {place : σ → Option γ}
  {place' : σ → Option δ} {put : σ → γ → σ} {put' : σ → δ → σ}

/-- What is flawed in a record of two fields is the value of the one or of the other. -/
theorem Places.heeds {flaw flaw' : Bytes → Prop} (h : Places place place' put put')
    (hne : name ≠ name') (hr : Judges r flaw) (hr' : Judges r' flaw') :
    Heeds [⟨name, fun d => (place d).isSome, fun d => do return put d (← r)⟩,
        ⟨name', fun d => (place' d).isSome, fun d => do return put' d (← r')⟩]
      fun field value => (field = name ∧ flaw value) ∨ (field = name' ∧ flaw' value) where
  nodup := by simp [hne]
  read := by
    intro field hfield d kind value hvalue w hw rest hrest
    simp only [List.mem_cons, List.not_mem_nil, or_false] at hfield
    rcases hfield with rfl | rfl
    · refine (hr hvalue hw rest hrest).map _ fun c hc => ⟨?_, by simp [h.filled], ?_⟩
      · rintro (⟨-, hflaw⟩ | ⟨hname, -⟩)
        · exact hc hflaw
        · exact hne hname
      · simp [h.kept]
    · refine (hr' hvalue hw rest hrest).map _ fun c hc => ⟨?_, by simp [h.filled'], ?_⟩
      · rintro (⟨hname, -⟩ | ⟨-, hflaw⟩)
        · exact hne hname.symm
        · exact hc hflaw
      · simp [h.kept']

/-- A record of two fields is completed from those that are given. -/
theorem Places.settles {written : γ → Bytes → Prop} {written' : δ → Bytes → Prop}
    {given : Option γ} {given' : Option δ} {record : String} {blank : σ} {finish : σ → α}
    {goal : α} (h : Places place place' put put') (hne : name ≠ name')
    (hr : ∀ {c value w rest}, written c value → Blank w →
      Settles r (w ++ value) rest False (· = c))
    (hr' : ∀ {c value w rest}, written' c value → Blank w →
      Settles r' (w ++ value) rest False (· = c))
    (hrecord : SpellsRecord [name, name'] entries octets)
    (hgiven : Given written name entries given) (hgiven' : Given written' name' entries given')
    (hblank : place blank = none) (hblank' : place' blank = none)
    (hdone : ∀ d, place d = given → place' d = given' → finish d = goal) (hw : Blank w) :
    Settles (lenientRecord record
      [⟨name, fun d => (place d).isSome, fun d => do return put d (← r)⟩,
        ⟨name', fun d => (place' d).isSome, fun d => do return put' d (← r')⟩] blank finish)
      (w ++ octets) rest False (· = goal) := by
  refine settles_given (fun d entries => Slot written name given (place d) entries ∧
    Slot written' name' given' (place' d) entries) hrecord ?_ ?_ ?_ ?_ hw
  · rw [hblank, hblank']
    exact ⟨.empty hgiven, .empty hgiven'⟩
  · rintro d ⟨hslot, hslot'⟩
    exact hdone d hslot.done hslot'.done
  · rintro d entry entries ⟨hslot, hslot'⟩ hname
    exact ⟨hslot.skip fun heq => hname (by simp [heq]),
      hslot'.skip fun heq => hname (by simp [heq])⟩
  · rintro d field value entries hfield ⟨hslot, hslot'⟩
    simp only [List.mem_cons, List.not_mem_nil, or_false] at hfield
    rcases hfield with rfl | rfl
    · obtain ⟨hempty, c, hc, hslot⟩ := hslot.fill
      refine ⟨hempty, fun w hw rest _ => (hr hc hw).map _ ?_⟩
      rintro _ rfl
      rw [h.filled, h.kept]
      exact ⟨hslot, hslot'.skip hne⟩
    · obtain ⟨hempty, c, hc, hslot'⟩ := hslot'.fill
      refine ⟨hempty, fun w hw rest _ => (hr' hc hw).map _ ?_⟩
      rintro _ rfl
      rw [h.filled', h.kept']
      exact ⟨hslot.skip hne.symm, hslot'⟩

end Places

end Reader

end DiscoveryGraph.Json
