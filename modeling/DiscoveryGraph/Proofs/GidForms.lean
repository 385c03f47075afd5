import DiscoveryGraph.Proofs.Fieldwise

/-!
# Identifiers in both forms

An identifier is a string of octets or a list of integers. Of a string the length is known before
anything is read. A list is collected octet by octet, up to the width of an identifier; one octet
more is read before the list is refused, and no further one is.

* `handles_gid`: what an identifier with any content is read as.
* `Collects.length_le`, `collects_content`: nothing is ever collected beyond the width of an
  identifier.
-/

namespace DiscoveryGraph

/-- The length that is reported of what is no identifier. A list is not read to its end if it is
too long. -/
def Gid.Form.reported : Gid.Form → Nat → Nat
  | bytes, n => n
  | list, n => min n (gidWidth + 1)

/-- The identifier with this content, or the report of its wrong length. -/
def Gid.Form.verdict (form : Gid.Form) (content : Bytes) : Except Cbor.Failure Gid :=
  match Gid.ofBytes? content with
  | some gid => .ok gid
  | none => .error (.mismatch (.wrongLength (form.reported content.length) Gid.expectation))

theorem Gid.Form.verdict_of_ne {content : Bytes} (form : Gid.Form)
    (h : content.length ≠ gidWidth) : form.verdict content =
      .error (.mismatch (.wrongLength (form.reported content.length) Gid.expectation)) := by
  rw [verdict, Gid.ofBytes?, dif_neg h]

theorem Gid.Form.verdict_toBytes (form : Gid.Form) (gid : Gid) :
    form.verdict gid.toBytes = .ok gid := by
  rw [verdict, Gid.ofBytes?_toBytes]

theorem Gid.exists_toBytes {content : Bytes} (h : content.length = gidWidth) :
    ∃ gid : Gid, gid.toBytes = content := by
  obtain ⟨gid, hgid⟩ := Option.isSome_iff_exists.mp ((Gid.ofBytes?_isSome content).mpr h)
  exact ⟨gid, Gid.toBytes_of_ofBytes? hgid⟩

namespace Cbor.Reader

variable {content octets : Bytes} {parts : List Bytes}

/-! ## Strings -/

theorem makes_gidOf (content : Bytes) :
    Makes (gidOf content) [] (Gid.Form.bytes.verdict content) := by
  rw [gidOf, Gid.Form.verdict]
  cases Gid.ofBytes? content with
  | none => exact .fail _
  | some gid => exact .pure gid

theorem handles_gid_bytes (hpiece : Piece 2 content octets) (hsize : content.length ≤ 4096)
    (depth : Nat) : Handles (gid depth) octets (Gid.Form.bytes.verdict content) := by
  obtain ⟨front, hhead, rfl⟩ := hpiece
  refine .of_untagged (h := .bytes (some content.length))
    (reads_of_spells (by omega) hhead fun _ => rfl) rfl fun start => ?_
  simp only [if_pos (show content.length ≤ blockSize from hsize)]
  exact (Reads.octets content).makes.bind_nil (makes_gidOf content)

/-! ## Lists -/

theorem handles_octet {b : UInt8} (h : Head.Spells 0 b.toNat octets) :
    Handles octet octets (.ok b) := by
  have hinteger : Handles integer octets (.ok (false, b.toNat)) := by
    rw [← List.append_nil octets]
    exact .of_pastTags (h := .positive b.toNat) (reads_of_spells (by omega) h fun _ => rfl) rfl
      fun _ => .pure _
  refine hinteger.bind_nil ?_
  have hlt := b.toNat_lt
  simp only [if_neg (show ¬ 1 <<< 64 ≤ b.toNat by omega), if_neg (show ¬ 256 ≤ b.toNat by omega),
    UInt8.ofNat_toNat]
  exact .pure b

/-- The octets are collected one by one, and the first surplus one is refused. -/
theorem runs_gidOctet (h : List.Forall₂ (fun (b : UInt8) => Head.Spells 0 b.toNat) content parts)
    (done : Bytes) (hdone : done.length ≤ gidWidth) :
    Runs gidOctet done parts
      (if done.length + content.length ≤ gidWidth then .ok (done ++ content)
        else .error (.mismatch (.wrongLength (gidWidth + 1) Gid.expectation))) := by
  induction h generalizing done with
  | nil =>
    rw [List.length_nil, Nat.add_zero, if_pos hdone, List.append_nil]
    exact .nil done
  | @cons b part content parts hpart _ ih =>
    have hoctet := handles_octet hpart
    by_cases hfull : done.length = gidWidth
    · rw [hfull, List.length_cons, if_neg (by omega)]
      refine .fail (hoctet.bind_nil ?_) parts
      rw [if_pos hfull]
      exact .fail _
    · have hlength : (done ++ [b]).length = done.length + 1 := by
        rw [List.length_append, List.length_singleton]
      have hnext := ih (done ++ [b]) (by omega)
      rw [hlength, List.append_assoc, Nat.add_assoc, Nat.add_comm 1] at hnext
      refine .cons (hoctet.bind_nil ?_) hnext
      rw [if_neg hfull]
      exact .pure (done ++ [b])

theorem handles_gid_list
    (hlist : SpellsList (fun (b : UInt8) => Head.Spells 0 b.toNat) content octets) (depth : Nat) :
    Handles (gid (depth + 1)) octets (Gid.Form.list.verdict content) := by
  obtain ⟨parts, hparts, hencloses⟩ := hlist
  have hruns := runs_gidOctet hparts [] (Nat.zero_le _)
  rw [List.length_nil, Nat.zero_add, List.nil_append] at hruns
  obtain ⟨front, length, tail, rfl, hh, htail⟩ :=
    hruns.of_encloses (by omega) make?_array hencloses
  refine .of_untagged hh rfl fun _ => ?_
  split at htail
  · rename_i hshort
    have hverdict : Gid.Form.list.verdict content = Gid.Form.bytes.verdict content := by
      rw [Gid.Form.verdict, Gid.Form.verdict, Gid.Form.reported, Gid.Form.reported,
        Nat.min_eq_left (by omega)]
    rw [hverdict]
    exact htail.bind_nil (makes_gidOf content)
  · rw [Gid.Form.verdict_of_ne _ (by omega), Gid.Form.reported, Nat.min_eq_right (by omega),
      ← List.append_nil tail]
    exact htail.bind_error

/-! ### The octets collected so far -/

section Collected

variable {α β : Type} {r : Reader α} {f : α → Reader β} {b : β} {c c' : Cursor}
  {filled filled' : Bytes}

theorem exists_of_run_bind (h : (r >>= f).run c = .ok (b, c')) :
    ∃ a mid, r.run c = .ok (a, mid) ∧ (f a).run mid = .ok (b, c') := by
  cases hr : r.run c with
  | error e =>
    rw [run_bind_of_error hr] at h
    cases h
  | ok next =>
    obtain ⟨a, mid⟩ := next
    rw [run_bind_of_ok hr] at h
    exact ⟨a, mid, rfl, h⟩

/-- An octet is added only while there is room for it. -/
theorem gidOctet_eq_ok (h : (gidOctet filled).run c = .ok (filled', c')) :
    filled.length ≠ gidWidth ∧ ∃ b, filled' = filled ++ [b] := by
  obtain ⟨b, mid, -, hb⟩ := exists_of_run_bind h
  split at hb
  · cases hb
  · rename_i hroom
    cases hb
    exact ⟨hroom, b, rfl⟩

/-- What is collected on the way to an identifier that is written as a list. -/
inductive Collects : Bytes → Prop where
  | nil : Collects []
  | octet {filled filled' : Bytes} {c c' : Cursor} (h : Collects filled)
      (hrun : (gidOctet filled).run c = .ok (filled', c')) : Collects filled'

/-- No more octets are collected than an identifier has. -/
theorem Collects.length_le (h : Collects filled) : filled.length ≤ gidWidth := by
  induction h with
  | nil => exact Nat.zero_le _
  | octet _ hrun ih =>
    obtain ⟨hroom, b, rfl⟩ := gidOctet_eq_ok hrun
    rw [List.length_append, List.length_singleton]
    omega

theorem collects_parts {fuel : Nat} {length : Option Nat} (hfilled : Collects filled)
    (h : (Reader.parts gidOctet fuel length filled).run c = .ok (filled', c')) :
    Collects filled' := by
  induction fuel generalizing length filled c with
  | zero => cases h
  | succ fuel ih =>
    obtain ⟨left, mid, -, hmore⟩ := exists_of_run_bind h
    cases left with
    | none =>
      cases hmore
      exact hfilled
    | some left =>
      obtain ⟨next, mid', hstep, hrest⟩ := exists_of_run_bind hmore
      exact ih (hfilled.octet hstep) hrest

/-- The loop over the elements of a list starts with nothing and collects octet by octet. -/
theorem collects_content {length : Option Nat}
    (h : (Reader.content length gidOctet []).run c = .ok (filled, c')) : Collects filled := by
  obtain ⟨fuel, mid, -, hparts⟩ := exists_of_run_bind h
  exact collects_parts .nil hparts

end Collected

/-! ## Both forms -/

/-- An identifier is read if its content has the right length, and else this length is reported. -/
theorem handles_gid {form : Gid.Form} (h : form.Spells content octets)
    (hsize : content.length ≤ 4096) (depth : Nat) :
    Handles (gid (depth + 1)) octets (form.verdict content) := by
  cases h with
  | bytes hpiece => exact handles_gid_bytes hpiece hsize (depth + 1)
  | list hlist => exact handles_gid_list hlist depth

end Cbor.Reader

end DiscoveryGraph
