import DiscoveryGraph.Bytes
import Mathlib.Algebra.Group.Nat.Defs
import Mathlib.Data.List.Flatten
import Mathlib.Tactic.SplitIfs

/-!
# Octets of numbers and texts

Numbers and texts are recovered from their octets. A text can be cut at any octet: the cut is at
most three octets behind the end of a character, and what follows a whole number of characters is
again a text.
-/

namespace DiscoveryGraph.Bytes

/-! ## Numbers -/

theorem toNat_concat (bs : Bytes) (b : UInt8) : toNat (bs ++ [b]) = toNat bs * 256 + b.toNat := by
  simp [toNat]

/-- The octets of a number spell it, if there are enough of them. -/
theorem toNat_bigEndian {width n : Nat} (h : n < 256 ^ width) : toNat (bigEndian width n) = n := by
  induction width generalizing n with
  | zero =>
    have hn : n = 0 := by simpa using h
    subst hn
    rfl
  | succ width ih =>
    have hn : n / 256 < 256 ^ width := by
      rw [Nat.div_lt_iff_lt_mul (by decide)]
      simpa [Nat.pow_succ] using h
    have hlast : bigEndian (width + 1) n = bigEndian width (n / 256) ++ [UInt8.ofNat n] := by
      simp [bigEndian, littleEndian]
    rw [hlast, toNat_concat, ih hn, UInt8.toNat_ofNat']
    exact Nat.div_add_mod' n 256

theorem littleEndian_inj {width m n : Nat} (hm : m < 256 ^ width) (hn : n < 256 ^ width)
    (h : littleEndian width m = littleEndian width n) : m = n := by
  have hreverse : bigEndian width m = bigEndian width n := congrArg List.reverse h
  calc m = toNat (bigEndian width m) := (toNat_bigEndian hm).symm
    _ = toNat (bigEndian width n) := by rw [hreverse]
    _ = n := toNat_bigEndian hn

/-! ## Texts -/

theorem ofText_injective : Function.Injective ofText := by
  intro s t h
  have hs := toText?_ofText s
  rw [h, toText?_ofText] at hs
  exact (Option.some.inj hs).symm

theorem ofText_append (s t : String) : ofText (s ++ t) = ofText s ++ ofText t := by
  simp [ofText]

theorem toByteArray_ofText (s : String) : (ofText s).toByteArray = s.toByteArray := by
  apply ByteArray.ext
  simp [ofText]

theorem ofText_singleton (c : Char) : ofText (String.singleton c) = String.utf8EncodeChar c := by
  simp [ofText, List.utf8Encode]

theorem ofText_cons (c : Char) (cs : List Char) : ofText (String.ofList (c :: cs)) =
    String.utf8EncodeChar c ++ ofText (String.ofList cs) := by
  rw [← ofText_singleton, ← ofText_append, String.singleton_eq_ofList, ← String.ofList_append]
  rfl

/-- What follows the octets of a text inside a text is a text. -/
theorem exists_of_ofText_append {s t : String} {tail : Bytes} (h : ofText t ++ tail = ofText s) :
    ∃ u, tail = ofText u := by
  have hbytes : t.toList.utf8Encode ++ tail.toByteArray = s.toList.utf8Encode := by
    rw [String.utf8Encode_toList, String.utf8Encode_toList, ← toByteArray_ofText,
      ← toByteArray_ofText s, ← h, List.toByteArray_append]
  obtain ⟨cs, hcs⟩ := List.isPrefix_of_utf8Encode_append_eq_utf8Encode _ hbytes
  have hs : s = t ++ String.ofList cs := by
    rw [← String.ofList_toList (s := s), ← hcs, String.ofList_append, String.ofList_toList]
  refine ⟨String.ofList cs, ?_⟩
  rw [hs, ofText_append] at h
  exact List.append_cancel_left h

/-- A text can be cut between two characters, at most three octets before any given place. -/
theorem exists_boundary (s : String) {n : Nat} (h : n ≤ (ofText s).length) :
    ∃ left ≤ 3, left ≤ n ∧ ∃ t, (ofText s).take (n - left) = ofText t := by
  obtain ⟨cs, rfl⟩ : ∃ cs, s = String.ofList cs := ⟨s.toList, String.ofList_toList.symm⟩
  induction cs generalizing n with
  | nil =>
    have hn : n = 0 := by simpa [ofText] using h
    exact ⟨0, by omega, by omega, "", by simp [hn, ofText]⟩
  | cons c cs ih =>
    have hcons := ofText_cons c cs
    rw [← ofText_singleton] at hcons
    have hsize : (ofText (String.singleton c)).length ≤ 4 := by
      rw [ofText_singleton, String.length_utf8EncodeChar]
      exact Char.utf8Size_le_four c
    rw [hcons, List.length_append] at h
    rw [hcons]
    by_cases hn : n < (ofText (String.singleton c)).length
    · exact ⟨n, by omega, Nat.le_refl n, "", by simp [ofText]⟩
    · obtain ⟨left, hleft, hle, t, ht⟩ :=
        ih (n := n - (ofText (String.singleton c)).length) (by omega)
      refine ⟨left, hleft, by omega, String.singleton c ++ t, ?_⟩
      rw [List.take_append, List.take_of_length_le (by omega), ofText_append, ← ht,
        Nat.sub_right_comm]

/-! ## Order -/

/-- Numbers compare by their quotients first, and by their remainders then. -/
theorem lt_iff_div_mod {m n : Nat} (d : Nat) :
    m < n ↔ m / d < n / d ∨ m / d = n / d ∧ m % d < n % d := by
  have hm := Nat.div_add_mod m d
  have hn := Nat.div_add_mod n d
  constructor
  · intro h
    rcases Nat.lt_or_eq_of_le (Nat.div_le_div_right (c := d) (Nat.le_of_lt h)) with hlt | heq
    · exact .inl hlt
    · rw [heq] at hm
      exact .inr ⟨heq, by omega⟩
  · rintro (hlt | ⟨heq, hlt⟩)
    · exact Nat.lt_of_div_lt_div hlt
    · rw [heq] at hm
      omega

/-- A smaller character has smaller octets, whatever follows. -/
theorem utf8EncodeChar_append_lt {c d : Char} (h : c < d) (xs ys : Bytes) :
    String.utf8EncodeChar c ++ xs < String.utf8EncodeChar d ++ ys := by
  have hval : c.val.toNat < d.val.toNat := h
  have hd : d.val.toNat < 0x110000 := by
    have := d.valid
    simp only [UInt32.isValidChar, Nat.isValidChar] at this
    omega
  unfold String.utf8EncodeChar
  generalize c.val.toNat = m at hval
  generalize d.val.toNat = n at hval hd
  -- Octets behind the first hold six bits each.
  have hlast := lt_iff_div_mod (m := m) (n := n) 64
  have hmiddle := lt_iff_div_mod (m := m / 64) (n := n / 64) 64
  have hfirst := lt_iff_div_mod (m := m / 4096) (n := n / 4096) 64
  rw [Nat.div_div_eq_div_mul, Nat.div_div_eq_div_mul] at hmiddle hfirst
  dsimp only
  split_ifs <;>
    simp (disch := omega) only [List.cons_append, List.nil_append, List.cons_lt_cons_iff,
      UInt8.lt_iff_toNat_lt, ← UInt8.toNat_inj, UInt8.toNat_ofNat', Nat.mod_eq_of_lt] <;>
    omega

theorem ofText_ofList_lt {cs ds : List Char} (h : cs < ds) :
    ofText (String.ofList cs) < ofText (String.ofList ds) := by
  induction h with
  | @nil d ds =>
    obtain ⟨b, bs, heq⟩ := List.exists_cons_of_ne_nil (String.utf8EncodeChar_ne_nil (c := d))
    rw [ofText_cons, heq]
    exact List.nil_lt_cons b _
  | cons _ ih =>
    rw [ofText_cons, ofText_cons]
    exact List.append_left_lt ih
  | rel hlt =>
    rw [ofText_cons, ofText_cons]
    exact utf8EncodeChar_append_lt hlt _ _

/-- Texts are ordered like their octets. -/
theorem ofText_lt_of_compare {s t : String} (h : compare s t = .lt) : ofText s < ofText t := by
  have hlt : s < t := compareOfLessAndEq_eq_lt.mp h
  rw [String.lt_iff] at hlt
  simpa using ofText_ofList_lt hlt

end DiscoveryGraph.Bytes
