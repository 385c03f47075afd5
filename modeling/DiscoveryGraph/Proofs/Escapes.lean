import DiscoveryGraph.Proofs.Settling

/-!
# Escaped texts

A character of a text may be written as it is, as a short escape, as a number, or, beyond the basic
plane, as two numbers. All of these are read alike. A string that holds half a pair is no text, but
nothing behind it is read in its place.

* `takes_spelledText`: every spelling of a text is read as this text.
* `spellsText_write`: what is written for a text is one of its spellings.
* `settles_stringRest`: whatever a string is read as, it is read up to its own quote.
-/

namespace DiscoveryGraph.Json.Reader

variable {octets rest w : Bytes} {may : Prop}

/-! ## Characters -/

/-- The scheme assigns its own octets to every character. -/
theorem schemeOctets_toNat (c : Char) : schemeOctets c.toNat = String.utf8EncodeChar c := by
  have hvalid := c.valid
  simp only [UInt32.isValidChar, Nat.isValidChar] at hvalid
  change schemeOctets c.val.toNat = _
  unfold schemeOctets String.utf8EncodeChar
  generalize c.val.toNat = n at hvalid
  dsimp only
  split_ifs <;>
    simp only [List.cons.injEq, and_true, ← UInt8.toNat_inj, UInt8.toNat_ofNat'] <;>
    omega

theorem utf8EncodeChar_of_lt {c : Char} (h : c.toNat < 0x80) :
    String.utf8EncodeChar c = [UInt8.ofNat c.toNat] := by
  rw [← schemeOctets_toNat, schemeOctets, if_pos h]

/-- All octets of a character beyond the first 128 have their highest bit set. -/
theorem le_of_mem_utf8EncodeChar {c : Char} (hc : 0x80 ≤ c.toNat) {b : UInt8}
    (hb : b ∈ String.utf8EncodeChar c) : 0x80 ≤ b.toNat := by
  have hvalid := c.valid
  simp only [UInt32.isValidChar, Nat.isValidChar] at hvalid
  rw [← schemeOctets_toNat] at hb
  change b ∈ schemeOctets c.val.toNat at hb
  change 0x80 ≤ c.val.toNat at hc
  unfold schemeOctets at hb
  generalize c.val.toNat = n at hvalid hc hb
  split_ifs at hb <;> simp only [List.mem_cons, List.not_mem_nil, or_false] at hb
  · omega
  · rcases hb with rfl | rfl <;> rw [UInt8.toNat_ofNat'] <;> omega
  · rcases hb with rfl | rfl | rfl <;> rw [UInt8.toNat_ofNat'] <;> omega
  · rcases hb with rfl | rfl | rfl | rfl <;> rw [UInt8.toNat_ofNat'] <;> omega

/-- A character that needs no escape has no octet that needs one. -/
theorem plain_of_mem {c : Char} (hquote : c ≠ '"') (hslash : c ≠ '\\') (hcontrol : 0x20 ≤ c.toNat)
    {b : UInt8} (hb : b ∈ String.utf8EncodeChar c) : b ≠ 0x22 ∧ b ≠ 0x5C ∧ ¬ b < 0x20 := by
  have hnat : b.toNat ≠ 0x22 ∧ b.toNat ≠ 0x5C ∧ 0x20 ≤ b.toNat := by
    rcases Nat.lt_or_ge c.toNat 0x80 with hc | hc
    · rw [utf8EncodeChar_of_lt hc, List.mem_singleton] at hb
      have hsame : b.toNat = c.toNat := by
        rw [hb, UInt8.toNat_ofNat']
        omega
      rw [hsame]
      exact ⟨fun h => hquote (Char.toNat_inj.mp h), fun h => hslash (Char.toNat_inj.mp h), hcontrol⟩
    · have hhigh := le_of_mem_utf8EncodeChar hc hb
      omega
  refine ⟨?_, ?_, ?_⟩
  · rintro rfl
    exact hnat.1 rfl
  · rintro rfl
    exact hnat.2.1 rfl
  · intro hlt
    have hlt : b.toNat < 0x20 := hlt
    omega

/-- The spelling of a character is made of pieces of a string. -/
theorem exists_pieces_char {c : Char} (h : SpellsChar c octets) :
    ∃ pieces : List Bytes, (∀ piece ∈ pieces, Piece piece) ∧ pieces.flatten = octets := by
  cases h with
  | plain hquote hslash hcontrol =>
    refine ⟨(String.utf8EncodeChar c).map fun b => [b], fun piece hpiece => ?_, ?_⟩
    · obtain ⟨b, hb, rfl⟩ := List.mem_map.mp hpiece
      obtain ⟨hquote, hslash, hcontrol⟩ := plain_of_mem hquote hslash hcontrol hb
      exact .plain hquote hslash hcontrol
    · rw [← List.flatMap_def]
      exact List.flatMap_singleton' _
  | short h => exact ⟨[_], List.forall_mem_singleton.mpr (.short h), List.flatten_singleton⟩
  | numeric h => exact ⟨[_], List.forall_mem_singleton.mpr (.numeric h), List.flatten_singleton⟩
  | @pair x y z t x' y' z' t' _ _ h h' =>
    refine ⟨[[0x5C, 0x75, x, y, z, t], [0x5C, 0x75, x', y', z', t']], ?_, rfl⟩
    exact List.forall_mem_cons.mpr ⟨.numeric h, List.forall_mem_singleton.mpr (.numeric h')⟩

theorem exists_pieces_chars {cs : List Char} {parts : List Bytes}
    (h : List.Forall₂ SpellsChar cs parts) : ∃ pieces : List Bytes,
      (∀ piece ∈ pieces, Piece piece) ∧ pieces.flatten = parts.flatten := by
  induction h with
  | nil => exact ⟨[], fun _ hpiece => absurd hpiece List.not_mem_nil, rfl⟩
  | cons hpart _ ih =>
    obtain ⟨first, hfirst, hflatten⟩ := exists_pieces_char hpart
    obtain ⟨others, hothers, hflatten'⟩ := ih
    refine ⟨first ++ others, fun piece hpiece => ?_, ?_⟩
    · exact (List.mem_append.mp hpiece).elim (hfirst piece) (hothers piece)
    · rw [List.flatten_append, List.flatten_cons, hflatten, hflatten']

/-- The spelling of a text is a string. -/
theorem spellsString_of_text {s : String} (h : SpellsText s octets) : SpellsString octets := by
  obtain ⟨parts, hparts, rfl⟩ := h
  obtain ⟨pieces, hpieces, hflatten⟩ := exists_pieces_chars hparts
  exact ⟨pieces, hpieces, by rw [hflatten]⟩

/-- A character is not half a pair. -/
theorem not_surrogate (c : Char) : isTrailing c.toNat = false ∧ isLeading c.toNat = false := by
  have hvalid := c.valid
  simp only [UInt32.isValidChar, Nat.isValidChar] at hvalid
  change isTrailing c.val.toNat = false ∧ isLeading c.val.toNat = false
  simp only [isTrailing, isLeading, Bool.and_eq_false_iff, decide_eq_false_iff_not]
  omega

section Numeric

variable {x y z t x' y' z' t' : UInt8} {n leading trailing : Nat}

theorem takes_pairMark (b : UInt8) : Takes (pairMark b) [b] () := by
  intro index rest
  have hrun : (pairMark b).run ⟨index, [b] ++ rest⟩ =
      (if b = b then pure () else failHere .cutEscape : Reader Unit).run ⟨index + 1, rest⟩ := rfl
  rw [hrun, if_pos rfl]
  exact ⟨index + 1, rfl⟩

theorem takes_trailingHalf (h : hexValues? x y z t = some n) (htrailing : isTrailing n = true) :
    Takes trailingHalf [0x5C, 0x75, x, y, z, t] n := by
  refine .bind_cons (takes_pairMark 0x5C) (.bind_cons (takes_pairMark 0x75) ?_)
  refine .bind_nil (takes_hexEscape h) ?_
  simp only [htrailing, if_true]
  exact .pure n

theorem takes_pairEscape (h : hexValues? x y z t = some leading)
    (h' : hexValues? x' y' z' t' = some trailing) (hleading : isLeading leading = true)
    (htrailing : isTrailing trailing = true) :
    Takes (escape .text) [0x75, x, y, z, t, 0x5C, 0x75, x', y', z', t']
      (schemeOctets (paired leading trailing)) := by
  have hnot : isTrailing leading = false := by
    simp only [isLeading, isTrailing, Bool.and_eq_true, Bool.and_eq_false_iff, decide_eq_true_eq,
      decide_eq_false_iff_not] at hleading ⊢
    omega
  refine .bind_cons (.next 0x75) ?_
  have hfirst : Takes hexEscape [x, y, z, t] leading := takes_hexEscape h
  refine hfirst.bind ?_
  simp only [hnot, hleading, Bool.false_eq_true, if_false, if_true]
  exact .bind_nil (takes_trailingHalf h' htrailing) (.pure _)

end Numeric

/-! ## Texts -/

theorem toNat_lt_of_shortEscape {letter octet : UInt8} (h : shortEscape? letter = some octet) :
    octet.toNat < 0x80 := by
  unfold shortEscape? at h
  split at h <;> cases h <;> decide

/-- Every spelling of a character stands for its octets, piece by piece. -/
theorem stands_spelledChar {c : Char} (h : SpellsChar c octets) :
    ∃ pieces : List (Bytes × Bytes), (∀ piece ∈ pieces, Stands piece.1 piece.2) ∧
      pieces.flatMap (·.1) = octets ∧ pieces.flatMap (·.2) = String.utf8EncodeChar c := by
  have hsingle : ∀ {piece : Bytes}, Stands piece (String.utf8EncodeChar c) →
      ∃ pieces : List (Bytes × Bytes), (∀ piece ∈ pieces, Stands piece.1 piece.2) ∧
        pieces.flatMap (·.1) = piece ∧ pieces.flatMap (·.2) = String.utf8EncodeChar c :=
    fun {piece} hstands => ⟨[(piece, String.utf8EncodeChar c)], by simpa using hstands, by simp,
      by simp⟩
  cases h with
  | plain hquote hslash hcontrol =>
    refine ⟨(String.utf8EncodeChar c).map fun b => ([b], [b]), fun piece hpiece => ?_, ?_, ?_⟩
    · obtain ⟨b, hb, rfl⟩ := List.mem_map.mp hpiece
      obtain ⟨hquote, hslash, hcontrol⟩ := plain_of_mem hquote hslash hcontrol hb
      exact .self hquote hslash hcontrol
    · rw [List.flatMap_map]
      exact List.flatMap_singleton' _
    · rw [List.flatMap_map]
      exact List.flatMap_singleton' _
  | @short letter octet hshort hc =>
    refine hsingle ?_
    have hlow := toNat_lt_of_shortEscape hshort
    rw [utf8EncodeChar_of_lt (by omega), hc, UInt8.ofNat_toNat]
    refine .short ?_ hshort
    rintro rfl
    cases hshort
  | numeric hvalue =>
    obtain ⟨htrailing, hleading⟩ := not_surrogate c
    have hstands := Stands.escape (takes_numericEscape hvalue htrailing hleading)
    rw [schemeOctets_toNat] at hstands
    exact hsingle hstands
  | pair hvalue hvalue' hleading htrailing hc =>
    have hstands := Stands.escape (takes_pairEscape hvalue hvalue' hleading htrailing)
    rw [← hc, schemeOctets_toNat] at hstands
    exact hsingle hstands

theorem stands_spelledChars {cs : List Char} {pieces : List Bytes}
    (h : List.Forall₂ SpellsChar cs pieces) :
    ∃ all : List (Bytes × Bytes), (∀ piece ∈ all, Stands piece.1 piece.2) ∧
      all.flatMap (·.1) = pieces.flatten ∧
      all.flatMap (·.2) = Bytes.ofText (String.ofList cs) := by
  induction h with
  | nil => exact ⟨[], by simp, rfl, rfl⟩
  | cons hpiece _ ih =>
    obtain ⟨first, hfirst, hwritten, hread⟩ := stands_spelledChar hpiece
    obtain ⟨others, hothers, hwritten', hread'⟩ := ih
    refine ⟨first ++ others, fun piece hpiece => ?_, ?_, ?_⟩
    · exact (List.mem_append.mp hpiece).elim (hfirst piece) (hothers piece)
    · rw [List.flatMap_append, hwritten, hwritten', List.flatten_cons]
    · rw [List.flatMap_append, hread, hread', Bytes.ofText_cons]

/-- Every spelling of a text is read as this text, once its opening quote has been read. -/
theorem takes_spelledText {s : String} (h : SpellsText s octets) :
    ∃ more, octets = 0x22 :: more ∧ Takes textOfString more s := by
  obtain ⟨pieces, hpieces, rfl⟩ := h
  obtain ⟨all, hstands, hwritten, hread⟩ := stands_spelledChars hpieces
  rw [String.ofList_toList] at hread
  have htext := takes_textOfString all hstands hread
  rw [hwritten] at htext
  exact ⟨_, rfl, htext⟩

/-! ## Strings -/

theorem settles_pairMark_of_ne {b found : UInt8} (h : found ≠ b) :
    Settles (pairMark b) [found] rest True fun _ => False := by
  intro index
  have hrun : (pairMark b).run ⟨index, [found] ++ rest⟩ =
      (if found = b then pure () else failHere .cutEscape : Reader Unit).run ⟨index + 1, rest⟩ :=
    rfl
  rw [hrun, if_neg h]
  exact .inr ⟨trivial, _, rfl⟩

theorem ne_of_shortEscape {letter octet : UInt8} (h : shortEscape? letter = some octet) :
    letter ≠ 0x75 := by
  rintro rfl
  cases h

/-- The second half of a pair is the next piece of the string, if it is there at all. -/
theorem takes_or_refuses_trailingHalf {pieces : List Bytes} (h : ∀ piece ∈ pieces, Piece piece) :
    (∃ piece others n, pieces = piece :: others ∧ Takes trailingHalf piece n) ∨
      ∀ rest, Settles trailingHalf (pieces.flatten ++ [0x22]) rest True fun _ => False := by
  cases pieces with
  | nil =>
    refine .inr fun rest => ?_
    exact (settles_pairMark_of_ne (by decide)).bind_nil fun _ hfalse => hfalse.elim
  | cons piece others =>
    rw [List.flatten_cons, List.append_assoc]
    cases h piece List.mem_cons_self with
    | plain hquote hslash hcontrol =>
      refine .inr fun rest => ?_
      exact .refuse (settles_pairMark_of_ne hslash)
    | @short letter octet hshort =>
      rw [List.cons_append]
      refine .inr fun rest => .after (takes_pairMark 0x5C) ?_
      exact .refuse (settles_pairMark_of_ne (ne_of_shortEscape hshort))
    | @numeric x y z t n hvalue =>
      cases htrailing : isTrailing n with
      | true => exact .inl ⟨_, others, n, rfl, takes_trailingHalf hvalue htrailing⟩
      | false =>
        rw [List.cons_append, List.cons_append]
        refine .inr fun rest => .after (takes_pairMark 0x5C) ?_
        refine .after (takes_pairMark 0x75) ?_
        refine .after (takes_hexEscape hvalue) ?_
        simp only [htrailing, Bool.false_eq_true, if_false]
        exact (Fails.failHere _).settles trivial

/-- A numeric escape is read with the pieces that belong to it, or it is refused. -/
theorem takes_or_refuses_escape {x y z t : UInt8} {n : Nat} (hvalue : hexValues? x y z t = some n)
    {pieces : List Bytes} (h : ∀ piece ∈ pieces, Piece piece) :
    (∃ taken others octets, pieces = taken ++ others ∧
      Takes (escape .text) ([0x75, x, y, z, t] ++ taken.flatten) octets) ∨
      ∀ rest, Settles (escape .text) ([0x75, x, y, z, t] ++ (pieces.flatten ++ [0x22])) rest True
        fun _ => False := by
  cases htrailing : isTrailing n with
  | true =>
    refine .inr fun rest => .next (.after (takes_hexEscape hvalue) ?_)
    simp only [htrailing, if_true]
    exact (Fails.failHere _).settles trivial
  | false =>
    cases hleading : isLeading n with
    | false =>
      exact .inl ⟨[], pieces, _, rfl, takes_numericEscape hvalue htrailing hleading⟩
    | true =>
      rcases takes_or_refuses_trailingHalf h with ⟨piece, others, low, rfl, hlow⟩ | hrefuses
      · have hpair : Takes (escape .text) ([0x75, x, y, z, t] ++ piece)
            (schemeOctets (paired n low)) := by
          refine .bind_cons (.next 0x75) ((takes_hexEscape hvalue).bind ?_)
          simp only [htrailing, hleading, Bool.false_eq_true, if_false, if_true]
          exact hlow.map _
        exact .inl ⟨[piece], others, _, rfl, by rwa [List.flatten_singleton]⟩
      · refine .inr fun rest => .next (.after (takes_hexEscape hvalue) ?_)
        simp only [htrailing, hleading, Bool.false_eq_true, if_false, if_true]
        exact (hrefuses rest).bind_nil fun _ hfalse => hfalse.elim

/-- Whatever a string is read as, it is read up to its own quote. -/
theorem settles_stringRest {pieces : List Bytes} (h : ∀ piece ∈ pieces, Piece piece) (fuel : Nat) :
    Settles (stringRest .text fuel) (pieces.flatten ++ [0x22]) rest True fun _ => True := by
  induction fuel generalizing pieces with
  | zero => exact (Fails.failHere _).settles trivial
  | succ fuel ih =>
    cases pieces with
    | nil => exact .next (.pure trivial)
    | cons piece pieces =>
      have hmore : ∀ piece ∈ pieces, Piece piece :=
        fun other hother => h other (List.mem_cons_of_mem _ hother)
      rw [List.flatten_cons, List.append_assoc]
      cases h piece List.mem_cons_self with
      | @plain b hquote hslash hcontrol =>
        refine .next ?_
        split
        · rename_i heq
          cases heq
        · rename_i heq
          exact absurd (Option.some.inj heq) hquote
        · rename_i heq
          exact absurd (Option.some.inj heq) hslash
        · rename_i heq
          obtain rfl := Option.some.inj heq
          rw [if_neg (by simp [hcontrol])]
          exact (ih hmore).map _ fun _ _ => trivial
      | short hshort =>
        refine .next (.after (takes_shortEscape (ne_of_shortEscape hshort) hshort) ?_)
        exact (ih hmore).map _ fun _ _ => trivial
      | @numeric x y z t n hvalue =>
        have hnumeric : Settles (do
            let octets ← escape .text
            return octets ++ (← stringRest .text fuel)) ([0x75, x, y, z, t] ++
              (pieces.flatten ++ [0x22])) rest True fun _ => True := by
          rcases takes_or_refuses_escape hvalue hmore with
            ⟨taken, others, octets, rfl, htakes⟩ | hrefuses
          · have hothers := ih fun other hother => hmore other (List.mem_append_right taken hother)
            rw [List.flatten_append, List.append_assoc, ← List.append_assoc]
            exact .after htakes (hothers.map _ fun _ _ => trivial)
          · exact (hrefuses rest).bind_nil fun _ hfalse => hfalse.elim
        exact .next hnumeric

/-- A string is read up to its own quote, if it is a text. -/
theorem settles_textOfString (h : SpellsString octets) :
    ∃ more, octets = 0x22 :: more ∧ ∀ rest, Settles textOfString more rest True fun _ => True := by
  obtain ⟨pieces, hpieces, rfl⟩ := h
  refine ⟨_, rfl, fun rest => .allowance fun fuel _ => ?_⟩
  refine (settles_stringRest hpieces fuel).bind_nil fun bs _ => ?_
  cases Bytes.toText? bs with
  | none => exact (Fails.failHere _).settles trivial
  | some s => exact .pure trivial

/-! ## The written form -/

theorem writeOctet_of_le {b : UInt8} (hb : 0x80 ≤ b.toNat) : writeOctet b = [b] := by
  have hne : ∀ c : UInt8, c.toNat < 0x80 → b ≠ c := by
    rintro c hc rfl
    omega
  have hcontrol : ¬ b < 0x20 := by
    intro hlt
    have hlt : b.toNat < 0x20 := hlt
    omega
  unfold writeOctet
  rw [if_neg (hne _ (by decide)), if_neg (hne _ (by decide)), if_neg (hne _ (by decide)),
    if_neg (hne _ (by decide)), if_neg (hne _ (by decide)), if_neg (hne _ (by decide)),
    if_neg (hne _ (by decide)), if_neg hcontrol]

/-- What is written for an octet that is a character is a spelling of this character. -/
theorem spellsChar_writeOctet {c : Char} {b : UInt8} (hb : String.utf8EncodeChar c = [b])
    (hc : c.toNat = b.toNat) : SpellsChar c (writeOctet b) := by
  unfold writeOctet
  split_ifs with hquote hslash hback htab hline hform hreturn hcontrol
  · exact .short rfl (hquote ▸ hc)
  · exact .short rfl (hslash ▸ hc)
  · exact .short rfl (hback ▸ hc)
  · exact .short rfl (htab ▸ hc)
  · exact .short rfl (hline ▸ hc)
  · exact .short rfl (hform ▸ hc)
  · exact .short rfl (hreturn ▸ hc)
  · obtain ⟨y, z, hdigits, hvalue⟩ := exists_hexDigits hcontrol
    rw [hdigits]
    exact .numeric (hc ▸ hvalue)
  · rw [← hb]
    refine .plain ?_ ?_ ?_
    · rintro rfl
      exact hquote (UInt8.toNat_inj.mp hc.symm)
    · rintro rfl
      exact hslash (UInt8.toNat_inj.mp hc.symm)
    · have hle : ¬ b.toNat < 0x20 := hcontrol
      omega

/-- What is written for a character is one of its spellings. -/
theorem spellsChar_write (c : Char) :
    SpellsChar c ((String.utf8EncodeChar c).flatMap writeOctet) := by
  rcases Nat.lt_or_ge c.toNat 0x80 with hc | hc
  · have hb := utf8EncodeChar_of_lt hc
    rw [hb, List.flatMap_singleton]
    refine spellsChar_writeOctet hb ?_
    rw [UInt8.toNat_ofNat']
    omega
  · have hself : (String.utf8EncodeChar c).flatMap writeOctet = String.utf8EncodeChar c := by
      calc (String.utf8EncodeChar c).flatMap writeOctet
          = (String.utf8EncodeChar c).flatMap fun b => [b] :=
            List.flatMap_congr fun b hb => writeOctet_of_le (le_of_mem_utf8EncodeChar hc hb)
        _ = String.utf8EncodeChar c := List.flatMap_singleton' _
    rw [hself]
    refine .plain ?_ ?_ (by omega)
    · rintro rfl
      exact absurd hc (by decide)
    · rintro rfl
      exact absurd hc (by decide)

/-- What is written for a text is one of its spellings. -/
theorem spellsText_write (s : String) : SpellsText s (writeText s) := by
  refine ⟨s.toList.map fun c => (String.utf8EncodeChar c).flatMap writeOctet, ?_, ?_⟩
  · exact List.forall₂_map_right_iff.mpr (List.forall₂_same.mpr fun c _ => spellsChar_write c)
  · have hall : ∀ cs : List Char, (Bytes.ofText (String.ofList cs)).flatMap writeOctet =
        (cs.map fun c => (String.utf8EncodeChar c).flatMap writeOctet).flatten := by
      intro cs
      induction cs with
      | nil => rfl
      | cons c cs ih =>
        rw [Bytes.ofText_cons, List.flatMap_append, ih, List.map_cons, List.flatten_cons]
    have hs := hall s.toList
    rw [String.ofList_toList] at hs
    rw [writeText, hs]
    rfl

end DiscoveryGraph.Json.Reader
