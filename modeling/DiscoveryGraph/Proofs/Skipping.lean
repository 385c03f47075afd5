import DiscoveryGraph.Proofs.Settling

/-!
# Skipped values

The value of an unknown member is skipped without being understood. How deep it is nested does not
matter: what is open around a value is kept on a stack, and one unit of fuel is spent on each value.

* `settles_ignoredNumber`, `settles_ignoredString`: scalars.
* `Skips`: a value is skipped, whatever is open around it.
* `settles_ignored`: every value is skipped, exactly.
-/

namespace DiscoveryGraph.Json.Reader

variable {w w' ds octets bs rest tail : Bytes} {may : Prop}

/-! ## Numbers -/

theorem settles_skipDigits (hdigits : ∀ d ∈ ds, isDigit d = true)
    (hrest : ∀ b ∈ rest.head?, isDigit b = false) :
    Settles skipDigits ds rest may (· = ds.length) := by
  intro index
  have hsplit : rest.takeWhile isDigit = [] ∧ rest.dropWhile isDigit = rest := by
    cases rest with
    | nil => exact ⟨rfl, rfl⟩
    | cons b rest =>
      have hb := hrest b rfl
      exact ⟨List.takeWhile_cons_of_neg (by simp [hb]), List.dropWhile_cons_of_neg (by simp [hb])⟩
  have htake : (ds ++ rest).takeWhile isDigit = ds := by
    rw [List.takeWhile_append_of_pos hdigits, hsplit.1, List.append_nil]
  have hdrop : (ds ++ rest).dropWhile isDigit = rest := by
    rw [List.dropWhile_append_of_pos hdigits, hsplit.2]
  refine .inl ⟨ds.length, index + ds.length, ?_, rfl⟩
  have hrun : skipDigits.run ⟨index, ds ++ rest⟩ =
      .ok (((ds ++ rest).takeWhile isDigit).length,
        ⟨index + ((ds ++ rest).takeWhile isDigit).length, (ds ++ rest).dropWhile isDigit⟩) := rfl
  rw [hrun, htake, hdrop]

theorem settles_exponentSign {sign : Bytes} {d : UInt8} (hsign : sign ∈ [[], [0x2B], [0x2D]])
    (hd : isDigit d = true) : Settles exponentSign sign (d :: rest) may fun _ => True := by
  simp only [List.mem_cons, List.not_mem_nil, or_false] at hsign
  rcases hsign with rfl | rfl | rfl
  · refine .peek ?_
    split
    · rename_i heq
      exact absurd (Option.some.inj heq) (ne_of_isDigit hd rfl)
    · rename_i heq
      exact absurd (Option.some.inj heq) (ne_of_isDigit hd rfl)
    · exact .pure trivial
  · exact .peek (.advance (.pure trivial))
  · exact .peek (.advance (.pure trivial))

theorem settles_ignoredExponent {letter : UInt8} {sign : Bytes}
    (hsign : sign ∈ [[], [0x2B], [0x2D]]) (hdigits : Digits ds) (hrest : Ends rest) :
    Settles ignoredExponent (letter :: (sign ++ ds)) rest may fun _ => True := by
  obtain ⟨d, ds, rfl⟩ := List.exists_cons_of_ne_nil hdigits.1
  obtain ⟨hd, hds⟩ := List.forall_mem_cons.mp hdigits.2
  refine .advance (.bind (settles_exponentSign hsign hd).discard fun _ _ => .next ?_)
  simp only [hd, if_true]
  exact (settles_skipDigits hds fun b hb => (hrest.number hb).1).discard

/-- An exponent is skipped if there is one. -/
theorem settles_exponentAhead {exponent : Bytes} {k : Option UInt8 → Reader Unit}
    (hletter : ∀ letter ∈ [0x65, 0x45], k (some letter) = ignoredExponent)
    (hother : ∀ found, (∀ b ∈ found, b ≠ 0x2E ∧ b ≠ 0x65 ∧ b ≠ 0x45) → k found = pure ())
    (h : SpellsExponent exponent) (hrest : Ends rest) :
    Settles (peek >>= k) exponent rest may fun _ => True := by
  refine .peek ?_
  cases h with
  | none =>
    have hpure : k rest.head? = pure () := hother _ fun b hb => (hrest.number hb).2
    rw [List.nil_append, hpure]
    exact .pure trivial
  | @digits letter sign ds hl hsign hdigits =>
    have hskip : k (some letter) = ignoredExponent := hletter letter hl
    rw [List.cons_append, List.head?_cons, hskip]
    exact settles_ignoredExponent hsign hdigits hrest

theorem head?_exponent {exponent : Bytes} (h : SpellsExponent exponent) (hrest : Ends rest) :
    ∀ b ∈ (exponent ++ rest).head?, isDigit b = false := by
  intro b hb
  cases h with
  | none => exact (hrest.number hb).1
  | digits hletter =>
    obtain rfl := Option.some.inj hb
    simp only [List.mem_cons, List.not_mem_nil, or_false] at hletter
    rcases hletter with rfl | rfl <;> rfl

/-- What stands behind the digits before the point. -/
theorem settles_ignoredNumberEnd {fraction exponent : Bytes} (hfraction : SpellsFraction fraction)
    (hexponent : SpellsExponent exponent) (hrest : Ends rest) :
    Settles ignoredNumberEnd (fraction ++ exponent) rest may fun _ => True := by
  cases hfraction with
  | none =>
    refine settles_exponentAhead (fun letter hletter => ?_) (fun found hfound => ?_) hexponent hrest
    · simp only [List.mem_cons, List.not_mem_nil, or_false] at hletter
      rcases hletter with rfl | rfl <;> rfl
    · split
      · exact absurd rfl (hfound _ rfl).1
      · exact absurd rfl (hfound _ rfl).2.1
      · exact absurd rfl (hfound _ rfl).2.2
      · rfl
  | @digits ds hdigits =>
    have hcount : ds.length ≠ 0 := mt List.length_eq_zero_iff.mp hdigits.1
    refine .peek (.advance ?_)
    refine .bind (settles_skipDigits hdigits.2 (head?_exponent hexponent hrest)) fun n hn => ?_
    rw [hn, if_neg hcount]
    refine settles_exponentAhead (fun letter hletter => ?_) (fun found hfound => ?_) hexponent hrest
    · simp only [List.mem_cons, List.not_mem_nil, or_false] at hletter
      rcases hletter with rfl | rfl <;> rfl
    · split
      · exact absurd rfl (hfound _ rfl).2.1
      · exact absurd rfl (hfound _ rfl).2.2
      · rfl

theorem head?_fraction {fraction exponent : Bytes} (hfraction : SpellsFraction fraction)
    (hexponent : SpellsExponent exponent) (hrest : Ends rest) :
    ∀ b ∈ (fraction ++ exponent ++ rest).head?, isDigit b = false := by
  cases hfraction with
  | none => exact head?_exponent hexponent hrest
  | digits =>
    intro b hb
    obtain rfl := Option.some.inj hb
    rfl

/-- A number whose sign has been read. -/
theorem settles_ignoredNumber {whole fraction exponent : Bytes} (hwhole : SpellsInteger whole)
    (hfraction : SpellsFraction fraction) (hexponent : SpellsExponent exponent)
    (hrest : Ends rest) :
    Settles ignoredNumber (whole ++ (fraction ++ exponent)) rest may fun _ => True := by
  have hahead := head?_fraction hfraction hexponent hrest
  have hend : Settles ignoredNumberEnd (fraction ++ exponent) rest may fun _ => True :=
    settles_ignoredNumberEnd hfraction hexponent hrest
  cases hwhole with
  | zero =>
    rw [List.singleton_append]
    refine .next (.peek ?_)
    have hdigit : (fraction ++ exponent ++ rest).head?.map isDigit ≠ some true := by
      intro h
      obtain ⟨b, hb, htrue⟩ := Option.map_eq_some_iff.mp h
      rw [hahead b hb] at htrue
      cases htrue
    rw [if_neg hdigit]
    exact hend
  | @positive d ds hzero hdigits =>
    obtain ⟨hd, hds⟩ := List.forall_mem_cons.mp hdigits.2
    refine .next ?_
    split
    · rename_i heq
      cases heq
    · rename_i heq
      exact absurd (Option.some.inj heq) hzero
    · rename_i heq
      obtain rfl := Option.some.inj heq
      rw [if_pos hd]
      exact .bind (settles_skipDigits hds hahead).discard fun _ _ => hend

/-! ## Strings -/

theorem settles_ignoredString {pieces : List Bytes} (h : ∀ piece ∈ pieces, Piece piece)
    {fuel : Nat} (hfuel : pieces.length < fuel) :
    Settles (ignoredString fuel) (pieces.flatten ++ [0x22]) rest may fun _ => True := by
  induction pieces generalizing fuel with
  | nil =>
    obtain ⟨fuel, rfl⟩ := Nat.exists_eq_succ_of_ne_zero (Nat.ne_zero_of_lt hfuel)
    exact .peek (.advance (.pure trivial))
  | cons piece pieces ih =>
    obtain ⟨fuel, rfl⟩ := Nat.exists_eq_succ_of_ne_zero (Nat.ne_zero_of_lt hfuel)
    have hmore : Settles (ignoredString fuel) (pieces.flatten ++ [0x22]) rest may fun _ => True :=
      ih (fun other hother => h other (List.mem_cons_of_mem _ hother))
        (Nat.lt_of_succ_lt_succ hfuel)
    rw [List.flatten_cons, List.append_assoc]
    refine .peek ?_
    cases h piece List.mem_cons_self with
    | @plain b hquote hslash hcontrol =>
      dsimp only [List.cons_append, List.head?_cons]
      rw [if_neg hcontrol]
      refine .advance ?_
      rw [if_neg hquote, if_neg hslash]
      exact hmore
    | @short letter octet hshort =>
      refine .advance (.next ?_)
      split
      · rename_i heq
        cases heq
      · rename_i heq
        obtain rfl := Option.some.inj heq
        cases hshort
      · rename_i heq
        obtain rfl := Option.some.inj heq
        rw [hshort]
        exact hmore
    | @numeric x y z t n hvalue =>
      refine .advance (.next ?_)
      exact .bind (takes_hexEscape hvalue).settles.discard fun _ _ => hmore

theorem length_le_flatten {pieces : List Bytes} (h : ∀ piece ∈ pieces, Piece piece) :
    pieces.length ≤ pieces.flatten.length := by
  induction pieces with
  | nil => exact Nat.le_refl 0
  | cons piece pieces ih =>
    have hpiece : 0 < piece.length := by
      cases h piece List.mem_cons_self <;> exact Nat.succ_pos _
    have hpieces := ih fun other hother => h other (List.mem_cons_of_mem _ hother)
    rw [List.flatten_cons, List.length_append, List.length_cons]
    omega

/-- A string is skipped, and what follows it is read. -/
theorem settles_string {α : Type} {k : Reader α} {post : α → Prop} (h : SpellsString octets)
    (hk : Settles k bs rest may post) :
    Settles (do advance; ignoredString (← allowance); k) (octets ++ bs) rest may post := by
  obtain ⟨pieces, hpieces, rfl⟩ := h
  have hlength := length_le_flatten hpieces
  rw [List.cons_append]
  refine .advance (.allowance fun fuel hfuel =>
    .bind (settles_ignoredString hpieces ?_) fun _ _ => hk)
  simp only [List.length_append] at hfuel
  omega

/-! ## Scalars -/

theorem settles_wordEnd (letters : Bytes) :
    Settles (do wordEnd letters; return none) letters rest may (· = (none : Option Enclosure)) :=
  (Takes.bind_nil (.wordEnd letters) (.pure none)).settles

/-- A value that encloses no others is skipped at once. -/
theorem settles_ignoredStart {kind : Kind} (h : Item kind octets) (hlist : kind ≠ .list)
    (hobject : kind ≠ .object) (hw : Blank w) (hrest : Ends rest) :
    Settles (value ignoredStart) (w ++ octets) rest may (· = none) := by
  cases h with
  | null => exact .value hw rfl (.advance (settles_wordEnd (Bytes.ofText "ull")))
  | boolean b =>
    cases b with
    | true => exact .value hw rfl (.advance (settles_wordEnd (Bytes.ofText "rue")))
    | false => exact .value hw rfl (.advance (settles_wordEnd (Bytes.ofText "alse")))
  | number h =>
    obtain ⟨sign, whole, fraction, exponent, hsign, hwhole, hfraction, hexponent, rfl⟩ := h
    have hnumber : Settles (do ignoredNumber; return none) (whole ++ (fraction ++ exponent)) rest
        may (· = (none : Option Enclosure)) :=
      (settles_ignoredNumber hwhole hfraction hexponent hrest).bind_nil fun _ _ => .pure rfl
    simp only [List.mem_cons, List.not_mem_nil, or_false] at hsign
    rcases hsign with rfl | rfl
    · obtain ⟨d, ds, rfl, hd⟩ : ∃ d ds, whole = d :: ds ∧ isDigit d = true := by
        cases hwhole with
        | zero => exact ⟨_, _, rfl, rfl⟩
        | positive _ hdigits => exact ⟨_, _, rfl, hdigits.2 _ List.mem_cons_self⟩
      have hstarts : Kind.number.Starts d := .inr hd
      refine .value hw hstarts.plain.1 ?_
      rw [ignoredStart, if_neg (ne_of_isDigit hd rfl), if_neg (ne_of_isDigit hd rfl),
        if_neg (ne_of_isDigit hd rfl), if_neg (ne_of_isDigit hd rfl), if_pos hd]
      exact hnumber
    · exact .value hw rfl (.advance hnumber)
  | string h =>
    have hstring : Settles (do advance; ignoredString (← allowance); return none) (octets ++ [])
        rest may (· = (none : Option Enclosure)) := settles_string h (.pure rfl)
    rw [List.append_nil] at hstring
    obtain ⟨pieces, -, rfl⟩ := h
    exact .value hw rfl hstring
  | list => exact absurd rfl hlist
  | object => exact absurd rfl hobject

/-! ## Enclosures -/

/-- What is left in the enclosures around a value that has just been skipped, or opened. -/
def ignoredRest (fuel : Nat) (opened : Bool) (stack : List Enclosure) : Reader Unit := do
  match ← ignoredEnds opened stack with
  | [] => return
  | top :: outer => do
    if top = .object then ignoredKey
    ignoredWithin fuel (top :: outer)

/-- The next part of an enclosure, and what is left around it. -/
def ignoredNext (fuel : Nat) (top : Enclosure) (outer : List Enclosure) : Reader Unit := do
  if top = .object then ignoredKey
  ignoredWithin fuel (top :: outer)

theorem ignoredWithin_succ (fuel : Nat) (stack : List Enclosure) :
    ignoredWithin (fuel + 1) stack = value ignoredStart >>= fun opened =>
      ignoredRest fuel opened.isSome (opened.toList ++ stack) :=
  rfl

section Enclosures

variable {fuel : Nat} {top : Enclosure} {outer stack : List Enclosure} {post : Unit → Prop}

/-- An enclosure ends. -/
theorem settles_close (hw : Blank w) (opened : Bool)
    (h : Settles (ignoredRest fuel false outer) tail rest may post) :
    Settles (ignoredRest fuel opened (top :: outer)) (w ++ top.close :: tail) rest may post := by
  have hblank : isBlank top.close = false := by cases top <;> rfl
  have hcomma : (top.close = 0x2C && !opened) = false := by cases top <;> rfl
  rw [ignoredRest, ignoredEnds, bind_assoc]
  refine .peeked hw rfl hblank ?_
  simp only [hcomma, Bool.false_eq_true, if_false, if_true, bind_assoc]
  exact .advance h

/-- Another part follows behind a comma. -/
theorem settles_comma (hw : Blank w)
    (h : Settles (ignoredNext fuel top outer) tail rest may post) :
    Settles (ignoredRest fuel false (top :: outer)) (w ++ 0x2C :: tail) rest may post := by
  rw [ignoredRest, ignoredEnds, bind_assoc]
  refine .peeked hw rfl rfl ?_
  simp only [Bool.not_false, Bool.and_true, decide_true, if_true, bind_assoc, pure_bind]
  exact .advance h

/-- A first part follows. -/
theorem settles_opened {b : UInt8} (hw : Blank w) (hb : isBlank b = false) (hclose : b ≠ top.close)
    (h : Settles (ignoredNext fuel top outer) (b :: tail) rest may post) :
    Settles (ignoredRest fuel true (top :: outer)) (w ++ b :: tail) rest may post := by
  rw [ignoredRest, ignoredEnds, bind_assoc]
  refine .peeked hw rfl hb ?_
  simp only [Bool.not_true, Bool.and_false, Bool.false_eq_true, if_false, if_neg hclose, if_true,
    pure_bind]
  exact h

end Enclosures

/-! ## Values -/

theorem settles_ignoredKey {key : Bytes} (hw : Blank w) (hw' : Blank w') (hkey : SpellsString key) :
    Settles ignoredKey (w ++ (key ++ (w' ++ [0x3A]))) rest may fun _ => True := by
  have hstring := hkey
  obtain ⟨pieces, -, rfl⟩ := hkey
  refine .peeked hw rfl rfl (settles_string hstring ?_)
  exact .peeked hw' rfl rfl ((Takes.advance 0x3A).settles.mono fun _ _ => trivial)

/-- With some of the fuel the value is skipped. The rest of the fuel is left for what is around
it. -/
def Skips (octets : Bytes) : Prop :=
  ∃ used ≤ octets.length, ∀ w, Blank w → ∀ fuel stack tail rest, Ends (tail ++ rest) →
    Settles (ignoredRest fuel false stack) tail rest False (fun _ => True) →
    Settles (ignoredWithin (used + fuel) stack) (w ++ (octets ++ tail)) rest False fun _ => True

/-- The same for a part of a list or object. -/
def SkipsPart (top : Enclosure) (part : Bytes) : Prop :=
  ∃ used ≤ part.length, ∀ w, Blank w → ∀ fuel outer tail rest, Ends (tail ++ rest) →
    Settles (ignoredRest fuel false (top :: outer)) tail rest False (fun _ => True) →
    Settles (ignoredNext (used + fuel) top outer) (w ++ (part ++ tail)) rest False fun _ => True

theorem Skips.element (h : Skips octets) : SkipsPart .list octets :=
  let ⟨used, hused, hskips⟩ := h
  ⟨used, hused, fun w hw fuel outer => hskips w hw fuel (.list :: outer)⟩

theorem Skips.member {key value part : Bytes} (h : Skips value) (hkey : SpellsString key)
    (hpart : SpellsMember key value part) : SkipsPart .object part := by
  obtain ⟨used, hused, hskips⟩ := h
  obtain ⟨w, w', hw, hw', rfl⟩ := hpart
  refine ⟨used, ?_, fun w'' hw'' fuel outer tail rest hends hrest => ?_⟩
  · simp only [List.length_append, List.length_cons]
    omega
  · have hvalue := hskips w' hw' fuel (.object :: outer) tail rest hends hrest
    have hboth := (settles_ignoredKey hw'' hw hkey).bind fun _ _ => hvalue
    simp only [List.append_assoc, List.cons_append, List.nil_append] at hboth ⊢
    exact hboth

/-- A scalar takes one step. -/
theorem skips_scalar {kind : Kind} (h : Item kind octets) (hlist : kind ≠ .list)
    (hobject : kind ≠ .object) : Skips octets := by
  have hlength : 1 ≤ octets.length := by
    obtain ⟨b, more, rfl, -⟩ := h.exists_cons
    exact Nat.succ_pos _
  refine ⟨1, hlength, fun w hw fuel stack tail rest hends hrest => ?_⟩
  rw [Nat.add_comm, ignoredWithin_succ, ← List.append_assoc]
  refine .bind (settles_ignoredStart h hlist hobject hw hends) fun opened hopened => ?_
  rw [hopened]
  exact hrest

/-- The parts of a list or object, and its bracket. -/
theorem skips_listed {top : Enclosure} {parts : List Bytes} (h : Listed parts bs)
    (hparts : ∀ part ∈ parts, SkipsPart top part) :
    ∃ used ≤ bs.length, ∀ fuel outer tail rest,
      Settles (ignoredRest fuel false outer) tail rest False (fun _ => True) →
      Settles (ignoredNext (used + fuel) top outer) (bs ++ top.close :: tail) rest False
        fun _ => True := by
  have hclose : top.close ∈ [0x2C, 0x5D, 0x7D] := by cases top <;> decide
  induction h with
  | @last part w w' hw hw' =>
    obtain ⟨used, hused, hskips⟩ := hparts part List.mem_cons_self
    refine ⟨used, ?_, fun fuel outer tail rest hrest => ?_⟩
    · simp only [List.length_append]
      omega
    · have hends : Ends (w' ++ top.close :: tail ++ rest) := by
        rw [List.append_assoc]
        exact .append hw' hclose _
      have hskip := hskips w hw fuel outer (w' ++ top.close :: tail) rest hends
        (settles_close hw' false hrest)
      simpa only [List.append_assoc] using hskip
  | @cons part w w' bs parts hw hw' _ ih =>
    obtain ⟨used, hused, hskips⟩ := hparts part List.mem_cons_self
    obtain ⟨others, hothers, hmore⟩ := ih fun other hother =>
      hparts other (List.mem_cons_of_mem _ hother)
    refine ⟨used + others, ?_, fun fuel outer tail rest hrest => ?_⟩
    · simp only [List.length_append, List.length_cons]
      omega
    · have hends : Ends (w' ++ 0x2C :: (bs ++ top.close :: tail) ++ rest) := by
        rw [List.append_assoc]
        exact .append hw' List.mem_cons_self _
      have hskip := hskips w hw (others + fuel) outer (w' ++ 0x2C :: (bs ++ top.close :: tail)) rest
        hends (settles_comma hw' (hmore fuel outer tail rest hrest))
      simpa only [List.append_assoc, List.cons_append, Nat.add_assoc] using hskip

/-- A list or object is skipped, if its parts are. -/
theorem skips_enclosed (top : Enclosure) {opening : UInt8} {parts : List Bytes}
    (hopening : isBlank opening = false)
    (hstart : Takes (ignoredStart opening) [opening] (some top))
    (h : Encloses opening top.close parts octets)
    (hparts : ∀ part ∈ parts, SkipsPart top part ∧
      ∃ b more, part = b :: more ∧ isBlank b = false ∧ b ≠ top.close) : Skips octets := by
  -- Behind its bracket, the enclosure is what is skipped next.
  have hopen : ∀ w, Blank w → ∀ fuel stack more rest,
      Settles (ignoredRest fuel true (top :: stack)) more rest False (fun _ => True) →
      Settles (ignoredWithin (fuel + 1) stack) (w ++ opening :: more) rest False fun _ => True := by
    intro w hw fuel stack more rest hrest
    rw [ignoredWithin_succ, ← List.singleton_append, ← List.append_assoc]
    refine .bind (.value hw hopening hstart.settles) fun opened hopened => ?_
    rw [hopened]
    exact hrest
  cases h with
  | @empty w hw =>
    refine ⟨1, Nat.succ_pos _, fun w' hw' fuel stack tail rest hends hrest => ?_⟩
    rw [Nat.add_comm, List.cons_append, List.append_assoc, List.singleton_append]
    exact hopen w' hw' fuel stack _ rest (settles_close hw true hrest)
  | @listed parts bs hlisted =>
    obtain ⟨w, hw, part, hpart, more, rfl, htrimmed⟩ := hlisted.trim
    obtain ⟨-, b, part', rfl, hb, hclose⟩ := hparts part hpart
    obtain ⟨used, hused, hskips⟩ := skips_listed htrimmed fun part hpart => (hparts part hpart).1
    refine ⟨used + 1, ?_, fun w' hw' fuel stack tail rest hends hrest => ?_⟩
    · simp only [List.length_append, List.length_cons] at hused ⊢
      omega
    · have hcontent := hskips fuel stack tail rest hrest
      rw [List.append_assoc, List.cons_append] at hcontent
      have houtside := hopen w' hw' (used + fuel) stack _ rest
        (settles_opened hw hb hclose hcontent)
      rw [Nat.add_right_comm]
      simpa only [List.append_assoc, List.cons_append, List.nil_append] using houtside

theorem skips_item {kind : Kind} (h : Item kind octets) : Skips octets := by
  induction h with
  | null => exact skips_scalar .null (by decide) (by decide)
  | boolean b => exact skips_scalar (.boolean b) (by decide) (by decide)
  | number h => exact skips_scalar (.number h) (by decide) (by decide)
  | string h => exact skips_scalar (.string h) (by decide) (by decide)
  | @list parts octets hparts h ih =>
    have hstart : Takes (ignoredStart 0x5B) [0x5B] (some .list) :=
      .bind_nil (.advance 0x5B) (.pure _)
    refine skips_enclosed .list rfl hstart h fun part hpart => ?_
    obtain ⟨⟨kind, octets⟩, hmem, rfl⟩ := List.mem_map.mp hpart
    obtain ⟨b, more, heq, hstarts⟩ := (hparts _ hmem).exists_cons
    exact ⟨(ih _ hmem).element, b, more, heq, hstarts.plain.1, hstarts.plain.2.1⟩
  | @object members octets hkeys _ hmembers h ih =>
    have hstart : Takes (ignoredStart 0x7B) [0x7B] (some .object) :=
      .bind_nil (.advance 0x7B) (.pure _)
    refine skips_enclosed .object rfl hstart h fun part hpart => ?_
    obtain ⟨member, hmem, rfl⟩ := List.mem_map.mp hpart
    obtain ⟨more, heq⟩ := (hmembers _ hmem).exists_cons (hkeys _ hmem).exists_cons
    exact ⟨(ih _ hmem).member (hkeys _ hmem) (hmembers _ hmem), 0x22, more, heq, rfl, by decide⟩

/-- Every value is skipped, exactly. -/
theorem settles_ignored {kind : Kind} (h : Item kind octets) (hw : Blank w) (hrest : Ends rest) :
    Settles ignored (w ++ octets) rest False fun _ => True := by
  obtain ⟨used, hused, hskips⟩ := skips_item h
  refine .allowance fun fuel hfuel => ?_
  obtain ⟨left, rfl⟩ : ∃ left, fuel = used + left := Nat.exists_eq_add_of_le (by
    simp only [List.length_append] at hfuel
    omega)
  have hskip := hskips w hw left [] [] rest hrest (.pure trivial)
  rwa [List.append_nil] at hskip

end DiscoveryGraph.Json.Reader
