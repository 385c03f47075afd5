import DiscoveryGraph.Json.Value
import DiscoveryGraph.Json.Writer
import DiscoveryGraph.Proofs.Octets

/-!
# What was printed is read back

A reader takes some octets and leaves what follows them. White space before a value, before a comma
and before a bracket is skipped. Lists and objects are read by loops of one and the same shape, so
what these loops make of their parts is proved once.

* `Takes`: a reader takes some octets.
* `Stands`: a piece of a string stands for some octets of a text.
* `Parts`: the content of a list or object, with white space wherever it may be.
* `takes_writeText`, `takes_texts`, `takes_writeRecord`: printed texts, lists and records are read
  back.
-/

namespace DiscoveryGraph.Json.Reader

variable {α β σ : Type} {r : Reader α} {f : α → Reader β} {xs ys bs w w' rest : Bytes} {a : α}
  {b : β} {octet : UInt8} {index : Nat}

/-- The reader reads the value from these octets, whatever follows them. -/
def Takes (r : Reader α) (bs : Bytes) (a : α) : Prop :=
  ∀ index rest, ∃ index', r.run ⟨index, bs ++ rest⟩ = .ok (a, ⟨index', rest⟩)

theorem run_bind_of_ok {c c' : Cursor} (h : r.run c = .ok (a, c')) :
    (r >>= f).run c = (f a).run c' := by
  rw [StateT.run_bind, h]
  rfl

theorem run_advance (octet : UInt8) (index : Nat) (rest : Bytes) :
    advance.run ⟨index, octet :: rest⟩ = .ok ((), ⟨index + 1, rest⟩) :=
  rfl

namespace Takes

theorem pure (a : α) : Takes (pure a) [] a :=
  fun index _ => ⟨index, rfl⟩

theorem bind (hr : Takes r xs a) (hf : Takes (f a) ys b) : Takes (r >>= f) (xs ++ ys) b := by
  intro index rest
  obtain ⟨mid, hmid⟩ := hr index (ys ++ rest)
  obtain ⟨last, hlast⟩ := hf mid rest
  exact ⟨last, by rw [List.append_assoc, run_bind_of_ok hmid, hlast]⟩

/-- A reader of one octet comes first. -/
theorem bind_cons (hr : Takes r [octet] a) (hf : Takes (f a) bs b) :
    Takes (r >>= f) (octet :: bs) b :=
  hr.bind hf

theorem bind_nil (hr : Takes r bs a) (hf : Takes (f a) [] b) : Takes (r >>= f) bs b := by
  rw [← List.append_nil bs]
  exact hr.bind hf

theorem map (hr : Takes r bs a) (g : α → β) : Takes (do return g (← r)) bs (g a) :=
  hr.bind_nil (pure (g a))

theorem placed (hr : Takes r bs a) : Takes (placed r) bs a := by
  intro index rest
  obtain ⟨last, hlast⟩ := hr index rest
  have hread : r ⟨index, bs ++ rest⟩ = .ok (a, ⟨last, rest⟩) := hlast
  refine ⟨last, ?_⟩
  rw [StateT.run, Reader.placed, hread]

/-- There is fuel for every octet. -/
theorem allowance {f : Nat → Reader β} (hf : ∀ fuel, bs.length < fuel → Takes (f fuel) bs b) :
    Takes (allowance >>= f) bs b := by
  intro index rest
  refine hf ((bs ++ rest).length + 1) ?_ index rest
  rw [List.length_append]
  omega

theorem advance (octet : UInt8) : Takes advance [octet] () :=
  fun index rest => ⟨index + 1, run_advance octet index rest⟩

theorem next (octet : UInt8) : Takes next [octet] (some octet) :=
  fun index _ => ⟨index + 1, rfl⟩

theorem wordEnd (letters : Bytes) : Takes (wordEnd letters) letters () := by
  induction letters with
  | nil => exact pure ()
  | cons letter letters ih =>
    refine bind_cons (next letter) ?_
    simp only [if_true]
    exact ih

end Takes

/-! ## White space -/

/-- Nothing but white space. -/
def Blank (w : Bytes) : Prop :=
  ∀ b ∈ w, isBlank b = true

theorem run_peekPastBlanks (hw : Blank w) (hoctet : isBlank octet = false) (index : Nat)
    (rest : Bytes) : peekPastBlanks.run ⟨index, w ++ octet :: rest⟩ =
      .ok (some octet, ⟨index + w.length, octet :: rest⟩) := by
  have hskip : (⟨index, w ++ octet :: rest⟩ : Cursor).skipBlanks =
      ⟨index + w.length, octet :: rest⟩ := by
    rw [Cursor.skipBlanks, List.takeWhile_append_of_pos hw, List.dropWhile_append_of_pos hw,
      List.takeWhile_cons_of_neg (by simp [hoctet]), List.dropWhile_cons_of_neg (by simp [hoctet]),
      List.append_nil]
  have hmodify : (modify Cursor.skipBlanks : Reader Unit).run ⟨index, w ++ octet :: rest⟩ =
      .ok ((), ⟨index + w.length, octet :: rest⟩) := by
    rw [← hskip]
    rfl
  rw [peekPastBlanks, run_bind_of_ok hmodify]
  rfl

/-- Reading goes on with the first octet behind white space. -/
theorem Takes.peeked {k : Option UInt8 → Reader α} (hw : Blank w) (hoctet : isBlank octet = false)
    (hk : Takes (k (some octet)) (octet :: bs) a) :
    Takes (peekPastBlanks >>= k) (w ++ octet :: bs) a := by
  intro index rest
  obtain ⟨last, hlast⟩ := hk (index + w.length) rest
  refine ⟨last, ?_⟩
  rw [List.append_assoc, List.cons_append,
    run_bind_of_ok (run_peekPastBlanks hw hoctet index (bs ++ rest)), ← hlast]
  rfl

/-- A value is told apart by its first octet. -/
theorem Takes.value {read : UInt8 → Reader α} (hw : Blank w) (hoctet : isBlank octet = false)
    (hread : Takes (read octet) (octet :: bs) a) : Takes (value read) (w ++ octet :: bs) a :=
  .peeked hw hoctet hread

theorem blank_space : Blank [0x20] := by
  simp [Blank, isBlank]

theorem blank_newLine (depth : Nat) : Blank (newLine depth) := by
  intro b hb
  rcases List.mem_cons.mp hb with rfl | hb
  · rfl
  · rw [(List.mem_replicate.mp hb).2]
    rfl

/-! ## Scalars -/

theorem takes_boolean (hw : Blank w) (b : Bool) : Takes boolean (w ++ writeBoolean b) b := by
  cases b with
  | false =>
    have hword : Takes (do wordEnd (Bytes.ofText "alse"); return false) (Bytes.ofText "alse")
        false := .bind_nil (.wordEnd _) (.pure false)
    exact .value hw rfl (.bind_cons (.advance 0x66) hword)
  | true =>
    have hword : Takes (do wordEnd (Bytes.ofText "rue"); return true) (Bytes.ofText "rue")
        true := .bind_nil (.wordEnd _) (.pure true)
    exact .value hw rfl (.bind_cons (.advance 0x74) hword)

/-! ## Texts -/

/-- In a string, the piece stands for these octets. -/
def Stands (piece octets : Bytes) : Prop :=
  piece ≠ [] ∧ ∀ fuel more all, Takes (stringRest .text fuel) more all →
    Takes (stringRest .text (fuel + 1)) (piece ++ more) (octets ++ all)

/-- A string is read piece by piece up to its closing quote. -/
theorem takes_stringRest {pieces : List (Bytes × Bytes)}
    (h : ∀ piece ∈ pieces, Stands piece.1 piece.2) {fuel : Nat}
    (hfuel : (pieces.flatMap (·.1)).length < fuel) :
    Takes (stringRest .text fuel) (pieces.flatMap (·.1) ++ [0x22]) (pieces.flatMap (·.2)) := by
  induction pieces generalizing fuel with
  | nil =>
    obtain ⟨fuel, rfl⟩ := Nat.exists_eq_succ_of_ne_zero (Nat.ne_zero_of_lt hfuel)
    exact .bind_nil (.next 0x22) (.pure [])
  | cons piece pieces ih =>
    obtain ⟨fuel, rfl⟩ := Nat.exists_eq_succ_of_ne_zero (Nat.ne_zero_of_lt hfuel)
    obtain ⟨hne, hstands⟩ := h piece List.mem_cons_self
    have hlength := List.length_pos_iff.mpr hne
    rw [List.flatMap_cons, List.length_append] at hfuel
    rw [List.flatMap_cons, List.flatMap_cons, List.append_assoc]
    exact hstands fuel _ _ (ih (fun other hother => h other (List.mem_cons_of_mem _ hother))
      (by omega))

/-- An escape stands for what it is read as. -/
theorem Stands.escape {piece octets : Bytes} (h : Takes (escape .text) piece octets) :
    Stands (0x5C :: piece) octets := by
  refine ⟨List.cons_ne_nil _ _, fun fuel more all hmore => ?_⟩
  exact .bind_cons (.next 0x5C) (h.bind (hmore.map _))

/-- Most octets stand for themselves. -/
theorem Stands.self (hquote : octet ≠ 0x22) (hslash : octet ≠ 0x5C) (hcontrol : ¬ octet < 0x20) :
    Stands [octet] [octet] := by
  refine ⟨List.cons_ne_nil _ _, fun fuel more all hmore => .bind (.next octet) ?_⟩
  split
  · rename_i h
    cases h
  · rename_i h
    exact absurd (Option.some.inj h) hquote
  · rename_i h
    exact absurd (Option.some.inj h) hslash
  · rename_i h
    obtain rfl := Option.some.inj h
    rw [if_neg (by simp [hcontrol])]
    exact hmore.map _

theorem takes_shortEscape {letter : UInt8} (hletter : letter ≠ 0x75)
    (h : shortEscape? letter = some octet) : Takes (escape .text) [letter] [octet] := by
  refine .bind_nil (.next letter) ?_
  split
  · rename_i heq
    cases heq
  · rename_i heq
    exact absurd (Option.some.inj heq) hletter
  · rename_i heq
    obtain rfl := Option.some.inj heq
    rw [h]
    exact .pure [octet]

theorem Stands.short {letter : UInt8} (hletter : letter ≠ 0x75)
    (h : shortEscape? letter = some octet) : Stands [0x5C, letter] [octet] :=
  .escape (takes_shortEscape hletter h)

theorem takes_hexEscape {x y z t : UInt8} {n : Nat} (h : hexValues? x y z t = some n) :
    Takes hexEscape [x, y, z, t] n := by
  intro index rest
  refine ⟨index + 4, ?_⟩
  have hget : (get : Reader Cursor).run ⟨index, [x, y, z, t] ++ rest⟩ =
      .ok (⟨index, x :: y :: z :: t :: rest⟩, ⟨index, x :: y :: z :: t :: rest⟩) := rfl
  rw [hexEscape, run_bind_of_ok hget]
  simp only [h]
  rfl

/-- The number of a control character is read back from its two digits. -/
theorem hexValues?_control : ∀ n < 32,
    (match Bytes.ofText (Bytes.hex [UInt8.ofNat n]) with
      | [y, z] => hexValues? 0x30 0x30 y z
      | _ => none) = some n := by
  decide

theorem exists_hexDigits (h : octet < 0x20) : ∃ y z,
    Bytes.ofText (Bytes.hex [octet]) = [y, z] ∧ hexValues? 0x30 0x30 y z = some octet.toNat := by
  have hlt : octet.toNat < 32 := h
  have hvalue := hexValues?_control octet.toNat hlt
  rw [UInt8.ofNat_toNat] at hvalue
  split at hvalue
  · rename_i y z hdigits
    exact ⟨y, z, hdigits, hvalue⟩
  · cases hvalue

/-- A numeric escape that is not half a pair. -/
theorem takes_numericEscape {x y z t : UInt8} {n : Nat} (h : hexValues? x y z t = some n)
    (htrailing : isTrailing n = false) (hleading : isLeading n = false) :
    Takes (escape .text) [0x75, x, y, z, t] (schemeOctets n) := by
  refine .bind_cons (.next 0x75) (.bind_nil (takes_hexEscape h) ?_)
  simp only [htrailing, hleading, Bool.false_eq_true, if_false]
  exact .pure _

theorem Stands.control (h : octet < 0x20) :
    Stands (Bytes.ofText "\\u00" ++ Bytes.ofText (Bytes.hex [octet])) [octet] := by
  obtain ⟨y, z, hdigits, hvalue⟩ := exists_hexDigits h
  have hlt : octet.toNat < 32 := h
  have htrailing : isTrailing octet.toNat = false := by
    simp only [isTrailing, Bool.and_eq_false_iff, decide_eq_false_iff_not]
    omega
  have hleading : isLeading octet.toNat = false := by
    simp only [isLeading, Bool.and_eq_false_iff, decide_eq_false_iff_not]
    omega
  have hscheme : schemeOctets octet.toNat = [octet] := by
    rw [schemeOctets, if_pos (by omega), UInt8.ofNat_toNat]
  have hescape := Stands.escape (takes_numericEscape hvalue htrailing hleading)
  rw [hscheme] at hescape
  rw [hdigits]
  exact hescape

theorem stands_writeOctet (octet : UInt8) : Stands (writeOctet octet) [octet] := by
  unfold writeOctet
  split_ifs with hquote hslash hback htab hline hform hreturn hcontrol
  · subst hquote
    exact .short (by decide) rfl
  · subst hslash
    exact .short (by decide) rfl
  · subst hback
    exact .short (by decide) rfl
  · subst htab
    exact .short (by decide) rfl
  · subst hline
    exact .short (by decide) rfl
  · subst hform
    exact .short (by decide) rfl
  · subst hreturn
    exact .short (by decide) rfl
  · exact .control hcontrol
  · exact .self hquote hslash hcontrol

/-- A string whose pieces stand for a text is read as this text. -/
theorem takes_textOfString (pieces : List (Bytes × Bytes)) {s : String}
    (h : ∀ piece ∈ pieces, Stands piece.1 piece.2)
    (hs : pieces.flatMap (·.2) = Bytes.ofText s) :
    Takes textOfString (pieces.flatMap (·.1) ++ [0x22]) s := by
  refine .allowance fun fuel hfuel => ?_
  rw [List.length_append, List.length_singleton] at hfuel
  refine (takes_stringRest h (by omega)).bind_nil ?_
  rw [hs, Bytes.toText?_ofText]
  exact .pure s

theorem takes_writtenString (s : String) :
    Takes textOfString ((Bytes.ofText s).flatMap writeOctet ++ [0x22]) s := by
  let pieces := (Bytes.ofText s).map fun octet => (writeOctet octet, [octet])
  have hpieces : ∀ piece ∈ pieces, Stands piece.1 piece.2 := by
    intro piece hpiece
    obtain ⟨octet, -, rfl⟩ := List.mem_map.mp hpiece
    exact stands_writeOctet octet
  have hall : pieces.flatMap (·.2) = Bytes.ofText s := by
    rw [List.flatMap_map]
    exact List.flatMap_singleton' _
  have hread := takes_textOfString pieces hpieces hall
  rwa [List.flatMap_map] at hread

theorem takes_writeText (hw : Blank w) (s : String) : Takes text (w ++ writeText s) s := by
  refine .value hw rfl (.placed ?_)
  exact .bind_cons (.advance 0x22) (.bind_nil (takes_writtenString s) (.pure s))

/-! ## Loops over parts -/

/-- How a loop finds out whether a part follows: a part begins with a certain octet, is set apart
from the one before by a comma, and the last one is followed by a bracket. -/
structure Separates (has : Bool → Reader Bool) (starts : UInt8 → Prop) (bracket : UInt8) :
    Prop where
  first {w : Bytes} (hw : Blank w) {octet : UInt8} (hoctet : starts octet) (index : Nat)
    (rest : Bytes) : ∃ index', (has true).run ⟨index, w ++ octet :: rest⟩ =
      .ok (true, ⟨index', octet :: rest⟩)
  other {w w' : Bytes} (hw : Blank w) (hw' : Blank w') {octet : UInt8} (hoctet : starts octet)
    (index : Nat) (rest : Bytes) :
    ∃ index', (has false).run ⟨index, w ++ 0x2C :: (w' ++ octet :: rest)⟩ =
      .ok (true, ⟨index', octet :: rest⟩)
  last (first : Bool) {w : Bytes} (hw : Blank w) (index : Nat) (rest : Bytes) :
    ∃ index', (has first).run ⟨index, w ++ bracket :: rest⟩ = .ok (false, ⟨index', bracket :: rest⟩)

/-- What stands behind a part of a list or object, up to the bracket. -/
inductive Trail (step : σ → Reader σ) (starts : UInt8 → Prop) : σ → Bytes → σ → Prop where
  | nil {s : σ} {w : Bytes} (hw : Blank w) : Trail step starts s w s
  | cons {s s' s'' : σ} {w w' part trail : Bytes} {octet : UInt8} (hw : Blank w) (hw' : Blank w')
      (hstart : starts octet) (hpart : Takes (step s) (octet :: part) s')
      (htrail : Trail step starts s' trail s'') :
      Trail step starts s (w ++ 0x2C :: (w' ++ octet :: (part ++ trail))) s''

/-- What stands between the brackets of a list or object. -/
inductive Parts (step : σ → Reader σ) (starts : UInt8 → Prop) : σ → Bytes → σ → Prop where
  | nil {s : σ} {w : Bytes} (hw : Blank w) : Parts step starts s w s
  | cons {s s' s'' : σ} {w part trail : Bytes} {octet : UInt8} (hw : Blank w)
      (hstart : starts octet) (hpart : Takes (step s) (octet :: part) s')
      (htrail : Trail step starts s' trail s'') :
      Parts step starts s (w ++ octet :: (part ++ trail)) s''

/-- A loop that reads parts as long as some follow. -/
structure Loops (loop : Nat → Bool → σ → Reader σ) (has : Bool → Reader Bool)
    (step : σ → Reader σ) : Prop where
  succ (fuel : Nat) (first : Bool) (s : σ) : loop (fuel + 1) first s =
    do if ← has first then loop fuel false (← step s) else return s

section Loop

variable {loop : Nat → Bool → σ → Reader σ} {has : Bool → Reader Bool} {step : σ → Reader σ}
  {starts : UInt8 → Prop} {bracket : UInt8} {s s' : σ}

theorem Loops.run_part (hloops : Loops loop has step) {fuel : Nat} {first : Bool}
    {c c' c'' : Cursor} (hhas : (has first).run c = .ok (true, c'))
    (hstep : (step s).run c' = .ok (s', c'')) :
    (loop (fuel + 1) first s).run c = (loop fuel false s').run c'' := by
  rw [hloops.succ, run_bind_of_ok hhas]
  simp only [if_true]
  rw [run_bind_of_ok hstep]

theorem Loops.run_end (hloops : Loops loop has step) {fuel : Nat} {first : Bool} {c c' : Cursor}
    (hhas : (has first).run c = .ok (false, c')) :
    (loop (fuel + 1) first s).run c = .ok (s, c') := by
  rw [hloops.succ, run_bind_of_ok hhas]
  rfl

theorem Trail.run (ht : Trail step starts s bs s') (hloops : Loops loop has step)
    (hseparates : Separates has starts bracket) {fuel : Nat} (hfuel : bs.length < fuel)
    (index : Nat) (rest : Bytes) : ∃ index',
      (loop fuel false s).run ⟨index, bs ++ bracket :: rest⟩ =
        .ok (s', ⟨index', bracket :: rest⟩) := by
  induction ht generalizing fuel index with
  | @nil s w hw =>
    obtain ⟨fuel, rfl⟩ := Nat.exists_eq_succ_of_ne_zero (Nat.ne_zero_of_lt hfuel)
    obtain ⟨last, hlast⟩ := hseparates.last false hw index rest
    exact ⟨last, hloops.run_end hlast⟩
  | @cons s next last w w' part trail octet hw hw' hstart hpart _ ih =>
    obtain ⟨fuel, rfl⟩ := Nat.exists_eq_succ_of_ne_zero (Nat.ne_zero_of_lt hfuel)
    obtain ⟨mid, hmid⟩ := hseparates.other hw hw' hstart index (part ++ (trail ++ bracket :: rest))
    obtain ⟨mid', hmid'⟩ := hpart mid (trail ++ bracket :: rest)
    have hlength : trail.length < fuel := by
      simp only [List.length_append, List.length_cons] at hfuel
      omega
    obtain ⟨last, hlast⟩ := ih hlength mid'
    refine ⟨last, ?_⟩
    simp only [List.append_assoc, List.cons_append] at hmid hmid' ⊢
    rw [Nat.succ_eq_add_one, hloops.run_part hmid hmid', hlast]

theorem Parts.run (hp : Parts step starts s bs s') (hloops : Loops loop has step)
    (hseparates : Separates has starts bracket) {fuel : Nat} (hfuel : bs.length < fuel)
    (index : Nat) (rest : Bytes) : ∃ index',
      (loop fuel true s).run ⟨index, bs ++ bracket :: rest⟩ =
        .ok (s', ⟨index', bracket :: rest⟩) := by
  obtain ⟨fuel, rfl⟩ := Nat.exists_eq_succ_of_ne_zero (Nat.ne_zero_of_lt hfuel)
  cases hp with
  | nil hw =>
    obtain ⟨last, hlast⟩ := hseparates.last true hw index rest
    exact ⟨last, hloops.run_end hlast⟩
  | @cons _ next w part trail octet hw hstart hpart htrail =>
    obtain ⟨mid, hmid⟩ := hseparates.first hw hstart index (part ++ (trail ++ bracket :: rest))
    obtain ⟨mid', hmid'⟩ := hpart mid (trail ++ bracket :: rest)
    have hlength : trail.length < fuel := by
      simp only [List.length_append, List.length_cons] at hfuel
      omega
    obtain ⟨last, hlast⟩ := htrail.run hloops hseparates hlength mid' rest
    refine ⟨last, ?_⟩
    simp only [List.append_assoc, List.cons_append] at hmid hmid' ⊢
    rw [Nat.succ_eq_add_one, hloops.run_part hmid hmid', hlast]

end Loop

theorem loops_elements (step : σ → Reader σ) : Loops (elements step) hasElement step where
  succ _ _ _ := rfl

theorem loops_entries (fields : List (Field Reader σ)) :
    Loops (entries fields) hasEntry (entry fields) where
  succ _ _ _ := rfl

/-- The first octet of an element. -/
def StartsElement (octet : UInt8) : Prop :=
  isBlank octet = false ∧ octet ≠ 0x5D

/-- The first octet of an entry. -/
def StartsEntry (octet : UInt8) : Prop :=
  octet = 0x22

theorem separates_hasElement : Separates hasElement StartsElement 0x5D where
  first {w} hw {octet} hoctet index rest := by
    refine ⟨index + w.length, ?_⟩
    rw [hasElement, run_bind_of_ok (run_peekPastBlanks hw hoctet.1 index rest)]
    simp only [if_neg hoctet.2, if_true]
    rfl
  other {w w'} hw hw' {octet} hoctet index rest := by
    refine ⟨index + w.length + 1 + w'.length, ?_⟩
    rw [hasElement, run_bind_of_ok (run_peekPastBlanks hw rfl index (w' ++ octet :: rest))]
    refine (run_bind_of_ok (run_advance _ _ _)).trans ?_
    rw [run_bind_of_ok (run_peekPastBlanks hw' hoctet.1 (index + w.length + 1) rest)]
    simp only [if_neg hoctet.2]
    rfl
  last first {w} hw index rest := by
    refine ⟨index + w.length, ?_⟩
    rw [hasElement, run_bind_of_ok (run_peekPastBlanks hw rfl index rest)]
    rfl

theorem separates_hasEntry : Separates hasEntry StartsEntry 0x7D where
  first {w} hw {octet} hoctet index rest := by
    obtain rfl := hoctet
    refine ⟨index + w.length, ?_⟩
    rw [hasEntry, run_bind_of_ok (run_peekPastBlanks hw rfl index rest)]
    rfl
  other {w w'} hw hw' {octet} hoctet index rest := by
    obtain rfl := hoctet
    refine ⟨index + w.length + 1 + w'.length, ?_⟩
    rw [hasEntry, run_bind_of_ok (run_peekPastBlanks hw rfl index (w' ++ 0x22 :: rest))]
    refine (run_bind_of_ok (run_advance _ _ _)).trans ?_
    rw [run_bind_of_ok (run_peekPastBlanks hw' rfl (index + w.length + 1) rest)]
    rfl
  last first {w} hw index rest := by
    refine ⟨index + w.length, ?_⟩
    rw [hasEntry, run_bind_of_ok (run_peekPastBlanks hw rfl index rest)]
    rfl

/-! ## Lists and objects -/

theorem takes_closedBy {read : Reader α} {close : Reader Unit} {bracket : UInt8}
    (hread : ∀ index rest, ∃ index', read.run ⟨index, bs ++ bracket :: rest⟩ =
      .ok (a, ⟨index', bracket :: rest⟩)) (hclose : Takes close [bracket] ()) :
    Takes (closedBy read close) (bs ++ [bracket]) a := by
  intro index rest
  obtain ⟨mid, hmid⟩ := hread index rest
  obtain ⟨last, hlast⟩ := hclose mid rest
  have hcontent : read ⟨index, bs ++ ([bracket] ++ rest)⟩ = .ok (a, ⟨mid, bracket :: rest⟩) := hmid
  have hend : close ⟨mid, bracket :: rest⟩ = .ok ((), ⟨last, rest⟩) := hlast
  refine ⟨last, ?_⟩
  rw [List.append_assoc, StateT.run, closedBy, hcontent]
  dsimp only
  rw [hend]
  rfl

theorem takes_listEnd : Takes listEnd [0x5D] () :=
  .peeked (w := []) nofun rfl (.advance 0x5D)

theorem takes_objectEnd : Takes objectEnd [0x7D] () :=
  .peeked (w := []) nofun rfl (.advance 0x7D)

theorem takes_colon (hw : Blank w) : Takes colon (w ++ [0x3A]) () :=
  .peeked hw rfl (.advance 0x3A)

/-- The content of a list or object is read up to its bracket. -/
theorem Parts.run_allowance {loop : Nat → Bool → σ → Reader σ} {has : Bool → Reader Bool}
    {step : σ → Reader σ} {starts : UInt8 → Prop} {bracket : UInt8} {s s' : σ}
    (hp : Parts step starts s bs s') (hloops : Loops loop has step)
    (hseparates : Separates has starts bracket) (index : Nat) (rest : Bytes) :
    ∃ index', (do loop (← allowance) true s : Reader σ).run ⟨index, bs ++ bracket :: rest⟩ =
      .ok (s', ⟨index', bracket :: rest⟩) := by
  have hfuel : bs.length < (bs ++ bracket :: rest).length + 1 := by
    rw [List.length_append]
    omega
  exact hp.run hloops hseparates hfuel index rest

/-- A list is read part by part. -/
theorem takes_list {element : Reader α} {all : List α} (hw : Blank w)
    (hp : Parts (fun xs => return xs ++ [← element]) StartsElement [] bs all) :
    Takes (list element) (w ++ 0x5B :: (bs ++ [0x5D])) all := by
  refine .value hw rfl (.placed (.bind_cons (.advance 0x5B) ?_))
  exact takes_closedBy (hp.run_allowance (loops_elements _) separates_hasElement) takes_listEnd

/-- A record is read entry by entry. -/
theorem takes_record {name : String} {fields : List (Field Reader σ)}
    {short : Nat → Option Mismatch} {blank d : σ} {finish : σ → Except Mismatch α} (hw : Blank w)
    (hp : Parts (entry fields) StartsEntry blank bs d) (hfinish : finish d = .ok a) :
    Takes (record name fields short blank finish) (w ++ 0x7B :: (bs ++ [0x7D])) a := by
  refine .value hw rfl (.placed (.bind_cons (.advance 0x7B) ?_))
  refine takes_closedBy (fun index rest => ?_) takes_objectEnd
  obtain ⟨last, hlast⟩ :=
    hp.run_allowance (loops_entries fields) separates_hasEntry index rest
  have hread := run_bind_of_ok (f := fun d => checked (finish d)) hlast
  rw [bind_assoc, hfinish] at hread
  exact ⟨last, hread⟩

/-- One entry of a record. -/
theorem takes_entry {fields : List (Field Reader σ)} {field : Field Reader σ} {name : String}
    {d d' : σ} (hfield : fields.find? (·.name = name) = some field)
    (habsent : field.present d = false) (hw : Blank w) (hvalue : Takes (field.read d) bs d') :
    Takes (entry fields d) (writeText name ++ (w ++ [0x3A] ++ bs)) d' := by
  refine .bind_cons (.advance 0x22) (.bind (takes_writtenString name) ?_)
  simp only [hfield, habsent]
  exact .bind (takes_colon hw) hvalue

/-! ## The printed form -/

/-- Printed parts, one after the other. -/
inductive Links (step : σ → Reader σ) (starts : UInt8 → Prop) : σ → List Bytes → σ → Prop where
  | nil (s : σ) : Links step starts s [] s
  | cons {s s' s'' : σ} {octet : UInt8} {part : Bytes} {parts : List Bytes} (hstart : starts octet)
      (hpart : Takes (step s) (octet :: part) s') (hparts : Links step starts s' parts s'') :
      Links step starts s ((octet :: part) :: parts) s''

theorem Links.trail {step : σ → Reader σ} {starts : UInt8 → Prop} {s s' : σ} {parts : List Bytes}
    (h : Links step starts s parts s') (depth : Nat) : Trail step starts s
      ((parts.flatMap fun part => 0x2C :: newLine (depth + 1) ++ part) ++ newLine depth) s' := by
  induction h with
  | nil s => exact .nil (blank_newLine depth)
  | cons hstart hpart _ ih =>
    rw [List.flatMap_cons, List.append_assoc, List.cons_append, List.cons_append, List.append_assoc]
    exact .cons (w := []) nofun (blank_newLine (depth + 1)) hstart hpart ih

/-- What is printed between brackets are the parts, with white space around them. -/
theorem Links.parts {step : σ → Reader σ} {starts : UInt8 → Prop} {s s' : σ} {parts : List Bytes}
    (h : Links step starts s parts s') (opening closing : UInt8) (depth : Nat) :
    ∃ bs, writeParts opening closing depth parts = opening :: (bs ++ [closing]) ∧
      Parts step starts s bs s' := by
  cases h with
  | nil => exact ⟨[], rfl, .nil nofun⟩
  | @cons _ next _ octet part parts hstart hpart hparts =>
    refine ⟨_, ?_, .cons (blank_newLine (depth + 1)) hstart hpart (hparts.trail depth)⟩
    simp [writeParts]

theorem links_elements {element : Reader α} {write : α → Bytes} {all : List α}
    (hread : ∀ x ∈ all, ∃ octet part, write x = octet :: part ∧ StartsElement octet ∧
      Takes element (octet :: part) x) (done : List α) :
    Links (fun xs => return xs ++ [← element]) StartsElement done (all.map write)
      (done ++ all) := by
  induction all generalizing done with
  | nil => simpa using Links.nil done
  | cons x all ih =>
    obtain ⟨octet, part, hwrite, hstart, hpart⟩ := hread x List.mem_cons_self
    have hnext := ih (fun y hy => hread y (List.mem_cons_of_mem x hy)) (done ++ [x])
    rw [List.append_assoc] at hnext
    rw [List.map_cons, hwrite]
    exact .cons hstart (hpart.map fun x => done ++ [x]) hnext

/-- A printed list of texts is read back. -/
theorem takes_texts (hw : Blank w) (depth : Nat) (all : List String) :
    Takes (list text) (w ++ writeList (fun _ => writeText) depth all) all := by
  have hlinks : Links (fun xs => return xs ++ [← text]) StartsElement [] (all.map writeText)
      ([] ++ all) := links_elements
    (fun s _ => ⟨0x22, _, rfl, ⟨rfl, by decide⟩, takes_writeText (w := []) nofun s⟩) []
  obtain ⟨bs, hwrite, hparts⟩ := hlinks.parts 0x5B 0x5D depth
  rw [writeList, hwrite]
  exact takes_list hw hparts

/-- A printed record is read back, if its entries are. -/
theorem takes_writeRecord {name : String} {fields : List (Field Reader σ)}
    {short : Nat → Option Mismatch} {blank d : σ} {finish : σ → Except Mismatch α} {depth : Nat}
    {written : List (String × (Nat → Bytes))} (hw : Blank w)
    (hlinks : Links (entry fields) StartsEntry blank (written.map fun field =>
      writeText field.1 ++ [0x3A, 0x20] ++ field.2 (depth + 1)) d) (hfinish : finish d = .ok a) :
    Takes (record name fields short blank finish) (w ++ writeRecord depth written) a := by
  obtain ⟨bs, hwrite, hparts⟩ := hlinks.parts 0x7B 0x7D depth
  rw [writeRecord, hwrite]
  exact takes_record hw hparts hfinish

/-- One printed entry, and the entries behind it. -/
theorem Links.entry {fields : List (Field Reader σ)} {field : Field Reader σ} {name : String}
    {d d' d'' : σ} {value : Bytes} {parts : List Bytes}
    (hfield : fields.find? (·.name = name) = some field) (habsent : field.present d = false)
    (hvalue : Takes (field.read d) (0x20 :: value) d')
    (hparts : Links (Reader.entry fields) StartsEntry d' parts d'') :
    Links (Reader.entry fields) StartsEntry d
      ((writeText name ++ [0x3A, 0x20] ++ value) :: parts) d'' := by
  have hentry := takes_entry (w := []) hfield habsent nofun hvalue
  rw [List.nil_append, ← List.append_assoc] at hentry
  have hsplit : writeText name ++ [0x3A] ++ 0x20 :: value =
      writeText name ++ [0x3A, 0x20] ++ value := by
    simp
  rw [hsplit] at hentry
  have hstart : StartsEntry 0x22 := rfl
  exact .cons hstart hentry hparts

end DiscoveryGraph.Json.Reader
