import DiscoveryGraph.Proofs.Spelling
import DiscoveryGraph.Proofs.Wire

/-!
# What readers make of items

A reader makes a value of some octets, for which it takes all of them, or it fails on them, whatever
stands behind them. The readers of items begin with a head, and they make the same of the octets if
somebody has already looked at this head: this is how the content of a list or map is read up to its
break.

* `Makes`, `Handles`: what a reader makes of some octets, and of an item.
* `Runs`: what a loop makes of the parts of a list or map.
* `handles_ignored`: every item is skipped, exactly.
-/

namespace DiscoveryGraph.Cbor.Reader

variable {α β σ : Type} {r : Reader α} {f : α → Reader β} {xs ys bs front tail : Bytes} {a : α}
  {out : Except Failure β} {e : Failure} {h : Head}

/-- Of these octets, whatever follows them, the reader makes a value, and leaves what follows, or
it fails. -/
def Makes (r : Reader α) (bs : Bytes) (out : Except Failure α) : Prop :=
  ∀ offset rest, ∃ offset', r.run ⟨offset, bs ++ rest, none⟩ =
    out.map fun a => (a, ⟨offset', rest, none⟩)

theorem Reads.makes (hr : Reads r bs a) : Makes r bs (.ok a) :=
  fun offset rest => ⟨_, hr.whole offset rest⟩

namespace Makes

theorem pure (a : α) : Makes (pure a) [] (.ok a) :=
  (Reads.pure a).makes

theorem fail (e : Failure) : Makes (fail e : Reader α) bs (.error e) :=
  fun offset _ => ⟨offset, rfl⟩

theorem bind (hr : Makes r xs (.ok a)) (hf : Makes (f a) ys out) :
    Makes (r >>= f) (xs ++ ys) out := by
  intro offset rest
  obtain ⟨mid, hmid⟩ := hr offset (ys ++ rest)
  obtain ⟨last, hlast⟩ := hf mid rest
  exact ⟨last, by rw [List.append_assoc, run_bind_of_ok hmid, hlast]⟩

/-- What follows a reader may read nothing. -/
theorem bind_nil (hr : Makes r bs (.ok a)) (hf : Makes (f a) [] out) : Makes (r >>= f) bs out := by
  rw [← List.append_nil bs]
  exact hr.bind hf

theorem bind_error (hr : Makes r xs (.error e)) : Makes (r >>= f) (xs ++ ys) (.error e) := by
  intro offset rest
  obtain ⟨last, hlast⟩ := hr offset (ys ++ rest)
  exact ⟨last, by rw [List.append_assoc]; exact run_bind_of_error hlast⟩

theorem map {out : Except Failure α} (hr : Makes r bs out) (g : α → β) :
    Makes (do return g (← r)) bs (out.map g) := by
  cases out with
  | ok a => exact hr.bind_nil (pure (g a))
  | error e =>
    rw [← List.append_nil bs]
    exact bind_error hr

/-- A head is left and found again. -/
theorem leave_head {f : Head → Reader β} (hf : Makes (f h) bs out) :
    Makes (do leave h; head >>= f) bs out :=
  hf

theorem position {f : Nat → Reader β} (hf : ∀ start, Makes (f start) bs out) :
    Makes (position >>= f) bs out :=
  fun offset => hf offset offset

/-- There is fuel for every octet, and more. -/
theorem allowance {f : Nat → Reader β} (hf : ∀ fuel, bs.length < fuel → Makes (f fuel) bs out) :
    Makes (allowance >>= f) bs out := by
  intro offset rest
  refine hf ((bs ++ rest).length + 2) ?_ offset rest
  rw [List.length_append]
  omega

theorem leave_position {f : Nat → Reader β} (hf : ∀ start, Makes (do leave h; f start) bs out) :
    Makes (do leave h; Reader.position >>= f) bs out :=
  fun offset => hf (offset - h.shortestWidth) offset

theorem leave_allowance {f : Nat → Reader β}
    (hf : ∀ fuel, bs.length < fuel → Makes (do leave h; f fuel) bs out) :
    Makes (do leave h; Reader.allowance >>= f) bs out := by
  intro offset rest
  refine hf ((bs ++ rest).length + 2) ?_ offset rest
  rw [List.length_append]
  omega

end Makes

/-! ## Heads -/

/-- A head with its argument behind its first octet. -/
theorem reads_wide {major low width n : Nat} (hmajor : major < 8)
    (hwidth : (low, width) ∈ [(24, 1), (25, 2), (26, 4), (27, 8)]) (hn : n < 256 ^ width)
    (hmake : Head.make? major (some n) width = some h) :
    Reads freshHead (UInt8.ofNat (major * 32 + low) :: Bytes.bigEndian width n) h := by
  have hlow : 24 ≤ low ∧ argumentWidth? low = some width ∧ width ≠ 0 := by
    simp only [List.mem_cons, Prod.mk.injEq, List.not_mem_nil, or_false] at hwidth
    rcases hwidth with ⟨rfl, rfl⟩ | ⟨rfl, rfl⟩ | ⟨rfl, rfl⟩ | ⟨rfl, rfl⟩ <;> decide
  exact Reads.freshHead_wide hmajor hlow.1 hlow.2.1 hn hlow.2.2 hmake

theorem reads_of_spells {major n : Nat} (hmajor : major < 8) (hs : Head.Spells major n bs)
    (hmake : ∀ width, Head.make? major (some n) width = some h) : Reads freshHead bs h := by
  cases hs with
  | narrow hn => exact Reads.freshHead_narrow hmajor hn (hmake 0)
  | wide hwidth hn => exact reads_wide hmajor hwidth hn (hmake _)

/-- A head without an argument. -/
theorem reads_openOctet {major : Nat} (hmajor : major < 8)
    (hmake : Head.make? major none 0 = some h) : Reads freshHead [openOctet major] h := by
  have hfirst := Reads.toNat_firstOctet hmajor (show 31 < 32 by omega)
  have hdiv : (major * 32 + 31) / 32 = major := by omega
  have hmod : (major * 32 + 31) % 32 = 31 := by omega
  refine Reads.look fun c => ?_
  rw [← List.append_nil [openOctet major]]
  refine Reads.bind (Reads.octets [openOctet major]) ?_
  simp only [openOctet, hfirst, hdiv, hmod, if_neg (show ¬ 31 < 24 by omega), argumentWidth?,
    pure_bind, hmake]
  exact Reads.pure h

theorem make?_array (length : Option Nat) (width : Nat) :
    Head.make? 4 length width = some (.array length) := by
  cases length <;> rfl

theorem make?_map (length : Option Nat) (width : Nat) :
    Head.make? 5 length width = some (.map length) := by
  cases length <;> rfl

theorem reads_breakOctet : Reads freshHead [breakOctet] .stop :=
  have hmake : Head.make? 7 none 0 = some .stop := rfl
  reads_openOctet (by omega) hmake

/-- Whether an item without a tag can begin with this head. -/
def opensItem : Head → Bool
  | .tag _ | .stop => false
  | _ => true

theorem ne_nil_of_reads (hh : Reads freshHead front h) : front ≠ [] := by
  rintro rfl
  cases hh.whole 0 []

theorem ne_stop_of_opensItem (hopens : opensItem h = true) : h ≠ .stop := by
  rintro rfl
  cases hopens

theorem run_head (hh : Reads freshHead front h) (offset : Nat) (rest : Bytes) :
    head.run ⟨offset, front ++ rest, none⟩ = .ok (h, ⟨offset + front.length, rest, none⟩) :=
  hh.whole offset rest

/-- A head that is no tag is the next one that is no tag. -/
theorem run_pastTags (hh : Reads freshHead front h) (hopens : opensItem h = true)
    (wanted : Nat → Bool) (fuel offset : Nat) (rest : Bytes) :
    (pastTags wanted (fuel + 1)).run ⟨offset, front ++ rest, none⟩ =
      .ok ((offset, h), ⟨offset + front.length, rest, none⟩) := by
  have hposition : position.run ⟨offset, front ++ rest, none⟩ =
      .ok (offset, ⟨offset, front ++ rest, none⟩) := rfl
  rw [pastTags, run_bind_of_ok hposition, run_bind_of_ok (run_head hh offset rest)]
  cases h with
  | tag n => cases hopens
  | stop => cases hopens
  | _ => rfl

theorem Makes.head {f : Head → Reader β} (hh : Reads freshHead front h)
    (hf : Makes (f h) tail out) : Makes (head >>= f) (front ++ tail) out := by
  have hhead : Makes Reader.head front (.ok h) := fun offset rest => ⟨_, run_head hh offset rest⟩
  exact hhead.bind hf

/-! ## Items -/

/-- The octets begin with the head of an item, and the reader makes the same of them whether or not
somebody has already looked at this head. -/
structure Handles (r : Reader α) (bs : Bytes) (out : Except Failure α) : Prop where
  fresh : Makes r bs out
  seen : ∃ front h tail, front ++ tail = bs ∧ Reads freshHead front h ∧ h ≠ .stop ∧
    Makes (do leave h; r) tail out

namespace Handles

theorem ne_nil {out : Except Failure α} (hr : Handles r bs out) : bs ≠ [] := by
  obtain ⟨front, h, tail, rfl, hh, -⟩ := hr.seen
  exact List.append_ne_nil_of_left_ne_nil (ne_nil_of_reads hh) tail

theorem bind (hr : Handles r xs (.ok a)) (hf : Makes (f a) ys out) :
    Handles (r >>= f) (xs ++ ys) out where
  fresh := hr.fresh.bind hf
  seen := by
    obtain ⟨front, h, tail, rfl, hh, hstop, htail⟩ := hr.seen
    refine ⟨front, h, tail ++ ys, (List.append_assoc ..).symm, hh, hstop, ?_⟩
    rw [← bind_assoc]
    exact htail.bind hf

/-- What follows the reader of an item may read nothing. -/
theorem bind_nil (hr : Handles r bs (.ok a)) (hf : Makes (f a) [] out) :
    Handles (r >>= f) bs out := by
  rw [← List.append_nil bs]
  exact hr.bind hf

theorem bind_error (hr : Handles r xs (.error e)) : Handles (r >>= f) (xs ++ ys) (.error e) where
  fresh := hr.fresh.bind_error
  seen := by
    obtain ⟨front, h, tail, rfl, hh, hstop, htail⟩ := hr.seen
    refine ⟨front, h, tail ++ ys, (List.append_assoc ..).symm, hh, hstop, ?_⟩
    rw [← bind_assoc]
    exact htail.bind_error

theorem map {out : Except Failure α} (hr : Handles r bs out) (g : α → β) :
    Handles (do return g (← r)) bs (out.map g) := by
  cases out with
  | ok a => exact hr.bind_nil (.pure (g a))
  | error e =>
    rw [← List.append_nil bs]
    exact bind_error hr

/-- A reader that goes on with the next head. -/
theorem of_head {k : Head → Reader β} (hh : Reads freshHead front h) (hopens : opensItem h = true)
    (hk : Makes (k h) tail out) : Handles (head >>= k) (front ++ tail) out where
  fresh := hk.head hh
  seen := ⟨front, h, tail, rfl, hh, ne_stop_of_opensItem hopens, hk.leave_head⟩

/-- A reader that goes on with the next head that is no tag. -/
theorem of_pastTags {wanted : Nat → Bool} {k : Nat × Head → Reader β}
    (hh : Reads freshHead front h) (hopens : opensItem h = true)
    (hk : ∀ start, Makes (k (start, h)) tail out) :
    Handles (do let next ← pastTags wanted (← allowance); k next) (front ++ tail) out where
  fresh := fun offset rest => by
    obtain ⟨last, hlast⟩ := hk offset (offset + front.length) rest
    refine ⟨last, ?_⟩
    rw [← hlast, List.append_assoc]
    exact run_bind_of_ok (run_pastTags hh hopens wanted _ offset (tail ++ rest))
  seen := by
    refine ⟨front, h, tail, rfl, hh, ne_stop_of_opensItem hopens, fun offset rest => ?_⟩
    obtain ⟨last, hlast⟩ := hk (offset - h.shortestWidth) offset rest
    refine ⟨last, ?_⟩
    rw [← hlast]
    cases h with
    | tag n => cases hopens
    | stop => cases hopens
    | _ => rfl

theorem of_untagged {k : Nat × Head → Reader β} (hh : Reads freshHead front h)
    (hopens : opensItem h = true) (hk : ∀ start, Makes (k (start, h)) tail out) :
    Handles (untagged >>= k) (front ++ tail) out :=
  of_pastTags hh hopens hk

end Handles

/-! ## Strings -/

/-- A loop over the pieces of a string takes one piece after the other. -/
inductive Pieces (lengthOf : Head → Option (Option Nat)) (step : Nat → Nat → σ → Reader σ) :
    σ → List Bytes → σ → Prop where
  | nil (s : σ) : Pieces lengthOf step s [] s
  | cons {s s' s'' : σ} {front tail : Bytes} {h : Head} {n : Nat} {parts : List Bytes}
      (hh : Reads freshHead front h) (hlength : lengthOf h = some (some n))
      (hstep : ∀ start, Makes (step start n s) tail (.ok s'))
      (hpieces : Pieces lengthOf step s' parts s'') :
      Pieces lengthOf step s ((front ++ tail) :: parts) s''

section Segments

variable {lengthOf : Head → Option (Option Nat)} {step : Nat → Nat → σ → Reader σ} {s s' : σ}
  {parts : List Bytes}

/-- The pieces of a string are taken up to its break. -/
theorem Pieces.segments (hp : Pieces lengthOf step s parts s') (hstop : lengthOf .stop = none)
    {fuel : Nat} (hfuel : parts.flatten.length < fuel) :
    Makes (segments lengthOf step fuel 1 s) (parts.flatten ++ [breakOctet]) (.ok s') := by
  induction hp generalizing fuel with
  | nil s =>
    obtain ⟨fuel, rfl⟩ := Nat.exists_eq_succ_of_ne_zero (Nat.ne_zero_of_lt hfuel)
    change Makes _ ([breakOctet] ++ []) _
    exact .position fun start => .head reads_breakOctet (.pure s)
  | @cons s next last front tail h n parts hh hlength hstep _ ih =>
    obtain ⟨fuel, rfl⟩ := Nat.exists_eq_succ_of_ne_zero (Nat.ne_zero_of_lt hfuel)
    have hne : h ≠ .stop := by
      rintro rfl
      rw [hstop] at hlength
      cases hlength
    have hfront := List.length_pos_iff.mpr (ne_nil_of_reads hh)
    rw [List.flatten_cons, List.length_append, List.length_append] at hfuel
    rw [List.flatten_cons, List.append_assoc, List.append_assoc]
    refine .position fun start => .head hh ?_
    simp only [hne, decide_false, Bool.false_and, Bool.false_eq_true, if_false, hlength]
    exact (hstep start).bind (ih (by omega))

/-- A string in one piece is taken. -/
theorem makes_segments {n : Nat} (hstop : lengthOf .stop = none)
    (hlength : lengthOf h = some (some n)) (hstep : ∀ start, Makes (step start n s) bs (.ok s')) :
    Makes (do leave h; segments lengthOf step (← allowance) 0 s) bs (.ok s') := by
  have hne : h ≠ .stop := by
    rintro rfl
    rw [hstop] at hlength
    cases hlength
  refine .leave_allowance fun fuel hfuel => ?_
  obtain ⟨fuel, rfl⟩ := Nat.exists_eq_succ_of_ne_zero (Nat.ne_zero_of_lt hfuel)
  refine .leave_position fun start => .leave_head ?_
  simp only [hne, decide_false, Bool.false_and, Bool.false_eq_true, if_false, hlength]
  exact (hstep start).bind_nil (.pure s')

/-- A string in pieces is taken. -/
theorem Pieces.makes_segments (hp : Pieces lengthOf step s parts s') (hstop : lengthOf .stop = none)
    (hlength : lengthOf h = some none) :
    Makes (do leave h; Reader.segments lengthOf step (← allowance) 0 s)
      (parts.flatten ++ [breakOctet]) (.ok s') := by
  have hne : h ≠ .stop := by
    rintro rfl
    rw [hstop] at hlength
    cases hlength
  refine .leave_allowance fun fuel hfuel => ?_
  obtain ⟨fuel, rfl⟩ := Nat.exists_eq_succ_of_ne_zero (Nat.ne_zero_of_lt hfuel)
  refine .leave_position fun start => .leave_head ?_
  simp only [hne, decide_false, Bool.false_and, Bool.false_eq_true, if_false, hlength]
  rw [List.length_append, List.length_singleton] at hfuel
  exact hp.segments hstop (by omega)

/-- Strings of one major type, and what the loop over their pieces adds up. -/
structure Adds {ι : Type} (major : Nat) (make : Option Nat → Head)
    (lengthOf : Head → Option (Option Nat)) (step : Nat → Nat → σ → Reader σ) (write : ι → Bytes)
    (add : σ → ι → σ) : Prop where
  lt_eight : major < 8
  head : ∀ length width, Head.make? major length width = some (make length)
  length : ∀ length, lengthOf (make length) = some length
  stop : lengthOf .stop = none
  piece : ∀ start x s, Makes (step start (write x).length s) (write x) (.ok (add s x))

namespace Adds

variable {ι : Type} {major : Nat} {make : Option Nat → Head} {write : ι → Bytes}
  {add : σ → ι → σ} (hadds : Adds major make lengthOf step write add)
include hadds

theorem pieces {xs : List ι} {parts : List Bytes}
    (hpieces : List.Forall₂ (Piece major) (xs.map write) parts) (s : σ) :
    Pieces lengthOf step s parts (xs.foldl add s) := by
  induction xs generalizing parts s with
  | nil =>
    cases hpieces
    exact .nil s
  | cons x xs ih =>
    rw [List.map_cons] at hpieces
    cases hpieces with
    | cons hpiece hpieces =>
    obtain ⟨front, hhead, rfl⟩ := hpiece
    exact .cons (reads_of_spells hadds.lt_eight hhead fun width => hadds.head _ width)
      (hadds.length _) (fun start => hadds.piece start x s) (ih hpieces (add s x))

/-- A string begins with a head, and with this head left, the loop adds its pieces up. -/
theorem of_strung {xs : List ι} {octets : Bytes} (h : Strung major (xs.map write) octets) (s : σ) :
    ∃ front length tail, octets = front ++ tail ∧ Reads freshHead front (make length) ∧
      Makes (do leave (make length); segments lengthOf step (← allowance) 0 s) tail
        (.ok (xs.foldl add s)) := by
  generalize hcontents : xs.map write = contents at h
  cases h with
  | whole hpiece =>
    obtain ⟨x, rfl, rfl⟩ := List.map_eq_singleton_iff.mp hcontents
    obtain ⟨front, hhead, rfl⟩ := hpiece
    exact ⟨front, _, _, rfl, reads_of_spells hadds.lt_eight hhead fun width => hadds.head _ width,
      makes_segments hadds.stop (hadds.length _) fun start => hadds.piece start x s⟩
  | @closed _ parts hpieces =>
    subst hcontents
    exact ⟨[openOctet major], none, parts.flatten ++ [breakOctet], rfl,
      reads_openOctet hadds.lt_eight (hadds.head none 0),
      (hadds.pieces hpieces s).makes_segments hadds.stop (hadds.length none)⟩

end Adds

end Segments

theorem adds_bytes : Adds 2 .bytes bytesLength (fun _ n bs => return bs ++ (← octets n))
    id (fun bs content => bs ++ content) where
  lt_eight := by omega
  head length width := by cases length <;> rfl
  length _ := rfl
  stop := rfl
  piece _ content bs := (Reads.octets content).makes.map (bs ++ ·)

theorem adds_text : Adds 3 .text textLength (fun start n s => return s ++ (← textOf start n))
    Bytes.ofText (fun s piece => s ++ piece) where
  lt_eight := by omega
  head length width := by cases length <;> rfl
  length _ := rfl
  stop := rfl
  piece start piece s := (Reads.textOf start piece).makes.map (s ++ ·)

/-! ## Lists and maps -/

/-- What a loop makes of the parts of a list or map: it reads one part after the other, up to the
first failure. -/
inductive Runs (step : σ → Reader σ) : σ → List Bytes → Except Failure σ → Prop where
  | nil (s : σ) : Runs step s [] (.ok s)
  | cons {s s' : σ} {part : Bytes} {parts : List Bytes} {out : Except Failure σ}
      (hpart : Handles (step s) part (.ok s')) (hparts : Runs step s' parts out) :
      Runs step s (part :: parts) out
  | fail {s : σ} {part : Bytes} {e : Failure} (hpart : Handles (step s) part (.error e))
      (parts : List Bytes) : Runs step s (part :: parts) (.error e)

namespace Runs

variable {step : σ → Reader σ} {s : σ} {parts : List Bytes} {out : Except Failure σ}

theorem counted (hr : Runs step s parts out) {fuel : Nat} (hfuel : parts.flatten.length < fuel) :
    Makes (Reader.parts step fuel (some parts.length) s) parts.flatten out := by
  induction hr generalizing fuel with
  | nil s =>
    obtain ⟨fuel, rfl⟩ := Nat.exists_eq_succ_of_ne_zero (Nat.ne_zero_of_lt hfuel)
    exact .pure s
  | @cons s next part parts out hpart _ ih =>
    obtain ⟨fuel, rfl⟩ := Nat.exists_eq_succ_of_ne_zero (Nat.ne_zero_of_lt hfuel)
    have hne := List.length_pos_iff.mpr hpart.ne_nil
    rw [List.flatten_cons, List.length_append] at hfuel
    exact hpart.fresh.bind (ih (by omega))
  | fail hpart parts =>
    obtain ⟨fuel, rfl⟩ := Nat.exists_eq_succ_of_ne_zero (Nat.ne_zero_of_lt hfuel)
    exact hpart.fresh.bind_error

/-- A part follows, and the break is behind it. -/
theorem more_part {part bs : Bytes} {fuel : Nat} {first : Except Failure σ}
    (hpart : Handles (step s) part first)
    (hgo : ∀ h tail, Makes (do leave h; step s) tail first →
      Makes (do leave h; Reader.parts step fuel none (← step s)) (tail ++ bs) out) :
    Makes (Reader.parts step (fuel + 1) none s) (part ++ bs) out := by
  obtain ⟨front, h, tail, rfl, hh, hstop, htail⟩ := hpart.seen
  rw [Reader.parts, more, bind_assoc, List.append_assoc]
  refine .head hh ?_
  have hnext := hgo h tail htail
  cases h with
  | stop => exact absurd rfl hstop
  | _ => exact hnext

theorem closed (hr : Runs step s parts out) {fuel : Nat} (hfuel : parts.flatten.length < fuel) :
    Makes (Reader.parts step fuel none s) (parts.flatten ++ [breakOctet]) out := by
  induction hr generalizing fuel with
  | nil s =>
    obtain ⟨fuel, rfl⟩ := Nat.exists_eq_succ_of_ne_zero (Nat.ne_zero_of_lt hfuel)
    rw [Reader.parts, more, bind_assoc]
    change Makes _ ([breakOctet] ++ []) _
    exact .head reads_breakOctet (.pure s)
  | @cons s next part parts out hpart _ ih =>
    obtain ⟨fuel, rfl⟩ := Nat.exists_eq_succ_of_ne_zero (Nat.ne_zero_of_lt hfuel)
    have hne := List.length_pos_iff.mpr hpart.ne_nil
    rw [List.flatten_cons, List.length_append] at hfuel
    rw [List.flatten_cons, List.append_assoc]
    refine more_part hpart fun h tail htail => ?_
    rw [← bind_assoc]
    exact htail.bind (ih (by omega))
  | fail hpart parts =>
    obtain ⟨fuel, rfl⟩ := Nat.exists_eq_succ_of_ne_zero (Nat.ne_zero_of_lt hfuel)
    rw [List.flatten_cons, List.append_assoc]
    refine more_part hpart fun h tail htail => ?_
    rw [← bind_assoc]
    exact htail.bind_error

/-- A list or map begins with a head, and the loop reads what this head announces. -/
theorem of_encloses {major : Nat} {make : Option Nat → Head} {octets : Bytes} (hmajor : major < 8)
    (hmake : ∀ length width, Head.make? major length width = some (make length))
    (h : Encloses major parts octets) (hr : Runs step s parts out) :
    ∃ front length tail, octets = front ++ tail ∧ Reads freshHead front (make length) ∧
      Makes (content length step s) tail out := by
  cases h with
  | counted hhead =>
    exact ⟨_, _, _, rfl, reads_of_spells hmajor hhead fun width => hmake _ width,
      .allowance fun fuel hfuel => hr.counted hfuel⟩
  | closed =>
    refine ⟨[openOctet major], none, parts.flatten ++ [breakOctet], rfl,
      reads_openOctet hmajor (hmake none 0), .allowance fun fuel hfuel => hr.closed ?_⟩
    rw [List.length_append, List.length_singleton] at hfuel
    omega

/-- A loop over parts each of which leaves everything as it is. -/
theorem of_forall (h : ∀ part ∈ parts, Handles (step s) part (.ok s)) :
    Runs step s parts (.ok s) := by
  induction parts with
  | nil => exact .nil s
  | cons part parts ih =>
    exact .cons (h part List.mem_cons_self)
      (ih fun other hother => h other (List.mem_cons_of_mem _ hother))

end Runs

/-! ## Items that nobody wants -/

theorem ignored_eq (depth : Nat) : ∃ inner, ignored depth = ignoredAround inner := by
  cases depth <;> exact ⟨_, rfl⟩

theorem discard_eq (r : Reader α) : discard r = do let _ ← r; return () := by
  rw [discard, LawfulFunctor.map_const, Function.comp_apply, bind_pure_comp]

theorem Makes.discard (hr : Makes (do leave h; r) bs (.ok a)) :
    Makes (do leave h; discard r) bs (.ok ()) := by
  rw [discard_eq, ← bind_assoc]
  exact hr.bind_nil (.pure ())

/-- Every item is skipped, exactly. -/
theorem handles_ignored {depth : Nat} (hitem : Item depth bs) :
    Handles (ignored depth) bs (.ok ()) := by
  induction hitem with
  | @integer depth major n octets hmajor hhead =>
    obtain ⟨inner, heq⟩ := ignored_eq depth
    rw [heq, ← List.append_nil octets]
    rcases hmajor with rfl | rfl
    · exact .of_head (h := .positive n) (reads_of_spells (by omega) hhead fun _ => rfl) rfl
        (.pure ())
    · exact .of_head (h := .negative n) (reads_of_spells (by omega) hhead fun _ => rfl) rfl
        (.pure ())
  | @bytes depth contents octets hstrung =>
    obtain ⟨inner, heq⟩ := ignored_eq depth
    rw [← List.map_id contents] at hstrung
    obtain ⟨front, length, tail, rfl, hh, htail⟩ := adds_bytes.of_strung hstrung []
    rw [heq]
    exact .of_head hh rfl htail.discard
  | @text depth s octets htext =>
    obtain ⟨inner, heq⟩ := ignored_eq depth
    obtain ⟨pieces, hstrung, -⟩ := htext
    obtain ⟨front, length, tail, rfl, hh, htail⟩ := adds_text.of_strung hstrung ""
    rw [heq]
    exact .of_head hh rfl htail.discard
  | @float depth low width n hwidth hn =>
    obtain ⟨inner, heq⟩ := ignored_eq depth
    obtain ⟨value, hmake⟩ : ∃ value, Head.make? 7 (some n) width = some (.float value) := by
      simp only [List.mem_cons, Prod.mk.injEq, List.not_mem_nil, or_false] at hwidth
      rcases hwidth with ⟨-, rfl⟩ | ⟨-, rfl⟩ | ⟨-, rfl⟩ <;> exact ⟨_, rfl⟩
    rw [heq, ← List.append_nil (_ :: _)]
    exact .of_head (reads_wide (by omega) (List.mem_cons_of_mem _ hwidth) hn hmake) rfl (.pure ())
  | @simple depth n hn =>
    obtain ⟨inner, heq⟩ := ignored_eq depth
    simp only [List.mem_cons, List.not_mem_nil, or_false] at hn
    rw [heq, ← List.append_nil [_]]
    refine .of_head (h := .simple n) (Reads.freshHead_narrow (by omega) ?_ rfl) rfl ?_
    · rcases hn with rfl | rfl | rfl <;> decide
    · rcases hn with rfl | rfl | rfl <;> exact .pure ()
  | @array depth parts octets _ h ih =>
    have hruns : Runs (fun _ => ignored depth) () parts (.ok ()) := .of_forall ih
    obtain ⟨front, length, tail, rfl, hh, htail⟩ :=
      hruns.of_encloses (by omega) make?_array h
    exact .of_head hh rfl htail
  | @map depth entries octets _ _ h ihkeys ihvalues =>
    have hruns : Runs (fun _ => do ignored depth; ignored depth) ()
        (entries.map fun entry => entry.1 ++ entry.2) (.ok ()) := by
      refine .of_forall fun part hpart => ?_
      obtain ⟨entry, hentry, rfl⟩ := List.mem_map.mp hpart
      exact (ihkeys entry hentry).bind (ihvalues entry hentry).fresh
    obtain ⟨front, length, tail, rfl, hh, htail⟩ :=
      hruns.of_encloses (by omega) make?_map h
    exact .of_head hh rfl htail

end DiscoveryGraph.Cbor.Reader
