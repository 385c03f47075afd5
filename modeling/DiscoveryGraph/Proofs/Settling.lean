import DiscoveryGraph.Proofs.Notation

/-!
# What readers make of values

In front of what may follow a value, a reader either takes exactly the octets of the value, and
makes something of them, or it fails. Whether it may fail is a parameter: where it may not, this is
what reading succeeds with, and where it may, what would be true if it succeeded.

* `Settles`: what a reader makes of some octets in front of some others.
* `settles_listed`: loops over the parts of a list or object.
* `settles_enclosed`: the content of a list or object.
-/

namespace DiscoveryGraph.Json.Reader

variable {α β σ : Type} {r : Reader α} {f : α → Reader β} {xs ys bs w w' rest : Bytes} {a : α}
  {may : Prop} {post : β → Prop}

/-- In front of `rest`, the reader takes these octets and makes something of them that `post` holds
of, or it fails, if it may. -/
def Settles (r : Reader α) (bs rest : Bytes) (may : Prop) (post : α → Prop) : Prop :=
  ∀ index, (∃ a index', r.run ⟨index, bs ++ rest⟩ = .ok (a, ⟨index', rest⟩) ∧ post a) ∨
    (may ∧ ∃ e, r.run ⟨index, bs ++ rest⟩ = .error e)

/-- The reader fails wherever it stands. -/
def Fails (r : Reader α) : Prop :=
  ∀ c, ∃ e, r.run c = .error e

theorem run_bind_of_error {c : Cursor} {e : Failure} (h : r.run c = .error e) :
    (r >>= f).run c = .error e := by
  rw [StateT.run_bind, h]
  rfl

namespace Fails

theorem failHere (fault : Fault) : Fails (failHere fault : Reader α) :=
  fun _ => ⟨_, rfl⟩

theorem failAhead (fault : Fault) : Fails (failAhead fault : Reader α) :=
  fun _ => ⟨_, rfl⟩

theorem reject (cause : Mismatch) : Fails (reject cause : Reader α) :=
  fun _ => ⟨_, rfl⟩

theorem bind (r : Reader α) (hf : ∀ a, Fails (f a)) : Fails (r >>= f) := by
  intro c
  cases hrun : r.run c with
  | error e => exact ⟨e, run_bind_of_error hrun⟩
  | ok result =>
    obtain ⟨a, c'⟩ := result
    obtain ⟨e, he⟩ := hf a c'
    exact ⟨e, by rw [run_bind_of_ok hrun, he]⟩

theorem placed (hr : Fails r) : Fails (placed r) := by
  intro c
  obtain ⟨e, he⟩ := hr c
  have hread : r c = .error e := he
  exact ⟨_, by rw [StateT.run, Reader.placed, hread]⟩

theorem settles {post : α → Prop} (hr : Fails r) (hmay : may) : Settles r bs rest may post :=
  fun _ => .inr ⟨hmay, hr _⟩

end Fails

theorem Takes.settles (hr : Takes r bs a) : Settles r bs rest may (· = a) := by
  intro index
  obtain ⟨last, hlast⟩ := hr index rest
  exact .inl ⟨a, last, hlast, rfl⟩

namespace Settles

theorem mono {post post' : α → Prop} (hr : Settles r bs rest may post)
    (hpost : ∀ a, post a → post' a) : Settles r bs rest may post' := by
  intro index
  rcases hr index with ⟨a, last, hlast, ha⟩ | hfail
  · exact .inl ⟨a, last, hlast, hpost a ha⟩
  · exact .inr hfail

theorem pure {post : α → Prop} (ha : post a) : Settles (pure a) [] rest may post :=
  (Takes.pure a).settles.mono fun _ h => h ▸ ha

/-- A reader that does not fail need not be allowed to. -/
theorem weaken {post : α → Prop} (hr : Settles r bs rest False post) :
    Settles r bs rest may post := by
  intro index
  exact (hr index).imp_right fun ⟨hfalse, _⟩ => hfalse.elim

theorem bind {mid : α → Prop} (hr : Settles r xs (ys ++ rest) may mid)
    (hf : ∀ a, mid a → Settles (f a) ys rest may post) :
    Settles (r >>= f) (xs ++ ys) rest may post := by
  intro index
  rw [List.append_assoc]
  rcases hr index with ⟨a, last, hlast, ha⟩ | ⟨hmay, e, he⟩
  · rw [run_bind_of_ok hlast]
    exact hf a ha last
  · exact .inr ⟨hmay, e, run_bind_of_error he⟩

/-- Where the first part fails, the whole does. -/
theorem refuse (hr : Settles r xs (ys ++ rest) may fun _ => False) :
    Settles (r >>= f) (xs ++ ys) rest may post :=
  bind hr fun _ hfalse => hfalse.elim

/-- What comes first takes its octets whatever follows them. -/
theorem after (hr : Takes r xs a) (hf : Settles (f a) ys rest may post) :
    Settles (r >>= f) (xs ++ ys) rest may post :=
  bind hr.settles fun _ h => h ▸ hf

theorem bind_nil {mid : α → Prop} (hr : Settles r bs rest may mid)
    (hf : ∀ a, mid a → Settles (f a) [] rest may post) : Settles (r >>= f) bs rest may post := by
  rw [← List.append_nil bs]
  exact bind hr hf

theorem map {mid : α → Prop} (hr : Settles r bs rest may mid) (g : α → β)
    (hpost : ∀ a, mid a → post (g a)) : Settles (do return g (← r)) bs rest may post :=
  bind_nil hr fun a ha => .pure (hpost a ha)

theorem discard {mid : α → Prop} (hr : Settles r bs rest may mid) :
    Settles (discard r : Reader Unit) bs rest may fun _ => True :=
  bind_nil hr fun _ _ => .pure trivial

theorem advance {octet : UInt8} {k : Unit → Reader β} (hk : Settles (k ()) bs rest may post) :
    Settles (advance >>= k) (octet :: bs) rest may post :=
  after (.advance octet) hk

theorem next {octet : UInt8} {k : Option UInt8 → Reader β}
    (hk : Settles (k (some octet)) bs rest may post) :
    Settles (next >>= k) (octet :: bs) rest may post :=
  after (.next octet) hk

/-- Reading goes on with a look at the next octet. -/
theorem peek {k : Option UInt8 → Reader β}
    (hk : Settles (k (bs ++ rest).head?) bs rest may post) :
    Settles (peek >>= k) bs rest may post :=
  hk

/-- Reading goes on with the first octet behind white space. -/
theorem peeked {octet : UInt8} {more : Bytes} {k : Option UInt8 → Reader β} (hw : Blank w)
    (hbs : bs ++ rest = octet :: more) (hoctet : isBlank octet = false)
    (hk : Settles (k (some octet)) bs rest may post) :
    Settles (peekPastBlanks >>= k) (w ++ bs) rest may post := by
  intro index
  rw [List.append_assoc, hbs, run_bind_of_ok (run_peekPastBlanks hw hoctet index more), ← hbs]
  exact hk _

/-- A value is told apart by its first octet. -/
theorem value {octet : UInt8} {read : UInt8 → Reader β} (hw : Blank w)
    (hoctet : isBlank octet = false) (hread : Settles (read octet) (octet :: bs) rest may post) :
    Settles (value read) (w ++ octet :: bs) rest may post :=
  peeked hw rfl hoctet hread

/-- There is fuel for every octet. -/
theorem allowance {k : Nat → Reader β}
    (hk : ∀ fuel, (bs ++ rest).length < fuel → Settles (k fuel) bs rest may post) :
    Settles (allowance >>= k) bs rest may post :=
  fun index => hk ((bs ++ rest).length + 1) (Nat.lt_succ_self _) index

theorem placed {post : α → Prop} (hr : Settles r bs rest may post) :
    Settles (placed r) bs rest may post := by
  intro index
  rcases hr index with ⟨a, last, hlast, ha⟩ | ⟨hmay, e, he⟩
  · have hread : r ⟨index, bs ++ rest⟩ = .ok (a, ⟨last, rest⟩) := hlast
    exact .inl ⟨a, last, by rw [StateT.run, Reader.placed, hread], ha⟩
  · have hread : r ⟨index, bs ++ rest⟩ = .error e := he
    exact .inr ⟨hmay, _, by rw [StateT.run, Reader.placed, hread]⟩

/-- A reader up to a bracket, and the bracket. -/
theorem closedBy {close : Reader Unit} {bracket : UInt8} {post : α → Prop}
    (hr : Settles r bs (bracket :: rest) may post) (hclose : Takes close [bracket] ()) :
    Settles (closedBy r close) (bs ++ [bracket]) rest may post := by
  intro index
  rw [List.append_assoc]
  rcases hr index with ⟨a, mid, hmid, ha⟩ | ⟨hmay, e, he⟩
  · obtain ⟨last, hlast⟩ := hclose mid rest
    have hread : r ⟨index, bs ++ ([bracket] ++ rest)⟩ = .ok (a, ⟨mid, bracket :: rest⟩) := hmid
    have hend : close ⟨mid, bracket :: rest⟩ = .ok ((), ⟨last, rest⟩) := hlast
    refine .inl ⟨a, last, ?_, ha⟩
    rw [StateT.run, Reader.closedBy, hread]
    dsimp only
    rw [hend]
    rfl
  · have hread : r ⟨index, bs ++ ([bracket] ++ rest)⟩ = .error e := he
    refine .inr ⟨hmay, ?_⟩
    rw [StateT.run, Reader.closedBy, hread]
    dsimp only
    cases close e.cursor <;> exact ⟨_, rfl⟩

end Settles

/-- Without failure, a bracket is read like anything else that follows. -/
theorem run_closedBy {close : Reader Unit} {c c' : Cursor} (h : r.run c = .ok (a, c')) :
    (closedBy r close).run c = (do let a ← r; close; return a : Reader α).run c := by
  have hread : r c = .ok (a, c') := h
  rw [run_bind_of_ok h, StateT.run, closedBy, hread]
  dsimp only
  cases hclose : close c' with
  | error e =>
    rw [run_bind_of_error hclose]
    rfl
  | ok closed =>
    obtain ⟨done, c''⟩ := closed
    rw [run_bind_of_ok hclose]
    rfl

/-- The reader may stop in front of other octets than the bracket: the bracket is then missed. -/
theorem Settles.closedBy_of_bind {close : Reader Unit} {post : α → Prop}
    (h : Settles (do let a ← r; close; return a) bs rest True post) :
    Settles (Reader.closedBy r close) bs rest True post := by
  intro index
  cases hrun : r.run ⟨index, bs ++ rest⟩ with
  | error e =>
    have hread : r ⟨index, bs ++ rest⟩ = .error e := hrun
    refine .inr ⟨trivial, ?_⟩
    rw [StateT.run, Reader.closedBy, hread]
    dsimp only
    cases close e.cursor <;> exact ⟨_, rfl⟩
  | ok result =>
    obtain ⟨a, c⟩ := result
    rw [run_closedBy hrun]
    exact h index

/-! ## What follows a value -/

/-- What follows is nothing, white space, a comma or a closing bracket. -/
def Ends (rest : Bytes) : Prop :=
  ∀ b ∈ rest.head?, isBlank b = true ∨ b ∈ [0x2C, 0x5D, 0x7D]

theorem Ends.append {b : UInt8} (hw : Blank w) (hb : b ∈ [0x2C, 0x5D, 0x7D]) (rest : Bytes) :
    Ends (w ++ b :: rest) := by
  intro c hc
  cases w with
  | nil => exact .inr (Option.mem_some.mp hc ▸ hb)
  | cons blank w => exact .inl (Option.mem_some.mp hc ▸ hw blank List.mem_cons_self)

theorem ends_blank (hw : Blank w) : Ends w := by
  intro c hc
  exact .inl (hw c (List.mem_of_mem_head? hc))

/-- No digit follows a number, nor anything else that it could go on with. -/
theorem Ends.number (h : Ends rest) {b : UInt8} (hb : rest.head? = some b) :
    isDigit b = false ∧ b ≠ 0x2E ∧ b ≠ 0x65 ∧ b ≠ 0x45 := by
  have hall : ∀ b : UInt8, isBlank b = true ∨ b ∈ [0x2C, 0x5D, 0x7D] →
      isDigit b = false ∧ b ≠ 0x2E ∧ b ≠ 0x65 ∧ b ≠ 0x45 := by
    intro b hb
    simp only [isBlank, Bool.or_eq_true, decide_eq_true_eq, List.mem_cons, List.not_mem_nil,
      or_false] at hb
    rcases hb with (((rfl | rfl) | rfl) | rfl) | rfl | rfl | rfl <;> decide
  exact hall b (h b hb)

/-! ## Loops over parts -/

/-- Reading the parts one after the other leads to a state that `post` holds of, or it fails, if it
may. -/
def Leads (step : σ → Reader σ) (may : Prop) (post : σ → Prop) : List Bytes → σ → Prop
  | [], s => post s
  | part :: parts, s =>
    ∀ rest, Ends rest → Settles (step s) part rest may (Leads step may post parts)

theorem Leads.mono {step : σ → Reader σ} {post post' : σ → Prop}
    (hpost : ∀ s, post s → post' s) {parts : List Bytes} {s : σ}
    (h : Leads step may post parts s) : Leads step may post' parts s := by
  induction parts generalizing s with
  | nil => exact hpost s h
  | cons part parts ih => exact fun rest hrest => (h rest hrest).mono fun s' hs' => ih hs'

/-- What stands in front of a part: nothing, or a comma. -/
inductive Front : Bool → Bytes → Prop where
  | first : Front true []
  | other {w : Bytes} (hw : Blank w) : Front false (w ++ [0x2C])

section Loop

variable {loop : Nat → Bool → σ → Reader σ} {has : Bool → Reader Bool} {step : σ → Reader σ}
  {starts : UInt8 → Prop} {opening bracket octet : UInt8} {first : Bool} {front : Bytes}
  {parts : List Bytes} {s : σ} {post : σ → Prop}

theorem Separates.settles_part (hs : Separates has starts bracket) (hfront : Front first front)
    (hw : Blank w) (hoctet : starts octet) (more : Bytes) :
    Settles (has first) (front ++ w) (octet :: more) may (· = true) := by
  intro index
  cases hfront with
  | first =>
    obtain ⟨last, hlast⟩ := hs.first hw hoctet index more
    exact .inl ⟨true, last, hlast, rfl⟩
  | other hw' =>
    obtain ⟨last, hlast⟩ := hs.other hw' hw hoctet index more
    simp only [List.append_assoc, List.cons_append, List.nil_append]
    exact .inl ⟨true, last, hlast, rfl⟩

theorem Separates.settles_last (hs : Separates has starts bracket) (first : Bool) (hw : Blank w)
    (rest : Bytes) : Settles (has first) w (bracket :: rest) may (· = false) := by
  intro index
  obtain ⟨last, hlast⟩ := hs.last first hw index rest
  exact .inl ⟨false, last, hlast, rfl⟩

theorem Loops.settles_last (hloops : Loops loop has step) (hs : Separates has starts bracket)
    {fuel : Nat} (hfuel : 0 < fuel) (hw : Blank w) (hpost : post s) (rest : Bytes) :
    Settles (loop fuel first s) w (bracket :: rest) may post := by
  obtain ⟨fuel, rfl⟩ := Nat.exists_eq_succ_of_ne_zero (Nat.ne_zero_of_lt hfuel)
  rw [Nat.succ_eq_add_one, hloops.succ]
  refine .bind_nil (hs.settles_last first hw rest) fun follows hfollows => ?_
  rw [hfollows]
  exact .pure hpost

/-- The parts of a list or object are read up to its bracket. -/
theorem settles_listed (h : Listed parts bs) (hloops : Loops loop has step)
    (hs : Separates has starts bracket) (hbracket : bracket ∈ [0x2C, 0x5D, 0x7D])
    (hstarts : ∀ part ∈ parts, ∃ octet more, part = octet :: more ∧ starts octet) {fuel : Nat}
    (hfuel : parts.length < fuel) (hfront : Front first front)
    (hleads : Leads step may post parts s) (rest : Bytes) :
    Settles (loop fuel first s) (front ++ bs) (bracket :: rest) may post := by
  induction h generalizing fuel first front s with
  | @last part w w' hw hw' =>
    obtain ⟨fuel, rfl⟩ := Nat.exists_eq_succ_of_ne_zero (Nat.ne_zero_of_lt hfuel)
    obtain ⟨octet, more, rfl, hoctet⟩ := hstarts part List.mem_cons_self
    rw [Nat.succ_eq_add_one, hloops.succ, ← List.append_assoc]
    refine .bind (hs.settles_part hfront hw hoctet _) fun follows hfollows => ?_
    rw [hfollows]
    refine .bind (hleads _ (.append hw' hbracket rest)) fun s' hs' => ?_
    exact hloops.settles_last hs (Nat.lt_of_succ_lt_succ hfuel) hw' hs' rest
  | @cons part w w' bs parts hw hw' _ ih =>
    obtain ⟨fuel, rfl⟩ := Nat.exists_eq_succ_of_ne_zero (Nat.ne_zero_of_lt hfuel)
    obtain ⟨octet, more, rfl, hoctet⟩ := hstarts part List.mem_cons_self
    rw [Nat.succ_eq_add_one, hloops.succ, ← List.append_assoc]
    refine .bind (hs.settles_part hfront hw hoctet _) fun follows hfollows => ?_
    rw [hfollows]
    have hends : Ends (w' ++ 0x2C :: bs ++ bracket :: rest) := by
      rw [List.append_assoc]
      exact .append hw' List.mem_cons_self _
    refine .bind (hleads _ hends) fun s' hs' => ?_
    have hmore := ih (fun part hpart => hstarts part (List.mem_cons_of_mem _ hpart))
      (Nat.lt_of_succ_lt_succ hfuel) (.other hw') hs'
    rwa [List.append_assoc] at hmore

/-- The content of a list or object is read up to its bracket. -/
theorem settles_enclosed (h : Encloses opening bracket parts bs) (hloops : Loops loop has step)
    (hs : Separates has starts bracket) (hbracket : bracket ∈ [0x2C, 0x5D, 0x7D])
    (hstarts : ∀ part ∈ parts, ∃ octet more, part = octet :: more ∧ starts octet)
    (hleads : Leads step may post parts s) : ∃ content, bs = opening :: (content ++ [bracket]) ∧
      ∀ rest, Settles (do loop (← allowance) true s) content (bracket :: rest) may post := by
  cases h with
  | @empty w hw =>
    refine ⟨w, rfl, fun rest => .allowance fun fuel hfuel => ?_⟩
    exact hloops.settles_last hs (Nat.zero_lt_of_lt hfuel) hw hleads rest
  | @listed parts content h =>
    refine ⟨content, rfl, fun rest => .allowance fun fuel hfuel => ?_⟩
    have hlength := h.length_le
    rw [List.length_append, List.length_cons] at hfuel
    exact settles_listed h hloops hs hbracket hstarts (by omega) .first hleads rest

end Loop

end DiscoveryGraph.Json.Reader
