import DiscoveryGraph.Proofs.Listing
import DiscoveryGraph.Proofs.Octets
import DiscoveryGraph.Snapshot.Cbor
import Mathlib.Tactic.SplitIfs

/-!
# What was written is read back

A reader and a writer agree when the reader takes exactly the written octets, whatever stands
behind them, and says that its input has ended when it is given less. Agreement is passed from
heads and strings to lists and records, and so to whole snapshots.

* `Reads`: a reader reads a value from some octets.
* `Steps`: the step of a loop reads one chunk of octets after the other.
* `Snapshot.ofCbor_toCbor_append`, `Snapshot.ofCbor_of_cut`: a written snapshot is read back, and
  no part of it is read as a snapshot.
-/

namespace DiscoveryGraph

namespace Cbor

theorem Head.write_ne_nil (major n : Nat) : Head.write major n ≠ [] := by
  unfold Head.write
  split_ifs <;> simp

namespace Reader

variable {α β σ : Type} {r : Reader α} {f : α → Reader β} {xs ys bs front rest : Bytes} {a : α}
  {b : β} {c c' : Cursor} {e : Failure}

theorem run_bind_of_ok (h : r.run c = .ok (a, c')) : (r >>= f).run c = (f a).run c' := by
  rw [StateT.run_bind, h]
  rfl

theorem run_bind_of_error (h : r.run c = .error e) : (r >>= f).run c = .error e := by
  rw [StateT.run_bind, h]
  rfl

/-- The reader reads the value from these octets, whatever follows them, and misses the end of
its input when the octets are cut short. -/
structure Reads {α : Type} (r : Reader α) (bs : Bytes) (a : α) : Prop where
  whole (offset : Nat) (rest : Bytes) :
    r.run ⟨offset, bs ++ rest, none⟩ = .ok (a, ⟨offset + bs.length, rest, none⟩)
  cut (offset : Nat) {front rest : Bytes} :
    front ++ rest = bs → rest ≠ [] → r.run ⟨offset, front, none⟩ = .error .endOfInput

/-- Octets that are cut short are cut within their first part or behind it. -/
theorem cut_append (h : front ++ rest = xs ++ ys) :
    (∃ mid, mid ≠ [] ∧ front ++ mid = xs) ∨ ∃ mid, front = xs ++ mid ∧ mid ++ rest = ys := by
  obtain ⟨mid, hxs, hrest⟩ | ⟨mid, hfront, hys⟩ := List.append_eq_append_iff.mp h
  · by_cases hmid : mid = []
    · subst hmid
      exact .inr ⟨[], by simpa using hxs.symm, by simpa using hrest⟩
    · exact .inl ⟨mid, hmid, hxs.symm⟩
  · exact .inr ⟨mid, hfront, hys.symm⟩

theorem length_lt_of_cut (h : front ++ rest = bs) (hne : rest ≠ []) : front.length < bs.length := by
  have hrest : 0 < rest.length := List.length_pos_iff.mpr hne
  rw [← h, List.length_append]
  omega

namespace Reads

theorem pure (a : α) : Reads (pure a) [] a where
  whole _ _ := rfl
  cut _ _ _ h hne := absurd (List.append_eq_nil_iff.mp h).2 hne

theorem bind (hr : Reads r xs a) (hf : Reads (f a) ys b) : Reads (r >>= f) (xs ++ ys) b where
  whole offset rest := by
    rw [List.append_assoc, run_bind_of_ok (hr.whole offset (ys ++ rest)), hf.whole,
      List.length_append, Nat.add_assoc]
  cut offset front rest h hne := by
    obtain ⟨mid, hmid, hxs⟩ | ⟨mid, rfl, hys⟩ := cut_append h
    · exact run_bind_of_error (hr.cut offset hxs hmid)
    · rw [run_bind_of_ok (hr.whole offset mid)]
      exact hf.cut _ hys hne

theorem map {g : α → β} (hr : Reads r xs a) (hb : g a = b) : Reads (do return g (← r)) xs b := by
  have h : Reads (Pure.pure (g a) : Reader β) [] b := hb ▸ pure (g a)
  simpa using hr.bind (f := fun a => Pure.pure (g a)) h

theorem look {f : Cursor → Reader α} (h : ∀ c, Reads (f c) bs a) : Reads (get >>= f) bs a where
  whole offset rest := (h _).whole offset rest
  cut offset _ _ hbs hne := (h _).cut offset hbs hne

/-! ## Heads -/

theorem octets (bs : Bytes) : Reads (octets bs.length) bs bs where
  whole offset rest := by
    simp [Reader.octets, takeExactly_append]
    rfl
  cut offset front rest h hne := by
    simp [Reader.octets, takeExactly_eq_none.mpr (length_lt_of_cut h hne)]
    rfl

theorem toNat_firstOctet {major low : Nat} (hmajor : major < 8) (hlow : low < 32) :
    Bytes.toNat [UInt8.ofNat (major * 32 + low)] = major * 32 + low := by
  simp [Bytes.toNat]
  omega

/-- A head with its argument behind its first octet. -/
theorem freshHead_wide {major low width n : Nat} {h : Head} (hmajor : major < 8)
    (hlow : 24 ≤ low) (hwidth : argumentWidth? low = some width) (hn : n < 256 ^ width)
    (hpos : width ≠ 0) (hmake : Head.make? major (some n) width = some h) :
    Reads freshHead (UInt8.ofNat (major * 32 + low) :: Bytes.bigEndian width n) h := by
  have hlow' : low < 32 := by
    unfold argumentWidth? at hwidth
    split at hwidth <;> simp_all
  have hfirst := toNat_firstOctet hmajor hlow'
  have hdiv : (major * 32 + low) / 32 = major := by omega
  have hmod : (major * 32 + low) % 32 = low := by omega
  have hargument := octets (Bytes.bigEndian width n)
  rw [Bytes.length_bigEndian] at hargument
  obtain ⟨w, rfl⟩ := Nat.exists_eq_succ_of_ne_zero hpos
  refine look fun c => ?_
  change Reads _ ([UInt8.ofNat (major * 32 + low)] ++ Bytes.bigEndian (w + 1) n) _
  refine bind (octets [UInt8.ofNat (major * 32 + low)]) ?_
  simp only [hfirst, hdiv, hmod, if_neg (show ¬ low < 24 by omega), hwidth, pure_bind]
  rw [← List.append_nil (Bytes.bigEndian (w + 1) n)]
  refine bind hargument ?_
  simp only [Bytes.toNat_bigEndian hn, hmake]
  exact pure h

/-- A head that is its own argument. -/
theorem freshHead_narrow {major n : Nat} {h : Head} (hmajor : major < 8) (hn : n < 24)
    (hmake : Head.make? major (some n) 0 = some h) :
    Reads freshHead [UInt8.ofNat (major * 32 + n)] h := by
  have hfirst := toNat_firstOctet hmajor (show n < 32 by omega)
  have hdiv : (major * 32 + n) / 32 = major := by omega
  have hmod : (major * 32 + n) % 32 = n := by omega
  refine look fun c => ?_
  rw [← List.append_nil [UInt8.ofNat (major * 32 + n)]]
  refine bind (octets [UInt8.ofNat (major * 32 + n)]) ?_
  simp only [hfirst, hdiv, hmod, if_pos hn, pure_bind, hmake]
  exact pure h

/-- A written head is read back, for every major type whose argument may have any width. -/
theorem freshHead {major n : Nat} {h : Head} (hmajor : major < 8) (hn : n < 2 ^ 64)
    (hmake : ∀ width, Head.make? major (some n) width = some h) :
    Reads freshHead (Head.write major n) h := by
  unfold Head.write
  split_ifs with h24 h8 h16 h32
  · exact freshHead_narrow hmajor h24 (hmake 0)
  · exact freshHead_wide hmajor (by decide) rfl h8 (by decide) (hmake 1)
  · exact freshHead_wide hmajor (by decide) rfl h16 (by decide) (hmake 2)
  · exact freshHead_wide hmajor (by decide) rfl h32 (by decide) (hmake 4)
  · exact freshHead_wide hmajor (by decide) rfl (by simpa using hn) (by decide) (hmake 8)

/-- Without anything ahead, the next head that is no tag is a fresh one. -/
theorem run_untagged (offset : Nat) (input : Bytes) :
    ∃ fuel, untagged.run ⟨offset, input, none⟩ =
      (Reader.freshHead >>= fun
        | .tag _ => pastTags (fun _ => false) fuel
        | head => Pure.pure (offset, head)).run ⟨offset, input, none⟩ :=
  ⟨input.length + 1, rfl⟩

theorem run_untagged_of_reads {h : Head} (hh : Reads Reader.freshHead xs h)
    (htag : ∀ n, h ≠ .tag n) (offset : Nat) (rest : Bytes) :
    untagged.run ⟨offset, xs ++ rest, none⟩ =
      .ok ((offset, h), ⟨offset + xs.length, rest, none⟩) := by
  obtain ⟨fuel, hrun⟩ := run_untagged offset (xs ++ rest)
  rw [hrun, run_bind_of_ok (hh.whole offset rest)]
  cases h with
  | tag n => exact absurd rfl (htag n)
  | _ => rfl

/-- Behind a head that is no tag, reading goes on with the head and the place where it began. -/
theorem untagged_bind {h : Head} {f : Nat × Head → Reader α} (hh : Reads Reader.freshHead xs h)
    (htag : ∀ n, h ≠ .tag n) (hf : ∀ start, Reads (f (start, h)) ys a) :
    Reads (untagged >>= f) (xs ++ ys) a where
  whole offset rest := by
    rw [List.append_assoc, run_bind_of_ok (run_untagged_of_reads hh htag offset (ys ++ rest)),
      (hf offset).whole, List.length_append, Nat.add_assoc]
  cut offset front rest hbs hne := by
    obtain ⟨mid, hmid, hxs⟩ | ⟨mid, rfl, hys⟩ := cut_append hbs
    · obtain ⟨fuel, hrun⟩ := run_untagged offset front
      have hstop : untagged.run ⟨offset, front, none⟩ = .error .endOfInput := by
        rw [hrun]
        exact run_bind_of_error (hh.cut offset hxs hmid)
      exact run_bind_of_error hstop
    · rw [run_bind_of_ok (run_untagged_of_reads hh htag offset mid)]
      exact (hf offset).cut _ hys hne

/-! ## Texts -/

/-- The blocks of a text are texts, up to an incomplete character, wherever the text is cut. -/
theorem brokenBlock_eq_false {fuel : Nat} {s : String} (h : front ++ rest = Bytes.ofText s) :
    brokenBlock fuel front = false := by
  induction fuel generalizing front s with
  | zero => rfl
  | succ fuel ih =>
    unfold brokenBlock
    split_ifs with hshort
    · rfl
    · have hlength := congrArg List.length h
      rw [List.length_append] at hlength
      obtain ⟨left, hleft, hle, t, ht⟩ : ∃ left ≤ 3, left ≤ blockSize ∧
          ∃ t, (Bytes.ofText s).take (blockSize - left) = Bytes.ofText t :=
        Bytes.exists_boundary s (by omega)
      cases hfind : (List.range 4).find? fun left =>
          (Bytes.toText? (front.take (blockSize - left))).isSome with
      | none =>
        have hbroken := List.find?_eq_none.mp hfind left (List.mem_range.mpr (by omega))
        rw [← h, List.take_append_of_le_length (by omega)] at ht
        simp [ht] at hbroken
      | some left =>
        have hvalid : (Bytes.toText? (front.take (blockSize - left))).isSome :=
          List.find?_some (p := fun left => (Bytes.toText? (front.take (blockSize - left))).isSome)
            hfind
        obtain ⟨u, hu⟩ := Option.isSome_iff_exists.mp hvalid
        have hfront : Bytes.ofText u ++ (front.drop (blockSize - left) ++ rest) = Bytes.ofText s := by
          rw [Bytes.ofText_of_toText? hu, ← List.append_assoc, List.take_append_drop, h]
        obtain ⟨v, hv⟩ := Bytes.exists_of_ofText_append hfront
        exact ih hv

/-- A text is read back from its octets. -/
theorem textOf (start : Nat) (s : String) :
    Reads (textOf start (Bytes.ofText s).length) (Bytes.ofText s) s where
  whole offset rest := by
    simp [Reader.textOf, takeExactly_append]
    rfl
  cut offset front rest h hne := by
    simp [Reader.textOf, takeExactly_eq_none.mpr (length_lt_of_cut h hne),
      brokenBlock_eq_false h]
    rfl

/-- A text that is not in segments is read in one go. -/
theorem run_textContent (offset n : Nat) (input : Bytes) :
    (do leave (.text (some n)); textContent : Reader String).run ⟨offset, input, none⟩ =
      (Reader.textOf (offset - Head.widthOf n) n).run ⟨offset, input, none⟩ := by
  have hone : (do leave (.text (some n)); textContent : Reader String).run ⟨offset, input, none⟩ =
      ((do return "" ++ (← Reader.textOf (offset - Head.widthOf n) n) : Reader String) >>=
        fun s => Pure.pure s).run ⟨offset, input, none⟩ := rfl
  rw [hone]
  simp

/-- A written text is read back. -/
theorem text {s : String} (hs : (Bytes.ofText s).length < 2 ^ 64) :
    Reads text (writeText s) s := by
  refine untagged_bind (freshHead (h := .text (some (Bytes.ofText s).length)) (by decide) hs
    fun _ => rfl) (by simp) fun start => ?_
  constructor
  · intro offset rest
    exact (run_textContent _ _ _).trans ((textOf _ s).whole offset rest)
  · intro offset front rest h hne
    exact (run_textContent _ _ _).trans ((textOf _ s).cut offset h hne)

/-- The key of a field is read back. -/
theorem key {s : String} (hs : (Bytes.ofText s).length ≤ blockSize) :
    Reads key (writeText s) (Bytes.ofText s) := by
  have hwidth : (Bytes.ofText s).length < 2 ^ 64 := by
    have : blockSize < 2 ^ 64 := by decide
    omega
  refine untagged_bind (freshHead (h := .text (some (Bytes.ofText s).length)) (by decide) hwidth
    fun _ => rfl) (by simp) fun start => ?_
  simp only [if_pos hs]
  exact map (textOf start s) rfl

/-! ## Lists and records -/

end Reads

/-- A step of a loop reads one chunk after the other. -/
inductive Steps (step : σ → Reader σ) : σ → List Bytes → σ → Prop where
  | nil (s : σ) : Steps step s [] s
  | cons {s s' s'' : σ} {chunk : Bytes} {chunks : List Bytes} (hread : Reads (step s) chunk s')
      (hne : chunk ≠ []) (hsteps : Steps step s' chunks s'') : Steps step s (chunk :: chunks) s''

namespace Steps

variable {step : σ → Reader σ} {s s' : σ} {chunks : List Bytes}

theorem run_parts (h : Steps step s chunks s') {fuel : Nat} (hfuel : chunks.length < fuel)
    (offset : Nat) (rest : Bytes) :
    (parts step fuel (some chunks.length) s).run ⟨offset, chunks.flatten ++ rest, none⟩ =
      .ok (s', ⟨offset + chunks.flatten.length, rest, none⟩) := by
  induction h generalizing fuel offset with
  | nil s =>
    obtain ⟨fuel, rfl⟩ := Nat.exists_eq_succ_of_ne_zero (Nat.ne_zero_of_lt hfuel)
    rfl
  | @cons s next last chunk chunks hread _ _ ih =>
    obtain ⟨fuel, rfl⟩ := Nat.exists_eq_succ_of_ne_zero (Nat.ne_zero_of_lt hfuel)
    change (step s >>= parts step fuel (some chunks.length)).run _ = _
    rw [List.flatten_cons, List.append_assoc,
      run_bind_of_ok (hread.whole offset (chunks.flatten ++ rest)),
      ih (by simpa using hfuel), List.length_append, Nat.add_assoc]

/-- Running out of fuel looks like the end of the input, so any amount of it will do. -/
theorem cut_parts (h : Steps step s chunks s') (fuel offset : Nat)
    (hcut : front ++ rest = chunks.flatten) (hne : rest ≠ []) :
    (parts step fuel (some chunks.length) s).run ⟨offset, front, none⟩ =
      .error .endOfInput := by
  induction h generalizing fuel offset front with
  | nil s => simp_all
  | @cons s next last chunk chunks hread _ _ ih =>
    cases fuel with
    | zero => rfl
    | succ fuel =>
      change (step s >>= parts step fuel (some chunks.length)).run _ = _
      obtain ⟨mid, hmid, hchunk⟩ | ⟨mid, rfl, hchunks⟩ := cut_append hcut
      · exact run_bind_of_error (hread.cut offset hchunk hmid)
      · rw [run_bind_of_ok (hread.whole offset mid)]
        exact ih fuel _ hchunks

theorem length_le_flatten (h : Steps step s chunks s') : chunks.length ≤ chunks.flatten.length := by
  induction h with
  | nil s => exact Nat.le_refl _
  | cons _ hne _ ih =>
    have := List.length_pos_iff.mpr hne
    rw [List.flatten_cons, List.length_append, List.length_cons]
    omega

theorem content (h : Steps step s chunks s') :
    Reads (content (some chunks.length) step s) chunks.flatten s' where
  whole offset rest := by
    have hlength := h.length_le_flatten
    refine h.run_parts ?_ offset rest
    rw [List.length_append]
    omega
  cut offset front rest hcut hne := h.cut_parts _ offset hcut hne

/-- The elements of a list are read one after the other. -/
theorem elements {element : Reader α} {write : α → Bytes} {list : List α}
    (hread : ∀ x ∈ list, Reads element (write x) x) (hne : ∀ x, write x ≠ []) (done : List α) :
    Steps (fun xs => return xs ++ [← element]) done (list.map write) (done ++ list) := by
  induction list generalizing done with
  | nil => simpa using Steps.nil done
  | cons x list ih =>
    have hx := Reads.map (g := fun x => done ++ [x]) (hread x List.mem_cons_self) rfl
    have hlist := ih (fun y hy => hread y (List.mem_cons_of_mem x hy)) (done ++ [x])
    rw [List.append_assoc] at hlist
    exact .cons hx (hne x) hlist

end Steps

namespace Reads

/-- A written list is read back, if its elements are. -/
theorem list {expected : String} {element : Nat → Reader α} {depth : Nat} {write : α → Bytes}
    {xs : List α} (hlength : xs.length < 2 ^ 64) (hne : ∀ x, write x ≠ [])
    (hread : ∀ x ∈ xs, Reads (element depth) (write x) x) :
    Reads (list expected element (depth + 1)) (writeList write xs) xs := by
  refine untagged_bind (freshHead (h := .array (some xs.length)) (by decide) hlength
    fun _ => rfl) (by simp) fun start => ?_
  have hsteps := Steps.elements hread hne []
  have hcontent := hsteps.content
  rw [List.length_map, List.nil_append, ← List.flatMap_def] at hcontent
  exact hcontent

/-- One field of a record is read, if it was not read before. -/
theorem entry {fields : List (Field Reader σ)} {depth : Nat} {draft draft' : σ} {name : String}
    {field : Field Reader σ} {value : Bytes} (hname : (Bytes.ofText name).length ≤ blockSize)
    (hfield : fields.find? (fun field => field.name = name) = some field)
    (habsent : field.present draft = false) (hread : Reads (field.read draft) value draft') :
    Reads (entry fields depth draft) (writeText name ++ value) draft' := by
  refine bind (key hname) ?_
  simp only [Bytes.ofText_injective.eq_iff, hfield, habsent]
  exact hread

end Reads

/-- The fields of a record are read one after the other. -/
theorem Steps.field {fields : List (Field Reader σ)} {depth : Nat} {draft draft' last : σ}
    {name : String} {field : Field Reader σ} {value : Bytes} {chunks : List Bytes}
    (hname : (Bytes.ofText name).length ≤ blockSize)
    (hfield : fields.find? (fun field => field.name = name) = some field)
    (habsent : field.present draft = false) (hread : Reads (field.read draft) value draft')
    (hsteps : Steps (Reader.entry fields depth) draft' chunks last) :
    Steps (Reader.entry fields depth) draft ((writeText name ++ value) :: chunks) last :=
  .cons (.entry hname hfield habsent hread) (by simp [writeText, Head.write_ne_nil]) hsteps

namespace Reads

/-- A written record is read back, if its fields are. -/
theorem record {fields : Nat → List (Field Reader σ)} {blank draft : σ}
    {finish : σ → Except Mismatch α} {depth : Nat} {written : List (String × Bytes)}
    (hlength : written.length < 2 ^ 64)
    (hsteps : Steps (Reader.entry (fields depth) depth) blank
      (written.map fun field => writeText field.1 ++ field.2) draft)
    (hfinish : finish draft = .ok a) :
    Reads (record fields blank finish (depth + 1)) (writeRecord written) a := by
  refine untagged_bind (freshHead (h := .map (some written.length)) (by decide) hlength
    fun _ => rfl) (by simp) fun start => ?_
  have hcontent := hsteps.content
  rw [List.length_map, ← List.flatMap_def] at hcontent
  have hchecked : Reads (checked (finish draft)) [] a := by
    rw [hfinish]
    exact pure a
  have hrecord := bind (f := fun draft => checked (finish draft)) hcontent hchecked
  rw [List.append_nil] at hrecord
  exact hrecord

/-! ## Snapshots -/

/-- A written identifier is read back. -/
theorem gid (id : Gid) (depth : Nat) : Reads (gid depth) id.toCbor id := by
  have hlength : id.toBytes.length = gidWidth := id.length_toBytes
  have hwidth : id.toBytes.length < 2 ^ 64 := by
    rw [hlength]
    decide
  refine untagged_bind (freshHead (h := .bytes (some id.toBytes.length)) (by decide) hwidth
    fun _ => rfl) (by simp) fun start => ?_
  have hgid : Reads (gidOf id.toBytes) [] id := by
    rw [gidOf, Gid.ofBytes?_toBytes]
    exact pure id
  have hoctets := bind (octets id.toBytes) hgid
  rw [List.append_nil] at hoctets
  simp only [if_pos (show id.toBytes.length ≤ blockSize by rw [hlength]; decide)]
  exact hoctets

end Reads

end Reader

end Cbor

namespace Cbor.Reader.Reads

/-- A written node is read back. -/
theorem nodeEntities {entry : NodeEntities} (h : entry.Sized) (depth : Nat) :
    Reads (nodeEntities (depth + 2)) entry.toCbor entry := by
  have hgids (gids : List Gid) (hlength : gids.length < 2 ^ 64) :
      Reads (Reader.gids (depth + 1)) (writeList Gid.toCbor gids) gids :=
    list hlength (by simp [Gid.toCbor, writeBytes, Head.write_ne_nil]) fun id _ => gid id depth
  have hsteps : Steps (Reader.entry (NodeEntities.Draft.fields Reader.text
        (Reader.gids (depth + 1))) (depth + 1)) {}
      [writeText "namespace" ++ writeText entry.node.ns,
        writeText "name" ++ writeText entry.node.name,
        writeText "readers" ++ writeList Gid.toCbor entry.readers,
        writeText "writers" ++ writeList Gid.toCbor entry.writers]
      { ns := some entry.node.ns, name := some entry.node.name, readers := some entry.readers,
        writers := some entry.writers } := by
    refine .field (by decide) rfl rfl (map (text h.ns) rfl) ?_
    refine .field (by decide) rfl rfl (map (text h.name) rfl) ?_
    refine .field (by decide) rfl rfl (map (hgids entry.readers (h.listed .reader)) rfl) ?_
    exact .field (by decide) rfl rfl (map (hgids entry.writers (h.listed .writer)) rfl) (.nil _)
  exact record (by simp) hsteps rfl

/-- A written snapshot is read back. -/
theorem snapshot {state : Snapshot} (h : state.Sized) (depth : Nat) :
    Reads (snapshot (depth + 4)) state.toCbor state := by
  have hnodes : Reads (Reader.list "struct NodeEntities" Reader.nodeEntities (depth + 3))
      (writeList NodeEntities.toCbor state.nodes) state.nodes :=
    list h.nodes (by simp [NodeEntities.toCbor, writeRecord, Head.write_ne_nil])
      fun entry hentry => nodeEntities (h.entries entry hentry) depth
  have hsteps : Steps (Reader.entry (Snapshot.Draft.fields (Reader.gid (depth + 3))
        (Reader.list "struct NodeEntities" Reader.nodeEntities (depth + 3))) (depth + 3)) {}
      [writeText "gid" ++ state.gid.toCbor,
        writeText "nodes" ++ writeList NodeEntities.toCbor state.nodes]
      { gid := some state.gid, nodes := some state.nodes } := by
    refine .field (by decide) rfl rfl (map (gid state.gid (depth + 3)) rfl) ?_
    exact .field (by decide) rfl rfl (map hnodes rfl) (.nil _)
  exact record (by simp) hsteps rfl

end Cbor.Reader.Reads

namespace Snapshot

/-- What was written is read, and what follows it is left alone. -/
theorem ofCbor_toCbor_append {state : Snapshot} (h : state.Sized) (rest : Bytes) :
    ofCbor (state.toCbor ++ rest) = .ok state := by
  have hrun := (Cbor.Reader.Reads.snapshot h 252).whole 0 rest
  rw [ofCbor]
  change Except.map _ ((Cbor.Reader.snapshot (252 + 4)).run _) = _
  rw [hrun]
  rfl

/-- Of a message that is cut short, the end is missed. -/
theorem ofCbor_of_cut {state : Snapshot} (h : state.Sized) {front rest : Bytes}
    (hcut : front ++ rest = state.toCbor) (hne : rest ≠ []) :
    ofCbor front = .error .endOfInput := by
  have hrun := (Cbor.Reader.Reads.snapshot h 252).cut 0 hcut hne
  rw [ofCbor]
  change Except.map _ ((Cbor.Reader.snapshot (252 + 4)).run _) = _
  rw [hrun]
  rfl

/-- The octets of a snapshot tell where they end. Whatever stands behind them, the snapshot is read
back; of a proper part at their front, the end is missed; and they stand at the front of no other
snapshot. -/
theorem toCbor_selfDelimiting {state : Snapshot} (h : state.Sized) :
    (∀ rest, ofCbor (state.toCbor ++ rest) = .ok state) ∧
    (∀ front, front <+: state.toCbor → front ≠ state.toCbor →
      ofCbor front = .error .endOfInput) ∧
    ∀ other : Snapshot, other.Sized → state.toCbor <+: other.toCbor → other = state := by
  refine ⟨ofCbor_toCbor_append h, fun front hfront hproper => ?_, fun other hother hfront => ?_⟩
  · obtain ⟨rest, hrest⟩ := hfront
    have hne : rest ≠ [] := by
      rintro rfl
      exact hproper (by rwa [List.append_nil] at hrest)
    exact ofCbor_of_cut h hrest hne
  · obtain ⟨rest, hrest⟩ := hfront
    have hread := ofCbor_toCbor_append hother []
    rw [List.append_nil, ← hrest, ofCbor_toCbor_append h, Except.ok.injEq] at hread
    exact hread.symm

/-- A snapshot that lists an endpoint twice, and a node whose name needs more octets than
characters. It is read in front of other octets, and no shorter part of it is. -/
theorem toCbor_selfDelimiting_repeated :
    let state : Snapshot := ⟨.zero, [⟨⟨"/", "µ"⟩, [.zero, .zero], []⟩, ⟨⟨"/", "a"⟩, [], [.zero]⟩]⟩
    state.Sized ∧ ofCbor (state.toCbor ++ [0xff]) = .ok state ∧
      ∀ n < state.toCbor.length, ofCbor (state.toCbor.take n) = .error .endOfInput := by
  intro state
  have hsized : state.Sized := by decide
  obtain ⟨hwhole, hcut, -⟩ := toCbor_selfDelimiting hsized
  refine ⟨hsized, hwhole [0xff], fun n hn => hcut _ (List.take_prefix n _) fun hsame => ?_⟩
  have hlength := congrArg List.length hsame
  rw [List.length_take] at hlength
  omega

end Snapshot

end DiscoveryGraph
