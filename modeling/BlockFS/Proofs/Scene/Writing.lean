import BlockFS.Proofs.Scene.Files
import BlockFS.Proofs.StoreLaws

/-!
# Writing into files where no transfer fails

A write goes over the spans of its data.  Seen from outside, it puts the bytes into the file one after
another, up to the first that finds no room: the slot of that byte is a hole and no block is free, or
there is no such slot.  The rows of bytes are what a proof can cut anywhere, so the two are shown to
come to the same volume, to the last byte of the disk, and what a write does is derived from what one
byte does.
-/

namespace BlockFS

open Volume

variable {l : Layout} {s s' t : Scene l} {i b slot byte k : Nat} {x : UInt8} {xs ys : List UInt8}

namespace Bytes

theorem write_nil {n : Nat} (v : Bytes n) (start : Nat) : v.write start [] = v := by
  apply Vector.ext
  intro j hj
  rw [getElem_write, List.getElem?_nil, Option.getD_none, ite_self]

/-- Bytes laid over a vector one row behind the other. -/
theorem write_append {n : Nat} (v : Bytes n) (start : Nat) (front back : List UInt8) :
    (v.write start front).write (start + front.length) back = v.write start (front ++ back) := by
  apply Vector.ext
  intro j hj
  simp only [getElem_write, List.getElem?_append]
  grind

end Bytes

/-! ## One byte -/

namespace Scene

/-- The block to write a slot of a file into, and the scene in which the slot has it: a hole gets the
lowest free block, filled with zeros.  There is none if no block is free. -/
def supply (s : Scene l) (i slot : Nat) : Option (Nat × Scene l) :=
  match (s.records.inode i).block? slot with
  | some b => some (b, s)
  | none => (s.records.lowestFree .block l.blockCount).map fun b =>
      (b, ((s.mark .block b true).putBlock b .zero).putInode i
        ((s.records.inode i).setPointer slot b))

/-- The scene after a byte was written into a file, unless there is no room for it. -/
def putByte (s : Scene l) (i k : Nat) (x : UInt8) : Option (Scene l) :=
  if k / blockSize < pointerCount then
    (s.supply i (k / blockSize)).map fun r =>
      r.2.putBlock r.1 ((r.2.records.block r.1).write (k % blockSize) [x])
  else none

/-- How many bytes of a row find room in a file from byte `k` on, and the scene after they were
written. -/
def putBytes (i : Nat) : List UInt8 → Nat → Scene l → Nat × Scene l
  | [], _, s => (0, s)
  | x :: xs, k, s =>
    match s.putByte i k x with
    | none => (0, s)
    | some s' => ((putBytes i xs (k + 1) s').1 + 1, (putBytes i xs (k + 1) s').2)

/-- The scene in which a file was made to reach some byte, at the time of the clock. -/
def reaching (s : Scene l) (i reach : Nat) : Scene l :=
  s.putInode i ((s.records.inode i).reaching reach (timestamp s.clock))

/-- How many bytes a write puts into a file, and the scene that it leaves. -/
def written (s : Scene l) (i offset : Nat) (data : List UInt8) : Nat × Scene l :=
  let r := putBytes i data offset s
  (r.1, if r.1 = 0 then r.2 else r.2.reaching i (offset + r.1))

/-- What a write answers: how many bytes it put into the file, unless there are slots for them and not
even the first found room. -/
def writeAnswer (s : Scene l) (i offset : Nat) (data : List UInt8) : Except Error Nat :=
  if (s.written i offset data).1 = 0 ∧ data ≠ [] ∧ offset < pointerCount * blockSize then
    .error .noSpace
  else .ok (s.written i offset data).1

/-! ### Supplying a slot -/

theorem supply_of_block (h : (s.records.inode i).block? slot = some b) :
    s.supply i slot = some (b, s) := by
  rw [supply, h]

theorem supply_of_hole (h : (s.records.inode i).block? slot = none) :
    s.supply i slot = (s.records.lowestFree .block l.blockCount).map fun b =>
      (b, ((s.mark .block b true).putBlock b .zero).putInode i
        ((s.records.inode i).setPointer slot b)) := by
  rw [supply, h]

theorem supply_eq_none_iff : s.supply i slot = none ↔
    (s.records.inode i).block? slot = none ∧
      s.records.lowestFree .block l.blockCount = none := by
  cases hblock : (s.records.inode i).block? slot with
  | some b => simp only [supply_of_block hblock, reduceCtorEq, false_and]
  | none => simp only [supply_of_hole hblock, Option.map_eq_none_iff, true_and]

section

variable (h : s.records.Tidy l) (hi : s.records.kind i = .file) (hslot : slot < pointerCount)
  (hsupply : s.supply i slot = some (b, t))

include h hi hslot hsupply

theorem supplies_of_supply : Supplies i slot b s t := by
  cases hblock : (s.records.inode i).block? slot with
  | some b' =>
    rw [supply_of_block hblock, Option.some.injEq, Prod.mk.injEq] at hsupply
    obtain ⟨rfl, rfl⟩ := hsupply
    exact .refl h ⟨Records.ne_free_of_file hi, hblock⟩
  | none =>
    rw [supply_of_hole hblock, Option.map_eq_some_iff] at hsupply
    obtain ⟨b', hfree, hb'⟩ := hsupply
    obtain ⟨-, hlt, hb, -⟩ := Records.lowestFree_eq_some_iff.mp hfree
    rw [Prod.mk.injEq] at hb'
    obtain ⟨rfl, rfl⟩ := hb'
    exact .grow h hi hblock hslot hb hlt

/-- A slot that has a block keeps it. -/
theorem supply_of_supply : t.supply i slot = some (b, t) :=
  supply_of_block (supplies_of_supply h hi hslot hsupply).owns.points

end

end Scene

/-- What a slot held, or zeros, is in the block that it was supplied with. -/
theorem Scene.Supplies.block_eq (w : Supplies i slot b s t) :
    t.records.block b = (s.records.content i slot).getD .zero := by
  have hcontent := w.content
  have hslot := congrFun hcontent slot
  rw [w.owns.content_eq, Function.update_self] at hslot
  exact Option.some.inj hslot

namespace Scene

/-! ### Writing a byte -/

theorem putByte_eq_none_iff : s.putByte i k x = none ↔
    pointerCount ≤ k / blockSize ∨ (s.records.inode i).block? (k / blockSize) = none ∧
      s.records.lowestFree .block l.blockCount = none := by
  rw [putByte, ← supply_eq_none_iff]
  split
  · next hslot => rw [Option.map_eq_none_iff, or_iff_right (Nat.not_le_of_lt hslot)]
  · next hslot => exact iff_of_true rfl (.inl (Nat.le_of_not_lt hslot))

theorem putByte_of_supply (hslot : k / blockSize < pointerCount)
    (hsupply : s.supply i (k / blockSize) = some (b, t)) : s.putByte i k x =
      some (t.putBlock b ((t.records.block b).write (k % blockSize) [x])) := by
  rw [putByte, if_pos hslot, hsupply, Option.map_some]

theorem exists_supply_of_putByte (hput : s.putByte i k x = some s') :
    k / blockSize < pointerCount ∧ ∃ b t, s.supply i (k / blockSize) = some (b, t) ∧
      s' = t.putBlock b ((t.records.block b).write (k % blockSize) [x]) := by
  by_cases hslot : k / blockSize < pointerCount
  · refine ⟨hslot, ?_⟩
    rw [putByte, if_pos hslot, Option.map_eq_some_iff] at hput
    obtain ⟨⟨b, t⟩, hsupply, hs'⟩ := hput
    exact ⟨b, t, hsupply, hs'.symm⟩
  · rw [putByte, if_neg hslot] at hput
    cases hput

/-- A byte that finds room comes into the block that its slot is supplied with. -/
theorem supplies_of_putByte (h : s.records.Tidy l) (hi : s.records.kind i = .file)
    (hput : s.putByte i k x = some s') : k / blockSize < pointerCount ∧
      ∃ b t, Supplies i (k / blockSize) b s t ∧
        s' = t.putBlock b (((s.records.content i (k / blockSize)).getD .zero).write
          (k % blockSize) [x]) := by
  obtain ⟨hslot, b, t, hsupply, hs'⟩ := exists_supply_of_putByte hput
  have w := supplies_of_supply h hi hslot hsupply
  exact ⟨hslot, b, t, w, by rw [hs', w.block_eq]⟩

/-! ## A row of bytes -/

theorem putBytes_of_none (h : s.putByte i k x = none) : s.putBytes i (x :: xs) k = (0, s) := by
  rw [putBytes, h]

theorem putBytes_of_some (h : s.putByte i k x = some s') : s.putBytes i (x :: xs) k =
    ((s'.putBytes i xs (k + 1)).1 + 1, (s'.putBytes i xs (k + 1)).2) := by
  rw [putBytes, h]

theorem putBytes_idle (h : (s.putBytes i xs k).1 = 0) : (s.putBytes i xs k).2 = s := by
  cases xs with
  | nil => rfl
  | cons x xs =>
    cases hput : s.putByte i k x with
    | none => rw [putBytes_of_none hput]
    | some s' =>
      rw [putBytes_of_some hput] at h
      cases h

/-- A row stops at a byte that finds no room. -/
theorem putBytes_stop (h : (s.putBytes i xs k).1 < xs.length) :
    ∃ x, (s.putBytes i xs k).2.putByte i (k + (s.putBytes i xs k).1) x = none := by
  induction xs generalizing s k with
  | nil => cases h
  | cons x xs ih =>
    cases hput : s.putByte i k x with
    | none =>
      rw [putBytes_of_none hput]
      exact ⟨x, hput⟩
    | some s' =>
      rw [putBytes_of_some hput] at h ⊢
      obtain ⟨y, hy⟩ := ih (Nat.lt_of_succ_lt_succ h)
      refine ⟨y, ?_⟩
      rw [Nat.add_assoc, Nat.add_comm 1] at hy
      exact hy

/-- Of two rows in a row, the second goes on where the first came to its end. -/
theorem putBytes_append (h : (s.putBytes i xs k).1 = xs.length) (ys : List UInt8) :
    s.putBytes i (xs ++ ys) k =
      (xs.length + ((s.putBytes i xs k).2.putBytes i ys (k + xs.length)).1,
        ((s.putBytes i xs k).2.putBytes i ys (k + xs.length)).2) := by
  induction xs generalizing s k with
  | nil => rw [List.nil_append, List.length_nil, Nat.zero_add, Nat.add_zero]; rfl
  | cons x xs ih =>
    cases hput : s.putByte i k x with
    | none =>
      rw [putBytes_of_none hput] at h
      cases h
    | some s' =>
      rw [putBytes_of_some hput] at h ⊢
      have hnext : k + 1 + xs.length = k + (xs.length + 1) := by omega
      rw [List.cons_append, putBytes_of_some hput, ih (Nat.succ.inj h), List.length_cons, hnext,
        Nat.add_right_comm]

/-! ### A row within one block -/

/-- A row that stays in a block that the file has. -/
theorem putBytes_of_block (hslot : slot < pointerCount) (hge : l.firstDataBlock ≤ b)
    (hlt : b < l.blockCount) (hblock : (s.records.inode i).block? slot = some b)
    (hroom : byte + xs.length ≤ blockSize) : s.putBytes i xs (slot * blockSize + byte) =
      (xs.length, s.putBlock b ((s.records.block b).write byte xs)) := by
  induction xs generalizing s byte with
  | nil =>
    rw [Bytes.write_nil, records_block hge hlt, s.putBlock_block hge hlt]
    rfl
  | cons x xs ih =>
    rw [List.length_cons] at hroom
    have hdiv : (slot * blockSize + byte) / blockSize = slot := by
      simp only [blockSize] at hroom ⊢
      omega
    have hmod : (slot * blockSize + byte) % blockSize = byte := by
      simp only [blockSize] at hroom ⊢
      omega
    have hput : s.putByte i (slot * blockSize + byte) x
        = some (s.putBlock b ((s.records.block b).write byte [x])) := by
      rw [putByte_of_supply (hdiv.symm ▸ hslot) (hdiv.symm ▸ supply_of_block hblock), hmod]
    generalize hz : (s.records.block b).write byte [x] = z at hput
    have hrecords := s.records_putBlock hge hlt z
    have hblock' : ((s.putBlock b z).records.inode i).block? slot = some b := by
      rw [hrecords]
      exact hblock
    have hnext := ih hblock' (show byte + 1 + xs.length ≤ blockSize by omega)
    have hsame : (s.putBlock b z).records.block b = z := by
      rw [hrecords]
      exact Function.update_self _ _ _
    have hwhole : Bytes.write z (byte + 1) xs = (s.records.block b).write byte (x :: xs) := by
      rw [← hz]
      exact Bytes.write_append _ byte [x] xs
    rw [putBytes_of_some hput, Nat.add_assoc, hnext, hsame, s.putBlock_putBlock hge hlt, hwhole]
    rfl

/-- A row that stays in one block comes into the block that its slot is supplied with. -/
theorem putBytes_span (h : s.records.Tidy l) (hi : s.records.kind i = .file)
    (hslot : slot < pointerCount) (hsupply : s.supply i slot = some (b, t)) (hne : xs ≠ [])
    (hroom : byte + xs.length ≤ blockSize) : s.putBytes i xs (slot * blockSize + byte) =
      (xs.length, t.putBlock b (((s.records.content i slot).getD .zero).write byte xs)) := by
  have w := supplies_of_supply h hi hslot hsupply
  obtain ⟨hge, hlt⟩ := w.writes.tidy.blocks.range i slot b w.owns
  have hstart : s.putBytes i xs (slot * blockSize + byte)
      = t.putBytes i xs (slot * blockSize + byte) := by
    cases xs with
    | nil => exact absurd rfl hne
    | cons x xs =>
      have hpos : 0 < (x :: xs).length := Nat.succ_pos _
      have hdiv : (slot * blockSize + byte) / blockSize = slot := by
        simp only [blockSize] at hroom ⊢
        omega
      have hput := putByte_of_supply (x := x) (hdiv.symm ▸ hslot) (hdiv.symm ▸ hsupply)
      have hput' := putByte_of_supply (x := x) (hdiv.symm ▸ hslot)
        (hdiv.symm ▸ supply_of_supply h hi hslot hsupply)
      rw [putBytes_of_some hput, putBytes_of_some hput']
  rw [hstart, putBytes_of_block hslot hge hlt w.owns.points hroom, w.block_eq]

/-- A row of which some bytes lie in one block: these come into the block, and then the others. -/
theorem putBytes_span_append {p : Position} {here : Nat} (h : s.records.Tidy l)
    (hi : s.records.kind i = .file) (hslot : p.block < pointerCount)
    (hsupply : s.supply i p.block = some (b, t)) (hpos : 0 < here) (hlen : here ≤ xs.length)
    (hroom : p.byte + here ≤ blockSize) :
    let u := t.putBlock b (((s.records.content i p.block).getD .zero).write p.byte (xs.take here))
    s.putBytes i xs p.toNat =
      (here + (u.putBytes i (xs.drop here) (p.advance here).toNat).1,
        (u.putBytes i (xs.drop here) (p.advance here).toNat).2) := by
  intro u
  have htake : (xs.take here).length = here := by
    rw [List.length_take]
    omega
  have hspan : s.putBytes i (xs.take here) p.toNat = ((xs.take here).length, u) :=
    putBytes_span h hi hslot hsupply (List.ne_nil_of_length_pos (by omega)) (by omega)
  have happend := putBytes_append (congrArg Prod.fst hspan) (xs.drop here)
  rw [List.take_append_drop, hspan, htake, ← p.toNat_advance] at happend
  exact happend

end Scene

/-! ## Spans -/

variable {data : List UInt8} {n : Nat}

namespace File

section

variable (hm : s.mounted = true) (h : s.records.Tidy l) (hi : s.records.kind i = .file)

include hm h hi

/-- A slot is given the block that it is supplied with. -/
theorem does_blockFor (hslot : slot < pointerCount) (hsupply : s.supply i slot = some (b, t))
    (progress : Bool) : Does (blockFor slot progress) (s.file i, s)
      (.ok (some (b, (s.records.content i slot).getD .zero))) (t.file i, t) := by
  have hlive := Records.ne_free_of_file hi
  have w := Scene.supplies_of_supply h hi hslot hsupply
  rw [← w.block_eq]
  apply ViewM.does_current.bind
  cases hblock : (s.records.inode i).block? slot with
  | some b' =>
    rw [Scene.supply_of_block hblock, Option.some.injEq, Prod.mk.injEq] at hsupply
    obtain ⟨rfl, rfl⟩ := hsupply
    have hfile : (s.file i).record.block? slot = some b' := hblock
    obtain ⟨hge, hlt⟩ := h.blocks.range i slot b' ⟨hlive, hblock⟩
    simp only [hfile]
    exact (ViewM.does_onVolume (does_readBlock hm hge hlt)).bind (Does.pure _ _)
  | none =>
    rw [Scene.supply_of_hole hblock, Option.map_eq_some_iff] at hsupply
    obtain ⟨b', hfree, hb'⟩ := hsupply
    rw [Prod.mk.injEq] at hb'
    obtain ⟨rfl, rfl⟩ := hb'
    obtain ⟨-, hlt, hb, -⟩ := Records.lowestFree_eq_some_iff.mp hfree
    have hfile : (s.file i).record.block? slot = none := hblock
    have hilt : i < l.inodeCount := h.lt_of_live hlive
    have hrecord := (writes_grow h hi hblock hslot hb hlt).2.1
    have hview : (((s.mark .block b' true).putBlock b' .zero).putInode i
        ((s.records.inode i).setPointer slot b')).file i
          = ⟨i, (s.records.inode i).setPointer slot b'⟩ := by
      rw [Scene.file, hrecord]
    have hmore : Does (allocateMore progress) s (.ok (some b'))
        ((s.mark .block b' true).putBlock b' .zero) :=
      (does_allocateBlock hm h.reserves hfree).map.tryCatch_ok
    have hzero := w.block_eq
    rw [Records.content_eq_none_iff.mpr hblock, Option.getD_none] at hzero
    simp only [hfile]
    apply (ViewM.does_onVolume hmore).bind
    apply (ViewM.does_change _).bind
    apply ViewM.does_current.bind
    refine (ViewM.does_onVolume
      (does_writeInode (s := (s.mark .block b' true).putBlock b' .zero) hm hilt _)).bind ?_
    rw [hzero, hview]
    exact Does.pure _ _

omit h hi in
/-- A hole stays one if no block is free, which ends a write that has come somewhere. -/
theorem does_blockFor_full (hsupply : s.supply i slot = none) (progress : Bool) :
    Does (blockFor slot progress) (s.file i, s)
      (if progress then .ok none else .error .noSpace) (s.file i, s) := by
  obtain ⟨hblock, hfree⟩ := Scene.supply_eq_none_iff.mp hsupply
  have hfile : (s.file i).record.block? slot = none := hblock
  have hfull := does_allocateBlock_full hm hfree
  apply ViewM.does_current.bind
  simp only [hfile]
  cases progress with
  | true =>
    have hmore : Does (allocateMore true) s (.ok none) s :=
      hfull.map_error.tryCatch_error (Does.pure _ _)
    exact (ViewM.does_onVolume hmore).bind (Does.pure _ _)
  | false =>
    have hmore : Does (allocateMore false) s (.error .noSpace) s :=
      hfull.map_error.tryCatch_error (Does.throw _ _)
    exact (ViewM.does_onVolume hmore).bind_error

end

/-- Writing span by span puts the bytes of the data into the file one after another.  It fails if there
are slots for them and not even the first byte finds room, unless something was written before. -/
theorem does_writeSpans (blocks : Nat) :
    ∀ (p : Position) (data : List UInt8) (done : Nat) (s : Scene l), s.mounted = true →
      s.records.Tidy l → s.records.kind i = .file →
      (data ≠ [] → p.block + blocks = pointerCount) →
      Does (writeSpans (Span.coverWithin blocks p data.length) data done) (s.file i, s)
        (if done + (s.putBytes i data p.toNat).1 = 0 ∧ data ≠ [] ∧ p.block < pointerCount then
            .error .noSpace
          else .ok (done + (s.putBytes i data p.toNat).1))
        ((s.putBytes i data p.toNat).2.file i, (s.putBytes i data p.toNat).2) := by
  induction blocks with
  | zero =>
    intro p data done s _ _ _ hblocks
    have hnone : s.putBytes i data p.toNat = (0, s) := by
      cases data with
      | nil => rfl
      | cons x xs =>
        have hbehind : pointerCount ≤ p.toNat / blockSize := by
          rw [p.toNat_div]
          exact Nat.le_of_eq (hblocks (List.cons_ne_nil x xs)).symm
        exact Scene.putBytes_of_none (Scene.putByte_eq_none_iff.mpr (.inl hbehind))
    rw [hnone, if_neg fun hfail => Nat.ne_of_lt hfail.2.2 (hblocks hfail.2.1)]
    exact Does.pure _ _
  | succ blocks ih =>
    intro p data done s hm h hi hblocks
    by_cases hdata : data = []
    · subst hdata
      rw [List.length_nil, Span.coverWithin_zero, if_neg fun hfail => hfail.2.1 rfl]
      exact Does.pure _ _
    · have hlength : data.length ≠ 0 := fun hzero => hdata (List.length_eq_zero_iff.mp hzero)
      have hbyte := p.byte_lt
      have hend := hblocks hdata
      have hslot : p.block < pointerCount := by omega
      rw [Span.coverWithin_succ _ _ hlength]
      generalize hhere : min data.length (blockSize - p.byte) = here
      cases hsupply : s.supply i p.block with
      | none =>
        have hnone : s.putBytes i data p.toNat = (0, s) := by
          obtain ⟨x, xs, rfl⟩ := List.exists_cons_of_ne_nil hdata
          rw [← p.toNat_div, Scene.supply_eq_none_iff] at hsupply
          exact Scene.putBytes_of_none (Scene.putByte_eq_none_iff.mpr (.inr hsupply))
        have hfull := does_blockFor_full hm hsupply (decide (0 < done))
        rw [hnone]
        by_cases hdone : 0 < done
        · rw [if_pos (decide_eq_true hdone)] at hfull
          rw [if_neg fun hfail => Nat.ne_of_gt hdone hfail.1]
          exact hfull.bind (Does.pure _ _)
        · rw [if_neg (by simpa using hdone)] at hfull
          rw [if_pos ⟨Nat.eq_zero_of_not_pos hdone, hdata, hslot⟩]
          exact hfull.bind_error
      | some r =>
        obtain ⟨b, t⟩ := r
        have w := Scene.supplies_of_supply h hi hslot hsupply
        obtain ⟨hge, hlt⟩ := w.writes.tidy.blocks.range i p.block b w.owns
        have hm1 : t.mounted = true := w.writes.mounted.trans hm
        have hsplit := Scene.putBytes_span_append h hi hslot hsupply (show 0 < here by omega)
          (show here ≤ data.length by omega) (by omega)
        generalize hz : ((s.records.content i p.block).getD .zero).write p.byte (data.take here)
          = z at hsplit
        obtain ⟨hw, hinode, -⟩ := writes_putBlock w.writes.tidy (w.kind hi) w.owns z
        have hview : t.file i = (t.putBlock b z).file i := by
          rw [Scene.file, Scene.file, hinode]
        have hrow : data.drop here ≠ [] → (p.advance here).block + blocks = pointerCount := by
          intro hdrop
          have hlong : here < data.length := by
            by_contra hshort
            exact hdrop (List.drop_eq_nil_of_le (Nat.le_of_not_lt hshort))
          rw [Position.block_advance_of_eq (by omega)]
          omega
        have hrest := ih (p.advance here) (data.drop here) (done + here) (t.putBlock b z)
          hm1 hw.tidy ((hw.kind_eq i).trans (w.kind hi)) hrow
        rw [List.length_drop, if_neg fun hfail => by omega, Nat.add_assoc] at hrest
        rw [hsplit, if_neg fun hfail => by omega]
        apply (does_blockFor hm h hi hslot hsupply _).bind
        simp only [hz]
        apply (ViewM.does_onVolume (does_writeBlock hm1 hge hlt z)).bind
        rw [hview]
        exact hrest

end File

/-! ## What a write leaves -/

variable {cells : Cells} {offset : Nat}

namespace Scene

/-- The bytes of a row that find room come into the file and leave its size as it was. -/
theorem puts_putBytes (h : s.records.Tidy l) (hi : s.records.kind i = .file)
    (hshow : Cells.Shows (s.records.content i) cells) (xs : List UInt8) (k : Nat) :
    Puts i k xs cells s (s.putBytes i xs k).2 (s.putBytes i xs k).1 ∧
      ((s.putBytes i xs k).2.records.inode i).size = (s.records.inode i).size := by
  induction xs generalizing s k cells with
  | nil => exact ⟨.none h hshow k [], rfl⟩
  | cons x xs ih =>
    cases hput : s.putByte i k x with
    | none =>
      rw [putBytes_of_none hput]
      exact ⟨.none h hshow k (x :: xs), rfl⟩
    | some s' =>
      obtain ⟨hslot, b, t, w, hs'⟩ := supplies_of_putByte h hi hput
      have hk : k / blockSize * blockSize + k % blockSize = k := Nat.div_add_mod' k blockSize
      have hroom : k % blockSize + 1 ≤ blockSize := Nat.mod_lt k blockSize_pos
      have hlen : 1 ≤ (x :: xs).length := Nat.succ_pos _
      obtain ⟨hw, hinode, -⟩ := writes_putBlock w.writes.tidy (w.kind hi) w.owns
        (((s.records.content i (k / blockSize)).getD .zero).write (k % blockSize) [x])
      have hshow' := w.shows hi hk Nat.one_pos hlen hroom hshow
      rw [putBytes_of_some hput, Nat.add_comm _ 1]
      subst hs'
      obtain ⟨hrest, hsize⟩ := ih hw.tidy ((hw.kind_eq i).trans (w.kind hi)) hshow' (k + 1)
      refine ⟨w.puts_cons hi hk Nat.one_pos hlen hroom hslot hrest, ?_⟩
      rw [hsize, hinode, w.size]

/-- The slots of the bytes that came in have blocks. -/
theorem block?_ne_none_of_puts {j : Nat} (w : Puts i offset data cells s s' n) (hj : j < n) :
    (s'.records.inode i).block? ((offset + j) / blockSize) ≠ none := by
  intro hhole
  have hle := w.le
  refine w.shows.hole _ (Records.content_eq_none_iff.mpr hhole)
    ⟨(offset + j) % blockSize, Nat.mod_lt _ blockSize_pos, ?_⟩
  have hlen : j < (data.take n).length := by
    rw [List.length_take]
    omega
  rw [Nat.div_add_mod', Cells.lay, if_pos (Nat.le_add_right offset j), Nat.add_sub_cancel_left,
    List.getElem?_eq_getElem hlen, Option.some_or]
  exact Option.some_ne_none _

/-- Behind the bytes that came in a hole begins at its first byte. -/
theorem aligned_of_hole (w : Puts i offset data cells s s' n) (hn : n ≠ 0)
    (hhole : (s'.records.inode i).block? ((offset + n) / blockSize) = none) :
    (offset + n) % blockSize = 0 := by
  by_contra hmid
  have hsame : (offset + (n - 1)) / blockSize = (offset + n) / blockSize := by
    simp only [blockSize] at hmid ⊢
    omega
  exact block?_ne_none_of_puts w (Nat.sub_one_lt hn) (hsame ▸ hhole)

/-- A row fills the file up to its end, or up to where a byte of it finds no room. -/
theorem fills_putBytes (h : s.records.Tidy l) (hi : s.records.kind i = .file)
    (hshow : Cells.Shows (s.records.content i) cells) (xs : List UInt8) (k : Nat) :
    Fills i k (pointerCount * blockSize) xs cells s (s.putBytes i xs k).2 (s.putBytes i xs k).1 := by
  refine ⟨(puts_putBytes h hi hshow xs k).1, fun hstop hlimit => ?_⟩
  obtain ⟨x, hx⟩ := putBytes_stop hstop
  rcases putByte_eq_none_iff.mp hx with hbehind | hfull
  · exact absurd (Nat.div_lt_of_lt_mul (Nat.mul_comm _ _ ▸ hlimit)) (Nat.not_lt_of_le hbehind)
  · exact hfull

end Scene

/-! ## Writing -/

namespace Scene

section

variable (h : s.records.Tidy l) (hi : s.records.kind i = .file)

include h hi

theorem records_reaching (reach : Nat) : (s.reaching i reach).records =
    s.records.putInode i ((s.records.inode i).reaching reach (timestamp s.clock)) :=
  s.records_putInode (h.lt_of_live (Records.ne_free_of_file hi)) _

/-- The record of a file is made to reach some byte. -/
theorem writes_reaching (reach : Nat) : Writes i s (s.reaching i reach) ∧
    (s.reaching i reach).records.inode i
      = (s.records.inode i).reaching reach (timestamp s.clock) ∧
    (s.reaching i reach).records.content i = s.records.content i :=
  writes_putInode h hi rfl fun _ => rfl

/-- A write fills the file with a prefix of its data and makes it reach the end of that prefix. -/
theorem fills_written (hshow : Cells.Shows (s.records.content i) cells) (offset : Nat)
    (data : List UInt8) :
    Fills i offset (pointerCount * blockSize) data cells s (s.written i offset data).2
        (s.written i offset data).1 ∧
      ((s.written i offset data).2.records.inode i).size.toNat
        = (if (s.written i offset data).1 = 0 then (s.records.inode i).size.toNat
          else max (s.records.inode i).size.toNat (offset + (s.written i offset data).1)) := by
  have hfills := fills_putBytes h hi hshow data offset
  have hsize := (puts_putBytes h hi hshow data offset).2
  rw [written]
  generalize s.putBytes i data offset = r at hfills hsize
  obtain ⟨n, t⟩ := r
  dsimp only at hfills hsize ⊢
  by_cases hn : n = 0
  · rw [if_pos hn, if_pos hn]
    exact ⟨hfills, congrArg UInt32.toNat hsize⟩
  · rw [if_neg hn, if_neg hn]
    have hi1 : t.records.kind i = .file := (hfills.writes.kind_eq i).trans hi
    obtain ⟨hw, hinode, hcontent⟩ := writes_reaching hfills.writes.tidy hi1 (offset + n)
    have hsmall : offset + n < UInt32.size := Nat.lt_of_le_of_lt (hfills.fits hn) (by decide)
    refine ⟨⟨⟨hfills.writes.trans hw, fun hzero => absurd hzero hn, hfills.le, hfills.fits, ?_⟩,
      fun hlt hlimit => ?_⟩, ?_⟩
    · rw [hcontent]
      exact hfills.shows
    · obtain ⟨hhole, hfree⟩ := hfills.stops hlt hlimit
      refine ⟨?_, ?_⟩
      · rw [hinode]
        exact hhole
      · rw [records_reaching hfills.writes.tidy hi1]
        exact hfree
    · rw [hinode, Inode.toNat_size_reaching hsmall, hsize]

end

end Scene

namespace File

/-- A write puts the bytes of its data into the file and makes it reach the last of them. -/
theorem does_write (hm : s.mounted = true) (h : s.records.Tidy l) (hi : s.records.kind i = .file)
    (offset : Nat) (data : List UInt8) : ∃ v, Does (write offset data) (s.file i, s)
      (s.writeAnswer i offset data) (v, (s.written i offset data).2) := by
  have hcover : Span.cover pointerCount (.ofNat offset) data.length
      = Span.coverWithin (pointerCount - (Position.ofNat offset).block) (.ofNat offset)
          data.length := rfl
  have hstart := Position.block_ofNat offset
  have hinside : offset < pointerCount * blockSize
      ↔ (Position.ofNat offset).block < pointerCount := by
    rw [hstart]
    exact (Nat.div_lt_iff_lt_mul blockSize_pos).symm
  rw [write, hcover, Scene.writeAnswer, Scene.written]
  simp only [hinside]
  by_cases hslots : (Position.ofNat offset).block ≤ pointerCount
  · have hspans := does_writeSpans (pointerCount - (Position.ofNat offset).block)
      (.ofNat offset) data 0 s hm h hi fun _ => Nat.add_sub_of_le hslots
    have hputs := (Scene.puts_putBytes h hi (Cells.shows_ofContent _) data offset).1
    rw [Position.toNat_ofNat] at hspans
    generalize s.putBytes i data offset = q at hspans hputs
    obtain ⟨n, t⟩ := q
    rw [Nat.zero_add] at hspans
    dsimp only at hspans hputs ⊢
    by_cases hn : n = 0
    · subst hn
      rw [if_pos rfl]
      refine ⟨t.file i, ?_⟩
      split at hspans
      · next hfail =>
        rw [if_pos hfail]
        exact hspans.bind_error
      · next hfine =>
        rw [if_neg hfine]
        exact hspans.bind (Does.pure _ _)
    · have hi1 : t.records.kind i = .file := (hputs.writes.kind_eq i).trans hi
      have hm1 : t.mounted = true := hputs.writes.mounted.trans hm
      have hilt : i < l.inodeCount := hputs.writes.tidy.lt_of_live (Records.ne_free_of_file hi1)
      rw [if_neg fun hfail => hn hfail.1] at hspans ⊢
      refine ⟨⟨i, (t.records.inode i).reaching (offset + n) (timestamp t.clock)⟩, ?_⟩
      rw [if_neg hn]
      apply hspans.bind
      simp only [if_pos (Nat.pos_of_ne_zero hn)]
      apply Does.get_bind
      intro _
      apply (ViewM.does_change _).bind
      apply ViewM.does_current.bind
      exact (ViewM.does_onVolume (does_writeInode hm1 hilt _)).bind (Does.pure _ _)
  · have hblocks : pointerCount - (Position.ofNat offset).block = 0 :=
      Nat.sub_eq_zero_of_le (Nat.le_of_not_le hslots)
    have hnone : s.putBytes i data offset = (0, s) := by
      cases data with
      | nil => rfl
      | cons x xs =>
        exact Scene.putBytes_of_none (Scene.putByte_eq_none_iff.mpr (.inl (by omega)))
    rw [hblocks, hnone, if_pos rfl, if_neg fun hfail => hslots (Nat.le_of_lt hfail.2.2)]
    exact ⟨s.file i, (Does.pure 0 _).bind (Does.pure _ _)⟩

end File

namespace Volume

/-- What a write leaves, to the last byte, and what it answers. -/
theorem does_writeAt_written (hm : s.mounted = true) (h : s.records.Tidy l)
    (hi : s.records.kind i = .file) (offset : Nat) (data : List UInt8) :
    Does (writeAt i offset data) s (s.writeAnswer i offset data) (s.written i offset data).2 := by
  obtain ⟨v, hwrite⟩ := File.does_write hm h hi offset data
  exact (File.does_ofInode hm hi).bind (ViewM.does_through hwrite)

/-- Writing puts a prefix of the data into the file and grows it to hold that prefix, or fails for want
of space and changes nothing. -/
theorem does_writeAt (hm : s.mounted = true) (h : s.records.Tidy l)
    (hi : s.records.kind i = .file) (hshow : Cells.Shows (s.records.content i) cells)
    (offset : Nat) (data : List UInt8) :
    ∃ r s' n, Does (writeAt i offset data) s r s' ∧
      Scene.Fills i offset (pointerCount * blockSize) data cells s s' n ∧
      (s'.records.inode i).size.toNat
        = (if n = 0 then (s.records.inode i).size.toNat
          else max (s.records.inode i).size.toNat (offset + n)) ∧
      (r = .ok n ∧ (n = 0 → data.length = 0 ∨ pointerCount ≤ offset / blockSize) ∨
        (r = .error .noSpace ∧ n = 0 ∧ s' = s)) := by
  obtain ⟨hfills, hsize⟩ := Scene.fills_written h hi hshow offset data
  refine ⟨_, _, _, does_writeAt_written hm h hi offset data, hfills, hsize, ?_⟩
  rw [Scene.writeAnswer]
  split
  · next hfail => exact .inr ⟨rfl, hfail.1, hfills.idle hfail.1⟩
  · next hfine =>
    refine .inl ⟨rfl, fun hzero => ?_⟩
    by_cases hdata : data = []
    · exact .inl (congrArg List.length hdata)
    · have hbehind := Nat.le_of_not_lt fun hlt => hfine ⟨hzero, hdata, hlt⟩
      exact .inr ((Nat.le_div_iff_mul_le blockSize_pos).mpr hbehind)

/-- A byte comes into a file where its block is there already or some block is free. -/
theorem does_writeAt_byte (hm : s.mounted = true) (h : s.records.Tidy l)
    (hi : s.records.kind i = .file) {offset : Nat} (hoffset : offset < pointerCount * blockSize)
    (hroom : s.records.content i (offset / blockSize) ≠ none ∨
      s.records.lowestFree .block l.blockCount ≠ none) (x : UInt8) :
    ∃ s', Does (writeAt i offset [x]) s (.ok 1) s' ∧ Scene.Writes i s s' ∧
      s'.records.content i (offset / blockSize) ≠ none ∧
      (s'.records.inode i).size.toNat = max (s.records.inode i).size.toNat (offset + 1) := by
  obtain ⟨r, s', n, hwrite, hfills, hsize, hr⟩ :=
    does_writeAt hm h hi (Cells.shows_ofContent _) offset [x]
  have hn : n = 1 := by
    have hle : n ≤ 1 := hfills.le
    by_contra hne
    obtain rfl : n = 0 := by omega
    obtain ⟨hhole, hfull⟩ := hfills.stops Nat.one_pos hoffset
    rw [hfills.idle rfl] at hhole hfull
    exact hroom.elim (fun hblock => hblock (Records.content_eq_none_iff.mpr hhole))
      fun hfree => hfree hfull
  subst hn
  refine ⟨s', ?_, hfills.writes, fun hnone => ?_, hsize⟩
  · rcases hr with ⟨rfl, -⟩ | ⟨-, hzero, -⟩
    · exact hwrite
    · cases hzero
  · -- the byte shows in the block that holds it
    refine hfills.shows.hole _ hnone ⟨offset % blockSize, Nat.mod_lt _ blockSize_pos, ?_⟩
    rw [Nat.div_add_mod', Cells.lay, if_pos (Nat.le_refl _), Nat.sub_self]
    exact Option.some_ne_none x

end Volume

end BlockFS
