import BlockFS.Proofs.Faults.Calls
import BlockFS.Proofs.Scene.Writing
import Mathlib.Data.Finset.Card
import Mathlib.Data.Finset.Image
import Mathlib.Order.Bounds.Basic

/-!
# A write stores what fits

A write puts as long a prefix of its data into a file as the slots of the file and the free blocks of
the volume allow.  Each block that it takes fills a hole of the file, so that blocks in use and holes
are together as many as before; and it stops within the slots only at a hole of a volume without a free
block, which no longer prefix could do without.
-/

namespace BlockFS

open Volume

variable {l : Layout} {g : Geometry} {v : Service} {logs : Logs} {s s' t : Scene l}
  {i b slot k n m offset : Nat} {x : UInt8} {data : List UInt8} {cells : Cells}

/-! ## Holes and blocks in use -/

/-- The slots of the `length` bytes of a file from `offset` on. -/
def slotsMet (offset length : Nat) : Finset Nat :=
  (Finset.range length).image fun j => (offset + j) / blockSize

theorem mem_slotsMet_iff : slot ∈ slotsMet offset n ↔ ∃ j < n, (offset + j) / blockSize = slot := by
  simp only [slotsMet, Finset.mem_image, Finset.mem_range]

theorem slotsMet_mono (h : n ≤ m) : slotsMet offset n ⊆ slotsMet offset m :=
  Finset.image_subset_image (Finset.range_mono h)

namespace Inode

/-- The slots that have no block. -/
def holes (x : Inode) : Finset Nat := (Finset.range pointerCount).filter fun k => x.block? k = none

/-- The holes that the `length` bytes from `offset` on would fill. -/
def holesMet (x : Inode) (offset length : Nat) : Finset Nat := x.holes ∩ slotsMet offset length

/-- The first `n` of some bytes from `offset` on can be written: they end within the slots, and there is
a free block for each hole that they meet. -/
structure Fits (x : Inode) (offset length free n : Nat) : Prop where
  le : n ≤ length
  inside : n ≠ 0 → offset + n ≤ pointerCount * blockSize
  room : (x.holesMet offset n).card ≤ free

theorem mem_holes_iff {x : Inode} :
    slot ∈ x.holes ↔ slot < pointerCount ∧ x.block? slot = none := by
  rw [holes, Finset.mem_filter, Finset.mem_range]

/-- A hole that gets a block is none any more. -/
theorem holes_setPointer {x : Inode} (hslot : slot < pointerCount) (hb : b ≠ 0)
    (hlt : b < UInt16.size) : (x.setPointer slot b).holes = x.holes.erase slot := by
  ext k
  rw [Finset.mem_erase, mem_holes_iff, mem_holes_iff, block?_setPointer hslot hb hlt]
  by_cases hk : k = slot
  · simp [hk]
  · simp [hk]

end Inode

/-- The number of blocks in use. -/
def Records.usedBlocks (c : Records) (l : Layout) : Nat :=
  ((Finset.range l.blockCount).filter fun b => c.used .block b = true).card

theorem Records.usedBlocks_mark {c : Records} (hb : c.used .block b = false)
    (hlt : b < l.blockCount) : (c.mark .block b true).usedBlocks l = c.usedBlocks l + 1 := by
  have hinsert : (Finset.range l.blockCount).filter (fun j => (c.mark .block b true).used .block j)
      = insert b ((Finset.range l.blockCount).filter fun j => c.used .block j = true) := by
    ext j
    rw [Finset.mem_insert, Finset.mem_filter, Finset.mem_filter, Finset.mem_range]
    by_cases hj : j = b
    · simp [Records.mark, hj, hlt]
    · simp [Records.mark, hj]
  rw [usedBlocks, hinsert, Finset.card_insert_of_notMem, usedBlocks]
  simp [hb]

namespace Scene

theorem usedCount_eq (s : Scene l) :
    (l.bitmap s.store.block .block).usedCount = s.records.usedBlocks l := by
  have hset : (Finset.range l.blockCount).filter (fun b => s.records.used .block b = true)
      = ((List.range l.blockCount).filter (s.records.used .block)).toFinset := by
    ext b
    simp
  rw [Records.usedBlocks, hset, List.toFinset_card_of_nodup (List.nodup_range.filter _),
    ← List.countP_eq_length_filter]
  rfl

/-- Blocks in use, and holes of a file. -/
def tally (s : Scene l) (i : Nat) : Nat :=
  s.records.usedBlocks l + (s.records.inode i).holes.card

theorem tally_congr (hused : ∀ b, s'.records.used .block b = s.records.used .block b)
    (hblock : ∀ k, (s'.records.inode i).block? k = (s.records.inode i).block? k) :
    s'.tally i = s.tally i := by
  simp only [tally, Records.usedBlocks, Inode.holes, hused, hblock]

section

variable (h : s.records.Tidy l) (hi : s.records.kind i = .file)

include h hi

/-- A block that is taken fills a hole. -/
theorem tally_supply (hslot : slot < pointerCount) (hsupply : s.supply i slot = some (b, t)) :
    t.tally i = s.tally i := by
  cases hblock : (s.records.inode i).block? slot with
  | some b' =>
    rw [supply_of_block hblock, Option.some.injEq, Prod.mk.injEq] at hsupply
    rw [hsupply.2]
  | none =>
    rw [supply_of_hole hblock, Option.map_eq_some_iff] at hsupply
    obtain ⟨b', hfree, hb'⟩ := hsupply
    rw [Prod.mk.injEq] at hb'
    obtain ⟨rfl, rfl⟩ := hb'
    obtain ⟨-, hlt, hb, -⟩ := Records.lowestFree_eq_some_iff.mp hfree
    have hge := h.reserves.le_of_free hb
    have hilt : i < l.inodeCount := h.lt_of_live (Records.ne_free_of_file hi)
    have hrecords : (((s.mark .block b' true).putBlock b' .zero).putInode i
        ((s.records.inode i).setPointer slot b')).records
          = ((s.records.mark .block b' true).putBlock b' .zero).putInode i
            ((s.records.inode i).setPointer slot b') := by
      rw [records_putInode _ hilt, records_putBlock _ hge hlt, s.records_mark (r := .block) hlt]
    have hused := Records.usedBlocks_mark hb hlt
    have hholes := Inode.holes_setPointer (x := s.records.inode i) hslot
      (h.toExact.ne_zero_of_free hb) (l.small_of_lt (r := .block) hlt)
    have hcard := Finset.card_erase_add_one (Inode.mem_holes_iff.mpr ⟨hslot, hblock⟩)
    rw [tally, hrecords, Records.inode_putInode, if_pos rfl, hholes, tally, ← hcard]
    change (s.records.mark .block b' true).usedBlocks l + _ = _
    omega

theorem tally_putByte {x : UInt8} (hput : s.putByte i k x = some s') : s'.tally i = s.tally i := by
  obtain ⟨hslot, b, t, hsupply, rfl⟩ := exists_supply_of_putByte hput
  have w := supplies_of_supply h hi hslot hsupply
  obtain ⟨hge, hlt⟩ := w.writes.tidy.blocks.range i _ b w.owns
  have hrecords := t.records_putBlock hge hlt ((t.records.block b).write (k % blockSize) [x])
  rw [← tally_supply h hi hslot hsupply]
  refine tally_congr (fun b => ?_) fun k => ?_
  · rw [hrecords]
    rfl
  · rw [hrecords]
    rfl

/-- A row of bytes takes as many blocks as it fills holes. -/
theorem tally_putBytes (xs : List UInt8) (k : Nat) : (s.putBytes i xs k).2.tally i = s.tally i := by
  induction xs generalizing s k with
  | nil => rfl
  | cons x xs ih =>
    cases hput : s.putByte i k x with
    | none => rw [putBytes_of_none hput]
    | some s' =>
      obtain ⟨-, b, t, w, rfl⟩ := supplies_of_putByte h hi hput
      obtain ⟨hw, -, -⟩ := writes_putBlock w.writes.tidy (w.kind hi) w.owns
        (((s.records.content i (k / blockSize)).getD .zero).write (k % blockSize) [x])
      rw [putBytes_of_some hput, ih hw.tidy ((hw.kind_eq i).trans (w.kind hi)),
        tally_putByte h hi hput]

theorem tally_reaching (reach : Nat) : (s.reaching i reach).tally i = s.tally i := by
  refine tally_congr (fun b => ?_) fun k => ?_
  · rw [records_reaching h hi]
    rfl
  · rw [(writes_reaching h hi reach).2.1]
    rfl

theorem tally_written (offset : Nat) (data : List UInt8) :
    (s.written i offset data).2.tally i = s.tally i := by
  have hputs := (puts_putBytes h hi (Cells.shows_ofContent _) data offset).1
  rw [← tally_putBytes h hi data offset, written]
  dsimp only
  split
  · rfl
  · exact tally_reaching hputs.writes.tidy ((hputs.writes.kind_eq i).trans hi) _

end

/-! ## The holes that a write leaves -/

/-- What came into a file filled the holes that it met and no others. -/
theorem holes_of_puts (w : Puts i offset data cells s t n)
    (hshow : Cells.Shows (s.records.content i) cells) :
    (t.records.inode i).holes = (s.records.inode i).holes \ slotsMet offset n := by
  ext k
  rw [Finset.mem_sdiff, Inode.mem_holes_iff, Inode.mem_holes_iff, and_assoc]
  refine and_congr_right fun _ => ⟨fun hhole => ⟨?_, fun hmet => ?_⟩, fun ⟨hhole, hmet⟩ => ?_⟩
  · by_contra hblock
    obtain ⟨b, hb⟩ := Option.ne_none_iff_exists'.mp hblock
    rw [w.writes.points k b hb] at hhole
    cases hhole
  · obtain ⟨j, hj, rfl⟩ := mem_slotsMet_iff.mp hmet
    exact block?_ne_none_of_puts w hj hhole
  · by_contra hblock
    obtain ⟨z, hz⟩ := Option.ne_none_iff_exists'.mp
      (mt Records.content_eq_none_iff.mp hblock)
    obtain ⟨j, hj, hcell⟩ := w.shows.touched k z hz
    -- a cell of the slot is written, so it is one of the new bytes or was written before
    by_cases hnew : offset ≤ k * blockSize + j ∧ k * blockSize + j < offset + (data.take n).length
    · refine hmet (mem_slotsMet_iff.mpr ⟨k * blockSize + j - offset, ?_, ?_⟩)
      · have := List.length_take_le n data
        omega
      · rw [Nat.add_sub_cancel' hnew.1]
        simp only [blockSize] at hj ⊢
        omega
    · have hold : cells.lay offset (data.take n) (k * blockSize + j) = cells (k * blockSize + j) := by
        rcases Nat.lt_or_ge (k * blockSize + j) offset with hlt | hge
        · exact Cells.lay_of_lt hlt
        · exact Cells.lay_of_ge (by omega)
      rw [hold] at hcell
      exact hshow.hole k (Records.content_eq_none_iff.mpr hhole) ⟨j, hj, hcell⟩

/-- All blocks are in use if there is no lowest free one. -/
theorem usedBlocks_of_full (h : s.records.Tidy l)
    (hfree : s.records.lowestFree .block l.blockCount = none) :
    s.records.usedBlocks l = l.blockCount := by
  have hall : (Finset.range l.blockCount).filter (fun b => s.records.used .block b = true)
      = Finset.range l.blockCount := by
    refine Finset.filter_true_of_mem fun b hb => ?_
    by_cases hzero : b = 0
    · exact h.blocks.reserved b (by have := l.tableStart_lt_firstDataBlock; omega)
    · exact Records.lowestFree_eq_none_iff.mp hfree b (Nat.pos_of_ne_zero hzero)
        (Finset.mem_range.mp hb)
  rw [Records.usedBlocks, hall, Finset.card_range]

section

variable (h : s.records.Tidy l) (hi : s.records.kind i = .file)

include h hi

/-- A write takes a block for each hole that its bytes met. -/
theorem usedBlocks_written (offset : Nat) (data : List UInt8) :
    (s.written i offset data).2.records.usedBlocks l = s.records.usedBlocks l
      + ((s.records.inode i).holesMet offset (s.written i offset data).1).card := by
  have hshow := Cells.shows_ofContent (s.records.content i)
  have htally := tally_written h hi offset data
  have hholes := holes_of_puts (fills_written h hi hshow offset data).1.toPuts hshow
  have hcard := Finset.card_sdiff_add_card_inter (s.records.inode i).holes
    (slotsMet offset (s.written i offset data).1)
  rw [tally, tally, hholes] at htally
  rw [Inode.holesMet]
  omega

/-- What a write puts into a file is the longest prefix that fits. -/
theorem isGreatest_written (offset : Nat) (data : List UInt8) :
    IsGreatest {n | (s.records.inode i).Fits offset data.length
      (l.blockCount - s.records.usedBlocks l) n} (s.written i offset data).1 := by
  have hshow := Cells.shows_ofContent (s.records.content i)
  obtain ⟨w, -⟩ := fills_written h hi hshow offset data
  have hused := usedBlocks_written h hi offset data
  constructor
  · refine ⟨w.le, w.fits, ?_⟩
    have hle : (s.written i offset data).2.records.usedBlocks l ≤ l.blockCount :=
      (Finset.card_filter_le _ _).trans_eq (Finset.card_range _)
    omega
  · rintro m ⟨hle, hinside, hroom⟩
    by_contra hnot
    have hlt : (s.written i offset data).1 < m := Nat.lt_of_not_le hnot
    have hinside' := hinside (Nat.ne_of_gt (Nat.zero_lt_of_lt hlt))
    obtain ⟨hhole, hfree⟩ := w.stops (by omega) (by omega)
    have hfull := usedBlocks_of_full w.writes.tidy hfree
    have hslot : (offset + (s.written i offset data).1) / blockSize < pointerCount :=
      (Nat.div_lt_iff_lt_mul blockSize_pos).mpr (by omega)
    have hleft := Inode.mem_holes_iff.mpr ⟨hslot, hhole⟩
    rw [holes_of_puts w.toPuts hshow, Finset.mem_sdiff] at hleft
    -- the longer prefix meets the hole at which the write stopped, besides those that were filled
    have hmore : insert ((offset + (s.written i offset data).1) / blockSize)
        ((s.records.inode i).holesMet offset (s.written i offset data).1)
          ⊆ (s.records.inode i).holesMet offset m := by
      refine Finset.insert_subset (Finset.mem_inter.mpr ⟨hleft.1, ?_⟩) ?_
      · exact mem_slotsMet_iff.mpr ⟨_, hlt, rfl⟩
      · exact Finset.inter_subset_inter_left (slotsMet_mono (Nat.le_of_lt hlt))
    have hcard := Finset.card_le_card hmore
    have hnew : (offset + (s.written i offset data).1) / blockSize
        ∉ (s.records.inode i).holesMet offset (s.written i offset data).1 :=
      fun hmet => hleft.2 (Finset.mem_inter.mp hmet).2
    rw [Finset.card_insert_of_notMem hnew] at hcard
    omega

end

end Scene

/-! ## What is stored -/

/-- What a write that put `n` bytes from `offset` on into a file has done, if the record of the file was
`x` and the bitmap of the blocks was `b`. -/
structure Volume.Stored (v v' : Volume) (i offset n : Nat) (x : Inode) (b : Bitmap) : Prop where
  taken : ∃ b', v'.Answers (readBitmap .block) (.ok b') ∧
    b'.usedCount = b.usedCount + (x.holesMet offset n).card
  record : ∃ x', v'.Answers (readInode i) (.ok x') ∧
    (∀ k p, x.block? k = some p → x'.block? k = some p) ∧
    (n ≠ 0 → x'.size.toNat = max x.size.toNat (offset + n))
  idle : n = 0 → v'.device.disk = v.device.disk

/-- A write into a file stores the longest prefix of its data that ends within the slots of the file and
meets no more holes than there are free blocks, and takes a block for each hole that it meets.  It fails
if that prefix is empty though there are data and slots for it. -/
theorem Reached.write_stores_longest (h : Reached g v logs) {x : Inode}
    (hx : v.volume.Answers (readInode i) (.ok x)) (hkind : x.kind = .file) (offset : Nat)
    (data : List UInt8) :
    ∃ b n, v.volume.Answers (readBitmap .block) (.ok b) ∧
      IsGreatest {n | x.Fits offset data.length b.freeCount n} n ∧
      if n = 0 ∧ data ≠ [] ∧ offset < pointerCount * blockSize then
        ∃ v', writeAt i offset data v.volume = .error .noSpace v' ∧
          v'.device.disk = v.volume.device.disk
      else
        ∃ v', writeAt i offset data v.volume = .ok n v' ∧
          v.volume.Stored v' i offset n x b := by
  obtain ⟨l, hl, -⟩ := h.stands
  obtain ⟨s, history, hvolume, -, hs, -⟩ := h.exists_scene hl
  rw [hvolume] at hx ⊢
  obtain ⟨hm, hused, rfl⟩ := Scene.used_of_answers hx
  have hi : s.records.kind i = .file := (Records.kind_of_used hused).trans hkind
  have hbits := (does_readBitmap hm .block).answers history
  have hlongest := Scene.isGreatest_written hs.tidy hi offset data
  have htaken := Scene.usedBlocks_written hs.tidy hi offset data
  have hwrite := does_writeAt_written hm hs.tidy hi offset data
  obtain ⟨w, hsize⟩ := Scene.fills_written hs.tidy hi (Cells.shows_ofContent _) offset data
  rw [← s.usedCount_eq] at hlongest htaken
  refine ⟨_, (s.written i offset data).1, hbits, hlongest, ?_⟩
  rw [Scene.writeAnswer] at hwrite
  generalize s.written i offset data = q at htaken hwrite w hsize ⊢
  obtain ⟨n, t⟩ := q
  dsimp only at htaken hwrite w hsize ⊢
  split
  · next hfail =>
    rw [if_pos hfail, w.idle hfail.1] at hwrite
    obtain ⟨history', hwrite⟩ := hwrite history
    exact ⟨_, hwrite, rfl⟩
  · next hfine =>
    rw [if_neg hfine] at hwrite
    obtain ⟨history', hwrite⟩ := hwrite history
    have hm' : t.mounted = true := w.writes.mounted.trans hm
    have hi' : t.records.kind i = .file := (w.writes.kind_eq i).trans hi
    have hused' := Records.used_of_kind_ne (Records.ne_free_of_file hi')
    refine ⟨_, hwrite, ⟨?_, ?_, fun hn => ?_⟩⟩
    · exact ⟨_, (does_readBitmap hm' .block).answers history', t.usedCount_eq.trans htaken⟩
    · refine ⟨_, (does_readInode hm' hused').answers history', w.writes.points, fun hn => ?_⟩
      rw [hsize, if_neg hn]
    · rw [w.idle hn]
      rfl

/-! ## A file on a new floppy disk -/

/-- Three bytes are written over the border of the first two blocks of a file that has none. -/
theorem Reached.write_stores_longest_floppy :
    let v := (Call.edit (.makeFile rootInode "a")).after Service.floppy
    ∃ logs x, Reached .floppy v logs ∧ v.volume.Answers (readInode 2) (.ok x) ∧ x.kind = .file ∧
      ∃ b n, v.volume.Answers (readBitmap .block) (.ok b) ∧
        IsGreatest {n | x.Fits 1023 [1, 2, 3].length b.freeCount n} n ∧
        if n = 0 ∧ [1, 2, 3] ≠ ([] : List UInt8) ∧ 1023 < pointerCount * blockSize then
          ∃ v', writeAt 2 1023 [1, 2, 3] v.volume = .error .noSpace v' ∧
            v'.device.disk = v.volume.device.disk
        else
          ∃ v', writeAt 2 1023 [1, 2, 3] v.volume = .ok n v' ∧
            v.volume.Stored v' 2 1023 n x b := by
  obtain ⟨logs, slot, history, s, hreached, hvolume, hone⟩ := reached_oneFile
  have hused := Records.used_of_kind_ne (Records.ne_free_of_file hone.file)
  have hread := (does_readInode hone.mounted hused).answers history
  rw [← hvolume] at hread
  exact ⟨logs, _, hreached, hread, hone.linked_file.2,
    hreached.write_stores_longest hread hone.linked_file.2 1023 [1, 2, 3]⟩

end BlockFS
