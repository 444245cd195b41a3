import BlockFS.Proofs.Faults.Calls
import BlockFS.Proofs.Scene.Writing

/-!
# Writing in pieces

Data written in two pieces, the second where the first ended, leaves the disk that the whole would have
left if it were written at once.  The volume between the pieces is another one than in the middle of
the single write, since the first piece ended by writing the size and the time of the file; but this
shows in nothing that the second piece does, and the end of the second piece writes over it.
-/

namespace BlockFS

open Volume

variable {l : Layout} {g : Geometry} {v : Service} {logs : Logs} {s s' t : Scene l}
  {i b slot k reach reach' offset : Nat} {front : List UInt8}

namespace Scene

/-! ## The end of a write among its bytes -/

/-- Reaching a byte again, or one behind it, hides that it was reached before. -/
theorem reaching_reaching (h : s.records.Tidy l) (hi : s.records.kind i = .file)
    (hreach : reach < UInt32.size) (hle : reach ≤ reach') :
    (s.reaching i reach).reaching i reach' = s.reaching i reach' := by
  have hilt : i < l.inodeCount := h.lt_of_live (Records.ne_free_of_file hi)
  have hsize : ((s.records.inode i).reaching reach (timestamp s.clock)).size.toNat = _ :=
    Inode.toNat_size_reaching hreach
  have hrecord : ((s.records.inode i).reaching reach (timestamp s.clock)).reaching reach'
      (timestamp s.clock) = (s.records.inode i).reaching reach' (timestamp s.clock) := by
    have hmax : max (max (s.records.inode i).size.toNat reach) reach'
        = max (s.records.inode i).size.toNat reach' := by omega
    rw [Inode.reaching, hsize, hmax]
    rfl
  have hclock : (s.reaching i reach).clock = s.clock := rfl
  rw [reaching, (writes_reaching h hi reach).2.1, hclock, hrecord, reaching, reaching,
    s.putInode_putInode hilt]

section

variable (h : s.records.Tidy l) (hi : s.records.kind i = .file)

include h hi

/-- A slot is supplied with the same block before and after the file was made to reach a byte. -/
theorem supply_reaching : (s.reaching i reach).supply i slot =
    (s.supply i slot).map fun r => (r.1, r.2.reaching i reach) := by
  have hilt : i < l.inodeCount := h.lt_of_live (Records.ne_free_of_file hi)
  obtain ⟨-, hinode, -⟩ := writes_reaching h hi reach
  have hsame : ((s.reaching i reach).records.inode i).block? slot
      = (s.records.inode i).block? slot := by
    rw [hinode]
    rfl
  have hfree : (s.reaching i reach).records.lowestFree .block l.blockCount
      = s.records.lowestFree .block l.blockCount := by
    rw [records_reaching h hi]
    rfl
  cases hblock : (s.records.inode i).block? slot with
  | some b => rw [supply_of_block (hsame.trans hblock), supply_of_block hblock, Option.map_some]
  | none =>
    rw [supply_of_hole (hsame.trans hblock), supply_of_hole hblock, hfree, hinode]
    cases hlowest : s.records.lowestFree .block l.blockCount with
    | none => rfl
    | some b =>
      obtain ⟨-, hlt, hb, -⟩ := Records.lowestFree_eq_some_iff.mp hlowest
      have hge := h.reserves.le_of_free hb
      generalize hx : s.records.inode i = x
      have hgrown : (((s.mark .block b true).putBlock b .zero).putInode i
          (x.setPointer slot b)).records.inode i = x.setPointer slot b := by
        rw [records_putInode _ hilt]
        exact Function.update_self _ _ _
      -- the second piece points its copy of the record to the block, the single write its own
      have hpointed : (x.reaching reach (timestamp s.clock)).setPointer slot b
          = (x.setPointer slot b).reaching reach (timestamp s.clock) := rfl
      rw [Option.map_some, Option.map_some, Option.map_some, reaching, reaching,
        s.mark_putInode hilt, Scene.putBlock_putInode _ hilt hge hlt,
        Scene.putInode_putInode _ hilt, hpointed, hgrown, Scene.putInode_putInode _ hilt]
      rfl

/-- A data block may be written before or after the file was made to reach a byte. -/
theorem putBlock_reaching (hb : l.firstDataBlock ≤ b) (hlt : b < l.blockCount) (z : Block) :
    (s.reaching i reach).putBlock b z = (s.putBlock b z).reaching i reach := by
  have hilt : i < l.inodeCount := h.lt_of_live (Records.ne_free_of_file hi)
  rw [reaching, reaching, s.putBlock_putInode hilt hb hlt, s.records_putBlock hb hlt]
  rfl

/-- Whether and where a byte finds room does not depend on how far the file reaches. -/
theorem putByte_reaching (reach k : Nat) (x : UInt8) : (s.reaching i reach).putByte i k x =
    (s.putByte i k x).map fun t => t.reaching i reach := by
  by_cases hslot : k / blockSize < pointerCount
  · cases hsupply : s.supply i (k / blockSize) with
    | none =>
      rw [putByte, putByte, if_pos hslot, if_pos hslot, supply_reaching h hi, hsupply]
      rfl
    | some r =>
      obtain ⟨b, t⟩ := r
      have w := supplies_of_supply h hi hslot hsupply
      have hit := w.kind hi
      obtain ⟨hge, hlt⟩ := w.writes.tidy.blocks.range i _ b w.owns
      have hblock : (t.reaching i reach).records.block b = t.records.block b := by
        rw [records_reaching w.writes.tidy hit]
        rfl
      have hsupply' : (s.reaching i reach).supply i (k / blockSize)
          = some (b, t.reaching i reach) := by
        rw [supply_reaching h hi, hsupply, Option.map_some]
      rw [putByte_of_supply hslot hsupply, putByte_of_supply hslot hsupply', hblock,
        putBlock_reaching w.writes.tidy hit hge hlt, Option.map_some]
  · rw [putByte, putByte, if_neg hslot, if_neg hslot, Option.map_none]

/-- As many bytes of a row find room, and come to the same places, if the file was made to reach a byte
before. -/
theorem putBytes_reaching (reach k : Nat) (xs : List UInt8) : (s.reaching i reach).putBytes i xs k =
    ((s.putBytes i xs k).1, (s.putBytes i xs k).2.reaching i reach) := by
  induction xs generalizing s k with
  | nil => rfl
  | cons x xs ih =>
    have hput := putByte_reaching h hi reach k x
    cases hone : s.putByte i k x with
    | none =>
      rw [hone, Option.map_none] at hput
      rw [putBytes_of_none hone, putBytes_of_none hput]
    | some s' =>
      rw [hone, Option.map_some] at hput
      obtain ⟨-, b, t, w, rfl⟩ := supplies_of_putByte h hi hone
      obtain ⟨hw, -, -⟩ := writes_putBlock w.writes.tidy (w.kind hi) w.owns
        (((s.records.content i (k / blockSize)).getD .zero).write (k % blockSize) [x])
      rw [putBytes_of_some hone, putBytes_of_some hput,
        ih hw.tidy ((hw.kind_eq i).trans (w.kind hi))]

/-! ## Two pieces -/

/-- A write of two rows in a row puts into the file what writing the first and then the second does, if
the first finds room, and leaves the same scene. -/
theorem written_append (hfront : front ≠ [])
    (hfull : (s.written i offset front).1 = front.length) (back : List UInt8) :
    s.written i offset (front ++ back) =
      (front.length +
          ((s.written i offset front).2.written i (offset + front.length) back).1,
        ((s.written i offset front).2.written i (offset + front.length) back).2) := by
  have hlen : front.length ≠ 0 := fun hzero => hfront (List.length_eq_zero_iff.mp hzero)
  have hfull' : (s.putBytes i front offset).1 = front.length := hfull
  obtain ⟨hputs, -⟩ := puts_putBytes h hi (Cells.shows_ofContent _) front offset
  have hfirst : s.written i offset front
      = (front.length, (s.putBytes i front offset).2.reaching i (offset + front.length)) := by
    rw [written, hfull', if_neg hlen]
  have hreach : offset + front.length < UInt32.size := by
    rw [hfull'] at hputs
    exact Nat.lt_of_le_of_lt (hputs.fits hlen) (by decide)
  have hit : (s.putBytes i front offset).2.records.kind i = .file :=
    (hputs.writes.kind_eq i).trans hi
  have htidy := hputs.writes.tidy
  rw [hfirst, written, written, putBytes_append hfull' back]
  generalize (s.putBytes i front offset).2 = t at hit htidy
  rw [putBytes_reaching htidy hit]
  obtain ⟨hrest, -⟩ := puts_putBytes htidy hit (Cells.shows_ofContent _) back
    (offset + front.length)
  have hidle : (t.putBytes i back (offset + front.length)).1 = 0 → _ := putBytes_idle
  generalize t.putBytes i back (offset + front.length) = q at hrest hidle
  obtain ⟨m, u⟩ := q
  dsimp only at hrest hidle ⊢
  rw [if_neg (by omega), ← Nat.add_assoc]
  by_cases hm : m = 0
  · rw [if_pos hm, hidle hm, hm]
    rfl
  · rw [if_neg hm, reaching_reaching hrest.writes.tidy ((hrest.writes.kind_eq i).trans hit) hreach
      (Nat.le_add_right _ _)]

end

/-- Only a file of a mounted volume is written into. -/
theorem file_of_writeAt_ok {history : History} {data : List UInt8} {n : Nat} {v' : Volume}
    (hok : writeAt i offset data (Settled.state s history) = .ok n v') :
    s.mounted = true ∧ s.records.kind i = .file := by
  by_cases hm : s.mounted = true
  · refine ⟨hm, ?_⟩
    by_contra hi
    obtain ⟨e, hfail⟩ := does_ofInode_other hm hi
    have hfail : Does (writeAt i offset data) s (.error e) s := hfail.bind_error
    cases hfail.eq_ok hok
  · have hfail := does_writeAt_unmounted (Bool.eq_false_iff.mpr hm) i offset data
    cases hfail.eq_ok hok

end Scene

/-- If data was written as a whole, then writing more data behind it leaves the disk that both in one
write would have left, and the single write tells the sum of what the two wrote, of which the second
wrote nothing if it found no space. -/
theorem Reached.write_in_pieces (h : Reached g v logs) {v1 : Volume} (hfront : front ≠ [])
    (hok : writeAt i offset front v.volume = .ok front.length v1) (back : List UInt8) :
    ∃ m v2 w,
      (writeAt i (offset + front.length) back v1 = .ok m v2 ∨
        writeAt i (offset + front.length) back v1 = .error .noSpace v2 ∧ m = 0) ∧
      writeAt i offset (front ++ back) v.volume = .ok (front.length + m) w ∧
      v2.device.disk = w.device.disk := by
  obtain ⟨l, hl, -⟩ := h.stands
  obtain ⟨s, history, hvolume, -, hs, -⟩ := h.exists_scene hl
  rw [hvolume] at hok ⊢
  obtain ⟨hm, hi⟩ := Scene.file_of_writeAt_ok hok
  have hlen : front.length ≠ 0 := fun hzero => hfront (List.length_eq_zero_iff.mp hzero)
  have hfirst := does_writeAt_written hm hs.tidy hi offset front
  have hfull : (s.written i offset front).1 = front.length := by
    have hanswer := hfirst.eq_ok hok
    rw [Scene.writeAnswer] at hanswer
    split at hanswer
    · cases hanswer
    · exact Except.ok.inj hanswer
  have hboth := does_writeAt_written hm hs.tidy hi offset (front ++ back)
  have happend := Scene.written_append hs.tidy hi hfront hfull back
  rw [Scene.writeAnswer, happend, if_neg fun hfail => by omega] at hboth
  obtain ⟨w, -⟩ := Scene.fills_written hs.tidy hi (Cells.shows_ofContent _) offset front
  obtain ⟨history1, hstate⟩ := hfirst history
  rw [hfirst.eq_ok hok] at hstate
  obtain rfl : v1 = _ := EStateM.Result.ok.inj (hok.symm.trans hstate) |>.2
  generalize (s.written i offset front).2 = t at w hboth
  have hsecond := does_writeAt_written (w.writes.mounted.trans hm) w.writes.tidy
    ((w.writes.kind_eq i).trans hi) (offset + front.length) back
  rw [Scene.writeAnswer] at hsecond
  generalize t.written i (offset + front.length) back = q at hboth hsecond
  obtain ⟨m, u⟩ := q
  dsimp only at hboth hsecond
  obtain ⟨history2, hsecond⟩ := hsecond history1
  obtain ⟨history3, hboth⟩ := hboth history
  refine ⟨m, Settled.state u history2, Settled.state u history3, ?_, hboth, rfl⟩
  split at hsecond
  · next hfail => exact .inr ⟨hsecond, hfail.1⟩
  · exact .inl hsecond

/-! ## A file on a new floppy disk -/

/-- There is room for a byte in the only file of a floppy disk. -/
theorem Scene.OneFile.does_writeAt_byte {s : Scene .floppy} {slot : Fin slotCount}
    (h : s.OneFile slot) (hoffset : offset < pointerCount * blockSize) (x : UInt8) :
    ∃ s', Does (writeAt 2 offset [x]) s (.ok 1) s' := by
  have hroom : s.records.lowestFree .block Layout.floppy.blockCount ≠ none := by
    rw [h.room]
    exact Option.some_ne_none _
  obtain ⟨s', hwrite, -⟩ :=
    Volume.does_writeAt_byte h.mounted h.good.tidy h.file hoffset (.inr hroom) x
  exact ⟨s', hwrite⟩

/-- The last byte of the first block and the first byte of the second come into a file on a floppy disk,
one after the other. -/
theorem Reached.write_in_pieces_floppy :
    let v := (Call.edit (.makeFile rootInode "a")).after Service.floppy
    ∃ logs v1, Reached .floppy v logs ∧ [1] ≠ ([] : List UInt8) ∧
      writeAt 2 1023 [1] v.volume = .ok [1].length v1 ∧
      ∃ m v2 w,
        (writeAt 2 (1023 + [1].length) [2] v1 = .ok m v2 ∨
          writeAt 2 (1023 + [1].length) [2] v1 = .error .noSpace v2 ∧ m = 0) ∧
        writeAt 2 1023 ([1] ++ [2]) v.volume = .ok ([1].length + m) w ∧
        v2.device.disk = w.device.disk := by
  obtain ⟨logs, slot, history, s, hreached, hvolume, hone⟩ := reached_oneFile
  obtain ⟨s', hwrite⟩ := hone.does_writeAt_byte (show 1023 < pointerCount * blockSize by decide) 1
  obtain ⟨history', hok⟩ := hwrite history
  rw [← hvolume] at hok
  exact ⟨logs, _, hreached, List.cons_ne_nil 1 [], hok,
    hreached.write_in_pieces (List.cons_ne_nil 1 []) hok [2]⟩

end BlockFS
