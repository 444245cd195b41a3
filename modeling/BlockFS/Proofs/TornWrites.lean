import BlockFS.Proofs.DiskBlocks
import BlockFS.Proofs.EntryTables
import BlockFS.Proofs.Ownership

/-!
# Torn writes

A write that stops early leaves the first bytes new and the others old.  Where the two differ in one
place only, the outcome is one of the two, as it is for a bit of a bitmap and for a slot of a
directory.  A record of an inode may become a mixture, but each of its pointers is of one of the two.
-/

namespace BlockFS

namespace Bytes

variable {n : Nat} {cut : Nat} {a b : Bytes n}

/-- The first bytes of one row, up to a cut, and the others of another row. -/
def splice (cut : Nat) (a b : Bytes n) : Bytes n :=
  Vector.ofFn fun i => if i.val < cut then a.get i else b.get i

theorem getElem_splice (i : Nat) (hi : i < n) :
    (splice cut a b)[i] = if i < cut then a[i] else b[i] := by
  simp only [splice, Vector.getElem_ofFn]
  rfl

theorem splice_eq_left (h : ∀ i (hi : i < n), cut ≤ i → a[i] = b[i]) : splice cut a b = a := by
  refine Vector.ext fun i hi => ?_
  rw [getElem_splice]
  by_cases hcut : i < cut
  · rw [if_pos hcut]
  · rw [if_neg hcut, h i hi (Nat.le_of_not_lt hcut)]

theorem splice_eq_right (h : ∀ i (hi : i < n), i < cut → a[i] = b[i]) : splice cut a b = b := by
  refine Vector.ext fun i hi => ?_
  rw [getElem_splice]
  by_cases hcut : i < cut
  · rw [if_pos hcut, h i hi hcut]
  · rw [if_neg hcut]

end Bytes

/-! ## Blocks of which one half was written -/

theorem Block.ofSectors_splice (a b : Block) :
    ofSectors a.lower b.upper = Bytes.splice sectorSize a b := by
  refine Vector.ext fun i hi => ?_
  rw [Bytes.getElem_splice, ofSectors, Vector.getElem_append]
  by_cases hcut : i < sectorSize
  · rw [dif_pos hcut, if_pos hcut, lower, Bytes.getElem_slice]
    simp only [Nat.zero_add]
  · have hsum : sectorSize + (i - sectorSize) = i := by omega
    rw [dif_neg hcut, if_neg hcut, upper, Bytes.getElem_slice]
    simp only [hsum]

namespace Disk

variable {d : Disk} {i k : Nat}

/-- Writing back what a sector holds changes nothing. -/
theorem writeSector_sector (h : k < d.sectors.size) : d.writeSector k (d.sector k) = d := by
  obtain ⟨sectors, tail, tail_lt⟩ := d
  have hk : k < sectors.size := h
  simp only [writeSector, sector, if_pos hk, dif_pos hk]
  congr 1
  refine Array.ext (Array.size_setIfInBounds ..) fun j hj hj' => ?_
  rw [Array.getElem_setIfInBounds]
  split
  · next hjk => simp only [hjk]
  · rfl

theorem putBlock_block (h : 2 * i + 1 < d.sectors.size) : d.putBlock i (d.block i) = d := by
  rw [putBlock, block, Block.lower_ofSectors, Block.upper_ofSectors,
    writeSector_sector (Nat.lt_of_succ_lt h), writeSector_sector h]

/-- Where only the first half of a block was written, the block is spliced. -/
theorem writeSector_lower (h : 2 * i + 1 < d.sectors.size) (b : Block) :
    d.writeSector (2 * i) b.lower = d.putBlock i (.splice sectorSize b (d.block i)) := by
  have hne : ¬ 2 * i + 1 = 2 * i := by omega
  have hupper : (d.writeSector (2 * i) b.lower).sector (2 * i + 1) = d.sector (2 * i + 1) := by
    rw [sector_writeSector, if_neg hne]
  have hsize : 2 * i + 1 < (d.writeSector (2 * i) b.lower).sectors.size := by
    rw [size_sectors_writeSector]
    omega
  rw [← Block.ofSectors_splice, putBlock, Block.lower_ofSectors, Block.upper_ofSectors, block,
    Block.upper_ofSectors, ← hupper, writeSector_sector hsize]

end Disk

/-! ## One bit of a bitmap -/

/-- A torn write of one bit has happened or has not. -/
theorem Bitmap.splice_mark (b : Bitmap) (i : Nat) (used : Bool) (cut : Nat) :
    Bytes.splice cut (b.mark i used).bits b.bits = (b.mark i used).bits ∨
      Bytes.splice cut (b.mark i used).bits b.bits = b.bits := by
  by_cases hcut : i / 8 < cut
  · left
    refine Bytes.splice_eq_left fun j hj hle => ?_
    have hne : i / 8 ≠ j := by omega
    simp only [mark, Vector.getElem_setIfInBounds, if_neg hne]
  · right
    refine Bytes.splice_eq_right fun j hj hlt => ?_
    have hne : i / 8 ≠ j := by omega
    simp only [mark, Vector.getElem_setIfInBounds, if_neg hne]

/-! ## One slot of a directory -/

namespace EntryTable

variable {t : EntryTable} {slot : Fin slotCount} {e : Entry}

/-- The number of slots in the first half of a directory. -/
abbrev firstHalf : Nat := sectorSize / Entry.recordSize

theorem slot_lt {k : Nat} (hk : k < blockSize) : k / Entry.recordSize < slotCount := by
  simp only [blockSize, Entry.recordSize, slotCount] at hk ⊢
  omega

theorem getElem_toBlock (k : Nat) (hk : k < blockSize) :
    t.toBlock[k] = (t.entry ⟨k / Entry.recordSize, slot_lt hk⟩).encode.get
      ⟨k % Entry.recordSize, Nat.mod_lt k (by decide)⟩ := by
  have hmap : k < slotCount * Entry.recordSize := hk
  have hflat : (t.map Entry.encode).flatten[k] = _ := Vector.getElem_flatten hmap
  refine hflat.trans ?_
  rw [Vector.getElem_map]
  rfl

theorem getElem_toBlock_put {k : Nat} (hk : k < blockSize) (hne : k / Entry.recordSize ≠ slot) :
    (t.put slot e).toBlock[k] = t.toBlock[k] := by
  have hne' : (⟨k / Entry.recordSize, slot_lt hk⟩ : Fin slotCount) ≠ slot := by
    rintro rfl
    exact hne rfl
  rw [getElem_toBlock, getElem_toBlock]
  simp only [entry_put, if_neg hne']

/-- A torn write of one slot has happened if the slot lies in the first half, and else has not. -/
theorem splice_put :
    Bytes.splice sectorSize (t.put slot e).toBlock t.toBlock
      = if slot.val < firstHalf then (t.put slot e).toBlock else t.toBlock := by
  by_cases hslot : slot.val < firstHalf
  · rw [if_pos hslot]
    refine Bytes.splice_eq_left fun k hk hle => getElem_toBlock_put hk ?_
    simp only [firstHalf, sectorSize, Entry.recordSize] at hslot hle ⊢
    omega
  · rw [if_neg hslot]
    refine Bytes.splice_eq_right fun k hk hlt => getElem_toBlock_put hk ?_
    simp only [firstHalf, sectorSize, Entry.recordSize] at hslot hlt ⊢
    omega

end EntryTable

/-! ## The record of an inode -/

namespace Inode

variable {x y : Inode} {cut k b : Nat}

/-- The record of which the first bytes are those of one record and the others those of another. -/
def mixed (cut : Nat) (x y : Inode) : Inode := .decode (.splice cut x.encode y.encode)

theorem encode_mixed : (mixed cut x y).encode = Bytes.splice cut x.encode y.encode :=
  encode_decode _

theorem mixed_zero : mixed 0 x y = y := by
  have hsplice : Bytes.splice 0 x.encode y.encode = y.encode :=
    Bytes.splice_eq_right fun i _ hi => absurd hi (Nat.not_lt_zero i)
  rw [mixed, hsplice, decode_encode]

theorem mixed_of_le (h : inodeRecordSize ≤ cut) : mixed cut x y = x := by
  have hsplice : Bytes.splice cut x.encode y.encode = x.encode :=
    Bytes.splice_eq_left fun i hi hle => by omega
  rw [mixed, hsplice, decode_encode]

/-- A cut at an even place never goes through a number of two bytes. -/
theorem toUInt16_slice_splice {n start : Nat} {v w : Bytes n} (h : start + 2 ≤ n)
    (heven : cut % 2 = 0) (hstart : start % 2 = 0) :
    ((Bytes.splice cut v w).slice start 2 h).toUInt16 = (v.slice start 2 h).toUInt16 ∨
      ((Bytes.splice cut v w).slice start 2 h).toUInt16 = (w.slice start 2 h).toUInt16 := by
  by_cases hle : cut ≤ start
  · right
    congr 1
    refine Vector.ext fun i hi => ?_
    have hnot : ¬ start + i < cut := by omega
    rw [Bytes.getElem_slice, Bytes.getElem_slice, Bytes.getElem_splice, if_neg hnot]
  · left
    congr 1
    refine Vector.ext fun i hi => ?_
    have hlt : start + i < cut := by omega
    rw [Bytes.getElem_slice, Bytes.getElem_slice, Bytes.getElem_splice, if_pos hlt]

/-- A number of four bytes is made up of two numbers of two bytes. -/
theorem toNat_toUInt32_slice {n start : Nat} {v : Bytes n} (h : start + 4 ≤ n) :
    (v.slice start 4 h).toUInt32.toNat = (v.slice start 2 (by omega)).toUInt16.toNat
      + 0x10000 * (v.slice (start + 2) 2 (by omega)).toUInt16.toNat := by
  have hbyte (i : Nat) (hi : i < n) := v[i].toNat_lt
  have h0 := hbyte start (by omega)
  have h1 := hbyte (start + 1) (by omega)
  have h2 := hbyte (start + 2) (by omega)
  have h3 := hbyte (start + 3) (by omega)
  simp only [Bytes.toUInt32, Bytes.toUInt16, Bytes.getElem_slice, UInt32.toNat_ofNat',
    UInt16.toNat_ofNat', Nat.add_zero, Nat.add_assoc, Nat.reduceAdd]
  omega

theorem toNat_size : x.size.toNat = (x.encode.slice 2 2 (by decide)).toUInt16.toNat
    + 0x10000 * (x.encode.slice 4 2 (by decide)).toUInt16.toNat := by
  have hdecode : x.size = (decode x.encode).size := by rw [decode_encode]
  rw [hdecode]
  exact toNat_toUInt32_slice (by decide)

theorem pointer_lt (hk : k < pointerCount) : 10 + 2 * k + 2 ≤ inodeRecordSize := by
  simp only [pointerCount, inodeRecordSize] at hk ⊢
  omega

theorem getElem_pointers (hk : k < pointerCount) :
    x.pointers[k] = (x.encode.slice (10 + 2 * k) 2 (pointer_lt hk)).toUInt16 := by
  have hdecode : x.pointers[k] = (decode x.encode).pointers[k] := by rw [decode_encode]
  rw [hdecode]
  simp only [decode, Vector.getElem_map]
  refine congrArg Bytes.toUInt16 (Vector.ext fun i hi => ?_)
  have hplace : 10 + (k * 2 + i) = 10 + 2 * k + i := by omega
  simp only [Bytes.chunks, Vector.getElem_ofFn, Bytes.getElem_slice, hplace]

variable (heven : cut % 2 = 0)

include heven

/-- A record of which an even number of bytes was written has each pointer of one of the records. -/
theorem block?_mixed (k : Nat) :
    (mixed cut x y).block? k = x.block? k ∨ (mixed cut x y).block? k = y.block? k := by
  by_cases hk : k < pointerCount
  · have hpointers : (mixed cut x y).pointers[k] = x.pointers[k] ∨
        (mixed cut x y).pointers[k] = y.pointers[k] := by
      rw [getElem_pointers hk, getElem_pointers hk, getElem_pointers hk, encode_mixed]
      exact toUInt16_slice_splice (pointer_lt hk) heven (by omega)
    simp only [block?, pointer?, Vector.getElem?_eq_getElem hk, Option.bind_some]
    rcases hpointers with h | h
    · exact .inl (by rw [h])
    · exact .inr (by rw [h])
  · left
    rw [block?_eq_none_of_le (Nat.le_of_not_lt hk), block?_eq_none_of_le (Nat.le_of_not_lt hk)]

/-- A record of which an even number of bytes was written has the size of one of the records, if the
two sizes differ in their lower halves only. -/
theorem size_mixed (hhigh : x.size.toNat / 0x10000 = y.size.toNat / 0x10000) :
    (mixed cut x y).size = x.size ∨ (mixed cut x y).size = y.size := by
  have hhalf {start : Nat} (h : start + 2 ≤ inodeRecordSize) (hstart : start % 2 = 0) :=
    toUInt16_slice_splice (v := x.encode) (w := y.encode) h heven hstart
  have hmixed := toNat_size (x := mixed cut x y)
  rw [encode_mixed] at hmixed
  have hx := toNat_size (x := x)
  have hy := toNat_size (x := y)
  have hxlt := (x.encode.slice 2 2 (by decide)).toUInt16.toNat_lt
  have hylt := (y.encode.slice 2 2 (by decide)).toUInt16.toNat_lt
  have hhigh : (x.encode.slice 4 2 (by decide)).toUInt16.toNat
      = (y.encode.slice 4 2 (by decide)).toUInt16.toNat := by omega
  have hsame : ((Bytes.splice cut x.encode y.encode).slice 4 2 (by decide)).toUInt16.toNat
      = (y.encode.slice 4 2 (by decide)).toUInt16.toNat := by
    rcases hhalf (show 4 + 2 ≤ inodeRecordSize by decide) (by decide) with h | h
    · rw [h, hhigh]
    · rw [h]
  rcases hhalf (show 2 + 2 ≤ inodeRecordSize by decide) (by decide) with h | h
  · left
    apply UInt32.toNat.inj
    rw [hmixed, hx, h, hsame, hhigh]
  · right
    apply UInt32.toNat.inj
    rw [hmixed, hy, h, hsame]

end Inode

end BlockFS
