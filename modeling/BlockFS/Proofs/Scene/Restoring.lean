import BlockFS.Proofs.Scene.Making

/-!
# Bits that are set and cleared again

What fails after something was handed out takes it back.  Then not only are the same items in use as
before, but the bitmaps are the same byte for byte, and so is everything that lies before the table of
inodes.
-/

namespace BlockFS

open Volume

namespace Bitmap

variable {b : Bitmap} {i k : Nat}

/-- Setting a clear bit and clearing it again gives the same byte. -/
theorem setBit_setBit {x : UInt8} (hk : k < 8) (hclear : bit x k = false) :
    setBit (setBit x k true) k false = x := by
  apply UInt8.toBitVec_inj.mp
  apply BitVec.eq_of_getLsbD_eq
  intro j _
  change bit (setBit (setBit x k true) k false) j = bit x j
  rw [bit_setBit _ _ _ _ hk, bit_setBit _ _ _ _ hk]
  split
  · next hj => rw [hj, hclear]
  · rfl

/-- Handing out a free item and taking it back gives the same bitmap. -/
theorem mark_mark_of_free (hi : i < b.count) (fits : b.count ≤ 8 * blockSize)
    (hfree : b.get i = false) : (b.mark i true).mark i false = b := by
  have hbyte : i / 8 < blockSize := by omega
  have hclear : bit (b.byte i) (i % 8) = false := by
    rw [get, decide_eq_true hi, Bool.true_and] at hfree
    exact hfree
  have hset : (b.mark i true).byte i = setBit (b.byte i) (i % 8) true := by
    rw [byte, mark, Vector.getElem?_setIfInBounds_self_of_lt hbyte]
    rfl
  have hback : setBit (setBit (b.byte i) (i % 8) true) (i % 8) false = b.byte i :=
    setBit_setBit (Nat.mod_lt i (by decide)) hclear
  have hbits : ((b.mark i true).mark i false).bits = b.bits := by
    rw [mark, hset, hback]
    refine Vector.ext fun j hj => ?_
    rw [mark, Vector.getElem_setIfInBounds, Vector.getElem_setIfInBounds]
    split
    · next hij => rw [byte, hij, Vector.getElem?_eq_getElem hj, Option.getD_some]
    · rfl
  exact congrArg (Bitmap.mk · b.count) hbits

end Bitmap

namespace Layout

variable (l : Layout) {bs : Blocks} {r : Resource} {i : Nat}

theorem mark_mark_of_free (hi : i < r.count l) (hfree : (l.bitmap bs r).get i = false) :
    l.mark (l.mark bs r i true) r i false = bs := by
  have hbitmap : l.bitmap (l.mark bs r i true) r = (l.bitmap bs r).mark i true := by
    rw [bitmap, mark, Function.update_self]
    rfl
  rw [mark, hbitmap, Bitmap.mark_mark_of_free (b := l.bitmap bs r) hi (l.count_le r) hfree, mark,
    Function.update_idem]
  exact Function.update_eq_self _ _

/-- What lies before the table of inodes: block 0, the superblock and the bitmaps. -/
def lower (bs : Blocks) : Blocks := fun b => if b < l.tableStart then bs b else .zero

theorem lower_mark (used : Bool) : l.lower (l.mark bs r i used) = l.mark (l.lower bs) r i used := by
  have hlt := l.bitmapBlock_lt_tableStart r
  have hbitmap : l.bitmap (l.lower bs) r = l.bitmap bs r := by
    rw [bitmap, bitmap, lower, if_pos hlt]
  funext b
  rw [mark, mark, hbitmap, lower]
  by_cases hb : b = r.bitmapBlock l
  · rw [hb, if_pos hlt, Function.update_self, Function.update_self]
  · rw [Function.update_of_ne hb, Function.update_of_ne hb]
    rfl

theorem lower_putInode {x : Inode} (hi : i < l.inodeCount) :
    l.lower (l.putInode bs i x) = l.lower bs := by
  funext b
  simp only [lower]
  split
  · next hb => exact l.putInode_of_outside bs x hi (.inl hb)
  · rfl

theorem lower_update {z : Block} (hi : l.tableStart ≤ i) :
    l.lower (Function.update bs i z) = l.lower bs := by
  funext b
  simp only [lower]
  split
  · exact Function.update_of_ne (by omega) _ _
  · rfl

end Layout

namespace Scene

variable {l : Layout} {s : Scene l} {r : Resource} {i b : Nat} {x : Inode} {t : EntryTable}

/-- What lies before the table of inodes on the disk. -/
def lower (s : Scene l) : Blocks := l.lower s.store.block

theorem lower_mark (used : Bool) : (s.mark r i used).lower = l.mark s.lower r i used := by
  rw [lower, mark, Store.mark, s.store.block_putBlock _ (l.superblock_lt_bitmapBlock r)]
  exact l.lower_mark used

theorem lower_putInode (hi : i < l.inodeCount) : (s.putInode i x).lower = s.lower := by
  rw [lower, putInode, Store.putInode, s.store.block_writeOver _ _ (l.superblock_lt_inodeBlock i)]
  exact l.lower_putInode hi

theorem lower_putBlock {z : Block} (hi : l.firstDataBlock ≤ i) :
    (s.putBlock i z).lower = s.lower := by
  have hsuper : superblockBlock < i := Nat.lt_of_lt_of_le
    (Nat.lt_trans l.superblock_lt_tableStart l.tableStart_lt_firstDataBlock) hi
  rw [lower, putBlock, s.store.block_putBlock _ hsuper]
  exact l.lower_update (Nat.le_trans (Nat.le_of_lt l.tableStart_lt_firstDataBlock) hi)

theorem get_lower (s : Scene l) (r : Resource) (i : Nat) :
    (l.bitmap s.lower r).get i = s.records.used r i := by
  rw [lower, Layout.bitmap, Layout.lower, if_pos (l.bitmapBlock_lt_tableStart r)]
  rfl

/-- An inode is handed out and taken back. -/
theorem lower_mark_mark (hi : i < l.inodeCount) (hfree : s.records.used .inode i = false) :
    ((s.mark .inode i true).mark .inode i false).lower = s.lower := by
  rw [lower_mark, lower_mark]
  exact l.mark_mark_of_free hi ((s.get_lower .inode i).trans hfree)

/-- A file is made and taken back. -/
theorem lower_discard_addInode (hi : i < l.inodeCount) (hfree : s.records.used .inode i = false)
    (hx : x.blocks = []) : ((s.addInode i x).discard i).lower = s.lower := by
  have hrecord : (s.addInode i x).records.inode i = x := by
    rw [records_addInode _ hi, Records.inode_addInode, if_pos rfl]
  rw [discard, hrecord, hx, freeBlocks, addInode, lower_mark, lower_putInode hi, lower_mark]
  exact l.mark_mark_of_free hi ((s.get_lower .inode i).trans hfree)

/-- A directory is made and taken back. -/
theorem lower_discard_addDirectory (hi : i < l.inodeCount)
    (hfree : s.records.used .inode i = false) (hge : l.firstDataBlock ≤ b) (hb : b < l.blockCount)
    (hblock : s.records.used .block b = false) (hx : x.blocks = [b]) :
    ((s.addDirectory i b x t).discard i).lower = s.lower := by
  have hrecord : (s.addDirectory i b x t).records.inode i = x := by
    rw [records_addDirectory _ hi hge hb, Records.inode_addInode, if_pos rfl]
  have hblock' : (l.bitmap (l.mark s.lower .inode i true) .block).get b = false := by
    rw [l.get_bitmap_mark s.lower (r := .inode) hi, if_neg fun he => Resource.noConfusion he.1]
    exact (s.get_lower .block b).trans hblock
  rw [discard, hrecord, hx, freeBlocks, freeBlocks, addDirectory, lower_mark, lower_mark,
    lower_putInode hi, lower_putBlock hge, lower_putBlock hge, lower_mark, lower_mark,
    l.mark_mark_of_free (r := .block) hb hblock']
  exact l.mark_mark_of_free hi ((s.get_lower .inode i).trans hfree)

end Scene

end BlockFS
