import BlockFS.Volume.Records

/-!
# The regions of a layout

Block 0, the superblock, the two bitmaps, the inode table and the data follow one another and end
inside the volume.
-/

namespace BlockFS.Layout

variable (l : Layout)

/-- The first block of the inode table. -/
def tableStart : Nat := l.superblock.tableStart.toNat

theorem superblock_lt_bitmapBlock (r : Resource) : superblockBlock < r.bitmapBlock l := by
  have h1 := l.valid.inodeBitmap
  have h2 := UInt32.lt_iff_toNat_lt.mp l.valid.blockBitmap
  cases r with
  | inode => exact h1
  | block => exact Nat.lt_trans h1 h2

theorem bitmapBlock_lt_tableStart (r : Resource) : r.bitmapBlock l < l.tableStart := by
  have h2 := UInt32.lt_iff_toNat_lt.mp l.valid.blockBitmap
  have h3 := UInt32.lt_iff_toNat_lt.mp l.valid.inodeTable
  cases r with
  | inode => exact Nat.lt_trans h2 h3
  | block => exact h3

theorem bitmapBlock_injective {r r' : Resource} (h : r.bitmapBlock l = r'.bitmapBlock l) :
    r = r' := by
  have h2 := UInt32.lt_iff_toNat_lt.mp l.valid.blockBitmap
  cases r with
  | inode =>
    cases r' with
    | inode => rfl
    | block => exact absurd h (Nat.ne_of_lt h2)
  | block =>
    cases r' with
    | inode => exact absurd h (Nat.ne_of_gt h2)
    | block => rfl

theorem tableStart_lt_firstDataBlock : l.tableStart < l.firstDataBlock :=
  UInt32.lt_iff_toNat_lt.mp l.valid.data

/-- A block of the data. -/
def IsData (b : Nat) : Prop := l.firstDataBlock ≤ b ∧ b < l.blockCount

theorem firstDataBlock_lt_blockCount : l.firstDataBlock < l.blockCount :=
  UInt32.lt_iff_toNat_lt.mp l.valid.inside

theorem superblock_lt_tableStart : superblockBlock < l.tableStart :=
  Nat.lt_trans (l.superblock_lt_bitmapBlock .inode) (l.bitmapBlock_lt_tableStart .inode)

theorem bitmapBlock_lt_blockCount (r : Resource) : r.bitmapBlock l < l.blockCount :=
  Nat.lt_trans (l.bitmapBlock_lt_tableStart r)
    (Nat.lt_trans l.tableStart_lt_firstDataBlock l.firstDataBlock_lt_blockCount)

theorem count_le (r : Resource) : r.count l ≤ 8 * blockSize := by
  cases r with
  | inode => exact l.valid.inodes
  | block => exact l.valid.blocks

/-- Items are numbered by 16 bits. -/
theorem small_of_lt {r : Resource} {i : Nat} (h : i < r.count l) : i < UInt16.size :=
  Nat.lt_of_lt_of_le h (Nat.le_trans (l.count_le r) (by decide))

theorem rootInode_lt_inodeCount : rootInode < l.inodeCount := l.valid.root

/-- Every byte of every inode record lies in the blocks of the inode table. -/
theorem tableStart_add_div_lt {i k : Nat} (hi : i < l.inodeCount)
    (hk : k < i * inodeRecordSize + inodeRecordSize) :
    l.tableStart + k / blockSize < l.firstDataBlock := by
  have htable : l.inodeCount * inodeRecordSize ≤ (l.firstDataBlock - l.tableStart) * blockSize :=
    l.valid.table
  have hstart := l.tableStart_lt_firstDataBlock
  simp only [inodeRecordSize, blockSize] at htable hk ⊢
  omega

/-- The record of an inode begins in the inode table. -/
theorem inodeBlock_lt {i : Nat} (hi : i < l.inodeCount) :
    l.tableStart + i * inodeRecordSize / blockSize < l.firstDataBlock :=
  l.tableStart_add_div_lt hi (Nat.lt_add_of_pos_right (by decide))

/-- A record that does not end in its block ends in the next one, which is of the inode table too. -/
theorem inodeNext_lt {i : Nat} (hi : i < l.inodeCount)
    (h : blockSize < i * inodeRecordSize % blockSize + inodeRecordSize) :
    l.tableStart + i * inodeRecordSize / blockSize + 1 < l.firstDataBlock := by
  have hlast := l.tableStart_add_div_lt (k := i * inodeRecordSize + inodeRecordSize - 1) hi
    (by simp only [inodeRecordSize]; omega)
  have hnext : (i * inodeRecordSize + inodeRecordSize - 1) / blockSize
      = i * inodeRecordSize / blockSize + 1 := by
    simp only [blockSize, inodeRecordSize] at h ⊢
    omega
  rwa [hnext] at hlast

theorem superblock_lt_inodeBlock (i : Nat) :
    superblockBlock < l.tableStart + i * inodeRecordSize / blockSize :=
  Nat.lt_of_lt_of_le l.superblock_lt_tableStart (Nat.le_add_right _ _)

end BlockFS.Layout
