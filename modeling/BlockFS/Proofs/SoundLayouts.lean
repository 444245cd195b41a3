import BlockFS.Proofs.InodeTables
import BlockFS.Proofs.Machine.Records
import Mathlib.Data.List.Pairwise
import Mathlib.Order.CompletePartialOrder
import Mathlib.Order.Interval.Set.Disjoint

/-!
# A superblock that passes the checks is sound

A superblock holds six numbers of 32 bits besides its mark, and whoever made the image chose them.
All other parts rely on what the checks leave of them: the regions of the volume lie one behind the
other and inside of it, the two bitmaps have a bit for every item, a pointer has room for the number
of every block, and every inode has a record of its own in the inode table.  The records are shorter
than a block and no divisor of it, so that one may go on in the next block; what is shown of its
bytes is shown of both pieces.  Nothing is assumed of the numbers but that the checks accept them,
and the table may be filled to its last byte.
-/

namespace BlockFS

/-! ## Regions -/

/-- The regions into which a layout divides a volume.  Block 0 is one of its own and holds nothing. -/
inductive Region where
  | reserved
  | superblock
  | bitmap (r : Resource)
  | inodeTable
  | data
  deriving DecidableEq, Repr

namespace Region

variable (l : Layout)

/-- The first block of a region. -/
def first : Region → Nat
  | .reserved => 0
  | .superblock => superblockBlock
  | .bitmap r => r.bitmapBlock l
  | .inodeTable => l.tableStart
  | .data => l.firstDataBlock

/-- The block behind the last one of a region. -/
def behind : Region → Nat
  | .inodeTable => l.firstDataBlock
  | .data => l.blockCount
  | a => a.first l + 1

/-- The regions in the order in which they lie on the volume. -/
def inOrder : List Region :=
  [.reserved, .superblock, .bitmap .inode, .bitmap .block, .inodeTable, .data]

/-- The blocks of a region. -/
def blocks (a : Region) : Set Nat := Set.Ico (a.first l) (a.behind l)

/-- The bytes of the blocks of a region, counted from the start of the disk. -/
def bytes (a : Region) : Set Nat := {p | p / blockSize ∈ a.blocks l}

theorem bytes_eq (a : Region) :
    a.bytes l = Set.Ico (blockSize * a.first l) (blockSize * a.behind l) := by
  ext p
  simp only [bytes, blocks, Set.mem_ofPred_eq, Set.mem_Ico, blockSize]
  omega

theorem mem_inOrder (a : Region) : a ∈ inOrder := by
  cases a with
  | bitmap r => cases r <;> decide
  | _ => decide

theorem first_lt_behind (a : Region) : a.first l < a.behind l := by
  cases a with
  | inodeTable => exact l.tableStart_lt_firstDataBlock
  | data => exact l.firstDataBlock_lt_blockCount
  | _ => exact Nat.lt_succ_self _

theorem behind_le_blockCount (a : Region) : a.behind l ≤ l.blockCount := by
  have hsuperblock := Machine.superblock_lt_blockCount l
  cases a with
  | reserved => exact Nat.zero_lt_of_lt hsuperblock
  | superblock => exact hsuperblock
  | bitmap r => exact l.bitmapBlock_lt_blockCount r
  | inodeTable => exact Nat.le_of_lt l.firstDataBlock_lt_blockCount
  | data => exact Nat.le_refl _

/-- Each region ends before the later ones begin. -/
theorem pairwise_inOrder : inOrder.Pairwise fun a b => a.behind l ≤ b.first l := by
  have hinodes := l.superblock_lt_bitmapBlock .inode
  have hblocks : Resource.inode.bitmapBlock l < Resource.block.bitmapBlock l :=
    UInt32.lt_iff_toNat_lt.mp l.valid.blockBitmap
  have htable := l.bitmapBlock_lt_tableStart .block
  have hdata := l.tableStart_lt_firstDataBlock
  simp only [superblockBlock] at hinodes
  simp only [inOrder, List.pairwise_cons, List.forall_mem_cons, behind, first, superblockBlock]
  simp only [List.not_mem_nil, false_implies, implies_true, List.Pairwise.nil, and_true]
  omega

/-- No block belongs to two regions. -/
theorem disjoint_blocks {a b : Region} (h : a ≠ b) : Disjoint (a.blocks l) (b.blocks l) := by
  have hpairs : inOrder.Pairwise fun a b => Disjoint (a.blocks l) (b.blocks l) :=
    (pairwise_inOrder l).imp fun hle => Set.Ico_disjoint_Ico.mpr
      (Nat.le_trans (Nat.min_le_left _ _) (Nat.le_trans hle (Nat.le_max_right _ _)))
  have hsymm : Std.Symm fun a b : Region => Disjoint (a.blocks l) (b.blocks l) :=
    ⟨fun _ _ hdisjoint => hdisjoint.symm⟩
  exact hpairs.forall (mem_inOrder a) (mem_inOrder b) h

end Region

/-! ## Bits -/

namespace Layout

/-- The byte of the disk that tells of an item. -/
def bitByte (l : Layout) (r : Resource) (i : Nat) : Nat := blockSize * r.bitmapBlock l + i / 8

variable {l : Layout} {r : Resource} {i j : Nat}

theorem row_lt (h : i < r.count l) : i / 8 < blockSize := by
  have hfits := l.count_le r
  simp only [blockSize] at hfits ⊢
  omega

theorem bitByte_mem (h : i < r.count l) : l.bitByte r i ∈ (Region.bitmap r).bytes l := by
  have hrow := row_lt h
  simp only [Region.bytes_eq, Region.first, Region.behind, bitByte, Set.mem_Ico, Nat.mul_add]
  omega

theorem byte_bitmap (h : i < r.count l) (bs : Blocks) :
    (l.bitmap bs r).byte i = bs.byte (l.bitByte r i) := by
  have hrow := row_lt h
  rw [Bitmap.byte, bitmap, bitByte, bs.byte_of_lt _ hrow, Vector.getElem?_eq_getElem hrow,
    Option.getD_some]

end Layout

/-! ## Pointers -/

/-- A slot that is made to point to a block of the volume gives its number back. -/
theorem Layout.pointer?_setPointer {l : Layout} {k slot : Nat} (h : k < l.blockCount)
    (hslot : slot < pointerCount) (x : Inode) :
    ((x.setPointer slot k).pointer? slot).map UInt16.toNat = some k := by
  have hword : (UInt16.ofNat k).toNat = k := UInt16.toNat_ofNat_of_lt' (l.small_of_lt (r := .block) h)
  simp only [Inode.pointer?, Inode.setPointer, Vector.getElem?_setIfInBounds, if_true, if_pos hslot,
    Option.map_some, hword]

/-! ## Records -/

/-- The bytes of the disk that a record fills which begins at a byte of a block: what the block has
left of them, and the others from the start of the next block. -/
def recordBytes (block byte : Nat) : Set Nat :=
  let here := min inodeRecordSize (blockSize - byte)
  Set.Ico (blockSize * block + byte) (blockSize * block + byte + here)
    ∪ Set.Ico (blockSize * (block + 1)) (blockSize * (block + 1) + (inodeRecordSize - here))

/-- The two pieces of a record follow one another. -/
theorem recordBytes_eq {block byte : Nat} (h : byte < blockSize) :
    recordBytes block byte
      = Set.Ico (blockSize * block + byte) (blockSize * block + byte + inodeRecordSize) := by
  ext p
  simp only [recordBytes, Set.mem_union, Set.mem_Ico, inodeRecordSize, blockSize] at h ⊢
  omega

namespace Layout

variable {l : Layout} {i j block byte : Nat}

/-- The record of an inode begins at a byte of a block.  No number on the way to this place leaves its
word; the record fills the bytes from its start on and no others, whether it goes on in the next block
or not; all of them lie in the blocks of the inode table; and what is read of the inode depends on
them alone, and what is written changes no others. -/
structure Locates (l : Layout) (i block byte : Nat) : Prop where
  fits : ∀ τ, (Machine.inodePlace l.superblock i : Machine.Action Error τ (Nat × Nat))
    = pure (block, byte)
  byte_lt : byte < blockSize
  filled : recordBytes block byte
    = Set.Ico (l.recordStart i) (l.recordStart i + inodeRecordSize)
  inTable : recordBytes block byte ⊆ Region.inodeTable.bytes l
  reads : ∀ bs bs' : Blocks, (∀ p ∈ recordBytes block byte, bs.byte p = bs'.byte p) →
    l.inode bs i = l.inode bs' i
  writes : ∀ (bs : Blocks) (x : Inode), ∀ p ∉ recordBytes block byte,
    (l.putInode bs i x).byte p = bs.byte p

theorem inode_eq_of_byte_eq {bs bs' : Blocks}
    (h : ∀ p ∈ Set.Ico (l.recordStart i) (l.recordStart i + inodeRecordSize),
      bs.byte p = bs'.byte p) : l.inode bs i = l.inode bs' i := by
  have hbytes : l.inodeBytes bs i = l.inodeBytes bs' i := by
    refine Vector.ext fun k hk => ?_
    rw [getElem_inodeBytes bs i hk, getElem_inodeBytes bs' i hk]
    exact h _ ⟨Nat.le_add_right _ _, Nat.add_lt_add_left hk _⟩
  rw [inode, inode, hbytes]

theorem byte_putInode_of_notMem (bs : Blocks) (x : Inode) {p : Nat}
    (h : p ∉ Set.Ico (l.recordStart i) (l.recordStart i + inodeRecordSize)) :
    (l.putInode bs i x).byte p = bs.byte p := by
  rw [byte_putInode]
  split
  · next hle =>
    have hbehind : inodeRecordSize ≤ p - l.recordStart i := by
      rw [Set.mem_Ico, not_and, Nat.not_lt] at h
      have := h hle
      omega
    rw [List.getElem?_eq_none (by rwa [Inode.length_stored]), Option.getD_none]
  · rfl

/-- The place that is found for the record of an inode is one where it lies. -/
theorem locates_of_inodePlace (h : l.superblock.inodePlace i = .ok (block, byte)) :
    l.Locates i block byte := by
  rcases Nat.lt_or_ge i l.inodeCount with hi | hi
  · rw [l.inodePlace_eq hi] at h
    cases h
    have hbyte : i * inodeRecordSize % blockSize < blockSize := Nat.mod_lt _ blockSize_pos
    have hfilled : recordBytes (l.tableStart + i * inodeRecordSize / blockSize)
        (i * inodeRecordSize % blockSize)
        = Set.Ico (l.recordStart i) (l.recordStart i + inodeRecordSize) := by
      rw [recordBytes_eq hbyte, recordStart_eq]
    have htable : Set.Ico (l.recordStart i) (l.recordStart i + inodeRecordSize)
        ⊆ Region.inodeTable.bytes l := by
      rw [Region.bytes_eq]
      exact Set.Ico_subset_Ico (l.tableStart_le_recordStart i) (recordStart_add_le hi)
    exact
      { fits := fun _ => Machine.inodePlace_of_lt l hi
        byte_lt := hbyte
        filled := hfilled
        inTable := hfilled ▸ htable
        reads := fun _ _ hsame => inode_eq_of_byte_eq (hfilled ▸ hsame)
        writes := fun bs x _ hp => byte_putInode_of_notMem bs x (hfilled ▸ hp) }
  · rw [inodePlace_of_le hi] at h
    cases h

/-- No byte belongs to the records of two inodes. -/
theorem Locates.disjoint {block' byte' : Nat} (h : l.Locates i block byte)
    (h' : l.Locates j block' byte') (hne : i ≠ j) :
    Disjoint (recordBytes block byte) (recordBytes block' byte') := by
  rw [h.filled, h'.filled, Set.Ico_disjoint_Ico]
  simp only [recordStart, inodeRecordSize]
  omega

/-! ## Soundness -/

/-- What the other parts rely on.

No region is empty, every region lies inside of the volume, and no block belongs to two of them.  The
bit of every item lies in the one block of its bitmap, and is read from there.  The number of every
block fits a pointer of 16 bits and is got back from it.  Every inode has a place for its record, and
no byte belongs to the records of two inodes. -/
structure Sound (l : Layout) : Prop where
  inside : ∀ a : Region, (a.blocks l).Nonempty ∧ ∀ k ∈ a.blocks l, k < l.blockCount
  apart : ∀ a b : Region, a ≠ b → Disjoint (a.blocks l) (b.blocks l)
  bit : ∀ r : Resource, ∀ i < r.count l, l.bitByte r i ∈ (Region.bitmap r).bytes l ∧
    ∀ bs : Blocks, (l.bitmap bs r).byte i = bs.byte (l.bitByte r i)
  pointer : ∀ k < l.blockCount, k < UInt16.size ∧ ∀ (x : Inode), ∀ slot < pointerCount,
    ((x.setPointer slot k).pointer? slot).map UInt16.toNat = some k
  record : ∀ i < l.inodeCount, ∃ block byte,
    l.superblock.inodePlace i = .ok (block, byte) ∧ l.Locates i block byte
  records : ∀ i j block byte block' byte', i ≠ j →
    l.superblock.inodePlace i = .ok (block, byte) →
    l.superblock.inodePlace j = .ok (block', byte') →
    Disjoint (recordBytes block byte) (recordBytes block' byte')

theorem superblock_of_check {s : Superblock} (h : Layout.check s = .ok l) : l.superblock = s := by
  unfold check at h
  split at h
  · cases h
    rfl
  · cases h

/-- A superblock that the checks accept is sound. -/
theorem sound_of_check {s : Superblock} (h : Layout.check s = .ok l) :
    l.superblock = s ∧ l.Sound where
  left := superblock_of_check h
  right :=
    { inside := fun a => ⟨Set.nonempty_Ico.mpr (a.first_lt_behind l), fun _ hk =>
        Nat.lt_of_lt_of_le hk.2 (a.behind_le_blockCount l)⟩
      apart := fun _ _ => Region.disjoint_blocks l
      bit := fun _ _ hi => ⟨bitByte_mem hi, byte_bitmap hi⟩
      pointer := fun _ hk => ⟨l.small_of_lt (r := .block) hk, fun x _ hslot =>
        pointer?_setPointer hk hslot x⟩
      record := fun _ hi => ⟨_, _, l.inodePlace_eq hi, locates_of_inodePlace (l.inodePlace_eq hi)⟩
      records := fun _ _ _ _ _ _ hne h h' =>
        (locates_of_inodePlace h).disjoint (locates_of_inodePlace h') hne }

/-- The largest volume with gaps between its regions, whose 8192 records fill the 240 blocks of the
inode table to the last byte. -/
theorem sound_of_check_tightest :
    let s : Superblock := ⟨signature, 8192, 8192, 5, 9, 100, 340⟩
    ∃ l, Layout.check s = .ok l ∧
      l.recordStart 8191 + inodeRecordSize = blockSize * l.firstDataBlock ∧
      l.superblock = s ∧ l.Sound := by
  intro s
  have hvalid : s.Valid := by decide
  have hcheck : Layout.check s = .ok ⟨s, hvalid⟩ := dif_pos hvalid
  have htight : blockSize * s.tableStart.toNat + inodeRecordSize * 8191 + inodeRecordSize
      = blockSize * s.firstDataBlock.toNat := by decide
  exact ⟨_, hcheck, htight, sound_of_check hcheck⟩

end Layout

end BlockFS
