import BlockFS.Block
import BlockFS.Text.Number

/-!
# Superblocks

The superblock tells how a volume is laid out: where its two bitmaps, its inode table and its data
begin.  A layout is a superblock that has passed the checks on which all other parts rely.
-/

namespace BlockFS

/-- The mark of a volume; stored with the least significant byte first it reads `FXEJ`. -/
def signature : UInt32 := 0x4A455846

/-- The block that holds the superblock. -/
def superblockBlock : Nat := 1

/-- The number of items that one bitmap block can tell of. -/
def itemsPerBitmap : Nat := 8 * blockSize

/-- The number of bytes in an inode record. -/
abbrev inodeRecordSize : Nat := 30

/-- The inode of the root directory. -/
def rootInode : Nat := 1

/-- The shape asked for of a volume that is to be made. -/
structure Geometry where
  blockCount : UInt32
  inodeCount : UInt32
  tableBlocks : UInt32
  deriving DecidableEq, Repr

/-- The shape of a floppy disk of 1.44 MB with 128 inodes. -/
def Geometry.floppy : Geometry := ⟨1440, 128, 8⟩

/-- The first record of a volume. -/
structure Superblock where
  magic : UInt32
  blockCount : UInt32
  inodeCount : UInt32
  inodeBitmapBlock : UInt32
  blockBitmapBlock : UInt32
  tableStart : UInt32
  firstDataBlock : UInt32
  deriving DecidableEq, Repr

namespace Superblock

/-- The number of bytes in the record. -/
abbrev recordSize : Nat := 28

/-- The numbers of the record in the order in which they are stored. -/
def words (s : Superblock) : Vector UInt32 7 :=
  #v[s.magic, s.blockCount, s.inodeCount, s.inodeBitmapBlock, s.blockBitmapBlock, s.tableStart,
    s.firstDataBlock]

/-- The record with the given numbers. -/
def ofWords (w : Vector UInt32 7) : Superblock := ⟨w[0], w[1], w[2], w[3], w[4], w[5], w[6]⟩

/-- The stored form: the numbers, of four bytes each. -/
def encode (s : Superblock) : Bytes recordSize := (s.words.map Bytes.ofUInt32).flatten

/-- Reads the stored form. -/
def decode (v : Bytes recordSize) : Superblock :=
  .ofWords ((Bytes.chunks (m := 7) (n := 4) v).map Bytes.toUInt32)

theorem decode_encode (s : Superblock) : decode s.encode = s := by
  have h : Bytes.toUInt32 ∘ Bytes.ofUInt32 = id := funext Bytes.toUInt32_ofUInt32
  simp only [decode, encode, Bytes.chunks_flatten, Vector.map_map, h, Vector.map_id]
  rfl

theorem encode_decode (v : Bytes recordSize) : (decode v).encode = v := by
  have h : Bytes.ofUInt32 ∘ Bytes.toUInt32 = id := funext Bytes.ofUInt32_toUInt32
  have words_ofWords (w : Vector UInt32 7) : (ofWords w).words = w := by
    refine Vector.ext fun i hi => ?_
    match i with
    | 0 | 1 | 2 | 3 | 4 | 5 | 6 => rfl
  simp only [decode, encode, words_ofWords, Vector.map_map, h, Vector.map_id]
  exact Bytes.flatten_chunks (m := 7) (n := 4) v

/-- What the superblock of a usable volume satisfies: its regions follow one another and end inside
the volume, each bitmap fits its block, there is a root inode, and the table has room for every
inode. -/
structure Valid (s : Superblock) : Prop where
  magic : s.magic = signature
  inodeBitmap : superblockBlock < s.inodeBitmapBlock.toNat
  blockBitmap : s.inodeBitmapBlock < s.blockBitmapBlock
  inodeTable : s.blockBitmapBlock < s.tableStart
  data : s.tableStart < s.firstDataBlock
  inside : s.firstDataBlock < s.blockCount
  blocks : s.blockCount.toNat ≤ itemsPerBitmap
  inodes : s.inodeCount.toNat ≤ itemsPerBitmap
  root : rootInode < s.inodeCount.toNat
  table : s.inodeCount.toNat * inodeRecordSize
    ≤ (s.firstDataBlock.toNat - s.tableStart.toNat) * blockSize

instance (s : Superblock) : Decidable s.Valid :=
  decidable_of_iff
    (s.magic = signature ∧ superblockBlock < s.inodeBitmapBlock.toNat
      ∧ s.inodeBitmapBlock < s.blockBitmapBlock ∧ s.blockBitmapBlock < s.tableStart
      ∧ s.tableStart < s.firstDataBlock ∧ s.firstDataBlock < s.blockCount
      ∧ s.blockCount.toNat ≤ itemsPerBitmap ∧ s.inodeCount.toNat ≤ itemsPerBitmap
      ∧ rootInode < s.inodeCount.toNat
      ∧ s.inodeCount.toNat * inodeRecordSize
        ≤ (s.firstDataBlock.toNat - s.tableStart.toNat) * blockSize)
    ⟨fun ⟨a, b, c, d, e, f, g, h, i, j⟩ => ⟨a, b, c, d, e, f, g, h, i, j⟩,
      fun ⟨a, b, c, d, e, f, g, h, i, j⟩ => ⟨a, b, c, d, e, f, g, h, i, j⟩⟩

/-- Where a new volume keeps its inode table: behind the superblock and the two bitmaps. -/
def firstTableBlock : Nat := 4

/-- The superblock of a new volume, checked or not.  A table that would reach past the largest number
of 32 bits ends there. -/
def ofGeometry (g : Geometry) : Superblock where
  magic := signature
  blockCount := g.blockCount
  inodeCount := g.inodeCount
  inodeBitmapBlock := 2
  blockBitmapBlock := 3
  tableStart := .ofNat firstTableBlock
  firstDataBlock := .ofNat (min (firstTableBlock + g.tableBlocks.toNat) (UInt32.size - 1))

/-- The block in which the record of an inode begins, and the byte of the block at which it does.  The
record may go on in the next block. -/
def inodePlace (s : Superblock) (index : Nat) : Except Error (Nat × Nat) :=
  if index < s.inodeCount.toNat then
    let byte := index * inodeRecordSize
    .ok ((s.tableStart + .ofNat (byte / blockSize)).toNat, byte % blockSize)
  else .error .notFound

/-- The superblock as a report, one line for each number. -/
def render (s : Superblock) : String :=
  String.ofList ("magic               0x".toList ++ Text.hex 8 s.magic.toNat ++ ['\n'])
    ++ s!"total blocks        {s.blockCount}\n"
    ++ s!"total inodes        {s.inodeCount}\n"
    ++ s!"inode bitmap        {s.inodeBitmapBlock}\n"
    ++ s!"block bitmap        {s.blockBitmapBlock}\n"
    ++ s!"inode table         {s.tableStart}\n"
    ++ s!"data                {s.firstDataBlock}"

end Superblock

/-- A superblock that has passed the checks. -/
structure Layout where
  superblock : Superblock
  valid : superblock.Valid

namespace Layout

/-- Checks a superblock read from a volume. -/
def check (s : Superblock) : Except Error Layout :=
  if h : s.Valid then .ok ⟨s, h⟩ else .error .corruptVolume

/-- The layout of a new volume. -/
def ofGeometry (g : Geometry) : Except Error Layout :=
  if h : (Superblock.ofGeometry g).Valid then .ok ⟨_, h⟩ else .error .invalidGeometry

/-- The number of blocks of the volume. -/
def blockCount (l : Layout) : Nat := l.superblock.blockCount.toNat

/-- The number of inodes of the volume. -/
def inodeCount (l : Layout) : Nat := l.superblock.inodeCount.toNat

/-- The first block that may hold the data of files and directories. -/
def firstDataBlock (l : Layout) : Nat := l.superblock.firstDataBlock.toNat

end Layout

/-- The block that holds a superblock, with zeros behind the record. -/
def Superblock.toBlock (s : Superblock) : Block := Block.zero.overlay 0 s.encode

/-- The superblock that a block holds. -/
def Superblock.ofBlock (b : Block) : Superblock := .decode (b.slice 0 recordSize)

theorem Superblock.ofBlock_toBlock (s : Superblock) : ofBlock s.toBlock = s := by
  rw [ofBlock, toBlock, Bytes.slice_overlay, decode_encode]

namespace Device

/-- Reads and checks the superblock of a volume. -/
def readLayout : DeviceM Layout := do
  match Layout.check (.ofBlock (← readBlock superblockBlock)) with
  | .ok layout => return layout
  | .error e => throw e

/-- Writes the superblock of a volume. -/
def writeLayout (l : Layout) : DeviceM Unit :=
  writeBlock superblockBlock l.superblock.toBlock

end Device

end BlockFS
