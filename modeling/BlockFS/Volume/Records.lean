import BlockFS.Volume

/-!
# Records of a volume

Blocks, bitmaps and inodes, read from and written to the places that the layout gives them.  A block
that lies outside the volume is refused before anything is transferred.
-/

namespace BlockFS

/-! ## Records on the device -/

namespace Layout

/-- Reads a block of the volume. -/
def readBlock (l : Layout) (index : Nat) : DeviceM Block :=
  if index < l.blockCount then Device.readBlock index else throw .corruptVolume

/-- Writes a block of the volume. -/
def writeBlock (l : Layout) (index : Nat) (b : Block) : DeviceM Unit :=
  if index < l.blockCount then Device.writeBlock index b else throw .corruptVolume

/-- Reads the record of an inode.  A record that reaches the end of its block goes on at the start of
the next one. -/
def readInode (l : Layout) (index : Nat) : DeviceM Inode := do
  let (block, byte) ← liftExcept (l.superblock.inodePlace index)
  let head := (← l.readBlock block).read byte inodeRecordSize
  if head.length < inodeRecordSize then
    let next ← l.readBlock (block + 1)
    return .decode (.ofList inodeRecordSize (head ++ next.read 0 (inodeRecordSize - head.length)))
  else return .decode (.ofList inodeRecordSize head)

/-- Writes the record of an inode into the block in which it begins and, if it does not end there, into
the next one. -/
def writeInode (l : Layout) (index : Nat) (r : Inode) : DeviceM Unit := do
  let (block, byte) ← liftExcept (l.superblock.inodePlace index)
  let record := r.encode.toList
  let first ← l.readBlock block
  l.writeBlock block (first.write byte record)
  let rest := record.drop (blockSize - byte)
  unless rest.isEmpty do
    let next ← l.readBlock (block + 1)
    l.writeBlock (block + 1) (next.write 0 rest)

end Layout

/-- The two kinds of items that a bitmap tells of. -/
inductive Resource where
  | inode
  | block
  deriving DecidableEq, Repr

namespace Resource

/-- What the items are called in a report. -/
def label : Resource → String
  | .inode => "inodes"
  | .block => "blocks"

/-- The block that holds the bitmap. -/
def bitmapBlock (l : Layout) : Resource → Nat
  | .inode => l.superblock.inodeBitmapBlock.toNat
  | .block => l.superblock.blockBitmapBlock.toNat

/-- The number of items. -/
def count (l : Layout) : Resource → Nat
  | .inode => l.inodeCount
  | .block => l.blockCount

end Resource

namespace Layout

/-- Reads a bitmap. -/
def readBitmap (l : Layout) (r : Resource) : DeviceM Bitmap := do
  return ⟨← l.readBlock (r.bitmapBlock l), r.count l⟩

/-- Writes a bitmap. -/
def writeBitmap (l : Layout) (r : Resource) (b : Bitmap) : DeviceM Unit :=
  l.writeBlock (r.bitmapBlock l) b.bits

end Layout

/-! ## Records of a mounted volume -/

namespace Volume

/-- Reads a bitmap. -/
def readBitmap (r : Resource) : VolumeM Bitmap := do
  onDevice ((← getLayout).readBitmap r)

/-- Reads a block. -/
def readBlock (index : Nat) : VolumeM Block := do
  onDevice ((← getLayout).readBlock index)

/-- Writes a block. -/
def writeBlock (index : Nat) (b : Block) : VolumeM Unit := do
  onDevice ((← getLayout).writeBlock index b)

/-- Reads the record of an inode; one that is not allocated is not found. -/
def readInode (index : Nat) : VolumeM Inode := do
  if (← readBitmap .inode).get index then
    onDevice ((← getLayout).readInode index)
  else throw .notFound

/-- Writes the record of an inode, allocated or not. -/
def writeInode (index : Nat) (r : Inode) : VolumeM Unit := do
  onDevice ((← getLayout).writeInode index r)

/-- The size of a file or directory. -/
def fileSize (index : Nat) : VolumeM Nat := do
  return (← readInode index).size.toNat

end Volume

end BlockFS
