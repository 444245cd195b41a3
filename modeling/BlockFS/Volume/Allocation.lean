import BlockFS.Volume.Records

/-!
# Allocation

Inodes and blocks are handed out by their bitmaps, the lowest free number first and never number
zero, which stands for none.
-/

namespace BlockFS.Volume

/-- Does `x`; if it fails, does `undo` and fails for the same cause, or for that of `undo`. -/
def orUndo {α : Type} (x : VolumeM α) (undo : VolumeM Unit) : VolumeM α :=
  tryCatch x fun e => do
    undo
    throw e

/-- Hands out the lowest free item. -/
def allocate (r : Resource) : VolumeM Nat := do
  let layout ← getLayout
  let bitmap ← onDevice (layout.readBitmap r)
  match bitmap.firstFree 1 with
  | none => throw .noSpace
  | some index =>
    let taken ← liftExcept (bitmap.set index true)
    onDevice (layout.writeBitmap r taken)
    return index

/-- Takes an item back; one that is free already stays free. -/
def deallocate (r : Resource) (index : Nat) : VolumeM Unit := do
  let layout ← getLayout
  let bitmap ← onDevice (layout.readBitmap r)
  let freed ← liftExcept (bitmap.set index false)
  onDevice (layout.writeBitmap r freed)

/-- Hands out the lowest free block, filled with zeros. -/
def allocateBlock : VolumeM Nat := do
  let index ← allocate .block
  orUndo (writeBlock index .zero) (deallocate .block index)
  return index

/-- Takes back the blocks that an inode points to, then the inode. -/
def discardInode (index : Nat) (r : Inode) : VolumeM Unit := do
  r.blocks.forM (deallocate .block)
  deallocate .inode index

end BlockFS.Volume
