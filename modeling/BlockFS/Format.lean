import BlockFS.Tree

/-!
# Making a volume

A new volume is zeros, a superblock, two bitmaps that mark the blocks before the data and the inode
zero as used, and a root directory.  Files can be packed into the root.
-/

namespace BlockFS

/-- Writes zeros over blocks `first`, `first + 1`, … -/
def Device.clearBlocks (first count : Nat) : DeviceM Unit :=
  (List.range' first count).forM fun index => writeBlock index .zero

namespace Layout

/-- The inode bitmap of a new volume: the inode zero stands for none and is never free. -/
def firstInodes (l : Layout) : Except Error Bitmap :=
  (Bitmap.allFree l.inodeCount).set 0 true

/-- The block bitmap of a new volume: the blocks before the data are in use. -/
def firstBlocks (l : Layout) : Except Error Bitmap :=
  (List.range l.firstDataBlock).foldlM (fun b index => b.set index true) (.allFree l.blockCount)

/-- Writes everything that a new volume holds except its root directory. -/
def writeEmpty (l : Layout) : DeviceM Unit := do
  Device.clearBlocks 0 l.blockCount
  Device.writeLayout l
  l.writeBitmap .inode (← liftExcept l.firstInodes)
  l.writeBitmap .block (← liftExcept l.firstBlocks)

end Layout

namespace Volume

/-- Makes an empty volume on the device and mounts it. -/
def format (g : Geometry) : VolumeM Unit := do
  let layout ← liftExcept (Layout.ofGeometry g)
  onDevice layout.writeEmpty
  mount
  let root ← Directory.make rootInode
  unless root.index = rootInode do throw .corruptVolume

/-- Copies one file into the root directory, unless its stored name is taken there.  Tells whether it
was copied; what does not fit into a file is left out. -/
def pack (name : String) (contents : List UInt8) : VolumeM Bool := do
  let taken ← tryCatch (some <$> find rootInode name) fun e =>
    match e with
    | .notFound => return none
    | e => throw e
  match taken with
  | some _ => return false
  | none =>
    let index ← makeFile rootInode name
    let _ ← writeAt index 0 contents
    return true

/-- Copies files into the root directory in the order given and tells how many were copied. -/
def packAll : List (String × List UInt8) → VolumeM Nat
  | [] => return 0
  | (name, contents) :: files => do
    let packed ← pack name contents
    return (← packAll files) + (if packed then 1 else 0)

end Volume

end BlockFS
