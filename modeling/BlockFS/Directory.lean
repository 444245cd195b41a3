import BlockFS.Entry
import BlockFS.View

/-!
# Directories

A directory is an inode with one block, its table of entries.  Its first two slots link the directory
itself and its parent.
-/

namespace BlockFS

open Volume ViewM

/-- A directory, as its inode and its block were read. -/
structure Directory where
  index : Nat
  record : Inode
  block : Nat
  table : EntryTable

namespace Directory

/-- The table of a new directory: `.` and `..`. -/
def firstTable (index parent : Nat) : Except Error EntryTable := do
  let self ← Entry.new index "."
  let up ← Entry.new parent ".."
  return (EntryTable.empty.set 0 self).set 1 up

/-- Makes a directory without children that no directory links yet. -/
def make (parent : Nat) : VolumeM Directory := do
  let index ← allocate .inode
  let block ← orUndo allocateBlock (deallocate .inode index)
  let record := { Inode.new .directory (← get).clock with size := .ofNat blockSize }
  let record := record.setPointer 0 block
  let write : VolumeM EntryTable := do
    let table ← liftExcept (firstTable index parent)
    writeBlock block table.toBlock
    writeInode index record
    return table
  let table ← orUndo write do
    deallocate .block block
    deallocate .inode index
  return ⟨index, record, block, table⟩

/-- Reads a directory. -/
def ofInode (index : Nat) : VolumeM Directory := do
  let record ← readInode index
  unless record.kind = .directory do throw .notADirectory
  match record.block? 0 with
  | none => throw .corruptVolume
  | some block => return ⟨index, record, block, .ofBlock (← readBlock block)⟩

/-- The inode that is linked under a name. -/
def find? (d : Directory) (name : String) : Option Nat := d.table.find? name

/-- Puts another table into the view, then writes it. -/
def replaceTable (table : EntryTable) : ViewM Directory Unit := do
  change fun d => { d with table := table }
  onVolume (writeBlock (← current).block table.toBlock)

/-- Links an inode under a name in the first free slot. -/
def link (name : String) (target : Nat) : ViewM Directory Unit := do
  replaceTable (← liftExcept ((← current).table.link name target))

/-- Frees the slot of a name and tells which inode it linked. -/
def unlink (name : String) : ViewM Directory Nat := do
  let (target, table) ← liftExcept ((← current).table.unlink name)
  replaceTable table
  return target

/-- Puts another name into the slot of a name. -/
def relabel (old new : String) : ViewM Directory Unit := do
  replaceTable (← liftExcept ((← current).table.relabel old new))

/-- Whether nothing but `.` and `..` is linked. -/
def holdsNothing (d : Directory) : Bool := d.table.holdsNothing

/-- Takes back the directory's block and its inode. -/
def discard (d : Directory) : VolumeM Unit := discardInode d.index d.record

end Directory

end BlockFS
