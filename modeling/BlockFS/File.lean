import BlockFS.Position
import BlockFS.View

/-!
# Regular files

A file's bytes lie in the blocks that its inode points to, a block of the file in each slot.  A slot
that was never written is a hole.  Reading stops at a hole, and writing gives it a block of zeros.
-/

namespace BlockFS

open Volume ViewM

/-- A regular file, as its inode was read. -/
structure File where
  index : Nat
  record : Inode

namespace File

/-- The number of bytes from the start of the file to its end. -/
def size (f : File) : Nat := f.record.size.toNat

/-- Makes an empty file that no directory links yet. -/
def make : VolumeM File := do
  let index ← allocate .inode
  let record := Inode.new .file (← get).clock
  orUndo (writeInode index record) (deallocate .inode index)
  return ⟨index, record⟩

/-- Reads the inode of a file. -/
def ofInode (index : Nat) : VolumeM File := do
  let record ← readInode index
  match record.kind with
  | .file => return ⟨index, record⟩
  | .directory => throw .notAFile
  | .free => throw .notFound

/-- Reads spans of a file up to the first hole. -/
def readSpans (r : Inode) : List Span → VolumeM (List UInt8)
  | [] => return []
  | span :: spans =>
    match r.block? span.slot with
    | none => return []
    | some block => do
      let here := (← readBlock block).read span.start span.length
      return here ++ (← readSpans r spans)

/-- Reads up to `length` bytes from byte `offset` on.  It stops at the end of the file, at a hole, and
behind the last slot. -/
def read (f : File) (offset length : Nat) : VolumeM (List UInt8) :=
  if offset < f.size then
    readSpans f.record
      (Span.cover pointerCount (.ofNat offset) (min length (f.size - offset)))
  else return []

/-- Hands out a block, or none if the volume is full and something was written already. -/
def allocateMore (progress : Bool) : VolumeM (Option Nat) :=
  tryCatch (some <$> allocateBlock) fun e =>
    match e, progress with
    | .noSpace, true => return none
    | e, _ => throw e

/-- The block to write a slot into, with its contents.  A hole gets a block of zeros, to which the
inode points before anything is written into it. -/
def blockFor (slot : Nat) (progress : Bool) : ViewM File (Option (Nat × Block)) := do
  match (← current).record.block? slot with
  | some block => return some (block, ← onVolume (readBlock block))
  | none =>
    match ← onVolume (allocateMore progress) with
    | none => return none
    | some block =>
      change fun f => { f with record := f.record.setPointer slot block }
      let f ← current
      onVolume (writeInode f.index f.record)
      return some (block, .zero)

/-- Writes data into spans of a file and tells how many bytes were written, with `done` of them
before. -/
def writeSpans : List Span → List UInt8 → Nat → ViewM File Nat
  | [], _, done => return done
  | span :: spans, data, done => do
    match ← blockFor span.slot (0 < done) with
    | none => return done
    | some (block, contents) =>
      onVolume (writeBlock block (contents.write span.start (data.take span.length)))
      writeSpans spans (data.drop span.length) (done + span.length)

/-- Writes data from byte `offset` on and tells how many bytes were written.  They are fewer than given
where the last slot ends, or where the volume is full after something was written. -/
def write (offset : Nat) (data : List UInt8) : ViewM File Nat := do
  let done ← writeSpans (Span.cover pointerCount (.ofNat offset) data.length) data 0
  if 0 < done then
    let clock := (← get).volume.clock
    change fun f =>
      { f with record := { f.record with
          size := .ofNat (max f.size (offset + done)), mtime := timestamp clock } }
    let f ← current
    onVolume (writeInode f.index f.record)
  return done

/-- Takes back the file's blocks and its inode. -/
def discard (f : File) : VolumeM Unit := discardInode f.index f.record

end File

end BlockFS
