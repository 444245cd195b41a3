import BlockFS.Tree

/-!
# Sessions

A session is a volume with a table of sixteen open files.  A handle is a place in the table; the file
in it is known by its inode and has a cursor of its own.
-/

namespace BlockFS

/-- The number of files that can be open. -/
abbrev handleCount : Nat := 16

/-- An open file. -/
structure OpenFile where
  inode : Nat
  cursor : Nat
  append : Bool
  deriving DecidableEq, Repr

/-- The bits of a request to open a file. -/
structure OpenFlags where
  bits : UInt32

/-- Whether every write goes to the end of the file. -/
def OpenFlags.append (flags : OpenFlags) : Bool := flags.bits &&& 0x08 != 0

/-- Whether a file that is missing is made. -/
def OpenFlags.create (flags : OpenFlags) : Bool := flags.bits &&& 0x40 != 0

/-- The place from which a cursor is moved. -/
inductive Whence where
  | set
  | current
  | finish
  deriving DecidableEq, Repr

/-- The place that a number stands for. -/
def Whence.ofNumber : Int → Except Error Whence
  | 0 => .ok .set
  | 1 => .ok .current
  | 2 => .ok .finish
  | _ => .error .invalidSeek

/-- A volume and the files that are open on it. -/
structure Session where
  volume : Volume
  files : Vector (Option OpenFile) handleCount

/-- An action on a session that may fail; what it did before it failed stays done. -/
abbrev SessionM := EStateM Error Session

namespace Session

/-- The table in which no file is open. -/
def noFiles : Vector (Option OpenFile) handleCount := Vector.replicate handleCount none

/-- A session on a volume, with no file open. -/
def new (volume : Volume) : Session := ⟨volume, noFiles⟩

/-- Acts on the volume alone. -/
def onVolume {α : Type} (x : VolumeM α) : SessionM α
  | ⟨volume, files⟩ =>
    match x volume with
    | .ok a volume => .ok a ⟨volume, files⟩
    | .error e volume => .error e ⟨volume, files⟩

/-- Puts a file, or none, under a handle. -/
def setFile (handle : Nat) (file : Option OpenFile) : SessionM Unit :=
  modify fun s => { s with files := s.files.setIfInBounds handle file }

/-- The file under a handle. -/
def openFile (handle : Nat) : SessionM OpenFile := do
  match (← get).files[handle]? with
  | some (some file) => return file
  | _ => throw .invalidHandle

/-- Mounts the volume anew; every file is closed. -/
def mount : SessionM Unit := do
  modify fun s => { s with files := noFiles }
  onVolume Volume.mount

/-- The inode of a path to open, made if it is missing and the flags ask for that. -/
def inodeToOpen (path : String) (flags : OpenFlags) : VolumeM Nat :=
  tryCatch (Volume.locate path) fun e =>
    match e, flags.create with
    | .notFound, true => Volume.makeFileAt path
    | e, _ => throw e

/-- Opens a file under the lowest handle that is not in use. -/
def openPath (path : String) (flags : OpenFlags) : SessionM Nat := do
  match (← get).files.findFinIdx? Option.isNone with
  | none => throw .tooManyOpenFiles
  | some handle =>
    let inode ← onVolume (inodeToOpen path flags)
    let _ ← onVolume (File.ofInode inode)
    setFile handle (some ⟨inode, 0, flags.append⟩)
    return handle

/-- Reads at the cursor and moves it behind what was read. -/
def read (handle length : Nat) : SessionM (List UInt8) := do
  let file ← openFile handle
  let data ← onVolume (Volume.readAt file.inode file.cursor length)
  setFile handle (some { file with cursor := file.cursor + data.length })
  return data

/-- Writes at the cursor, or at the end of a file opened to append to, and moves the cursor behind what
was written. -/
def write (handle : Nat) (data : List UInt8) : SessionM Nat := do
  let file ← openFile handle
  let start ← if file.append then onVolume (Volume.fileSize file.inode) else pure file.cursor
  let written ← onVolume (Volume.writeAt file.inode start data)
  setFile handle (some { file with cursor := start + written })
  return written

/-- The number of bytes from the start of a file to a place. -/
def base (file : OpenFile) : Whence → VolumeM Nat
  | .set => return 0
  | .current => return file.cursor
  | .finish => Volume.fileSize file.inode

/-- Moves the cursor relative to a place.  A cursor is a number of 32 bits. -/
def seek (handle : Nat) (distance : Int) (whence : Whence) : SessionM Nat := do
  let file ← openFile handle
  match (← onVolume (base file whence)) + distance with
  | .ofNat position =>
    unless position < UInt32.size do throw .invalidSeek
    setFile handle (some { file with cursor := position })
    return position
  | _ => throw .invalidSeek

/-- Closes a file. -/
def close (handle : Nat) : SessionM Unit := do
  let _ ← openFile handle
  setFile handle none

end Session

end BlockFS
