import BlockFS.Directory.Listing
import BlockFS.File

/-!
# The tree of names

Files and directories are made, found, renamed and removed by the name that a directory links them
under.  A path has one component: it is looked up in the current directory, or in the root if it
starts with a slash.
-/

namespace BlockFS.Volume

open ViewM (through)

/-- The directory in which a path is looked up, and the name to look up in it. -/
def splitPath (path : String) : VolumeM (Nat × String) := do
  let _ ← getLayout
  match path.toList with
  | '/' :: name => return (rootInode, String.ofList name)
  | _ => return ((← get).cwd, path)

/-- The inode that a directory links under a name.  What is no directory links nothing. -/
def find (parent : Nat) (name : String) : VolumeM Nat := do
  let d ← tryCatch (Directory.ofInode parent) fun e =>
    match e with
    | .notADirectory => throw .notFound
    | e => throw e
  match d.find? name with
  | some index => return index
  | none => throw .notFound

/-- The inode of a path; the empty name is the directory itself. -/
def locate (path : String) : VolumeM Nat := do
  let (parent, name) ← splitPath path
  if name.isEmpty then return parent else find parent name

/-- Makes an empty file, unless the name is linked already; then it is that inode. -/
def makeFile (parent : Nat) (name : String) : VolumeM Nat := do
  let _ ← liftExcept (StoredName.encode name)
  let d ← Directory.ofInode parent
  match d.find? name with
  | some index => return index
  | none =>
    let f ← File.make
    orUndo (through d (Directory.link name f.index)) f.discard
    return f.index

/-- Makes an empty file under a path, unless the path is linked already. -/
def makeFileAt (path : String) : VolumeM Nat := do
  let (parent, name) ← splitPath path
  makeFile parent name

/-- Makes a directory without children. -/
def makeDirectory (parent : Nat) (name : String) : VolumeM Nat := do
  let _ ← liftExcept (StoredName.encode name)
  let d ← Directory.ofInode parent
  if (d.find? name).isSome then throw .alreadyExists
  let child ← Directory.make parent
  orUndo (through d (Directory.link name child.index)) child.discard
  return child.index

/-- Makes a directory without children under a path. -/
def makeDirectoryAt (path : String) : VolumeM Nat := do
  let (parent, name) ← splitPath path
  makeDirectory parent name

/-- Reads up to `length` bytes of a file from byte `offset` on. -/
def readAt (index offset length : Nat) : VolumeM (List UInt8) := do
  let f ← File.ofInode index
  f.read offset length

/-- Writes data into a file from byte `offset` on and tells how many bytes were written. -/
def writeAt (index offset : Nat) (data : List UInt8) : VolumeM Nat := do
  let f ← File.ofInode index
  through f (File.write offset data)

/-- Takes back what an inode owns and the inode itself, if it is a file or a directory without
children.  The root becomes the current directory if the one that was it goes. -/
def discard (target : Nat) : VolumeM Unit := do
  match (← readInode target).kind with
  | .directory =>
    let child ← Directory.ofInode target
    unless child.holdsNothing do throw .directoryNotEmpty
    child.discard
    if (← get).cwd = target then setCwd rootInode
  | .file =>
    let f ← File.ofInode target
    f.discard
  | .free => throw .corruptVolume

/-- Takes back what a name links, then unlinks the name. -/
def unlink (parent : Nat) (name : String) : VolumeM Unit := do
  if isSelfOrParent name then throw .invalidName
  let d ← Directory.ofInode parent
  match d.find? name with
  | none => throw .notFound
  | some target =>
    discard target
    let _ ← through d (Directory.unlink name)

/-- Removes a name of the current directory. -/
def unlinkHere (name : String) : VolumeM Unit := do
  let _ ← getLayout
  unlink (← get).cwd name

/-- Puts another name in the place of a name.  A name that is stored like the old one changes
nothing. -/
def relabel (parent : Nat) (old new : String) : VolumeM Unit := do
  if isSelfOrParent old || isSelfOrParent new then throw .invalidName
  let storedOld ← liftExcept (StoredName.encode old)
  let storedNew ← liftExcept (StoredName.encode new)
  let d ← Directory.ofInode parent
  if (d.find? old).isNone then throw .notFound
  if storedOld = storedNew then return
  if (d.find? new).isSome then throw .alreadyExists
  through d (Directory.relabel old new)

/-- Renames a name of the current directory. -/
def relabelHere (old new : String) : VolumeM Unit := do
  let _ ← getLayout
  relabel (← get).cwd old new

/-- A walk over the children of a directory. -/
def walk (index : Nat) : VolumeM Listing :=
  Listing.ofDirectory <$> Directory.ofInode index

/-- Makes a directory the current one. -/
def enter (path : String) : VolumeM Nat := do
  let index ← locate path
  unless (← readInode index).kind = .directory do throw .notADirectory
  setCwd index
  return index

/-- Makes the root the current directory. -/
def enterRoot : VolumeM Unit := do
  let _ ← getLayout
  setCwd rootInode

end BlockFS.Volume
