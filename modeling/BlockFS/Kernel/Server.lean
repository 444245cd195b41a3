import BlockFS.Kernel.Request
import BlockFS.Tree

/-!
# Answering requests

A server answers the requests of a host's kernel from a volume.  Inodes have the same numbers on both
sides, and every inode belongs to the user who asked for the volume.
-/

namespace BlockFS.Kernel

/-- A volume that is shown to a host, and the user and group to whom it belongs. -/
structure Server where
  volume : Volume
  owner : Nat
  group : Nat

/-- A server on a volume, before the host has told who asks for it. -/
def Server.new (volume : Volume) : Server := ⟨volume, 0, 0⟩

/-- An action of a server that may be refused with a number of the host's error table. -/
abbrev ServerM := EStateM Int Server

/-- Acts on the volume; a failure is reported by its number. -/
def onVolume {α : Type} (x : VolumeM α) : ServerM α
  | ⟨volume, owner, group⟩ =>
    match x volume with
    | .ok a volume => .ok a ⟨volume, owner, group⟩
    | .error e volume => .error e.errno ⟨volume, owner, group⟩

/-- A name in a request as text; it must be UTF-8. -/
def entryName (raw : List UInt8) : ServerM String :=
  match String.fromUTF8? ⟨raw.toArray⟩ with
  | some name => return name
  | none => throw Error.invalidName.errno

/-- An inode number in a request; none is larger than 32 bits. -/
def inodeIndex (inode : Nat) : ServerM Nat :=
  if inode < UInt32.size then return inode else throw Error.notFound.errno

/-- A byte offset in a request; none is negative or larger than 32 bits. -/
def byteOffset : Int → ServerM Nat
  | .ofNat offset => if offset < UInt32.size then return offset else throw Error.invalidSeek.errno
  | _ => throw Error.invalidSeek.errno

/-- The attributes of an inode whose record was read. -/
def attributesOf (index : Nat) (record : Inode) : ServerM Attributes := do
  let server ← get
  return record.attributes index server.owner server.group

/-- Reads the attributes of an inode. -/
def readAttributes (inode : Nat) : ServerM Attributes := do
  let index ← inodeIndex inode
  attributesOf index (← onVolume (Volume.readInode index))

/-- Does `x` for the directory and the name of a request, and reads the inode that it leads to. -/
def named (parent : Nat) (raw : List UInt8) (x : Nat → String → VolumeM Nat) :
    ServerM (Nat × Inode) := do
  let name ← entryName raw
  let index ← onVolume (x (← inodeIndex parent) name)
  return (index, ← onVolume (Volume.readInode index))

/-- As `named`, with the attributes of the inode. -/
def namedAttributes (parent : Nat) (raw : List UInt8) (x : Nat → String → VolumeM Nat) :
    ServerM Attributes := do
  let (index, record) ← named parent raw x
  attributesOf index record

/-- Takes the volume into use for a user.  It must have a root directory. -/
def takeIntoUse (owner group : Nat) : ServerM Unit := do
  modify fun s => { s with owner := owner, group := group }
  unless (← get).volume.isMounted do onVolume Volume.mount
  let root ← onVolume (Volume.readInode rootInode)
  unless root.kind = .directory do throw Error.corruptVolume.errno

/-- All entries of a directory: itself, its parent, and its children. -/
def allEntries (index : Nat) : VolumeM (List ListedEntry) := do
  let parent ← Volume.find index ".."
  let d ← Directory.ofInode index
  let children ← d.table.children.mapM Entry.child
  let listed : List (Nat × Bool × String) :=
    (index, true, ".") :: (parent, true, "..")
      :: children.map fun c => (c.inode, c.directory, c.name)
  return listed.zipIdx.map fun ((inode, directory, name), place) =>
    ⟨inode, place + 1, directory, name⟩

/-- Removes a name that links an inode of the expected kind. -/
def removeKind (parent : Nat) (raw : List UInt8) (expected : Kind) : ServerM Unit := do
  let name ← entryName raw
  let parent ← inodeIndex parent
  let target ← onVolume (Volume.find parent name)
  let kind := (← onVolume (Volume.readInode target)).kind
  if kind = expected then onVolume (Volume.unlink parent name)
  else if kind = .directory then throw Errno.isADirectory
  else throw Errno.notADirectory

/-- Answers a request. -/
def answer : Request → ServerM Reply
  | .init owner group => do
    takeIntoUse owner group
    return .done
  | .destroy => do
    onVolume Volume.unmount
    return .done
  | .lookup parent name => .entry <$> namedAttributes parent name Volume.find
  | .getAttributes inode => .attributes <$> readAttributes inode
  | .setAttributes inode => .attributes <$> readAttributes inode
  | .makeNode parent name mode =>
    if mode &&& typeMask = regularType then
      .entry <$> namedAttributes parent name Volume.makeFile
    else throw Errno.notPermitted
  | .makeDirectory parent name => .entry <$> namedAttributes parent name Volume.makeDirectory
  | .create parent name => do
    let (index, record) ← named parent name Volume.makeFile
    unless record.kind = .file do throw Errno.isADirectory
    return .created (← attributesOf index record)
  | .openFile inode => do
    let record ← onVolume (Volume.readInode (← inodeIndex inode))
    unless record.kind = .file do throw Errno.isADirectory
    return .opened
  | .readDirectory inode offset buffer => do
    let entries ← onVolume (allEntries (← inodeIndex inode))
    return .directory (buffer.addAll [] (behind offset entries))
  | .read inode offset size => do
    let index ← inodeIndex inode
    return .data (← onVolume (Volume.readAt index (← byteOffset offset) size))
  | .write inode offset data => do
    let index ← inodeIndex inode
    let count ← onVolume (Volume.writeAt index (← byteOffset offset) data)
    if count = 0 ∧ !data.isEmpty then throw Errno.fileTooBig
    return .written count
  | .unlink parent name => do
    removeKind parent name .file
    return .done
  | .removeDirectory parent name => do
    removeKind parent name .directory
    return .done
  | .rename parent name newParent newName => do
    unless parent = newParent do throw Errno.crossDevice
    let name ← entryName name
    let parent ← inodeIndex parent
    onVolume (Volume.relabel parent name (← entryName newName))
    return .done
  | .statistics => do
    let blocks ← onVolume (Volume.readBitmap .block)
    let inodes ← onVolume (Volume.readBitmap .inode)
    return .statistics ⟨blocks.count, blocks.freeCount, inodes.count, inodes.freeCount⟩

end BlockFS.Kernel
