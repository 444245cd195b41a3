import BlockFS.CommandLine.Command
import BlockFS.Format
import BlockFS.Host.Tree

/-!
# Images on a host

An image is a file of the host that holds a volume.  What is done to images is written over the few
operations that the host offers, so that it can be run on a host and on a tree of files alike.
-/

namespace BlockFS.Host

/-- Why work on an image ends. -/
inductive Failure where
  | io (cause : IoError)
  | volume (error : Error)
  deriving DecidableEq, Repr

/-- A node of a folder: its name in bytes, and whether it is a regular file. -/
structure Listed where
  name : Component
  regular : Bool
  deriving DecidableEq, Repr

/-- What work on images asks of a host. -/
structure Operations (m : Type → Type) where
  /-- Makes a file, or empties it. -/
  create : String → m Unit
  /-- Fills an empty file with zeros up to a length. -/
  resize : String → Nat → m Unit
  /-- Replaces the contents of a file. -/
  store : String → Disk → m Unit
  /-- The contents of a file that can be changed. -/
  load : String → m Disk
  /-- What a folder holds, in the order in which the host tells it. -/
  list : String → m (List Listed)
  /-- The bytes of the file that a folder holds under a name. -/
  readIn : String → Component → m (List UInt8)
  /-- The seconds since the epoch. -/
  now : m Int

/-- The name under which a node of a folder is packed.  Links, folders and names that start with a dot
are left out. -/
def Listed.packedName (l : Listed) : Option String :=
  let name := Text.decodeLossy l.name
  if !l.regular || name.toList.head? = some '.' then none else some name

/-- Files in the order of their names. -/
def sortByName (files : List (String × List UInt8)) : List (String × List UInt8) :=
  files.mergeSort fun a b => a.1 ≤ b.1

section

variable {m : Type → Type} [Monad m] [MonadExcept Failure m]

/-- Acts on a volume, and stores its disk as the image whether that fails or not. -/
def storing {α : Type} (host : Operations m) (image : String) (volume : Volume)
    (x : VolumeM α) : m (α × Volume) := do
  match x volume with
  | .ok a volume =>
    host.store image volume.device.disk
    return (a, volume)
  | .error e volume =>
    host.store image volume.device.disk
    throw (.volume e)

/-- The files of a host folder that are packed, sorted by name. -/
def filesToPack (host : Operations m) (folder : String) : m (List (String × List UInt8)) := do
  let named := (← host.list folder).filterMap fun l => l.packedName.map fun name => (name, l.name)
  return sortByName (← named.mapM fun (name, raw) => return (name, ← host.readIn folder raw))

/-- Makes an image, with the files of a host folder in it, and tells so.  A geometry that cannot be laid
out leaves an image of zeros. -/
def makeImage (host : Operations m) (image : String) (source : Option String)
    (geometry : Geometry) : m String := do
  let size := geometry.blockCount.toNat * blockSize
  host.create image
  host.resize image size
  if let .error e := Layout.ofGeometry geometry then throw (.volume e)
  let volume := Volume.unmounted (.reliable (.zeros size)) (← host.now)
  let ((), volume) ← storing host image volume (Volume.format geometry)
  if let some folder := source then
    let _ ← storing host image volume (Volume.packAll (← filesToPack host folder))
  return s!"Wrote {image} ({geometry.blockCount} blocks, {geometry.inodeCount} inodes)\n"

/-- The mounted volume that an image holds. -/
def openImage (host : Operations m) (image : String) : m Volume := do
  let disk ← host.load image
  match Volume.openOn (.reliable disk) (← host.now) with
  | .ok () volume => return volume
  | .error e _ => throw (.volume e)

/-- Carries out a command and tells what it prints. -/
def carryOut (host : Operations m) : CommandLine.Command → m String
  | .makeImage image source geometry => makeImage host image source geometry
  | .mount image _ => do
    let _ ← openImage host image
    return ""

end

/-! ## A tree of files as the host -/

/-- Acts on the tree. -/
def onTree {α : Type} (x : TreeM α) : EStateM Failure Tree α := fun t =>
  match x t with
  | .ok a t => .ok a t
  | .error cause t => .error (.io cause) t

/-- A node of a folder as the host lists it. -/
def Node.listed : Component × Node → Listed
  | (name, .file _) => ⟨name, true⟩
  | (name, _) => ⟨name, false⟩

/-- The operations of a tree of files at a given time. -/
def treeOperations (seconds : Int) : Operations (EStateM Failure Tree) where
  create path := onTree (Tree.write path.toUTF8.toList (.zeros 0))
  resize path size := onTree (Tree.write path.toUTF8.toList (.zeros size))
  store path disk := onTree (Tree.write path.toUTF8.toList (.written disk))
  load path := Contents.disk <$> onTree (Tree.looking fun t => t.contents path.toUTF8.toList)
  list path := List.map Node.listed <$> onTree (Tree.looking fun t => t.children path.toUTF8.toList)
  readIn folder name := Contents.bytes <$>
    onTree (Tree.looking fun t => t.contents (Path.join folder.toUTF8.toList name))
  now := return seconds

end BlockFS.Host
