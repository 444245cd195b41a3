import BlockFS.Inode

/-!
# Requests of a host's kernel

A host that shows a volume among its own directories passes the calls of its programs on as requests,
in the way of FUSE.  A request names inodes by numbers of 64 bits and entries by bytes; it is answered
by a reply or by a number of the host's error table.
-/

namespace BlockFS.Kernel

/-- An entry of a directory as a reply holds it.  `offset` is where a later request goes on behind
it. -/
structure ListedEntry where
  inode : Nat
  offset : Nat
  directory : Bool
  name : String
  deriving DecidableEq, Repr

/-- The buffer of a reply, to which the entries of a directory are added one after another.  It tells of
an entry whether there is no room for it behind those that were added. -/
structure ReplyBuffer where
  isFull : List ListedEntry → ListedEntry → Bool

/-- Adds entries behind those that a buffer holds.  The first that has no room is left out, and so is
all that follows. -/
def ReplyBuffer.addAll (b : ReplyBuffer) : List ListedEntry → List ListedEntry → List ListedEntry
  | held, [] => held
  | held, e :: entries => if b.isFull held e then held else b.addAll (held ++ [e]) entries

/-- A request.  `parent` is the inode of the directory that a name is looked up in. -/
inductive Request where
  | init (owner group : Nat)
  | destroy
  | lookup (parent : Nat) (name : List UInt8)
  | getAttributes (inode : Nat)
  | setAttributes (inode : Nat)
  | makeNode (parent : Nat) (name : List UInt8) (mode : Nat)
  | makeDirectory (parent : Nat) (name : List UInt8)
  | create (parent : Nat) (name : List UInt8)
  | openFile (inode : Nat)
  | readDirectory (inode : Nat) (offset : Int) (buffer : ReplyBuffer)
  | read (inode : Nat) (offset : Int) (size : Nat)
  | write (inode : Nat) (offset : Int) (data : List UInt8)
  | unlink (parent : Nat) (name : List UInt8)
  | removeDirectory (parent : Nat) (name : List UInt8)
  | rename (parent : Nat) (name : List UInt8) (newParent : Nat) (newName : List UInt8)
  | statistics

/-- How full a volume is. -/
structure Statistics where
  blocks : Nat
  freeBlocks : Nat
  inodes : Nat
  freeInodes : Nat
  deriving DecidableEq, Repr

/-- What a request is answered with. -/
inductive Reply where
  | done
  | entry (attributes : Attributes)
  | created (attributes : Attributes)
  | attributes (attributes : Attributes)
  | opened
  | data (bytes : List UInt8)
  | written (count : Nat)
  | directory (entries : List ListedEntry)
  | statistics (statistics : Statistics)
  deriving DecidableEq, Repr

/-- The bits of a mode that tell the type of a node. -/
def typeMask : Nat := 0o170000

/-- The type of a regular file. -/
def regularType : Nat := 0o100000

/-- The type of a directory. -/
def directoryType : Nat := 0o040000

/-- The permissions of an inode together with its type. -/
def mode (a : Attributes) : Nat :=
  (if a.directory then directoryType else regularType) + a.permissions

/-- For how many seconds a host may keep what a reply tells. -/
def timeToLive : Nat := 1

/-- The handle that is given for every open file; a file is known by its inode alone. -/
def fileHandle : Nat := 0

/-- The flag by which a host is asked to pass on every read and write. -/
def directIo : Nat := 1

/-- The number of bytes that an entry takes in a reply: a head and the name, filled up to a multiple of
eight. -/
def ListedEntry.space (e : ListedEntry) : Nat := (24 + e.name.utf8ByteSize + 7) / 8 * 8

/-- A buffer of so many bytes. -/
def ReplyBuffer.ofSize (size : Nat) : ReplyBuffer where
  isFull held e := size < held.foldl (fun taken h => taken + h.space) e.space

instance : Coe Nat ReplyBuffer where
  coe := .ofSize

/-- The entries behind an offset.  None are behind a negative one. -/
def behind : Int → List ListedEntry → List ListedEntry
  | .ofNat offset, entries => entries.drop offset
  | _, _ => []

end BlockFS.Kernel
