import BlockFS.Disk
import BlockFS.Host.Path

/-!
# The files of a host

The host keeps files, folders and links in a tree.  A path is followed component by component; a link
in it is replaced by the path that it holds.  The root is its own parent.
-/

namespace BlockFS.Host

/-- What a file holds: what was written, or only zeros of which none was. -/
inductive Contents where
  | written (disk : Disk)
  | zeros (size : Nat)

namespace Contents

/-- The number of bytes. -/
def size : Contents → Nat
  | .written disk => disk.size
  | .zeros size => size

/-- The bytes as a disk. -/
def disk : Contents → Disk
  | .written disk => disk
  | .zeros size => .zeros size

/-- The contents that are the given bytes. -/
def ofBytes (data : List UInt8) : Contents := .written (.ofBytes data)

/-- The bytes, from the first to the last. -/
def bytes (c : Contents) : List UInt8 := c.disk.bytes 0 c.size

end Contents

/-- What the host keeps at a place. -/
inductive Node where
  | file (contents : Contents)
  | folder
  | link (target : List UInt8)

/-- The nodes below the root, and the folder in which paths start that do not start at the root. -/
structure Tree where
  nodes : List (Place × Node)
  start : Place

/-- What a path is followed for: something that is there, or something to make if it is missing. -/
inductive Purpose where
  | existing
  | making
  deriving DecidableEq

/-- The number of links that are followed in one path. -/
def linkLimit : Nat := 40

namespace Tree

/-- The tree that holds nothing but the folders that lead to `start`. -/
def bare (start : Place) : Tree :=
  ⟨(List.range start.length).map fun n => (start.take (n + 1), .folder), start⟩

/-- What is kept at a place. -/
def find? (t : Tree) (place : Place) : Option Node :=
  if place.isEmpty then some .folder else t.nodes.lookup place

/-- Keeps a node at a place, instead of what is there. -/
def set (t : Tree) (place : Place) (node : Node) : Tree :=
  if (t.nodes.lookup place).isSome then
    { t with nodes := t.nodes.map fun (p, old) => if p = place then (p, node) else (p, old) }
  else { t with nodes := t.nodes ++ [(place, node)] }

/-! ## Following a path -/

/-- Follows components from a folder on: the place they lead to, and what is there.  `links` more links
may be followed.  When a folder is asked for, nothing else is found, and nothing can be made, which is
noticed before the last name is looked at. -/
def follow (t : Tree) (purpose : Purpose) (links : Nat) (place : Place) (asksFolder : Bool)
    (rest : List Component) : Except IoError (Place × Option Node) :=
  match rest with
  | [] => .ok (place, some .folder)
  | c :: rest =>
    if c = here then follow t purpose links place asksFolder rest
    else if c = up then follow t purpose links place.dropLast asksFolder rest
    else if purpose = .making ∧ asksFolder ∧ rest.isEmpty then .error (.os Errno.isADirectory)
    else if componentLimit < c.length then .error (.os Errno.nameTooLong)
    else
      match t.find? (place ++ [c]) with
      | some .folder => follow t purpose links (place ++ [c]) asksFolder rest
      | some (.link target) =>
        match links with
        | 0 => .error (.os Errno.tooManyLinks)
        | links + 1 =>
          let path := Path.ofBytes target
          follow t purpose links (path.origin place)
            (asksFolder || (rest.isEmpty && path.asksFolder)) (path.components ++ rest)
      | some (.file contents) =>
        if rest.isEmpty ∧ !asksFolder then .ok (place ++ [c], some (.file contents))
        else .error (.os Errno.notADirectory)
      | none =>
        if rest.isEmpty ∧ purpose = .making then .ok (place ++ [c], none)
        else .error (.os Errno.noEntry)
termination_by (links, rest.length)

/-- Follows a path that a call on the host is given. -/
def resolve (t : Tree) (purpose : Purpose) (raw : List UInt8) :
    Except IoError (Place × Option Node) := do
  let path ← Path.read raw
  t.follow purpose linkLimit (path.origin t.start) path.asksFolder path.components

/-- The contents of the file under a path. -/
def contents (t : Tree) (raw : List UInt8) : Except IoError Contents := do
  match ← t.resolve .existing raw with
  | (_, some (.file contents)) => return contents
  | (_, some _) => throw (.os Errno.isADirectory)
  | (_, none) => throw (.os Errno.noEntry)

/-- The place of the file under a path, which may be missing. -/
def placeOfFile (t : Tree) (raw : List UInt8) : Except IoError Place := do
  match ← t.resolve .making raw with
  | (_, some .folder) => throw (.os Errno.isADirectory)
  | (place, _) => return place

/-- What the folder under a path holds, each node with its own name. -/
def children (t : Tree) (raw : List UInt8) : Except IoError (List (Component × Node)) := do
  match ← t.resolve .existing raw with
  | (place, some .folder) =>
    return t.nodes.filterMap fun (p, node) =>
      if p.dropLast = place then p.getLast?.map fun name => (name, node) else none
  | (_, some _) => throw (.os Errno.notADirectory)
  | (_, none) => throw (.os Errno.noEntry)

end Tree

/-! ## Making nodes -/

/-- An action on a tree of files that may fail; what it did before it failed stays done. -/
abbrev TreeM := EStateM IoError Tree

namespace Tree

/-- Looks into the tree. -/
def looking {α : Type} (f : Tree → Except IoError α) : TreeM α := do
  match f (← get) with
  | .ok a => return a
  | .error cause => throw cause

/-- Gives the file under a path other contents; a missing one is made. -/
def write (raw : List UInt8) (contents : Contents) : TreeM Unit := do
  let place ← looking fun t => t.placeOfFile raw
  modify fun t => t.set place (.file contents)

/-- The folder that a component leads to from a folder; a missing one is made. -/
def enter (place : Place) (c : Component) : TreeM Place := do
  if c != here ∧ c != up ∧ c.length ≤ componentLimit ∧ ((← get).find? (place ++ [c])).isNone then
    modify fun t => t.set (place ++ [c]) .folder
  return (← looking fun t => t.follow .existing linkLimit place true [c]).1

/-- Makes the folders that components lead through from a folder on. -/
def makeFolders (place : Place) (components : List Component) : TreeM Unit := do
  let _ ← looking fun _ => Path.refuseZero components.flatten
  let _ ← components.foldlM enter place

/-- Makes a link under a path under which nothing is kept. -/
def makeLink (raw target : List UInt8) : TreeM Unit := do
  let path ← looking fun _ => Path.read raw
  let _ ← looking fun _ => Path.read target
  let (place, _) ← looking fun t =>
    t.follow .existing linkLimit (path.origin t.start) true path.components.dropLast
  match path.components.getLast? with
  | none => throw (.os Errno.alreadyExists)
  | some c =>
    if c = here ∨ c = up ∨ ((← get).find? (place ++ [c])).isSome then
      throw (.os Errno.alreadyExists)
    if componentLimit < c.length then throw (.os Errno.nameTooLong)
    if path.asksFolder then throw (.os Errno.noEntry)
    modify fun t => t.set (place ++ [c]) (.link target)

/-- Makes a folder under a path, unless it is there.  A folder that is named by itself is not made. -/
def makeFolder (raw : List UInt8) : TreeM Unit := do
  let path ← looking fun _ => Path.read raw
  if path.components.getLast? = some here then
    let _ ← looking fun t => t.children raw
  else makeFolders (path.origin (← get).start) path.steps

/-- Makes a node under a path, and the folders above it. -/
def add (raw : List UInt8) (node : Node) : TreeM Unit := do
  let path := Path.ofBytes raw
  makeFolders (path.origin (← get).start) path.steps.dropLast
  match node with
  | .file contents => write raw contents
  | .folder => makeFolder raw
  | .link target => makeLink raw target

end Tree

end BlockFS.Host
