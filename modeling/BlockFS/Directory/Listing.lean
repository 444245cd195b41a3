import BlockFS.Directory

/-!
# Listings

A listing walks over the children of a directory as its table was when the walk began.  A child whose
inode cannot be read is reported in its place, and the walk goes on behind it.
-/

namespace BlockFS

open Volume

/-- A child of a directory. -/
structure Child where
  name : String
  inode : Nat
  directory : Bool
  deriving DecidableEq, Repr

/-- The child that an entry links. -/
def Entry.child (e : Entry) : VolumeM Child := do
  let record ← readInode e.target
  return ⟨e.nameText, e.target, record.kind = .directory⟩

/-- A walk over entries: all of them, and those that are still to come. -/
structure Listing where
  all : List Entry
  rest : List Entry

namespace Listing

/-- The walk over the children of a directory, before its first step. -/
def ofDirectory (d : Directory) : Listing := ⟨d.table.children, d.table.children⟩

/-- The walk from its start again. -/
def rewind (l : Listing) : Listing := ⟨l.all, l.all⟩

/-- Takes a step: the child at it or the failure to read that child, or nothing at the end. -/
def next (l : Listing) : VolumeM (Option (Except Error Child) × Listing) :=
  match l.rest with
  | [] => return (none, l)
  | e :: rest => do
    let item ← tryCatch (.ok <$> e.child) fun failure => return .error failure
    return (some item, ⟨l.all, rest⟩)

/-- Takes a number of steps. -/
def steps : Nat → Listing → VolumeM (List (Option (Except Error Child)) × Listing)
  | 0, l => return ([], l)
  | n + 1, l => do
    let (item, l) ← l.next
    let (items, l) ← steps n l
    return (item :: items, l)

/-- Walks to the end. -/
def items (l : Listing) : VolumeM (List (Except Error Child)) := do
  return ((← steps l.rest.length l).1).filterMap id

end Listing

end BlockFS
