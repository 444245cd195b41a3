import BlockFS.Block
import BlockFS.Name
import BlockFS.Text.Lossy
import BlockFS.Text.Number

/-!
# Directory entries

A directory is a table of 64 slots in one block.  A slot holds an inode number and a name; a slot with
inode number zero is free.
-/

namespace BlockFS

/-- One slot of a directory. -/
structure Entry where
  inode : UInt16
  name : StoredName
  deriving DecidableEq

namespace Entry

/-- The number of bytes of a stored entry. -/
abbrev recordSize : Nat := 16

/-- A free slot. -/
def empty : Entry := ⟨0, Bytes.zero nameWidth⟩

/-- The entry that links an inode under a name.  The number must fit its two bytes. -/
def new (inode : Nat) (name : String) : Except Error Entry :=
  if inode < UInt16.size then (StoredName.encode name).map fun n => ⟨.ofNat inode, n⟩
  else .error .notFound

/-- The stored form: the number, then the name. -/
def encode (e : Entry) : Bytes recordSize := Bytes.ofUInt16 e.inode ++ e.name

/-- Reads the stored form. -/
def decode (v : Bytes recordSize) : Entry where
  inode := (v.slice 0 2).toUInt16
  name := v.slice 2 nameWidth

theorem decode_encode (e : Entry) : decode e.encode = e := by
  have number : e.encode.slice 0 2 = Bytes.ofUInt16 e.inode := by
    rw [encode, Bytes.slice_append_left _ _ 0 2 (by decide), Bytes.slice_all]
  have name : e.encode.slice 2 nameWidth = e.name := by
    rw [encode, Bytes.slice_append_right _ _ 0 nameWidth (by decide), Bytes.slice_all]
  rw [decode, number, name, Bytes.toUInt16_ofUInt16]

theorem encode_decode (v : Bytes recordSize) : (decode v).encode = v := by
  rw [decode, encode, Bytes.ofUInt16_toUInt16]
  exact (Bytes.slice_append_slice v 0 2 nameWidth (by decide)).trans (Bytes.slice_all v)

/-- The number of the inode that the entry links. -/
def target (e : Entry) : Nat := e.inode.toNat

/-- Whether the slot is free. -/
def isFree (e : Entry) : Bool := e.inode == 0

/-- Whether the slot links something under a stored name. -/
def isNamed (e : Entry) (n : StoredName) : Bool := !e.isFree && e.name == n

/-- Whether the entry is `.` or `..`. -/
def isSelfOrParent (e : Entry) : Bool := e.name.isSelfOrParent

/-- The name as text; stored bytes that are no UTF-8 are replaced. -/
def nameText (e : Entry) : String := Text.decodeLossy e.name.bytes

/-- The entry as a line of a report. -/
def render (e : Entry) : String := Text.alignRight 5 s!"{e.inode}" ++ "  " ++ e.nameText

end Entry

/-- The number of slots in a directory. -/
abbrev slotCount : Nat := 64

theorem slotCount_pos : 0 < slotCount := by decide

theorem one_lt_slotCount : 1 < slotCount := by decide

/-- The slots of a directory. -/
abbrev EntryTable := Vector Entry slotCount

namespace EntryTable

/-- The table with every slot free. -/
def empty : EntryTable := Vector.replicate slotCount .empty

/-- The block that stores a table: its slots one after the other. -/
def toBlock (t : EntryTable) : Block := (t.map Entry.encode).flatten

/-- The table that a block stores. -/
def ofBlock (b : Block) : EntryTable :=
  (Bytes.chunks (m := slotCount) (n := Entry.recordSize) b).map .decode

theorem ofBlock_toBlock (t : EntryTable) : ofBlock t.toBlock = t := by
  have h : Entry.decode ∘ Entry.encode = id := funext Entry.decode_encode
  rw [ofBlock, toBlock, Bytes.chunks_flatten, Vector.map_map, h, Vector.map_id]

theorem toBlock_ofBlock (b : Block) : (ofBlock b).toBlock = b := by
  have h : Entry.encode ∘ Entry.decode = id := funext Entry.encode_decode
  rw [ofBlock, toBlock, Vector.map_map, h, Vector.map_id]
  exact Bytes.flatten_chunks (m := slotCount) (n := Entry.recordSize) b

/-- The slots that are in use, each with its number, in slot order. -/
def occupied (t : EntryTable) : List (Nat × Entry) :=
  (t.toList.zipIdx.map fun (e, slot) => (slot, e)).filter fun (_, e) => !e.isFree

/-- The first slot that links something under a name; a name that cannot be stored is under none. -/
def slotOf? (t : EntryTable) (name : String) : Option (Fin slotCount) :=
  match StoredName.encode name with
  | .ok n => t.findFinIdx? fun e => e.isNamed n
  | .error _ => none

/-- The inode that is linked under a name. -/
def find? (t : EntryTable) (name : String) : Option Nat :=
  (t.slotOf? name).map fun slot => t[slot].target

/-- Links an inode under a name in the first free slot. -/
def link (t : EntryTable) (name : String) (target : Nat) : Except Error EntryTable := do
  let e ← Entry.new target name
  match t.findFinIdx? Entry.isFree with
  | some slot => return t.set slot e
  | none => throw .noSpace

/-- Frees the slot of a name; the other slots stay where they are.  Tells which inode it linked. -/
def unlink (t : EntryTable) (name : String) : Except Error (Nat × EntryTable) :=
  match t.slotOf? name with
  | some slot => .ok (t[slot].target, t.set slot .empty)
  | none => .error .notFound

/-- Puts another name into the slot of a name. -/
def relabel (t : EntryTable) (old new : String) : Except Error EntryTable :=
  match t.slotOf? old with
  | some slot => (Entry.new t[slot].target new).map fun e => t.set slot e
  | none => .error .notFound

/-- Whether nothing but `.` and `..` is linked. -/
def holdsNothing (t : EntryTable) : Bool := t.occupied.all fun (_, e) => e.isSelfOrParent

/-- The entries that link something other than `.` and `..`, in slot order. -/
def children (t : EntryTable) : List Entry :=
  t.toList.filter fun e => !e.isFree && !e.isSelfOrParent

end EntryTable

end BlockFS
