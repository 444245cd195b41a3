import BlockFS.Superblock

/-!
# Inodes

An inode is the record of one file or directory: what it is, how long it is, when it last changed, and
which blocks hold its data.
-/

namespace BlockFS

/-- The number of blocks that an inode can point to. -/
abbrev pointerCount : Nat := 10

/-- What an inode is the record of. -/
inductive Kind where
  | free
  | file
  | directory
  deriving DecidableEq, Repr

/-- The stored number of a kind. -/
def Kind.mode : Kind → UInt16
  | .free => 0
  | .file => 1
  | .directory => 2

/-- The kind that a stored number means; one without a meaning is free. -/
def Kind.ofMode (mode : UInt16) : Kind :=
  if mode = 1 then .file else if mode = 2 then .directory else .free

/-- A kind in a report. -/
def Kind.label : Kind → String
  | .free => "Free"
  | .file => "File"
  | .directory => "Directory"

/-- The record of a file or directory.  A pointer of zero is a hole. -/
structure Inode where
  mode : UInt16
  size : UInt32
  mtime : UInt32
  pointers : Vector UInt16 pointerCount
  deriving DecidableEq

/-- The time of a change as it is stored: zero before the epoch, else the low 32 bits of the seconds
since. -/
def timestamp (seconds : Int) : UInt32 := .ofNat seconds.toNat

namespace Inode

/-- An empty record that was last changed at the given time. -/
def new (kind : Kind) (seconds : Int) : Inode where
  mode := kind.mode
  size := 0
  mtime := timestamp seconds
  pointers := Vector.replicate pointerCount 0

/-- The stored form: the kind, the size, the time, and the pointers in slot order. -/
def encode (r : Inode) : Bytes inodeRecordSize :=
  Bytes.ofUInt16 r.mode ++ (Bytes.ofUInt32 r.size ++ (Bytes.ofUInt32 r.mtime
    ++ (r.pointers.map Bytes.ofUInt16).flatten))

/-- Reads the stored form. -/
def decode (v : Bytes inodeRecordSize) : Inode where
  mode := (v.slice 0 2).toUInt16
  size := (v.slice 2 4).toUInt32
  mtime := (v.slice 6 4).toUInt32
  pointers := (Bytes.chunks (m := pointerCount) (v.slice 10 (pointerCount * 2))).map Bytes.toUInt16

theorem decode_encode (r : Inode) : decode r.encode = r := by
  have mode : r.encode.slice 0 2 = Bytes.ofUInt16 r.mode := by
    rw [encode, Bytes.slice_append_left _ _ 0 2 (by decide), Bytes.slice_all]
  have size : r.encode.slice 2 4 = Bytes.ofUInt32 r.size := by
    rw [encode, Bytes.slice_append_right _ _ 0 4 (by decide),
      Bytes.slice_append_left _ _ 0 4 (by decide), Bytes.slice_all]
  have mtime : r.encode.slice 6 4 = Bytes.ofUInt32 r.mtime := by
    rw [encode, Bytes.slice_append_right _ _ 4 4 (by decide),
      Bytes.slice_append_right _ _ 0 4 (by decide),
      Bytes.slice_append_left _ _ 0 4 (by decide), Bytes.slice_all]
  have pointers : r.encode.slice 10 (pointerCount * 2)
      = (r.pointers.map Bytes.ofUInt16).flatten := by
    rw [encode, Bytes.slice_append_right _ _ 8 (pointerCount * 2) (by decide),
      Bytes.slice_append_right _ _ 4 (pointerCount * 2) (by decide),
      Bytes.slice_append_right _ _ 0 (pointerCount * 2) (by decide), Bytes.slice_all]
  have h : Bytes.toUInt16 ∘ Bytes.ofUInt16 = id := funext Bytes.toUInt16_ofUInt16
  rw [decode, mode, size, mtime, pointers, Bytes.toUInt16_ofUInt16, Bytes.toUInt32_ofUInt32,
    Bytes.toUInt32_ofUInt32, Bytes.chunks_flatten, Vector.map_map, h, Vector.map_id]

theorem encode_decode (v : Bytes inodeRecordSize) : (decode v).encode = v := by
  have h : Bytes.ofUInt16 ∘ Bytes.toUInt16 = id := funext Bytes.ofUInt16_toUInt16
  rw [decode, encode, Bytes.ofUInt16_toUInt16, Bytes.ofUInt32_toUInt32, Bytes.ofUInt32_toUInt32,
    Vector.map_map, h, Vector.map_id]
  rw [Bytes.flatten_chunks (m := pointerCount) (n := 2)]
  exact calc
    v.slice 0 2 ++ (v.slice 2 4 ++ (v.slice 6 4 ++ v.slice 10 20))
      = v.slice 0 2 ++ (v.slice 2 4 ++ v.slice 6 24) :=
        congrArg _ (congrArg _ (Bytes.slice_append_slice v 6 4 20 (by decide)))
    _ = v.slice 0 2 ++ v.slice 2 28 :=
        congrArg _ (Bytes.slice_append_slice v 2 4 24 (by decide))
    _ = v.slice 0 30 := Bytes.slice_append_slice v 0 2 28 (by decide)
    _ = v := Bytes.slice_all v

/-- What the inode is the record of. -/
def kind (r : Inode) : Kind := .ofMode r.mode

/-- The pointer in a slot; there is none past the last one. -/
def pointer? (r : Inode) (slot : Nat) : Option UInt16 := r.pointers[slot]?

/-- The block that a slot points to, unless it is a hole or there is no such slot. -/
def block? (r : Inode) (slot : Nat) : Option Nat :=
  (r.pointer? slot).bind fun p => if p = 0 then none else some p.toNat

/-- The record with another pointer in a slot. -/
def setPointer (r : Inode) (slot block : Nat) : Inode :=
  { r with pointers := r.pointers.setIfInBounds slot (.ofNat block) }

/-- The blocks that the record points to, in slot order. -/
def blocks (r : Inode) : List Nat :=
  (r.pointers.toList.filter (· ≠ 0)).map UInt16.toNat

/-- The record as a report, one line for each part. -/
def render (r : Inode) : String :=
  s!"mode    {r.mode} ({r.kind.label})\n"
    ++ s!"size    {r.size}\n"
    ++ s!"mtime   {r.mtime}\n"
    ++ "blocks  [" ++ ", ".intercalate (r.pointers.toList.map fun p => s!"{p}") ++ "]"

end Inode

/-- What the host is told of an inode. -/
structure Attributes where
  inode : Nat
  size : Nat
  /-- The number of sectors that hold data. -/
  sectors : Nat
  directory : Bool
  mtime : Nat
  permissions : Nat
  links : Nat
  owner : Nat
  group : Nat
  deriving DecidableEq, Repr

/-- The attributes of an inode, with the given owner and group. -/
def Inode.attributes (r : Inode) (index owner group : Nat) : Attributes :=
  let directory := r.kind = .directory
  { inode := index
    size := r.size.toNat
    sectors := r.blocks.length * (blockSize / sectorSize)
    directory := directory
    mtime := r.mtime.toNat
    permissions := if directory then 0o755 else 0o644
    links := if directory then 2 else 1
    owner := owner
    group := group }

end BlockFS
