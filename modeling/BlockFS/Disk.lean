import BlockFS.Bytes

/-!
# Disks

A disk is a row of bytes that is read and written in sectors.  Its length need not be a whole number
of sectors; the bytes after the last whole sector cannot be read, and a write there completes them.
-/

namespace BlockFS

/-- The number of bytes in one transfer. -/
abbrev sectorSize : Nat := 512

/-- The contents of one sector. -/
abbrev Sector := Bytes sectorSize

/-- A disk: its whole sectors, and the bytes behind them, fewer than a sector. -/
structure Disk where
  sectors : Array Sector
  tail : Array UInt8
  tail_lt : tail.size < sectorSize

namespace Disk

/-- The disk of no bytes. -/
def empty : Disk := ⟨#[], #[], by decide⟩

instance : Inhabited Disk := ⟨empty⟩

/-- The number of bytes on the disk. -/
def size (d : Disk) : Nat := sectorSize * d.sectors.size + d.tail.size

/-- The contents of sector `k`, if the disk holds all of it. -/
def sector? (d : Disk) (k : Nat) : Option Sector := d.sectors[k]?

/-- The bytes behind the last whole sector, filled up with zeros. -/
def paddedTail (d : Disk) : Sector := Bytes.ofList sectorSize d.tail.toList

/-- The bytes of sector `k`; those that the disk does not have are zero. -/
def sector (d : Disk) (k : Nat) : Sector :=
  if h : k < d.sectors.size then d.sectors[k]
  else if k = d.sectors.size then d.paddedTail
  else Bytes.zero sectorSize

/-- Replaces sector `k`.  A disk that is too short grows to the end of that sector, with zeros
between its old end and the new sector. -/
def writeSector (d : Disk) (k : Nat) (s : Sector) : Disk :=
  match d with
  | ⟨sectors, tail, tail_lt⟩ =>
    if k < sectors.size then ⟨sectors.setIfInBounds k s, tail, tail_lt⟩
    else if k = sectors.size then ⟨sectors.push s, #[], by decide⟩
    else
      let gap := Array.replicate (k - sectors.size - 1) (Bytes.zero sectorSize)
      ⟨(sectors.push (Bytes.ofList sectorSize tail.toList) ++ gap).push s, #[], by decide⟩

theorem sector?_of_lt {d : Disk} {k : Nat} (h : k < d.sectors.size) :
    d.sector? k = some (d.sector k) := by
  simp [sector?, sector, h]

/-- The disk of `size` bytes whose sectors are given; of the last one it takes what it has room
for. -/
def ofSectors (size : Nat) (sectorAt : Nat → Sector) : Disk where
  sectors := Array.ofFn fun i : Fin (size / sectorSize) => sectorAt i.val
  tail := (sectorAt (size / sectorSize)).toArray.take (size % sectorSize)
  tail_lt := by
    have := Nat.mod_lt size (show sectorSize > 0 by decide)
    simp only [Array.take_eq_extract, Array.size_extract, Vector.size_toArray]
    omega

/-- The disk of `size` zeros. -/
def zeros (size : Nat) : Disk := ofSectors size fun _ => Bytes.zero sectorSize

/-- The disk cut, or filled up with zeros, to `size` bytes. -/
def resize (d : Disk) (size : Nat) : Disk := ofSectors size d.sector

/-- Lays bytes over the disk from byte `start` on; a disk that is too short grows. -/
def overwrite (d : Disk) (start : Nat) (data : List UInt8) : Disk :=
  let bytes := data.toArray
  ofSectors (max d.size (start + bytes.size)) fun k =>
    let first := sectorSize * k
    if first + sectorSize ≤ start ∨ start + bytes.size ≤ first then d.sector k
    else Vector.ofFn fun i =>
      if h : start ≤ first + i.val ∧ first + i.val - start < bytes.size then
        bytes[first + i.val - start]
      else (d.sector k)[i.val]

/-- The disk that holds just the given bytes. -/
def ofBytes (data : List UInt8) : Disk := empty.overwrite 0 data

/-- The bytes from `start` on, at most `count` of them, cut at the end of the disk. -/
def bytes (d : Disk) (start count : Nat) : List UInt8 :=
  let stop := min d.size (start + count)
  if start < stop then
    let first := start / sectorSize
    let last := (stop - 1) / sectorSize
    let whole := (List.range' first (last + 1 - first)).flatMap fun k => (d.sector k).toList
    (whole.drop (start - sectorSize * first)).take (stop - start)
  else []

end Disk

end BlockFS
