import BlockFS.Device

/-!
# Blocks

A volume is divided into blocks of two sectors.  The two sectors are transferred one after the other,
so a failure may leave the first half of a block written and the second half old.
-/

namespace BlockFS

/-- The number of bytes in a block. -/
abbrev blockSize : Nat := 1024

theorem blockSize_pos : 0 < blockSize := by decide

/-- The contents of one block. -/
abbrev Block := Bytes blockSize

namespace Block

/-- The block of zeros. -/
def zero : Block := Bytes.zero blockSize

/-- The first half of a block. -/
def lower (b : Block) : Sector := b.slice 0 sectorSize

/-- The second half of a block. -/
def upper (b : Block) : Sector := b.slice sectorSize sectorSize

/-- The block with the given halves. -/
def ofSectors (lower upper : Sector) : Block := lower ++ upper

end Block

namespace Device

/-- Reads block `index`: its first sector, then its second. -/
def readBlock (index : Nat) : DeviceM Block := do
  let lower ← readSector (2 * index)
  let upper ← readSector (2 * index + 1)
  return Block.ofSectors lower upper

/-- Writes block `index`: its first sector, then its second. -/
def writeBlock (index : Nat) (b : Block) : DeviceM Unit := do
  writeSector (2 * index) b.lower
  writeSector (2 * index + 1) b.upper

end Device

end BlockFS
