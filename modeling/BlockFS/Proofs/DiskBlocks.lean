import BlockFS.Block

/-!
# The blocks of a disk

A disk is seen as an unbounded row of blocks.  Bytes that the disk does not have count as zeros, so
that a write replaces exactly one block also where it makes the disk longer.
-/

namespace BlockFS

namespace Block

theorem lower_ofSectors (a b : Sector) : (ofSectors a b).lower = a := by
  rw [lower, ofSectors, Bytes.slice_append_left a b 0 sectorSize (by decide), Bytes.slice_all]

theorem upper_ofSectors (a b : Sector) : (ofSectors a b).upper = b := by
  rw [upper, ofSectors]
  exact (Bytes.slice_append_right a b 0 sectorSize (by decide)).trans (Bytes.slice_all b)

theorem ofSectors_lower_upper (b : Block) : ofSectors b.lower b.upper = b := by
  exact (Bytes.slice_append_slice b 0 sectorSize sectorSize (by decide)).trans (Bytes.slice_all b)

end Block

namespace Disk

theorem paddedTail_of_tail_empty
    (sectors : Array Sector) (h : (#[] : Array UInt8).size < sectorSize) :
    (⟨sectors, #[], h⟩ : Disk).paddedTail = Bytes.zero sectorSize := by
  apply Vector.ext
  intro i hi
  simp [paddedTail, Bytes.ofList, Bytes.write, Bytes.getElem_overlay]

theorem sector_eq_getD (d : Disk) (j : Nat) :
    d.sector j = (d.sectors.push d.paddedTail)[j]?.getD (Bytes.zero sectorSize) := by
  simp only [sector, Array.getElem?_push]
  grind

/-- A write replaces its sector and no other, also where the disk grows. -/
theorem sector_writeSector (d : Disk) (k : Nat) (s : Sector) (j : Nat) :
    (d.writeSector k s).sector j = if j = k then s else d.sector j := by
  obtain ⟨sectors, tail, tail_lt⟩ := d
  simp only [writeSector]
  split
  · next hk =>
    simp only [sector_eq_getD, Array.getElem?_push, Array.getElem?_setIfInBounds,
      Array.size_setIfInBounds, paddedTail]
    grind
  · split
    · next hk hk' =>
      rw [sector_eq_getD, sector_eq_getD, paddedTail_of_tail_empty]
      simp only [Array.getElem?_push, Array.size_push]
      grind
    · next hk hk' =>
      rw [sector_eq_getD, sector_eq_getD, paddedTail_of_tail_empty]
      simp only [paddedTail, Array.getElem?_push, Array.getElem?_append, Array.size_append,
        Array.size_push, Array.size_replicate, Array.getElem?_replicate]
      grind

theorem size_sectors_writeSector (d : Disk) (k : Nat) (s : Sector) :
    (d.writeSector k s).sectors.size = max d.sectors.size (k + 1) := by
  obtain ⟨sectors, tail, tail_lt⟩ := d
  simp only [writeSector]
  split
  · simp
    omega
  · split
    · simp
      omega
    · simp
      omega

/-- Block `i` of a disk. -/
def block (d : Disk) (i : Nat) : Block :=
  Block.ofSectors (d.sector (2 * i)) (d.sector (2 * i + 1))

/-- The disk with another block `i`. -/
def putBlock (d : Disk) (i : Nat) (b : Block) : Disk :=
  (d.writeSector (2 * i) b.lower).writeSector (2 * i + 1) b.upper

theorem block_putBlock (d : Disk) (i : Nat) (b : Block) (j : Nat) :
    (d.putBlock i b).block j = if j = i then b else d.block j := by
  simp only [block, putBlock, sector_writeSector]
  by_cases h : j = i
  · subst h
    have h0 : ¬ 2 * j = 2 * j + 1 := by omega
    simp only [if_true, if_neg h0]
    exact Block.ofSectors_lower_upper b
  · have h1 : ¬ 2 * j = 2 * i + 1 := by omega
    have h2 : ¬ 2 * j = 2 * i := by omega
    have h3 : ¬ 2 * j + 1 = 2 * i + 1 := by omega
    have h4 : ¬ 2 * j + 1 = 2 * i := by omega
    simp only [if_neg h, if_neg h1, if_neg h2, if_neg h3, if_neg h4]

theorem size_sectors_putBlock (d : Disk) (i : Nat) (b : Block) :
    (d.putBlock i b).sectors.size = max d.sectors.size (2 * i + 2) := by
  simp only [putBlock, size_sectors_writeSector]
  omega

end Disk

end BlockFS
