import BlockFS.Proofs.Store

/-!
# The bytes of a disk

All bytes of a disk in a row, those behind the last whole sector included.  Writing blocks below
some number leaves the bytes behind these blocks as they were, and once all of the blocks were
written, the old contents and the old length of the disk show nowhere else.  Data laid over blocks
replaces as many bytes as it has.
-/

namespace BlockFS

/-! ## Data that takes the place of other data -/

/-- A row with data in the place of as many of its elements. -/
theorem getElem?_take_append_drop {α : Type} {xs data : List α} {p : Nat} (h : p ≤ xs.length)
    (k : Nat) : (xs.take p ++ data ++ xs.drop (p + data.length))[k]? =
      if p ≤ k then data[k - p]?.or xs[k]? else xs[k]? := by
  have htake : (xs.take p).length = p := by
    rw [List.length_take, Nat.min_eq_left h]
  rcases Nat.lt_or_ge k p with hbefore | hge
  · rw [if_neg (Nat.not_le_of_lt hbefore), List.append_assoc, List.getElem?_append_left (by omega),
      List.getElem?_take, if_pos hbefore]
  rw [if_pos hge, List.append_assoc, List.getElem?_append_right (by omega), htake]
  rcases Nat.lt_or_ge (k - p) data.length with hin | hbehind
  · rw [List.getElem?_append_left hin, List.getElem?_eq_getElem hin, Option.some_or]
  · have hk : p + data.length + (k - p - data.length) = k := by omega
    rw [List.getElem?_append_right hbehind, List.getElem?_drop, hk, List.getElem?_eq_none hbehind,
      Option.none_or]

namespace Disk

variable {d d' : Disk} {i k n : Nat}

/-- All bytes of a disk. -/
def contents (d : Disk) : List UInt8 := d.sectors.toList.flatMap Vector.toList ++ d.tail.toList

/-! ## Runs of sectors -/

theorem length_flatMap_sectors (sectors : List Sector) :
    (sectors.flatMap Vector.toList).length = sectorSize * sectors.length := by
  induction sectors with
  | nil => rfl
  | cons s sectors ih =>
    rw [List.flatMap_cons, List.length_append, ih, Vector.length_toList, List.length_cons,
      Nat.mul_succ, Nat.add_comm]

theorem drop_flatMap_sectors (n : Nat) (sectors : List Sector) :
    (sectors.flatMap Vector.toList).drop (sectorSize * n)
      = (sectors.drop n).flatMap Vector.toList := by
  induction n generalizing sectors with
  | zero => rfl
  | succ n ih =>
    cases sectors with
    | nil => rw [List.flatMap_nil, List.drop_nil, List.drop_nil, List.flatMap_nil]
    | cons s sectors =>
      have hlen : s.toList.length = sectorSize := Vector.length_toList
      rw [List.flatMap_cons, List.drop_succ_cons, ← ih, List.drop_append, hlen, Nat.mul_succ,
        Nat.add_sub_cancel, List.drop_eq_nil_of_le (by omega), List.nil_append]

theorem length_contents (d : Disk) : d.contents.length = d.size := by
  rw [contents, List.length_append, length_flatMap_sectors, Array.length_toList,
    Array.length_toList, size]

theorem drop_contents (d : Disk) (n : Nat) :
    d.contents.drop (sectorSize * n) = (d.sectors.toList.drop n).flatMap Vector.toList ++
      d.tail.toList.drop (sectorSize * n - sectorSize * d.sectors.size) := by
  rw [contents, List.drop_append, drop_flatMap_sectors, length_flatMap_sectors,
    Array.length_toList]

/-- Writing a sector leaves the bytes behind it as they were, also where the disk grows. -/
theorem drop_contents_writeSector (h : k < n) (s : Sector) :
    (d.writeSector k s).contents.drop (sectorSize * n) = d.contents.drop (sectorSize * n) := by
  by_cases hk : k < d.sectors.size
  · have hwrite : d.writeSector k s = ⟨d.sectors.setIfInBounds k s, d.tail, d.tail_lt⟩ := if_pos hk
    rw [drop_contents, drop_contents, hwrite]
    dsimp only
    rw [Array.size_setIfInBounds, Array.toList_setIfInBounds, List.drop_set_of_lt h]
  · have htail : (d.writeSector k s).tail = #[] := by
      rw [writeSector, if_neg hk]
      split
      · rfl
      · rfl
    have hsize : (d.writeSector k s).size ≤ sectorSize * n := by
      rw [size, htail, size_sectors_writeSector]
      simp only [sectorSize, List.size_toArray, List.length_nil]
      omega
    have hbefore : d.size ≤ sectorSize * n := by
      have := d.tail_lt
      simp only [size, sectorSize] at this ⊢
      omega
    rw [List.drop_eq_nil_of_le (by rw [length_contents]; exact hsize),
      List.drop_eq_nil_of_le (by rw [length_contents]; exact hbefore)]

theorem take_contents (h : n ≤ d.sectors.size) :
    d.contents.take (sectorSize * n) = (d.sectors.toList.take n).flatMap Vector.toList := by
  have hsplit : d.sectors.toList.flatMap Vector.toList
      = (d.sectors.toList.take n).flatMap Vector.toList
        ++ (d.sectors.toList.drop n).flatMap Vector.toList := by
    rw [← List.flatMap_append, List.take_append_drop]
  have hlen : ((d.sectors.toList.take n).flatMap Vector.toList).length = sectorSize * n := by
    rw [length_flatMap_sectors, List.length_take, Array.length_toList, Nat.min_eq_left h]
  rw [contents, hsplit, List.append_assoc, ← hlen, List.take_left']
  rfl

/-! ## Blocks over old contents -/

/-- The bytes of the blocks below a number. -/
def bytesBelow (bs : Nat → Block) (n : Nat) : List UInt8 :=
  (List.range n).flatMap fun b => (bs b).toList

theorem length_bytesBelow (bs : Nat → Block) (n : Nat) :
    (bytesBelow bs n).length = blockSize * n := by
  induction n with
  | zero => rfl
  | succ n ih =>
    rw [bytesBelow] at ih ⊢
    rw [List.range_succ, List.flatMap_append, List.length_append, ih, List.flatMap_singleton,
      Vector.length_toList, Nat.mul_succ]

/-- The first sectors of a disk are its first blocks. -/
theorem take_contents_blocks (h : 2 * n ≤ d.sectors.size) :
    d.contents.take (blockSize * n) = bytesBelow d.block n := by
  have hsize : blockSize * n = sectorSize * (2 * n) := by
    simp only [blockSize, sectorSize]
    omega
  rw [hsize, take_contents h]
  clear hsize
  induction n with
  | zero => rfl
  | succ n ih =>
    have hn : 2 * n < d.sectors.toList.length := by
      rw [Array.length_toList]
      omega
    have hn' : 2 * n + 1 < d.sectors.toList.length := by
      rw [Array.length_toList]
      omega
    have hsector {k : Nat} (hk : k < d.sectors.toList.length) :
        d.sectors.toList[k] = d.sector k := by
      rw [sector, dif_pos (by rwa [Array.length_toList] at hk), Array.getElem_toList]
    have htwo : 2 * (n + 1) = 2 * n + 1 + 1 := by omega
    rw [htwo, List.take_add_one, List.take_add_one, List.getElem?_eq_getElem hn,
      List.getElem?_eq_getElem hn', hsector hn, hsector hn', List.flatMap_append,
      List.flatMap_append, ih (by omega), bytesBelow, bytesBelow, List.range_succ,
      List.flatMap_append, List.append_assoc]
    congr 1
    change (d.sector (2 * n)).toList ++ [] ++ ((d.sector (2 * n + 1)).toList ++ [])
      = (d.block n).toList ++ []
    rw [List.append_nil, List.append_nil, List.append_nil, block, Block.ofSectors,
      Vector.toList_append]

/-! ## Bytes by their places -/

theorem getElem?_bytesBelow (bs : Blocks) (h : k < blockSize * n) :
    (bytesBelow bs n)[k]? = some (bs.byte k) := by
  induction n with
  | zero => exact absurd h (Nat.not_lt_zero k)
  | succ n ih =>
    have hlen := length_bytesBelow bs n
    rw [bytesBelow] at hlen ih ⊢
    rw [List.range_succ, List.flatMap_append, List.flatMap_singleton]
    rcases Nat.lt_or_ge k (blockSize * n) with hbelow | hge
    · rw [List.getElem?_append_left (by omega), ih hbelow]
    · have hin : k - blockSize * n < blockSize := by
        rw [Nat.mul_succ] at h
        omega
      rw [List.getElem?_append_right (by omega), hlen, Vector.getElem?_toList,
        Vector.getElem?_eq_getElem hin, ← bs.byte_of_lt n hin, Nat.add_sub_cancel' hge]

theorem getElem?_contents (h : 2 * n ≤ d.sectors.size) (hk : k < blockSize * n) :
    d.contents[k]? = some (Blocks.byte d.block k) := by
  rw [← getElem?_bytesBelow d.block hk, ← take_contents_blocks h, List.getElem?_take, if_pos hk]

/-- The disk `d'` holds the blocks `bs` below number `n`, and the bytes of `d` behind them. -/
structure Overlays (bs : Nat → Block) (n : Nat) (d d' : Disk) : Prop where
  covers : 2 * n ≤ d'.sectors.size
  block : ∀ b < n, d'.block b = bs b
  behind : d'.contents.drop (blockSize * n) = d.contents.drop (blockSize * n)

theorem behind_putBlock (h : i < n) (b : Block) :
    (d.putBlock i b).contents.drop (blockSize * n) = d.contents.drop (blockSize * n) := by
  have hsize : blockSize * n = sectorSize * (2 * n) := by
    simp only [blockSize, sectorSize]
    omega
  rw [hsize, putBlock, drop_contents_writeSector (by omega), drop_contents_writeSector (by omega)]

theorem writeOver_of_fits {start : Nat} {data : List UInt8} (h : start + data.length ≤ blockSize) :
    d.writeOver i start data = d.putBlock i ((d.block i).write start data) := by
  have hrest : data.drop (blockSize - start) = [] := List.drop_eq_nil_of_le (by omega)
  rw [writeOver, hrest]
  rfl

theorem size_sectors_writeOver (start : Nat) (data : List UInt8) :
    d.sectors.size ≤ (d.writeOver i start data).sectors.size := by
  rw [writeOver]
  split
  · rw [size_sectors_putBlock]
    exact Nat.le_max_left _ _
  · rw [size_sectors_putBlock, size_sectors_putBlock]
    exact Nat.le_trans (Nat.le_max_left _ _) (Nat.le_max_left _ _)

/-- Data laid over blocks of a disk replaces as many bytes as it has. -/
theorem contents_writeOver {start : Nat} {data : List UInt8} (hd : 2 * n ≤ d.sectors.size)
    (hstart : start < blockSize) (hlen : data.length ≤ blockSize)
    (hin : blockSize * i + start + data.length ≤ blockSize * n) (hi : i < n) :
    (d.writeOver i start data).contents = d.contents.take (blockSize * i + start) ++ data
      ++ d.contents.drop (blockSize * i + start + data.length) := by
  have hfits : blockSize * i + start ≤ d.contents.length := by
    have hcovers := Nat.mul_le_mul_left sectorSize hd
    rw [length_contents, size]
    simp only [blockSize, sectorSize] at hin hcovers ⊢
    omega
  have hbehind : (d.writeOver i start data).contents.drop (blockSize * n)
      = d.contents.drop (blockSize * n) := by
    rw [writeOver]
    split
    · exact behind_putBlock hi _
    · next hrest =>
      have hspill : blockSize < start + data.length := by
        simp at hrest
        omega
      have hnext : i + 1 < n := by
        simp only [blockSize] at hin hspill
        omega
      rw [behind_putBlock hnext, behind_putBlock hi]
  apply List.ext_getElem?
  intro k
  rw [getElem?_take_append_drop hfits]
  rcases Nat.lt_or_ge k (blockSize * n) with hk | hk
  · rw [getElem?_contents (Nat.le_trans hd (size_sectors_writeOver start data)) hk, block_writeOver,
      Blocks.byte_writeOver _ _ hstart hlen, getElem?_contents hd hk, Option.or_some]
    split
    · rfl
    · rfl
  · have hsame := congrArg (·[k - blockSize * n]?) hbehind
    simp only [List.getElem?_drop, Nat.add_sub_cancel' hk] at hsame
    have hout : data[k - (blockSize * i + start)]? = none := List.getElem?_eq_none (by omega)
    rw [hsame, if_pos (by omega), hout, Option.none_or]

namespace Overlays

variable {bs : Nat → Block} (h : Overlays bs n d d')

include h

theorem putBlock (hi : i < n) (b : Block) :
    Overlays (Function.update bs i b) n d (d'.putBlock i b) where
  covers := by
    rw [size_sectors_putBlock]
    exact Nat.le_trans h.covers (Nat.le_max_left _ _)
  block j hj := by
    rw [block_putBlock, Function.update_apply, h.block j hj]
  behind := (behind_putBlock hi b).trans h.behind

theorem contents : d'.contents = bytesBelow bs n ++ d.contents.drop (blockSize * n) := by
  have hblocks : bytesBelow d'.block n = bytesBelow bs n := by
    rw [bytesBelow, bytesBelow, List.flatMap_def, List.flatMap_def]
    refine congrArg List.flatten (List.map_congr_left fun b hb => ?_)
    rw [h.block b (List.mem_range.mp hb)]
  rw [← h.behind, ← hblocks, ← take_contents_blocks h.covers, List.take_append_drop]

end Overlays

end Disk

end BlockFS
