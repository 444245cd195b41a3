import BlockFS.Block
import BlockFS.Position
import Mathlib.Logic.Function.Basic

/-!
# Sparse files

A file is seen as a row of cells, of which those hold a byte that were written.  The blocks of a file
show its cells if the holes are the blocks without a written cell, and what was not written in the
other blocks is zero.
-/

namespace BlockFS

/-- The bytes that were written, each at its place in the file. -/
abbrev Cells := Nat → Option UInt8

namespace Cells

/-- The cells of which none was written. -/
def blank : Cells := fun _ => none

/-- The cells after data was written from `offset` on. -/
def lay (cells : Cells) (offset : Nat) (data : List UInt8) : Cells := fun k =>
  if offset ≤ k then data[k - offset]?.or (cells k) else cells k

/-- The byte that a cell is read as. -/
def value (cells : Cells) (k : Nat) : UInt8 := (cells k).getD 0

/-- Some cell of a block was written. -/
def Touches (cells : Cells) (slot : Nat) : Prop :=
  ∃ j, j < blockSize ∧ cells (slot * blockSize + j) ≠ none

/-- The bytes that the cells from `start` on, before `stop`, are read as. -/
def bytes (cells : Cells) (start stop : Nat) : List UInt8 :=
  (List.range' start (stop - start)).map cells.value

/-- Blocks of a file and its cells tell the same. -/
structure Shows (content : Nat → Option Block) (cells : Cells) : Prop where
  hole : ∀ slot, content slot = none → ¬ cells.Touches slot
  touched : ∀ slot b, content slot = some b → cells.Touches slot
  value : ∀ slot b, content slot = some b → ∀ j (h : j < blockSize),
    b[j] = cells.value (slot * blockSize + j)

variable {cells : Cells} {content : Nat → Option Block} {offset k slot start : Nat}
  {data : List UInt8}

theorem lay_nil : cells.lay offset [] = cells := by
  funext k
  simp [lay]

theorem lay_of_lt (h : k < offset) : cells.lay offset data k = cells k := by
  rw [lay, if_neg (Nat.not_le_of_lt h)]

theorem lay_of_ge (h : offset + data.length ≤ k) : cells.lay offset data k = cells k := by
  rw [lay]
  split
  · rw [List.getElem?_eq_none (by omega), Option.none_or]
  · rfl

theorem lay_append (front back : List UInt8) :
    cells.lay offset (front ++ back)
      = (cells.lay offset front).lay (offset + front.length) back := by
  funext k
  by_cases h : k < offset + front.length
  · rw [lay_of_lt h]
    simp only [lay]
    split
    · rw [List.getElem?_append_left (by omega)]
    · rfl
  · have hle : offset ≤ k := by omega
    have hle' : offset + front.length ≤ k := by omega
    have hsub : k - offset - front.length = k - (offset + front.length) := by omega
    rw [lay, lay, if_pos hle, if_pos hle', lay_of_ge hle',
      List.getElem?_append_right (by omega), hsub]

theorem lay_take_add (front back : Nat) (hfront : front ≤ data.length) :
    (cells.lay offset (data.take front)).lay (offset + front) ((data.drop front).take back)
      = cells.lay offset (data.take (front + back)) := by
  have hlen : (data.take front).length = front := by rw [List.length_take, Nat.min_eq_left hfront]
  rw [List.take_add, lay_append, hlen]

theorem Shows.blank : Shows (fun _ => none) Cells.blank := by
  constructor
  · rintro slot - ⟨j, -, hj⟩
    exact hj rfl
  · intro slot b hb
    cases hb
  · intro slot b hb
    cases hb

/-- The cells that hold every byte of some blocks. -/
def ofContent (content : Nat → Option Block) : Cells := fun k =>
  have := Nat.mod_lt k blockSize_pos
  (content (k / blockSize)).map fun b => b[k % blockSize]

theorem ofContent_add (content : Nat → Option Block) {j : Nat} (hj : j < blockSize) :
    ofContent content (slot * blockSize + j) = (content slot).map fun b => b[j] := by
  have hdiv : (slot * blockSize + j) / blockSize = slot := by
    simp only [blockSize] at hj ⊢
    omega
  have hmod : (slot * blockSize + j) % blockSize = j := by
    simp only [blockSize] at hj ⊢
    omega
  simp only [ofContent, hdiv, hmod]

/-- Whatever the blocks of a file hold, they show some cells. -/
theorem shows_ofContent (content : Nat → Option Block) : Shows content (ofContent content) := by
  constructor
  · rintro slot hc ⟨j, hj, hne⟩
    rw [ofContent_add content hj, hc] at hne
    exact hne rfl
  · intro slot b hc
    refine ⟨0, by decide, ?_⟩
    rw [ofContent_add content (by decide), hc]
    exact Option.some_ne_none _
  · intro slot b hc j hj
    rw [Cells.value, ofContent_add content hj, hc]
    rfl

theorem Shows.value_getD (h : Shows content cells) (slot : Nat) {j : Nat} (hj : j < blockSize) :
    ((content slot).getD Block.zero)[j] = cells.value (slot * blockSize + j) := by
  match hc : content slot with
  | some b => exact h.value slot b hc j hj
  | none =>
    have hnone : cells (slot * blockSize + j) = none := by
      by_contra hne
      exact h.hole slot hc ⟨j, hj, hne⟩
    rw [Cells.value, hnone, Option.getD_none]
    simp [Block.zero, Bytes.zero]

/-- Writing into one block of a file shows the cells that are written. -/
theorem Shows.write (h : Shows content cells) (hdata : data ≠ [])
    (hfits : start + data.length ≤ blockSize) :
    Shows (Function.update content slot
        (some (((content slot).getD Block.zero).write start data)))
      (cells.lay (slot * blockSize + start) data) := by
  have hpos : 0 < data.length := List.length_pos_iff.mpr hdata
  have hout (slot' j : Nat) (hj : j < blockSize) (hne : slot' ≠ slot) :
      cells.lay (slot * blockSize + start) data (slot' * blockSize + j)
        = cells (slot' * blockSize + j) := by
    simp only [blockSize] at hj hfits ⊢
    rcases Nat.lt_or_gt_of_ne hne with hlt | hgt
    · exact lay_of_lt (by omega)
    · exact lay_of_ge (by omega)
  have htouch (slot' : Nat) (hne : slot' ≠ slot) :
      (cells.lay (slot * blockSize + start) data).Touches slot' ↔ cells.Touches slot' := by
    refine exists_congr fun j => and_congr_right fun hj => ?_
    rw [hout slot' j hj hne]
  constructor
  · intro slot' hc
    by_cases hne : slot' = slot
    · rw [hne, Function.update_self] at hc
      cases hc
    · rw [Function.update_of_ne hne] at hc
      rw [htouch slot' hne]
      exact h.hole slot' hc
  · intro slot' b hc
    by_cases hne : slot' = slot
    · subst hne
      refine ⟨start, by omega, ?_⟩
      rw [lay, if_pos (Nat.le_refl _), Nat.sub_self, List.getElem?_eq_getElem hpos, Option.some_or]
      exact Option.some_ne_none _
    · rw [Function.update_of_ne hne] at hc
      rw [htouch slot' hne]
      exact h.touched slot' b hc
  · intro slot' b hc j hj
    by_cases hne : slot' = slot
    · subst hne
      rw [Function.update_self] at hc
      obtain rfl := Option.some.inj hc
      rw [Bytes.getElem_write, h.value_getD slot' hj, Cells.value, Cells.value, lay]
      by_cases hle : start ≤ j
      · have hle' : slot' * blockSize + start ≤ slot' * blockSize + j := by omega
        have hsub : slot' * blockSize + j - (slot' * blockSize + start) = j - start := by omega
        rw [if_pos hle, if_pos hle', hsub]
        cases data[j - start]? with
        | none => rfl
        | some x => rfl
      · have hle' : ¬ slot' * blockSize + start ≤ slot' * blockSize + j := by omega
        rw [if_neg hle, if_neg hle']
    · rw [Function.update_of_ne hne] at hc
      rw [h.value slot' b hc j hj, Cells.value, Cells.value, hout slot' j hj hne]

theorem bytes_eq_nil (h : k ≤ start) : cells.bytes start k = [] := by
  rw [bytes, Nat.sub_eq_zero_of_le h]
  rfl

theorem bytes_append {middle stop : Nat} (h : start ≤ middle) (h' : middle ≤ stop) :
    cells.bytes start stop = cells.bytes start middle ++ cells.bytes middle stop := by
  have hmiddle : start + (middle - start) = middle := by omega
  have hlen : middle - start + (stop - middle) = stop - start := by omega
  have hsplit : List.range' start (middle - start) ++ List.range' middle (stop - middle)
      = List.range' start (stop - start) := by
    rw [← hlen, ← List.range'_append_1, hmiddle]
  rw [bytes, bytes, bytes, ← List.map_append, hsplit]

/-- Reading in one block of a file gives the cells that are read there. -/
theorem Shows.read (h : Shows content cells) {b : Block} (start length : Nat)
    (hb : content slot = some b) (hfits : start + length ≤ blockSize) :
    Bytes.read b start length
      = cells.bytes (slot * blockSize + start) (slot * blockSize + start + length) := by
  apply List.ext_getElem?
  intro j
  rw [Bytes.getElem?_read, bytes, List.getElem?_map, Nat.add_sub_cancel_left]
  by_cases hj : j < length
  · have hin : start + j < blockSize := by omega
    rw [if_pos hj, Vector.getElem?_eq_getElem hin, List.getElem?_range' hj, Option.map_some,
      h.value slot b hb _ hin, Nat.one_mul, Nat.add_assoc]
  · rw [if_neg hj, List.getElem?_eq_none (by simpa using hj), Option.map_none]

end Cells

end BlockFS
