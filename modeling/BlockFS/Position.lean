import BlockFS.Block

/-!
# Positions in a file

A position is a byte of a file, seen as a block of the file and a byte inside that block.
-/

namespace BlockFS

/-- A block of a file and a byte inside it. -/
structure Position where
  block : Nat
  byte : Nat
  byte_lt : byte < blockSize

namespace Position

/-- The first byte of a file. -/
def start : Position := ⟨0, 0, by decide⟩

/-- The position as a number of bytes. -/
def toNat (p : Position) : Nat := p.block * blockSize + p.byte

/-- The position as a number of 64 bits, which starts again at zero behind the largest. -/
def word (p : Position) : UInt64 := .ofNat p.toNat

/-- The position some bytes further on.  Bytes that reach the end of the current block first fill it
up, and the others are divided into whole blocks and a rest. -/
def advance (p : Position) (bytes : Nat) : Position :=
  let room := blockSize - p.byte
  if h : bytes < room then
    ⟨p.block, p.byte + bytes, by have := p.byte_lt; omega⟩
  else
    let left := bytes - room
    ⟨p.block + (left / blockSize + 1), left % blockSize, Nat.mod_lt _ blockSize_pos⟩

theorem toNat_advance (p : Position) (bytes : Nat) : (p.advance bytes).toNat = p.toNat + bytes := by
  have := p.byte_lt
  by_cases h : bytes < blockSize - p.byte
  · simp only [advance, h, dite_true, toNat]
    omega
  · simp only [advance, h, dite_false, toNat]
    simp only [blockSize] at h this ⊢
    omega

/-- The position that is some bytes behind the start. -/
def ofNat (bytes : Nat) : Position := start.advance bytes

theorem toNat_ofNat (bytes : Nat) : (ofNat bytes).toNat = bytes := by
  rw [ofNat, toNat_advance]
  exact Nat.zero_add bytes

end Position

/-- A run of bytes inside one block of a file. -/
structure Span where
  slot : Nat
  start : Nat
  length : Nat
  deriving DecidableEq, Repr

namespace Span

/-- Cuts `length` bytes from a position on at the borders of blocks, over at most `blocks` blocks. -/
def coverWithin : Nat → Position → Nat → List Span
  | 0, _, _ => []
  | blocks + 1, p, length =>
    if length = 0 then []
    else
      let here := min length (blockSize - p.byte)
      ⟨p.block, p.byte, here⟩ :: coverWithin blocks (p.advance here) (length - here)

/-- The spans, in order, of `length` bytes from a position on, as far as they lie in the first `blocks`
blocks of a file. -/
def cover (blocks : Nat) (p : Position) (length : Nat) : List Span :=
  coverWithin (blocks - p.block) p length

end Span

end BlockFS
