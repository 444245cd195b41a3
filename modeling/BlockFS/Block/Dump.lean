import BlockFS.Block
import BlockFS.Text.Number

/-!
# Dumps of a block

The listing of a block's bytes: a heading, then sixteen bytes to a row, in hexadecimal and as
characters.
-/

namespace BlockFS.Block

/-- The number of bytes in a row of a dump. -/
def rowSize : Nat := 16

/-- A byte as it is shown beside its number: itself, if ASCII has a visible character for it. -/
def shownByte (b : UInt8) : Char :=
  if 0x21 ≤ b ∧ b ≤ 0x7E then Char.ofNat b.toNat else '.'

/-- The row of a dump that starts at byte `start`. -/
def dumpRow (b : Block) (start : Nat) : String :=
  let row := b.read start rowSize
  String.ofList (Text.hex 4 start ++ [' ']) ++ String.join (row.map (" " ++ Text.hexByte ·)) ++ "  "
    ++ String.ofList (row.map shownByte) ++ "\n"

/-- The dump of a block that is stored under `index`. -/
def dump (index : Nat) (b : Block) : String :=
  s!"block {index}\n" ++
    String.join ((List.range (blockSize / rowSize)).map fun row => b.dumpRow (row * rowSize))

end BlockFS.Block
