/-!
# Reading UTF-8 leniently

Bytes are read as UTF-8, and each longest run that starts a character and cannot finish it becomes
one replacement character, as the Unicode standard recommends.  A byte that starts no character is
such a run by itself.
-/

namespace BlockFS.Text

/-- What the first byte of a character promises: how many bytes follow, between which bounds the
first of them lies, and the data bits that the first byte holds itself. -/
structure Lead where
  tails : Nat
  low : UInt8
  high : UInt8
  bits : Nat

/-- The promise of a first byte; no character starts with a byte that has none.  The bounds keep out
overlong forms, surrogates, and numbers above the last code point. -/
def Lead.ofByte? (b : UInt8) : Option Lead :=
  if b < 0x80 then some ⟨0, 0x80, 0xBF, b.toNat⟩
  else if b < 0xC2 then none
  else if b < 0xE0 then some ⟨1, 0x80, 0xBF, b.toNat - 0xC0⟩
  else if b < 0xF0 then
    some ⟨2, if b = 0xE0 then 0xA0 else 0x80, if b = 0xED then 0x9F else 0xBF, b.toNat - 0xE0⟩
  else if b < 0xF5 then
    some ⟨3, if b = 0xF0 then 0x90 else 0x80, if b = 0xF4 then 0x8F else 0xBF, b.toNat - 0xF0⟩
  else none

/-- Reads the bytes that must follow a first byte: the number of the character, if they are all
there, and how many of them are. -/
def readTails : Nat → UInt8 → UInt8 → Nat → List UInt8 → Option Nat × Nat
  | 0, _, _, bits, _ => (some bits, 0)
  | _ + 1, _, _, _, [] => (none, 0)
  | n + 1, low, high, bits, b :: rest =>
    if low ≤ b ∧ b ≤ high then
      let (code, used) := readTails n 0x80 0xBF (bits * 64 + (b.toNat - 0x80)) rest
      (code, used + 1)
    else (none, 0)

/-- Stands for bytes that are no character. -/
def replacement : Char := '\uFFFD'

/-- Reads a character or a broken run at each byte that the one before it has not used up. -/
def decodeFrom : Nat → List UInt8 → List Char
  | _, [] => []
  | skip + 1, _ :: rest => decodeFrom skip rest
  | 0, b :: rest =>
    match Lead.ofByte? b with
    | none => replacement :: decodeFrom 0 rest
    | some lead =>
      let (code, used) := readTails lead.tails lead.low lead.high lead.bits rest
      (code.map Char.ofNat).getD replacement :: decodeFrom used rest

/-- The text of some bytes, with a replacement character for each run that is no UTF-8. -/
def decodeLossy (bytes : List UInt8) : String :=
  String.ofList (decodeFrom 0 bytes)

end BlockFS.Text
