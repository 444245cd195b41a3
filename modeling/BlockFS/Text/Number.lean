/-!
# Numbers in text

Decimal numbers of 32 bits as words on a command line or at a prompt, and the two written forms with
a fixed width that reports use.
-/

namespace BlockFS.Text

/-- Why a word is no number. -/
inductive NumberFault where
  | empty
  | invalidDigit
  | tooLarge
  deriving DecidableEq, Repr

def NumberFault.message : NumberFault → String
  | .empty => "cannot parse integer from empty string"
  | .invalidDigit => "invalid digit found in string"
  | .tooLarge => "number too large to fit in target type"

/-- Reads digits from the left onto a number; the first digit that is none, or that makes the number
too large, is the fault. -/
def readDigits : Nat → List Char → Except NumberFault Nat
  | value, [] => .ok value
  | value, c :: rest =>
    if '0' ≤ c ∧ c ≤ '9' then
      let next := value * 10 + (c.toNat - '0'.toNat)
      if next < UInt32.size then readDigits next rest else .error .tooLarge
    else .error .invalidDigit

/-- Reads a number of 32 bits: a plus sign at most, then at least one decimal digit. -/
def readWord (text : String) : Except NumberFault Nat :=
  match text.toList with
  | [] => .error .empty
  | ['+'] => .error .invalidDigit
  | '+' :: digits => readDigits 0 digits
  | digits => readDigits 0 digits

/-- The lowercase hexadecimal digit of a number below 16. -/
def hexDigit (n : Nat) : Char :=
  "0123456789abcdef".toList.getD n '0'

/-- The last `width` hexadecimal digits of a number, zeros in front included. -/
def hex : Nat → Nat → List Char
  | 0, _ => []
  | width + 1, n => hex width (n / 16) ++ [hexDigit (n % 16)]

/-- The two hexadecimal digits of a byte. -/
def hexByte (b : UInt8) : String :=
  String.ofList (hex 2 b.toNat)

/-- A text moved to the right of a column, with blanks in front. -/
def alignRight (width : Nat) (text : String) : String :=
  String.ofList (List.replicate (width - text.length) ' ') ++ text

end BlockFS.Text
