/-!
# Blanks and words

The characters with the Unicode property White_Space, and the division of a text into the words
between them.
-/

namespace BlockFS.Text

/-- The ranges of the Unicode property White_Space, both ends included. -/
def blankRanges : List (Nat × Nat) :=
  [(0x09, 0x0D), (0x20, 0x20), (0x85, 0x85), (0xA0, 0xA0), (0x1680, 0x1680), (0x2000, 0x200A),
    (0x2028, 0x2029), (0x202F, 0x202F), (0x205F, 0x205F), (0x3000, 0x3000)]

/-- Whether a character separates words. -/
def isBlank (c : Char) : Bool :=
  blankRanges.any fun (first, last) => first ≤ c.toNat && c.toNat ≤ last

/-- Puts a character in front of a text that is divided into an open word at its start and the
finished words after it. -/
def addToWords (c : Char) : List Char × List (List Char) → List Char × List (List Char)
  | (word, rest) =>
    if isBlank c then ([], if word.isEmpty then rest else word :: rest) else (c :: word, rest)

/-- The longest runs of a text that hold no blank. -/
def words (text : String) : List String :=
  let (word, rest) := text.toList.foldr addToWords ([], [])
  (if word.isEmpty then rest else word :: rest).map String.ofList

end BlockFS.Text
