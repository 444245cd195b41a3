import BlockFS.Bitmap.Summary
import BlockFS.Block.Dump
import BlockFS.Text.Blank
import BlockFS.Tree

/-!
# The prompt

A volume is looked into by commands of one line.  The first word says what to show, and the second, if
there is one, which inode or block.
-/

namespace BlockFS.Prompt

/-- What stands before each command. -/
def sign : String := ">> "

/-- Why a command was not carried out to its end. -/
inductive Failure where
  | volume (error : Error)
  | number (fault : Text.NumberFault)
  deriving DecidableEq, Repr

def Failure.message : Failure → String
  | .volume e => e.message
  | .number fault => fault.message

/-- The text printed so far and the volume. -/
structure Screen where
  printed : String
  volume : Volume

/-- An action that prints; what it printed before it failed stays. -/
abbrev PrintM := EStateM Failure Screen

/-- Prints a text and ends the line. -/
def printLine (text : String) : PrintM Unit :=
  modify fun ⟨printed, volume⟩ => ⟨printed ++ text ++ "\n", volume⟩

/-- Acts on the volume alone. -/
def onVolume {α : Type} (x : VolumeM α) : PrintM α
  | ⟨printed, volume⟩ =>
    match x volume with
    | .ok a volume => .ok a ⟨printed, volume⟩
    | .error e volume => .error (.volume e) ⟨printed, volume⟩

/-- The commands and what they show. -/
def usage : List String :=
  ["s        superblock", "i [n]    inode bitmap, or inode n", "b [n]    block bitmap, or block n",
    "d [n]    entries of directory n (root by default)", "q        quit"]

/-- The line that shows a child of a directory. -/
def childLine (c : Child) : String :=
  Text.alignRight 5 s!"{c.inode}" ++ "  " ++ c.name ++ (if c.directory then "/" else "")

/-- Prints a line for each child, up to the first that cannot be read. -/
def printChildren : List Entry → PrintM Unit
  | [] => return
  | e :: entries => do
    printLine (childLine (← onVolume e.child))
    printChildren entries

/-- Carries out a command and tells whether others may follow. -/
def carryOut (command : String) (number : Option Nat) : PrintM Bool := do
  match command, number with
  | "s", _ => printLine (← onVolume Volume.getLayout).superblock.render
  | "i", some index => printLine (← onVolume (Volume.readInode index)).render
  | "i", none =>
    printLine ((← onVolume (Volume.readBitmap .inode)).render Resource.inode.label)
  | "b", some index => printLine ((← onVolume (Volume.readBlock index)).dump index)
  | "b", none =>
    printLine ((← onVolume (Volume.readBitmap .block)).render Resource.block.label)
  | "d", index =>
    let d ← onVolume (Directory.ofInode (index.getD rootInode))
    printChildren d.table.children
  | "q", _ => return false
  | _, _ => usage.forM printLine
  return true

/-- Reads the second word of a command. -/
def readNumber : List String → Except Failure (Option Nat)
  | [] => .ok none
  | text :: _ =>
    match Text.readWord text with
    | .ok n => .ok (some n)
    | .error fault => .error (.number fault)

/-- Carries out a line and tells whether others may follow.  A line of blanks does nothing. -/
def carryOutLine (line : String) : PrintM Bool := do
  match Text.words line with
  | [] => return true
  | command :: arguments => carryOut command (← liftExcept (readNumber arguments))

/-- What is seen of one command: what was printed, the failure if there was one, and whether others may
follow. -/
structure Response where
  printed : String
  failure : Option Failure
  goesOn : Bool

/-- Carries out a line on a volume. -/
def respond (line : String) (volume : Volume) : Response × Volume :=
  match carryOutLine line ⟨"", volume⟩ with
  | .ok goesOn screen => (⟨screen.printed, none, goesOn⟩, screen.volume)
  | .error failure screen => (⟨screen.printed, some failure, true⟩, screen.volume)

/-- Puts a byte in front of lines, each of which keeps the byte that ends it. -/
def addToLines (b : UInt8) : List (List UInt8) → List (List UInt8)
  | [] => [[b]]
  | line :: rest => if b = 0x0A then [b] :: line :: rest else (b :: line) :: rest

/-- The lines of an input; the last one need not be ended. -/
def lines (input : List UInt8) : List (List UInt8) := input.foldr addToLines []

/-- The responses to some lines, up to one that ends the prompt, one that is no text, or the end.  It is
told whether the prompt was ended by a command. -/
def respondAll : List (List UInt8) → Volume → List Response × Bool
  | [], _ => ([], false)
  | line :: rest, volume =>
    match String.fromUTF8? ⟨line.toArray⟩ with
    | none => ([], false)
    | some text =>
      let (response, volume) := respond text volume
      if response.goesOn then
        let (responses, ended) := respondAll rest volume
        (response :: responses, ended)
      else ([response], true)

end BlockFS.Prompt
