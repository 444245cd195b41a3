import BlockFS.CommandLine.Grammar
import BlockFS.Superblock

/-!
# The commands

There are two programs.  One makes images and shows them to the host; the other looks into an image.
-/

namespace BlockFS.CommandLine

/-- What the first program is asked to do. -/
inductive Command where
  /-- Make an image, with the files of a host directory in it. -/
  | makeImage (image : String) (source : Option String) (geometry : Geometry)
  /-- Show an image to the host. -/
  | mount (image mountpoint : String)
  deriving DecidableEq, Repr

/-- The arguments of the command that makes an image. -/
def makeImageGrammar : Grammar where
  places := [⟨"image", .path⟩]
  options :=
    [⟨'s', "source", ⟨"source", .path⟩⟩, ⟨'b', "blocks", ⟨"blocks", .number⟩⟩,
      ⟨'i', "inodes", ⟨"inodes", .number⟩⟩,
      ⟨'t', "inode-table-blocks", ⟨"table", .number⟩⟩]
  version := false

/-- The arguments of the command that shows an image to the host. -/
def mountGrammar : Grammar where
  places := [⟨"image", .path⟩, ⟨"mountpoint", .path⟩]
  options := []
  version := false

/-- The arguments of the program that looks into an image. -/
def inspectGrammar : Grammar where
  places := [⟨"image", .path⟩]
  options := []
  version := true

/-- The first program without a command: all that it can tell is its help and its version. -/
def bareGrammar : Grammar where
  places := []
  options := []
  version := true

/-- The path that was given under a name. -/
def pathNamed? (values : List (String × Value)) (name : String) : Option String :=
  match values.lookup name with
  | some (.path text) => some text
  | _ => none

/-- The number that was given under a name. -/
def numberNamed (values : List (String × Value)) (name : String) (default : UInt32) : UInt32 :=
  match values.lookup name with
  | some (.number n) => .ofNat n
  | _ => default

/-- The path at a place that must be filled. -/
def placeNamed (values : List (String × Value)) (name : String) : Except Refusal String :=
  match pathNamed? values name with
  | some path => .ok path
  | none => .error .missingArgument

/-- Reads the arguments of the command that makes an image. -/
def readMakeImage (arguments : List String) : Except Refusal Command := do
  let values ← makeImageGrammar.read arguments
  return .makeImage (← placeNamed values "image") (pathNamed? values "source")
    { blockCount := numberNamed values "blocks" Geometry.floppy.blockCount
      inodeCount := numberNamed values "inodes" Geometry.floppy.inodeCount
      tableBlocks := numberNamed values "table" Geometry.floppy.tableBlocks }

/-- Reads the arguments of the command that shows an image. -/
def readMount (arguments : List String) : Except Refusal Command := do
  let values ← mountGrammar.read arguments
  return .mount (← placeNamed values "image") (← placeNamed values "mountpoint")

/-- The words that are commands. -/
def commandNames : List String := ["mkfs", "mount", "help"]

/-- Answers a request for help on a command. -/
def readHelp : List String → Refusal
  | [] => .helpAsked
  | [command] => if commandNames.contains command then .helpAsked else .unknownCommand
  | _ => .unknownCommand

/-- Reads the words after two dashes, where no command can stand. -/
def readAfterDashes : List String → Refusal
  | [] => .helpOffered
  | word :: _ => if commandNames.contains word then .unknownArgument else .unknownCommand

/-- Reads the arguments of the first program. -/
def readCommand : List String → Except Refusal Command
  | [] => .error .helpOffered
  | word :: arguments =>
    if word = "mkfs" then readMakeImage arguments
    else if word = "mount" then readMount arguments
    else if word = "help" then .error (readHelp arguments)
    else
      match word.toList with
      | ['-', '-'] => .error (readAfterDashes arguments)
      | '-' :: _ :: _ =>
        match bareGrammar.readArgument .start word with
        | .ok _ => .error .unknownArgument
        | .error refusal => .error refusal
      | _ => .error .unknownCommand

/-- Reads the arguments of the second program: the image to look into. -/
def readInspect (arguments : List String) : Except Refusal String := do
  placeNamed (← inspectGrammar.read arguments) "image"

end BlockFS.CommandLine
