import BlockFS.Host.Image
import BlockFS.Prompt

/-!
# The programs

The outer layer: it reads arguments, files and lines, and calls the library.  The executable is one
program or the other by the name under which it is found.
-/

namespace BlockFS.Main

open Host (Failure Operations)

/-- An action on the real host. -/
abbrev HostM := ExceptT Failure IO

/-- Does something on the host; its failure is told in the host's words. -/
def attempt {α : Type} (x : IO α) : HostM α :=
  tryCatchThe IO.Error (ExceptT.lift x) fun e => throw (.io (.told e.toString))

/-- The bytes of a file as a list. -/
def readBytes (path : String) : IO (List UInt8) :=
  return (← IO.FS.readBinFile path).toList

/-- What a folder of the host holds. -/
def listFolder (path : String) : IO (List Host.Listed) := do
  let folder ← IO.FS.realPath path
  let entries ← folder.readDir
  entries.toList.mapM fun e => do
    let info ← e.path.symlinkMetadata
    let regular := match info.type with
      | .file => true
      | _ => false
    return ⟨e.fileName.toUTF8.toList, regular⟩

/-- The number of bytes that are written at a time. -/
def pieceSize : Nat := 0x10000

/-- Makes a file of zeros. -/
def writeZeros (path : String) (size : Nat) : IO Unit :=
  IO.FS.withFile path .write fun file => do
    let piece : ByteArray := ⟨Array.replicate pieceSize 0⟩
    for _ in [0:size / pieceSize] do file.write piece
    file.write ⟨Array.replicate (size % pieceSize) 0⟩

/-- The operations of the real host.  Its time is the time of the last change to the image. -/
def hostOperations (image : String) : Operations HostM where
  create path := attempt (IO.FS.writeBinFile path .empty)
  resize path size := attempt (writeZeros path size)
  store path disk := attempt (IO.FS.writeBinFile path ⟨(disk.bytes 0 disk.size).toArray⟩)
  load path := attempt (return .ofBytes (← readBytes path))
  list path := attempt (listFolder path)
  readIn folder name :=
    attempt (readBytes (Text.decodeLossy (Host.Path.join folder.toUTF8.toList name)))
  now := attempt (return (← (← IO.FS.realPath image).metadata).modified.sec)

/-- A failure in words. -/
def failureText : Failure → String
  | .io cause => cause.message
  | .volume e => e.message

/-- The image that a command works on. -/
def imageOf : CommandLine.Command → String
  | .makeImage image _ _ => image
  | .mount image _ => image

/-- Why a command line is not carried out, in words. -/
def refusalText : CommandLine.Refusal → String
  | .missingArgument => "a required argument is missing"
  | .unknownCommand => "there is no such command"
  | .unknownArgument => "there is no such argument"
  | .missingValue => "a value is missing"
  | .invalidNumber => "a value is no number"
  | .repeatedOption => "an option is given twice"
  | .needlessValue => "an option takes no value"
  | .helpAsked | .helpOffered =>
    "usage: mkfs IMAGE [-s SOURCE] [-b BLOCKS] [-i INODES] [-t TABLE_BLOCKS] | mount IMAGE MOUNTPOINT"
  | .versionAsked => "0.1.0"

/-- Runs the program that makes images and shows them to the host. -/
def runCommand (arguments : List String) : IO UInt32 := do
  match CommandLine.readCommand arguments with
  | .error refusal =>
    IO.eprintln (refusalText refusal)
    return 2
  | .ok command =>
    match ← (Host.carryOut (hostOperations (imageOf command)) command).run with
    | .ok text =>
      IO.print text
      match command with
      | .makeImage .. => return 0
      | .mount .. =>
        IO.eprintln "no way to the host's kernel"
        return 1
    | .error e =>
      IO.eprintln (failureText e)
      return 1

/-- Answers lines from the standard input until a command or its end stops it. -/
partial def promptLoop (volume : Volume) : IO Unit := do
  IO.print Prompt.sign
  (← IO.getStdout).flush
  let line ← (← IO.getStdin).getLine
  if line.isEmpty then return
  let (response, volume) := Prompt.respond line volume
  IO.print response.printed
  if let some e := response.failure then IO.eprintln e.message
  if response.goesOn then promptLoop volume

/-- Runs the program that looks into an image. -/
def runPrompt (arguments : List String) : IO UInt32 := do
  match CommandLine.readInspect arguments with
  | .error refusal =>
    IO.eprintln (refusalText refusal)
    return 2
  | .ok image =>
    match ← (Host.openImage (hostOperations image) image).run with
    | .ok volume =>
      promptLoop volume
      return 0
    | .error e =>
      IO.eprintln (failureText e)
      return 1

end BlockFS.Main

/-- Runs the program whose name the executable has. -/
def main (arguments : List String) : IO UInt32 := do
  if (← IO.appPath).fileStem = some "debugger" then BlockFS.Main.runPrompt arguments
  else BlockFS.Main.runCommand arguments
