import BlockFS.Text.Number

/-!
# Arguments of a command

A command takes words at fixed places and options with a value.  Words are read from left to right; the
value of a word is looked at when the next one begins, so that of two mistakes the earlier one is
reported, except that an option that does not exist is reported before the value in front of it.
-/

namespace BlockFS.CommandLine

/-- Why a command line is not carried out. -/
inductive Refusal where
  | missingArgument
  | unknownCommand
  | unknownArgument
  /-- An option has no value, or a path is empty. -/
  | missingValue
  /-- A value is no number of 32 bits. -/
  | invalidNumber
  /-- An option is given twice. -/
  | repeatedOption
  /-- A value is attached to an option that takes none. -/
  | needlessValue
  | helpAsked
  | versionAsked
  /-- No command is given, so help is shown. -/
  | helpOffered
  deriving DecidableEq, Repr

/-- What a value is. -/
inductive ValueKind where
  | path
  | number
  deriving DecidableEq, Repr

/-- A value that was given. -/
inductive Value where
  | path (text : String)
  | number (n : Nat)
  deriving DecidableEq, Repr

/-- An argument that takes a value, under the name by which the command asks for it. -/
structure Argument where
  name : String
  kind : ValueKind
  deriving DecidableEq, Repr

/-- An option, by its letter and its word. -/
structure OptionForm where
  letter : Char
  word : String
  argument : Argument
  deriving DecidableEq, Repr

/-- The arguments of a command: its places, its options, and whether it can tell its version. -/
structure Grammar where
  places : List Argument
  options : List OptionForm
  version : Bool

/-- A number with an optional sign.  Below zero there is none. -/
def readSigned (text : String) : Option Nat :=
  match text.toList with
  | '-' :: digits =>
    match digits with
    | [] => none
    | digits => (Text.readDigits 0 digits).toOption.filter (· = 0)
  | _ => (Text.readWord text).toOption

/-- Reads a value of the kind asked for. -/
def readValue : ValueKind → String → Except Refusal Value
  | .path, text => if text.isEmpty then .error .missingValue else .ok (.path text)
  | .number, text =>
    match readSigned text with
    | some n => .ok (.number n)
    | none => .error .invalidNumber

/-- How far a command line has been read: the values so far, the last argument with the word given for
it, how many places are filled, and whether only places may follow. -/
structure Progress where
  values : List (String × Value)
  pending : Option (Argument × Option String)
  filled : Nat
  onlyPlaces : Bool

namespace Progress

/-- Nothing read yet. -/
def start : Progress := ⟨[], none, 0, false⟩

/-- Looks at the word of the last argument. -/
def settle (p : Progress) : Except Refusal Progress :=
  match p.pending with
  | none => .ok p
  | some (_, none) => .error .missingValue
  | some (argument, some text) =>
    if p.values.any fun (name, _) => name == argument.name then .error .repeatedOption
    else do
      let value ← readValue argument.kind text
      return { p with values := p.values ++ [(argument.name, value)], pending := none }

/-- Begins another argument, with the word that is attached to it. -/
def begin (p : Progress) (argument : Argument) (attached : Option String) :
    Except Refusal Progress := do
  let p ← p.settle
  let p := { p with pending := some (argument, attached) }
  if attached.isSome then p.settle else return p

end Progress

/-- The name and the attached value of an option given as a word. -/
def splitWord (text : List Char) : String × Option String :=
  (String.ofList (text.takeWhile (· ≠ '=')),
    match text.dropWhile (· ≠ '=') with
    | [] => none
    | _ :: value => some (String.ofList value))

/-- The attached value of an option given as a letter; an equals sign may stand in front. -/
def attachedValue : List Char → Option String
  | [] => none
  | '=' :: value => some (String.ofList value)
  | value => some (String.ofList value)

namespace Grammar

/-- What is asked for by an option without a value. -/
def flag? (g : Grammar) (letter : Char) (word : String) : Option Refusal :=
  if letter = 'h' ∨ word = "help" then some .helpAsked
  else if g.version ∧ (letter = 'V' ∨ word = "version") then some .versionAsked
  else none

/-- Reads an option given as a word. -/
def readLong (g : Grammar) (text : List Char) (p : Progress) : Except Refusal Progress :=
  let (word, attached) := splitWord text
  match g.options.find? fun o => o.word == word with
  | some o => p.begin o.argument attached
  | none =>
    match g.flag? ' ' word with
    | none => .error .unknownArgument
    | some asked =>
      if attached.isSome then .error .needlessValue
      else do
        let _ ← p.settle
        .error asked

/-- Reads an option given as a letter. -/
def readShort (g : Grammar) (letter : Char) (rest : List Char) (p : Progress) :
    Except Refusal Progress :=
  match g.options.find? fun o => o.letter == letter with
  | some o => p.begin o.argument (attachedValue rest)
  | none =>
    match g.flag? letter "" with
    | none => .error .unknownArgument
    | some asked => do
      let _ ← p.settle
      .error asked

/-- Reads a word at the next place. -/
def readPlace (g : Grammar) (text : String) (p : Progress) : Except Refusal Progress :=
  match g.places[p.filled]? with
  | none => .error .unknownArgument
  | some argument => do
    let p ← p.settle
    return { p with pending := some (argument, some text), filled := p.filled + 1 }

/-- Reads a word that is no option: the value that an option waits for, or a place. -/
def readPlain (g : Grammar) (text : String) (p : Progress) : Except Refusal Progress :=
  match p.pending with
  | some (argument, none) => .ok { p with pending := some (argument, some text) }
  | _ => g.readPlace text p

/-- Reads a word. -/
def readArgument (g : Grammar) (p : Progress) (text : String) : Except Refusal Progress :=
  if p.onlyPlaces then g.readPlace text p
  else
    match text.toList with
    | ['-', '-'] => .ok { p with onlyPlaces := true }
    | '-' :: '-' :: long => g.readLong long p
    | '-' :: letter :: rest => g.readShort letter rest p
    | _ => g.readPlain text p

/-- Reads all words after a command; every place must be filled. -/
def read (g : Grammar) (arguments : List String) : Except Refusal (List (String × Value)) := do
  let p ← arguments.foldlM g.readArgument .start
  let p ← p.settle
  if p.filled < g.places.length then throw .missingArgument
  return p.values

end Grammar

end BlockFS.CommandLine
