import BlockFS.Error

/-!
# Paths of a host

A path is a text of bytes.  Slashes divide it into components, of which several in a row are one.  A
slash in front makes it start at the root, and a slash behind asks for a folder.
-/

namespace BlockFS.Host

/-- A component of a path. -/
abbrev Component := List UInt8

/-- The components that lead from the root to a node, without links. -/
abbrev Place := List Component

/-- The byte between components. -/
def slash : UInt8 := 0x2F

/-- The component that is the folder itself. -/
def here : Component := [0x2E]

/-- The component that is the parent of the folder. -/
def up : Component := [0x2E, 0x2E]

/-- The number of bytes in the longest component. -/
def componentLimit : Nat := 255

/-- The number of bytes in the longest path. -/
def pathLimit : Nat := 4095

/-- A path, divided into its components. -/
structure Path where
  fromRoot : Bool
  components : List Component
  /-- Whether a slash stands behind the last component. -/
  asksFolder : Bool

namespace Path

/-- Puts a byte in front of the pieces between slashes. -/
def addToPieces (b : UInt8) : List Component → List Component
  | [] => if b = slash then [[], []] else [[b]]
  | c :: rest => if b = slash then [] :: c :: rest else (b :: c) :: rest

/-- Divides the bytes of a path. -/
def ofBytes (raw : List UInt8) : Path where
  fromRoot := raw.head? = some slash
  components := (raw.foldr addToPieces [[]]).filter fun c => !c.isEmpty
  asksFolder := raw.getLast? = some slash

/-- Refuses a zero byte, with which a path would end too early. -/
def refuseZero (raw : List UInt8) : Except IoError Unit :=
  if raw.contains 0 then .error (.told "file name contained an unexpected NUL byte") else .ok ()

/-- Reads a path that a call on the host is given. -/
def read (raw : List UInt8) : Except IoError Path := do
  refuseZero raw
  if raw.isEmpty then throw (.os Errno.noEntry)
  if pathLimit < raw.length then throw (.os Errno.nameTooLong)
  return ofBytes raw

/-- The bytes of the path to what a folder holds under a name. -/
def join (folder : List UInt8) (name : Component) : List UInt8 :=
  if folder.getLast? = some slash then folder ++ name else folder ++ slash :: name

/-- The place at which the path starts, seen from a folder. -/
def origin (p : Path) (folder : Place) : Place := if p.fromRoot then [] else folder

/-- The components that are not the folder itself. -/
def steps (p : Path) : List Component := p.components.filter fun c => c != here

end Path

end BlockFS.Host
