import BlockFS.Bytes
import BlockFS.Error

/-!
# Stored names

A directory stores the first 14 bytes of a name, filled up with zeros.  Two names with the same first
14 bytes are the same name to it.
-/

namespace BlockFS

/-- The number of bytes of a name that are stored. -/
abbrev nameWidth : Nat := 14

/-- A name as a directory stores it. -/
abbrev StoredName := Bytes nameWidth

namespace StoredName

/-- The stored form of a name.  A name must not be empty and must not hold a zero byte, also not
behind the bytes that are stored. -/
def encode (name : String) : Except Error StoredName :=
  let raw := name.toUTF8.toList
  if raw.isEmpty ∨ raw.contains 0 then .error .invalidName
  else .ok (.ofList nameWidth raw)

/-- The bytes of a stored name that come before its padding. -/
def bytes (n : StoredName) : List UInt8 := n.toList.takeWhile (· ≠ 0)

/-- Whether the stored name is `.` or `..`. -/
def isSelfOrParent (n : StoredName) : Bool :=
  n[0] == 0x2E && (n[1] == 0 || (n[1] == 0x2E && n[2] == 0))

end StoredName

/-- Whether a name is `.` or `..`, by which a directory knows itself and its parent. -/
def isSelfOrParent (name : String) : Bool := name == "." || name == ".."

end BlockFS
