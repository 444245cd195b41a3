import BlockFS.Disk
import BlockFS.Error

/-!
# Devices

A device is a disk behind sector transfers, each of which may fail.  Which ones fail is a plan that
may look at the transfer asked for and at what went before, so that every pattern of failures is one.
A failed transfer changes nothing on the disk.
-/

namespace BlockFS

/-- A transfer of one sector, named by its number. -/
inductive Transfer where
  | read (sector : Nat)
  | write (sector : Nat)
  deriving DecidableEq, Repr

/-- What a plan may remember: the transfers asked for and the writes done since it was set. -/
structure History where
  asked : Nat
  written : Nat
  deriving DecidableEq, Repr

/-- Which transfers fail, and with what cause. -/
abbrev FaultPlan := History → Transfer → Option IoError

/-- The plan under which no transfer fails. -/
def FaultPlan.never : FaultPlan := fun _ _ => none

/-- Rules that make up a plan: every transfer fails, or those of some sectors, or all writes after a
number of successful ones. -/
structure FaultRules where
  all : Bool
  readSectors : List Nat
  writeSectors : List Nat
  writesLeft : Option Nat
  cause : IoError

/-- Whether the rules let a transfer fail. -/
def FaultRules.hits (rules : FaultRules) (history : History) : Transfer → Bool
  | .read sector => rules.all || rules.readSectors.contains sector
  | .write sector =>
    rules.all || rules.writeSectors.contains sector || rules.writesLeft.any (· ≤ history.written)

/-- The plan that some rules make up. -/
def FaultRules.plan (rules : FaultRules) : FaultPlan := fun history transfer =>
  if rules.hits history transfer then some rules.cause else none

/-- A disk and the plan of its failures. -/
structure Device where
  disk : Disk
  faults : FaultPlan
  history : History

namespace Device

/-- A device that never fails. -/
def reliable (disk : Disk) : Device := ⟨disk, .never, ⟨0, 0⟩⟩

/-- The device under another plan, which remembers nothing yet. -/
def withFaults (d : Device) (faults : FaultPlan) : Device := ⟨d.disk, faults, ⟨0, 0⟩⟩

end Device

/-- An action on a device that may fail; what it did before it failed stays done. -/
abbrev DeviceM := EStateM Error Device

namespace Device

/-- The cause of a read that goes past the end of the disk. -/
def shortRead : IoError := .told "failed to fill whole buffer"

/-- Reads sector `k`. -/
def readSector (k : Nat) : DeviceM Sector
  | ⟨disk, faults, history⟩ =>
    let asked := { history with asked := history.asked + 1 }
    match faults history (.read k) with
    | some cause => .error (.device cause) ⟨disk, faults, asked⟩
    | none =>
      match disk.sector? k with
      | some s => .ok s ⟨disk, faults, asked⟩
      | none => .error (.device shortRead) ⟨disk, faults, asked⟩

/-- Writes sector `k`. -/
def writeSector (k : Nat) (s : Sector) : DeviceM Unit
  | ⟨disk, faults, history⟩ =>
    let asked := { history with asked := history.asked + 1 }
    match faults history (.write k) with
    | some cause => .error (.device cause) ⟨disk, faults, asked⟩
    | none =>
      .ok () ⟨disk.writeSector k s, faults, { asked with written := history.written + 1 }⟩

end Device

end BlockFS
