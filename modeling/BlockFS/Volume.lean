import BlockFS.Bitmap
import BlockFS.Inode

/-!
# Volumes

A volume is a device with a layout, once its superblock has been read and checked, and a current
directory.  Nothing else of it is kept in memory: each call reads the records it needs and writes
them back.
-/

namespace BlockFS

/-- A volume and the clock that its changes are stamped with.  Without a layout it is not mounted. -/
structure Volume where
  device : Device
  clock : Int
  layout : Option Layout
  cwd : Nat

/-- An action on a volume that may fail; what it did before it failed stays done. -/
abbrev VolumeM := EStateM Error Volume

/-- Acts on the device of a volume. -/
def onDevice {α : Type} (x : DeviceM α) : VolumeM α
  | ⟨device, clock, layout, cwd⟩ =>
    match x device with
    | .ok a device => .ok a ⟨device, clock, layout, cwd⟩
    | .error e device => .error e ⟨device, clock, layout, cwd⟩

namespace Volume

/-! ## Mounting -/

/-- A device that is not mounted. -/
def unmounted (device : Device) (clock : Int) : Volume := ⟨device, clock, none, rootInode⟩

/-- Whether the layout is known. -/
def isMounted (v : Volume) : Bool := v.layout.isSome

/-- Puts a layout into force, or takes it away. -/
def setLayout (layout : Option Layout) : VolumeM Unit :=
  modify fun ⟨device, clock, _, cwd⟩ => ⟨device, clock, layout, cwd⟩

/-- Moves to another current directory. -/
def setCwd (index : Nat) : VolumeM Unit :=
  modify fun ⟨device, clock, layout, _⟩ => ⟨device, clock, layout, index⟩

/-- Reads the superblock and starts in the root directory.  A volume that could be mounted before and
cannot now is not mounted any more. -/
def mount : VolumeM Unit := do
  setLayout none
  let layout ← onDevice Device.readLayout
  setLayout (some layout)
  setCwd rootInode

/-- Forgets the layout. -/
def unmount : VolumeM Unit := setLayout none

/-- The layout of a mounted volume. -/
def getLayout : VolumeM Layout := do
  match (← get).layout with
  | some layout => return layout
  | none => throw .notMounted

/-- The mounted volume on a device, or the failure and the device as it is then. -/
def openOn (device : Device) (clock : Int) : EStateM.Result Error Volume Unit :=
  mount (unmounted device clock)

end Volume

end BlockFS
