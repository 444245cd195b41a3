import BlockFS.Volume.Allocation

/-!
# Views held in memory

A file or a directory is worked on through a view: its records as they were read.  A change is made to
the view and then written, so that a view keeps a change also when writing it fails.
-/

namespace BlockFS

/-- A view and the volume that it is a view of. -/
structure Held (View : Type) where
  view : View
  volume : Volume

/-- An action on a view and its volume that may fail; what it did before it failed stays done. -/
abbrev ViewM (View : Type) := EStateM Error (Held View)

namespace ViewM

variable {View α : Type}

/-- Acts on the volume alone. -/
def onVolume (x : VolumeM α) : ViewM View α
  | ⟨view, volume⟩ =>
    match x volume with
    | .ok a volume => .ok a ⟨view, volume⟩
    | .error e volume => .error e ⟨view, volume⟩

/-- The view as it is now. -/
def current : ViewM View View := return (← get).view

/-- Changes the view in memory. -/
def change (f : View → View) : ViewM View Unit :=
  modify fun ⟨view, volume⟩ => ⟨f view, volume⟩

/-- Acts through a view that is not needed afterwards. -/
def through (view : View) (x : ViewM View α) : VolumeM α := fun volume =>
  match x ⟨view, volume⟩ with
  | .ok a held => .ok a held.volume
  | .error e held => .error e held.volume

end ViewM

end BlockFS
