import BlockFS.Proofs.Edits

/-!
# Performing edits

An action on a volume, on a session, or of a server performs a row of edits if it leaves the volume
behind as these edits do, one after another.  Actions that only look perform no edit, before, between
or after others.
-/

namespace BlockFS

/-- The settled state of a session. -/
structure SessionScene (l : Layout) where
  scene : Scene l
  files : Vector (Option OpenFile) handleCount

/-- The settled state of a server. -/
structure ServerScene (l : Layout) where
  scene : Scene l
  owner : Nat
  group : Nat

instance {l : Layout} : Settled (SessionScene l) Session where
  state t history := ⟨Settled.state t.scene history, t.files⟩

instance {l : Layout} : Settled (ServerScene l) Kernel.Server where
  state t history := ⟨Settled.state t.scene history, t.owner, t.group⟩

/-- Settled states with a scene in them. -/
class Staged (S : Type) (l : outParam Layout) where
  scene : S → Scene l

instance {l : Layout} : Staged (Scene l) l := ⟨id⟩

instance {l : Layout} : Staged (SessionScene l) l := ⟨SessionScene.scene⟩

instance {l : Layout} : Staged (ServerScene l) l := ⟨ServerScene.scene⟩

/-- An action changes the scene in a settled state as a row of edits does. -/
def Performs {S τ ε α : Type} {l : Layout} [Settled S τ] [Staged S l] (x : EStateM ε τ α)
    (es : List Edit) (t : S) : Prop :=
  ∃ r t', Does x t r t' ∧ Scene.TakesAll es (Staged.scene t) (Staged.scene t')

namespace Performs

variable {S τ ε α β : Type} {l : Layout} [Settled S τ] [Staged S l] {t t' : S}
  {x : EStateM ε τ α} {f : α → EStateM ε τ β} {a : α} {es es' : List Edit}

theorem of_quiet (hx : Quiet x t) (hs : (Staged.scene t).Good) : Performs x [] t := by
  obtain ⟨r, hx⟩ := hx
  exact ⟨r, t, hx, .nil hs⟩

/-- What is done first keeps the scene. -/
theorem after (hx : Does x t (.ok a) t') (hscene : Staged.scene t' = Staged.scene t)
    (hf : Performs (f a) es t') : Performs (x >>= f) es t := by
  obtain ⟨r, t'', hf, hes⟩ := hf
  refine ⟨r, t'', hx.bind hf, ?_⟩
  rw [← hscene]
  exact hes

theorem bind (hx : Performs x es t)
    (hf : ∀ a (t' : S), (Staged.scene t').Good → Performs (f a) [] t') :
    Performs (x >>= f) es t := by
  obtain ⟨r, t', hx, hes⟩ := hx
  cases r with
  | error e => exact ⟨_, t', hx.bind_error, hes⟩
  | ok a =>
    obtain ⟨r, t'', hf, hnil⟩ := hf a t' hes.good
    refine ⟨r, t'', hx.bind hf, ?_⟩
    rw [← List.append_nil es]
    exact hes.append hnil

theorem bind_quiet (hx : Performs x es t) (hf : ∀ a (t' : S), Quiet (f a) t') :
    Performs (x >>= f) es t :=
  hx.bind fun a t' hs => of_quiet (hf a t') hs

theorem map {g : α → β} (hx : Performs x es t) : Performs (g <$> x) es t := by
  obtain ⟨r, t', hx, hes⟩ := hx
  cases r with
  | ok a => exact ⟨_, t', hx.map, hes⟩
  | error e => exact ⟨_, t', hx.map_error, hes⟩

end Performs

/-- An action without a result does the same when a number follows. -/
theorem Does.of_bind_pure {S τ ε β : Type} [Settled S τ] {x : EStateM ε τ Unit} {s s' : S} {b : β}
    {r : Except ε β} (hx : Does (x >>= fun _ => Pure.pure b) s r s') :
    Does x s (r.map fun _ => ()) s' := by
  intro history
  obtain ⟨history', hx⟩ := hx history
  refine ⟨history', ?_⟩
  change EStateM.bind x _ _ = _ at hx
  cases hfirst : x (Settled.state s history) with
  | ok u t =>
    simp only [EStateM.bind, hfirst] at hx
    cases r with
    | ok b' =>
      injection hx with _ ht
      rw [ht]
      rfl
    | error e => cases hx
  | error e t =>
    simp only [EStateM.bind, hfirst] at hx
    cases r with
    | ok b' => cases hx
    | error e' =>
      injection hx with he ht
      rw [he, ht]
      rfl

section

variable {l : Layout} {s : Scene l}

/-- An edit performs itself. -/
theorem performs_edit (e : Edit) (hs : s.Good) : Performs e.action [e] s := by
  obtain ⟨r, s', he⟩ := Scene.takes e hs
  exact ⟨r, s', he.does, he.all⟩

/-- An edit that answers nothing performs itself. -/
theorem performs_of_action (e : Edit) (hs : s.Good) {x : VolumeM Unit}
    (hx : e.action = x >>= fun _ => pure 0) : Performs x [e] s := by
  obtain ⟨r, s', he⟩ := Scene.takes e hs
  have hdo := he.does
  rw [hx] at hdo
  exact ⟨_, s', hdo.of_bind_pure, he.all⟩

/-! ## Acting on the volume of a session or of a server -/

namespace Session

variable {files : Vector (Option OpenFile) handleCount} {α : Type} {x : VolumeM α}
  {r : Except Error α} {s' : Scene l} {es : List Edit}

theorem does_onVolume (hx : Does x s r s') :
    Does (onVolume x) (SessionScene.mk s files) r (SessionScene.mk s' files) := by
  intro history
  obtain ⟨history', hx⟩ := hx history
  refine ⟨history', ?_⟩
  simp only [Settled.state] at hx ⊢
  simp only [onVolume, hx]
  cases r with
  | ok a => rfl
  | error e => rfl

theorem performs_onVolume (hx : Performs x es s) :
    Performs (onVolume x) es (SessionScene.mk s files) := by
  obtain ⟨r, s', hx, hes⟩ := hx
  exact ⟨r, ⟨s', files⟩, does_onVolume hx, hes⟩

theorem quiet_onVolume (hx : Quiet x s) : Quiet (onVolume x) (SessionScene.mk s files) := by
  obtain ⟨r, hx⟩ := hx
  exact ⟨r, does_onVolume hx⟩

end Session

namespace Kernel

variable {owner group : Nat} {α : Type} {x : VolumeM α} {r : Except Error α} {s' : Scene l}
  {es : List Edit}

theorem does_onVolume (hx : Does x s r s') :
    Does (onVolume x) (ServerScene.mk s owner group) (r.mapError Error.errno)
      (ServerScene.mk s' owner group) := by
  intro history
  obtain ⟨history', hx⟩ := hx history
  refine ⟨history', ?_⟩
  simp only [Settled.state] at hx ⊢
  simp only [onVolume, hx]
  cases r with
  | ok a => rfl
  | error e => rfl

theorem performs_onVolume (hx : Performs x es s) :
    Performs (onVolume x) es (ServerScene.mk s owner group) := by
  obtain ⟨r, s', hx, hes⟩ := hx
  exact ⟨_, ⟨s', owner, group⟩, does_onVolume hx, hes⟩

theorem quiet_onVolume (hx : Quiet x s) : Quiet (onVolume x) (ServerScene.mk s owner group) := by
  obtain ⟨r, hx⟩ := hx
  exact ⟨_, does_onVolume hx⟩

end Kernel

end

end BlockFS
