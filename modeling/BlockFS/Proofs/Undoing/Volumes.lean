import BlockFS.Proofs.Calls.Volumes
import BlockFS.Proofs.Faults.Views

/-!
# Actions that undo what they did

On a device that fails no transfer, an action on a volume that fails leaves it as it was.  Most actions
look first and change nothing after they may fail; making a file or a directory takes back what it took.
-/

namespace BlockFS

open Volume

/-- States that are settled where the plan lets no transfer fail. -/
class Calm (S : Type) {τ : outParam Type} [Settled S τ] [Exposed S τ] : Prop where
  under_never : ∀ (s : S) history, Exposed.under .never s history = Settled.state s history

section

variable {S τ ε α β : Type} [Settled S τ] [Exposed S τ] [Calm S] {x : EStateM ε τ α} {s s' : S}
  {a : α} {e : ε} {Q : α → S → Prop} {E : ε → S → Prop}

theorem Does.ends_ok (hx : Does x s (.ok a) s') (hq : Q a s') : Ends .never x s Q E := by
  intro history
  obtain ⟨history', hx⟩ := hx history
  refine .inl ⟨a, s', history', ?_, hq⟩
  rw [Calm.under_never, Calm.under_never]
  exact hx

theorem Does.ends_error (hx : Does x s (.error e) s') (he : E e s') : Ends .never x s Q E := by
  intro history
  obtain ⟨history', hx⟩ := hx history
  refine .inr ⟨e, s', history', ?_, he⟩
  rw [Calm.under_never, Calm.under_never]
  exact hx

theorem Quiet.ends (hx : Quiet x s) (hq : ∀ a, Q a s) (he : ∀ e, E e s) :
    Ends .never x s Q E := by
  obtain ⟨r, hx⟩ := hx
  cases r with
  | ok a => exact hx.ends_ok (hq a)
  | error e => exact hx.ends_error (he e)

/-- What follows an action that only looks. -/
theorem Quiet.bind_ends {f : α → EStateM ε τ β} {Q : β → S → Prop} (hx : Quiet x s)
    (he : ∀ e, E e s) (hf : ∀ a, Ends .never (f a) s Q E) : Ends .never (x >>= f) s Q E := by
  have hlook : Ends .never x s (fun _ s' => s' = s) E := hx.ends (fun _ => rfl) he
  refine hlook.bind fun a s' hs => ?_
  rw [hs]
  exact hf a

end

namespace Scene

variable {l : Layout} {s s' : Scene l} {k : Kind} {i : Nat}

instance : Calm (Scene l) := ⟨fun _ _ => rfl⟩

/-- An inode was linked before, or was made as one of a kind. -/
def Obtains (k : Kind) (s : Scene l) (i : Nat) (s' : Scene l) : Prop :=
  s' = s ∨ (s'.mounted = true ∧ s'.records.kind i = k)

/-- The record of an inode that was just made can be read. -/
theorem Obtains.ends_readInode (h : Obtains k s i s') (hk : k ≠ .free) :
    Ends .never (readInode i) s' (fun x t => t = s' ∧ (s' = s ∨ x.kind = k))
      (fun _ t => t = s) := by
  rcases h with rfl | ⟨hm, rfl⟩
  · exact (quiet_readInode i).ends (fun _ => ⟨rfl, .inl rfl⟩) fun _ => rfl
  · have hused := Records.used_of_kind_ne hk
    exact (does_readInode hm hused).ends_ok ⟨rfl, .inr (Records.kind_of_used hused).symm⟩

/-- A file that was just made can be opened. -/
theorem Obtains.ends_ofInode (h : Obtains .file s i s') :
    Ends .never (File.ofInode i) s' (fun _ _ => True) (fun _ t => t = s) := by
  rcases h with rfl | ⟨hm, hk⟩
  · exact (File.quiet_ofInode i).ends (fun _ => trivial) fun _ => rfl
  · exact (File.does_ofInode hm hk).ends_ok trivial

end Scene

/-! ## Changes of a volume -/

variable {l : Layout} {s : Scene l}

namespace Volume

/-- A file for which there is no slot is taken back. -/
theorem undoes_makeFile (hs : s.Good) (p : Nat) (name : String) :
    Ends .never (makeFile p name) s (Scene.Obtains .file s) (fun _ s' => s.Intact s') := by
  by_cases hm : s.mounted = true
  · obtain ⟨r, s', hdo, hr⟩ := Scene.makeFile_step hm hs p name
    rcases hr with ⟨e, rfl, hintact⟩ | ⟨i, rfl, rfl, -⟩ | ⟨i, n, rfl, -, -, hmakes⟩
    · exact hdo.ends_error hintact
    · exact hdo.ends_ok (.inl rfl)
    · exact hdo.ends_ok (.inr ⟨hmakes.mounted.trans hm, (hmakes.kind_eq i).trans (if_pos rfl)⟩)
  · obtain ⟨e, hdo⟩ := does_makeFile_unmounted (Bool.eq_false_iff.mpr hm) p name
    exact hdo.ends_error (.refl s)

/-- A directory for which there is no block or no slot is taken back. -/
theorem undoes_makeDirectory (hs : s.Good) (p : Nat) (name : String) :
    Ends .never (makeDirectory p name) s (Scene.Obtains .directory s)
      (fun _ s' => s.Intact s') := by
  by_cases hm : s.mounted = true
  · obtain ⟨r, s', hdo, hr⟩ := Scene.makeDirectory_step hm hs p name
    rcases hr with ⟨e, rfl, hintact⟩ | ⟨i, b, n, rfl, -, hmakes⟩
    · exact hdo.ends_error hintact
    · exact hdo.ends_ok (.inr ⟨hmakes.mounted.trans hm, (hmakes.kind_eq i).trans (if_pos rfl)⟩)
  · exact (quiet_makeDirectory_unmounted (Bool.eq_false_iff.mpr hm) p name).ends
      (fun _ => .inl rfl) fun _ => .refl s

/-- A write that fails changes nothing, and neither does one that writes nothing. -/
theorem undoes_writeAt (hs : s.Good) (i offset : Nat) (data : List UInt8) :
    Ends .never (writeAt i offset data) s (fun n s' => n = 0 → s' = s)
      (fun _ s' => s.Intact s') := by
  by_cases hm : s.mounted = true
  · by_cases hi : s.records.kind i = .file
    · obtain ⟨r, s', n, hdo, hputs, -, hr⟩ :=
        does_writeAt hm hs.tidy hi (Cells.shows_ofContent _) offset data
      rcases hr with ⟨rfl, -⟩ | ⟨rfl, -, rfl⟩
      · exact hdo.ends_ok hputs.idle
      · exact hdo.ends_error (.refl _)
    · obtain ⟨e, hdo⟩ := does_ofInode_other hm hi
      exact Does.ends_error hdo.bind_error (.refl s)
  · exact (does_writeAt_unmounted (Bool.eq_false_iff.mpr hm) i offset data).ends_error (.refl s)

theorem undoes_unlink (hs : s.Good) (p : Nat) (name : String) :
    Ends .never (unlink p name) s (fun _ _ => True) (fun _ s' => s.Intact s') := by
  by_cases hm : s.mounted = true
  · obtain ⟨r, s', hdo, hr⟩ := Scene.unlink_step hm hs p name
    rcases hr with ⟨e, rfl, rfl⟩ | ⟨rfl, -⟩
    · exact hdo.ends_error (.refl _)
    · exact hdo.ends_ok trivial
  · exact (quiet_unlink_unmounted (Bool.eq_false_iff.mpr hm) p name).ends (fun _ => trivial)
      fun _ => .refl s

theorem undoes_relabel (hs : s.Good) (p : Nat) (old new : String) :
    Ends .never (relabel p old new) s (fun _ _ => True) (fun _ s' => s.Intact s') := by
  by_cases hm : s.mounted = true
  · obtain ⟨r, s', hdo, hr⟩ := Scene.relabel_step hm hs p old new
    rcases hr with ⟨rfl, -⟩ | ⟨rfl, -⟩
    · exact Quiet.ends ⟨r, hdo⟩ (fun _ => trivial) fun _ => .refl _
    · exact hdo.ends_ok trivial
  · exact (quiet_relabel_unmounted (Bool.eq_false_iff.mpr hm) p old new).ends (fun _ => trivial)
      fun _ => .refl s

theorem undoes_enter (path : String) :
    Ends .never (enter path) s (fun _ _ => True) (fun _ s' => s.Intact s') := by
  obtain ⟨r, s', hdo, hr⟩ := enter_step (s := s) path
  rcases hr with rfl | ⟨i, rfl, -⟩
  · exact Quiet.ends ⟨r, hdo⟩ (fun _ => trivial) fun _ => .refl _
  · exact hdo.ends_ok trivial

theorem undoes_enterRoot : Ends .never enterRoot s (fun _ _ => True) (fun _ s' => s.Intact s') := by
  obtain ⟨r, s', hdo, hr⟩ := enterRoot_step (s := s)
  rcases hr with rfl | ⟨rfl, -⟩
  · exact Quiet.ends ⟨r, hdo⟩ (fun _ => trivial) fun _ => .refl _
  · exact hdo.ends_ok trivial

/-! ### Where a path leads, and in the current directory -/

theorem undoes_makeFileAt (hs : s.Good) (path : String) :
    Ends .never (makeFileAt path) s (Scene.Obtains .file s) (fun _ s' => s.Intact s') :=
  (quiet_splitPath path).bind_ends (fun _ => .refl s) fun _ => undoes_makeFile hs _ _

theorem undoes_makeDirectoryAt (hs : s.Good) (path : String) :
    Ends .never (makeDirectoryAt path) s (Scene.Obtains .directory s)
      (fun _ s' => s.Intact s') :=
  (quiet_splitPath path).bind_ends (fun _ => .refl s) fun _ => undoes_makeDirectory hs _ _

theorem undoes_here {x : Nat → VolumeM Unit}
    (hx : Ends .never (x s.cwd) s (fun _ _ => True) (fun _ s' => s.Intact s')) :
    Ends .never (getLayout >>= fun _ => get >>= fun v => x v.cwd) s (fun _ _ => True)
      (fun _ s' => s.Intact s') := by
  have hlayout : Quiet getLayout s := by
    by_cases hm : s.mounted = true
    · exact ⟨_, does_getLayout hm⟩
    · exact ⟨_, does_getLayout_unmounted (Bool.eq_false_iff.mpr hm)⟩
  exact hlayout.bind_ends (fun _ => .refl s) fun _ => .get_bind fun _ => hx

theorem undoes_unlinkHere (hs : s.Good) (name : String) :
    Ends .never (unlinkHere name) s (fun _ _ => True) (fun _ s' => s.Intact s') :=
  undoes_here (x := (unlink · name)) (undoes_unlink hs _ _)

theorem undoes_relabelHere (hs : s.Good) (old new : String) :
    Ends .never (relabelHere old new) s (fun _ _ => True) (fun _ s' => s.Intact s') :=
  undoes_here (x := (relabel · old new)) (undoes_relabel hs _ _ _)

end Volume

/-- An edit that fails leaves the volume as it was. -/
theorem Edit.undoes (e : Edit) (hs : s.Good) :
    Ends .never e.action s (fun _ _ => True) (fun _ s' => s.Intact s') := by
  have hanswers {x : VolumeM Unit}
      (hx : Ends .never x s (fun _ _ => True) (fun _ s' => s.Intact s')) :
      Ends .never (x >>= fun _ => pure 0) s (fun _ _ => True) (fun _ s' => s.Intact s') :=
    hx.bind fun _ _ _ => .pure trivial
  cases e with
  | wait clock => exact (Scene.does_wait clock).ends_ok trivial
  | mount => exact hanswers (does_mount.ends_ok trivial)
  | unmount => exact hanswers (does_unmount.ends_ok trivial)
  | makeFile p name => exact (undoes_makeFile hs p name).ignore
  | makeDirectory p name => exact (undoes_makeDirectory hs p name).ignore
  | write i offset data => exact (undoes_writeAt hs i offset data).ignore
  | unlink p name => exact hanswers (undoes_unlink hs p name)
  | relabel p old new => exact hanswers (undoes_relabel hs p old new)
  | enter path => exact undoes_enter path
  | enterRoot => exact hanswers undoes_enterRoot

end BlockFS
