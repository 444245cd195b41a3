import BlockFS.Proofs.Calls.Sessions
import BlockFS.Proofs.Undoing.Volumes

/-!
# Calls of a session that fail

A call of a session that fails leaves the volume as it was, and also which files are open and where
their cursors are.
-/

namespace BlockFS

open Volume

variable {l : Layout} {plan : FaultPlan} {α : Type}

instance : Exposed (SessionScene l) Session where
  under plan t history := ⟨Exposed.under plan t.scene history, t.files⟩

instance : Calm (SessionScene l) := ⟨fun _ _ => rfl⟩

/-- What a session holds stayed as it was. -/
structure SessionScene.Intact (t t' : SessionScene l) : Prop where
  scene : t.scene.Intact t'.scene
  files : t'.files = t.files

theorem SessionScene.Intact.refl (t : SessionScene l) : t.Intact t := ⟨.refl t.scene, rfl⟩

namespace Session

variable {t : SessionScene l} {handle : Nat}

theorem ends_onVolume {x : VolumeM α} {Q : α → Scene l → Prop} {E : Error → Scene l → Prop}
    (hx : Ends plan x t.scene Q E) :
    Ends plan (onVolume x) t (fun a t' => t'.files = t.files ∧ Q a t'.scene)
      (fun e t' => t'.files = t.files ∧ E e t'.scene) := by
  intro history
  simp only [Exposed.under, onVolume]
  rcases hx history with ⟨a, s', h', hx, hq⟩ | ⟨e, s', h', hx, he⟩
  · simp only [Exposed.under] at hx
    simp only [hx]
    exact .inl ⟨a, ⟨s', t.files⟩, h', rfl, rfl, hq⟩
  · simp only [Exposed.under] at hx
    simp only [hx]
    exact .inr ⟨e, ⟨s', t.files⟩, h', rfl, rfl, he⟩

/-- An action on the volume that undoes what it did does so in a session. -/
theorem undoes_onVolume {x : VolumeM α} {Q : α → Scene l → Prop}
    (hx : Ends .never x t.scene Q fun _ s' => t.scene.Intact s') :
    Ends .never (onVolume x) t (fun a t' => t'.files = t.files ∧ Q a t'.scene)
      (fun _ t' => t.Intact t') :=
  (ends_onVolume hx).weaken fun _ _ he => ⟨he.2, he.1⟩

/-- Putting a file under a handle cannot fail. -/
theorem ends_setFile_pure {E : Error → SessionScene l → Prop} (file : Option OpenFile) (a : α) :
    Ends .never (setFile handle file >>= fun _ => pure a) t (fun _ _ => True) E :=
  ((does_setFile handle file).bind (Does.pure a _)).ends_ok trivial

theorem undoes_read (length : Nat) :
    Ends .never (read handle length) t (fun _ _ => True) (fun _ t' => t.Intact t') :=
  (quiet_openFile handle).bind_ends (fun _ => .refl t) fun _ =>
    (quiet_onVolume (quiet_readAt _ _ _)).bind_ends (fun _ => .refl t) fun _ =>
      ends_setFile_pure _ _

theorem undoes_write (hs : t.scene.Good) (data : List UInt8) :
    Ends .never (write handle data) t (fun _ _ => True) (fun _ t' => t.Intact t') := by
  refine (quiet_openFile handle).bind_ends (fun _ => .refl t) fun file => ?_
  have hfrom (start : Nat) : Ends .never
      (onVolume (writeAt file.inode start data) >>= fun written =>
        setFile handle (some { file with cursor := start + written }) >>= fun _ => pure written)
      t (fun _ _ => True) (fun _ t' => t.Intact t') :=
    (undoes_onVolume (undoes_writeAt hs _ _ _)).bind fun _ _ _ => ends_setFile_pure _ _
  by_cases happend : file.append = true
  · rw [if_pos happend]
    exact (quiet_onVolume (quiet_fileSize _)).bind_ends (fun _ => .refl t) hfrom
  · rw [if_neg happend]
    exact hfrom file.cursor

theorem undoes_seek (distance : Int) (whence : Whence) :
    Ends .never (seek handle distance whence) t (fun _ _ => True) (fun _ t' => t.Intact t') := by
  refine (quiet_openFile handle).bind_ends (fun _ => .refl t) fun file => ?_
  refine (quiet_base file whence).bind_ends (fun _ => .refl t) fun start => ?_
  split
  · next position _ =>
    by_cases hlt : position < UInt32.size
    · simp only [hlt, if_true]
      exact ends_setFile_pure _ _
    · simp only [hlt, if_false]
      exact Ends.throw_bind (.refl t)
  · exact .throw (.refl t)

theorem undoes_close :
    Ends .never (close handle) t (fun _ _ => True) (fun _ t' => t.Intact t') :=
  (quiet_openFile handle).bind_ends (fun _ => .refl t) fun _ =>
    (does_setFile handle none).ends_ok trivial

theorem undoes_mount : Ends .never mount t (fun _ _ => True) (fun _ t' => t.Intact t') := by
  have hclose : Does (modify fun s => { s with files := noFiles } : SessionM Unit) t (.ok ())
      (SessionScene.mk t.scene noFiles) := Does.modify fun history => ⟨history, rfl⟩
  exact (hclose.bind (does_onVolume does_mount)).ends_ok trivial

theorem undoes_inodeToOpen {s : Scene l} (hs : s.Good) (path : String) (flags : OpenFlags) :
    Ends .never (inodeToOpen path flags) s (Scene.Obtains .file s) (fun _ s' => s.Intact s') := by
  have hlocate : Ends .never (locate path) s (Scene.Obtains .file s) (fun _ s' => s' = s) :=
    (quiet_locate path).ends (fun _ => .inl rfl) fun _ => rfl
  refine hlocate.tryCatch fun e s' heq => ?_
  rw [heq]
  split
  · exact undoes_makeFileAt hs path
  · exact .throw (.refl s)

/-- What was made to be opened can be opened. -/
theorem undoes_openPath (hs : t.scene.Good) (path : String) (flags : OpenFlags) :
    Ends .never (openPath path flags) t (fun _ _ => True) (fun _ t' => t.Intact t') := by
  refine Ends.get_bind fun history => ?_
  match hfree : t.files.findFinIdx? Option.isNone with
  | none => exact .throw (.refl t)
  | some free =>
    refine (undoes_onVolume (undoes_inodeToOpen hs path flags)).bind fun i t' hi => ?_
    obtain ⟨hfiles, hobtains⟩ := hi
    have hopen : Ends .never (onVolume (File.ofInode i)) t' (fun _ _ => True)
        (fun _ t' => t.Intact t') := by
      refine (ends_onVolume hobtains.ends_ofInode).ignore.weaken fun _ t'' he => ?_
      exact ⟨he.2 ▸ .refl _, he.1.trans hfiles⟩
    exact hopen.bind fun _ _ _ => ends_setFile_pure _ _

end Session

end BlockFS
