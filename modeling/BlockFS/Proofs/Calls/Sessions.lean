import BlockFS.Proofs.Calls.Volumes

/-!
# Calls of a session

The calls of a session perform the edits that are told of them, and else change only which files are
open and where their cursors are.
-/

namespace BlockFS

open Volume

namespace Session

variable {l : Layout} {t : SessionScene l} {handle : Nat}

/-! ## Open files -/

theorem does_setFile (handle : Nat) (file : Option OpenFile) :
    Does (setFile handle file) t (.ok ()) ⟨t.scene, t.files.setIfInBounds handle file⟩ :=
  Does.modify fun history => ⟨history, rfl⟩

theorem performs_setFile (hs : t.scene.Good) (file : Option OpenFile) :
    Performs (setFile handle file) [] t :=
  ⟨_, _, does_setFile handle file, .nil hs⟩

theorem does_openFile {file : OpenFile} (hfile : t.files[handle]? = some (some file)) :
    Does (openFile handle) t (.ok file) t := by
  apply Does.get_bind
  intro history
  simp only [Settled.state, hfile]
  exact Does.pure _ _

theorem does_openFile_closed (hfile : ∀ file, t.files[handle]? ≠ some (some file)) :
    Does (openFile handle) t (.error .invalidHandle) t := by
  apply Does.get_bind
  intro history
  simp only [Settled.state]
  exact Does.throw _ _

theorem quiet_openFile (handle : Nat) : Quiet (openFile handle) t := by
  by_cases hfile : ∃ file, t.files[handle]? = some (some file)
  · obtain ⟨file, hfile⟩ := hfile
    exact ⟨_, does_openFile hfile⟩
  · exact ⟨_, does_openFile_closed fun file hopen => hfile ⟨file, hopen⟩⟩

theorem quiet_base (file : OpenFile) (whence : Whence) : Quiet (onVolume (base file whence)) t := by
  apply quiet_onVolume
  cases whence with
  | set => exact .pure _ _
  | current => exact .pure _ _
  | finish => exact quiet_fileSize _

/-! ## Calls -/

/-- Mounting anew closes all files. -/
theorem performs_mount (hs : t.scene.Good) : Performs mount [.mount] t := by
  have hclose : Does (modify fun s => { s with files := noFiles } : SessionM Unit) t (.ok ())
      (SessionScene.mk t.scene noFiles) := Does.modify fun history => ⟨history, rfl⟩
  exact .after hclose rfl (performs_onVolume (performs_of_action .mount hs rfl))

theorem performs_read (hs : t.scene.Good) (length : Nat) : Performs (read handle length) [] t := by
  apply Performs.bind (.of_quiet (quiet_openFile handle) hs)
  intro file t hs
  apply Performs.bind (.of_quiet (quiet_onVolume (quiet_readAt _ _ _)) hs)
  intro data t hs
  exact (performs_setFile hs _).bind_quiet fun _ _ => .pure _ _

/-- A write goes to the cursor, or to the end of a file that is open to append to. -/
theorem performs_write (hs : t.scene.Good) (data : List UInt8) (history : History) :
    Performs (write handle data) (Edit.ofWrite handle data (Settled.state t history)) t := by
  have hfrom (file : OpenFile) (start : Nat) : Performs
      (onVolume (writeAt file.inode start data) >>= fun written =>
        setFile handle (some { file with cursor := start + written }) >>= fun _ => pure written)
      [.write file.inode start data] t := by
    apply Performs.bind (performs_onVolume (performs_edit (.write _ _ _) hs))
    intro n t hs
    exact (performs_setFile hs _).bind_quiet fun _ _ => .pure _ _
  by_cases hfile : ∃ file, t.files[handle]? = some (some file)
  · obtain ⟨file, hfile⟩ := hfile
    have hfile' : (Settled.state t history : Session).files[handle]? = some (some file) := hfile
    rw [Edit.ofWrite, hfile']
    refine .after (does_openFile hfile) rfl ?_
    dsimp only
    by_cases happend : file.append = true
    · rw [if_pos happend, if_pos happend]
      obtain ⟨r, hsize⟩ := quiet_fileSize (s := t.scene) file.inode
      obtain ⟨history', heq⟩ := hsize history
      have heq' : fileSize file.inode (Settled.state t history : Session).volume
          = withState r (Settled.state t.scene history') := heq
      rw [heq']
      cases r with
      | ok start => exact .after (does_onVolume hsize) rfl (hfrom file start)
      | error e => exact .of_quiet ⟨_, (does_onVolume hsize).bind_error⟩ hs
    · rw [if_neg happend, if_neg happend]
      exact .after (Does.pure file.cursor t) rfl (hfrom file file.cursor)
  · have hclosed (file : OpenFile) : t.files[handle]? ≠ some (some file) :=
      fun hopen => hfile ⟨file, hopen⟩
    have hnone : Edit.ofWrite handle data (Settled.state t history) = [] := by
      rw [Edit.ofWrite]
      split
      · next file hopen => exact absurd hopen (hclosed file)
      · rfl
    rw [hnone]
    exact .of_quiet ⟨_, (does_openFile_closed hclosed).bind_error⟩ hs

theorem performs_seek (hs : t.scene.Good) (distance : Int) (whence : Whence) :
    Performs (seek handle distance whence) [] t := by
  apply Performs.bind (.of_quiet (quiet_openFile handle) hs)
  intro file t hs
  apply Performs.bind (.of_quiet (quiet_base file whence) hs)
  intro start t hs
  split
  · next position _ =>
    by_cases hlt : position < UInt32.size
    · simp only [hlt, if_true]
      exact (performs_setFile hs _).bind_quiet fun _ _ => .pure _ _
    · simp only [hlt, if_false]
      exact .of_quiet ⟨_, (Does.throw _ _).bind_error⟩ hs
  · exact .of_quiet (.throw _ _) hs

theorem performs_close (hs : t.scene.Good) : Performs (close handle) [] t :=
  Performs.bind (.of_quiet (quiet_openFile handle) hs) fun _ _ hs => performs_setFile hs _

/-- What is opened is made if it is missing and the flags ask for that. -/
theorem performs_inodeToOpen {s : Scene l} (hs : s.Good) (path : String) (flags : OpenFlags)
    {files : Vector (Option OpenFile) handleCount} {free : Fin handleCount}
    (hfree : files.findFinIdx? Option.isNone = some free) (history : History) :
    Performs (inodeToOpen path flags)
      (Edit.ofOpen path flags ⟨Settled.state s history, files⟩) s := by
  obtain ⟨r, hlocate⟩ := quiet_locate (s := s) path
  obtain ⟨history', heq⟩ := hlocate history
  match r with
  | .ok i =>
    rw [Edit.ofOpen, hfree, heq]
    exact .of_quiet ⟨_, hlocate.tryCatch_ok⟩ hs
  | .error e =>
    by_cases hmake : e = .notFound ∧ flags.create = true
    · obtain ⟨rfl, hcreate⟩ := hmake
      rw [Edit.ofOpen, hfree, heq, hcreate]
      obtain ⟨r, s', hdo, hes⟩ := performs_atPath hs .makeFile path history'
      refine ⟨r, s', hlocate.tryCatch_error ?_, hes⟩
      simp only [hcreate]
      exact hdo
    · have hnone : Edit.ofOpen path flags ⟨Settled.state s history, files⟩ = [] := by
        rw [Edit.ofOpen, heq]
        split
        · next heq' hcreate =>
          injection heq' with he _
          exact absurd ⟨he, hcreate⟩ hmake
        · rfl
      rw [hnone]
      refine .of_quiet ⟨.error e, hlocate.tryCatch_error ?_⟩ hs
      split
      · next hcreate => exact absurd ⟨rfl, hcreate⟩ hmake
      · exact Does.throw _ _

theorem performs_openPath (hs : t.scene.Good) (path : String) (flags : OpenFlags)
    (history : History) :
    Performs (openPath path flags) (Edit.ofOpen path flags (Settled.state t history)) t := by
  match hfree : t.files.findFinIdx? Option.isNone with
  | none =>
    have hfree' : (Settled.state t history : Session).files.findFinIdx? Option.isNone = none :=
      hfree
    have hnone : Edit.ofOpen path flags (Settled.state t history) = [] := by
      rw [Edit.ofOpen, hfree']
    rw [hnone]
    refine .of_quiet ⟨.error .tooManyOpenFiles, Does.get_bind fun history => ?_⟩ hs
    simp only [Settled.state, hfree]
    exact Does.throw _ _
  | some free =>
    have hopen : Performs (onVolume (inodeToOpen path flags))
        (Edit.ofOpen path flags (Settled.state t history)) t :=
      performs_onVolume (performs_inodeToOpen hs path flags hfree history)
    have hrest := Performs.bind (β := Nat) hopen (f := fun inode =>
      onVolume (File.ofInode inode) >>= fun _ =>
        setFile free (some ⟨inode, 0, flags.append⟩) >>= fun _ => pure free.val)
      fun inode t hs => by
        apply Performs.bind (.of_quiet (quiet_onVolume (File.quiet_ofInode _)) hs)
        intro _ t hs
        exact (performs_setFile hs _).bind_quiet fun _ _ => .pure _ _
    obtain ⟨r, t', hdo, hes⟩ := hrest
    refine ⟨r, t', Does.get_bind fun history => ?_, hes⟩
    simp only [Settled.state, hfree]
    exact hdo

end Session

end BlockFS
