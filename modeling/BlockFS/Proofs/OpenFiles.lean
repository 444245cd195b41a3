import BlockFS.Proofs.Runs

/-!
# Open files

No call gives a handle that stays open another file: only its cursor moves.  Opening a path puts what the
path leads to, made if it is missing and the flags ask for it, under a handle that was free.
-/

namespace BlockFS

open Volume

/-! ## What a path leads to -/

section

variable {l : Layout} {s s' : Scene l} {i : Nat}

theorem File.kind_of_does_ofInode {f : File}
    (hload : Does (File.ofInode i) s (.ok f) s') : s.records.kind i = .file := by
  by_contra hi
  obtain ⟨e, hfails⟩ := does_ofInode_fails fun _ => hi
  cases (hload.result_unique hfails ⟨0, 0⟩).1

/-- A path leads to the file that was made under it, or that was there. -/
theorem Volume.makeFileAt_step (hs : s.Good) (path : String) :
    ∃ r s', Does (makeFileAt path) s r s' ∧ ∀ i, r = .ok i → Does (locate path) s' (.ok i) s' := by
  by_cases hm : s.mounted = true
  · cases hstart : s.start path with
    | mk p name =>
      have hsplit := does_splitPath hm path
      rw [hstart] at hsplit
      obtain ⟨r, s', hmake, hr⟩ := Scene.makeFile_step hm hs p name
      refine ⟨r, s', hsplit.bind hmake, ?_⟩
      rcases hr with ⟨e, rfl, -⟩ | ⟨i, rfl, rfl, hfound⟩ | ⟨i, n, rfl, hn, -, hmakes⟩
      · exact fun _ h => by cases h
      · rintro _ ⟨⟩
        obtain ⟨n, -, hn, -⟩ := Scene.slot_of_find? hfound
        exact does_locate_found hm hs hstart hn hfound
      · rintro _ ⟨⟩
        have hstart' : s'.start path = (p, name) := by
          rw [Scene.start, hmakes.cwd]
          exact hstart
        exact does_locate_found (hmakes.mounted.trans hm) (hmakes.good hs) hstart' hn
          (hmakes.find?_eq hs hn)
  · have hsplit := does_splitPath_unmounted (Bool.eq_false_iff.mpr hm) path
    exact ⟨_, s, hsplit.bind_error, fun _ h => by cases h⟩

end

/-! ## Which files are open after a call -/

/-- The open files after a call: a handle that was open, and still is, has the file that it had, with
another cursor or the same. -/
def KeepsFiles (files files' : Vector (Option OpenFile) handleCount) : Prop :=
  ∀ (handle : Nat) (file file' : OpenFile), files[handle]? = some (some file) →
    files'[handle]? = some (some file') → file' = { file with cursor := file'.cursor }

namespace KeepsFiles

variable {files : Vector (Option OpenFile) handleCount} {handle : Nat}

theorem refl (files : Vector (Option OpenFile) handleCount) : KeepsFiles files files := by
  intro handle file file' h h'
  cases h.symm.trans h'
  rfl

/-- Putting the same file with another cursor under a handle, or any file under one that was closed. -/
theorem put {opened : Option OpenFile}
    (hput : ∀ file file', files[handle]? = some (some file) → opened = some file' →
      file' = { file with cursor := file'.cursor }) :
    KeepsFiles files (files.setIfInBounds handle opened) := by
  intro other file file' h h'
  rw [Vector.getElem?_setIfInBounds] at h'
  split at h'
  · next heq =>
    subst heq
    split at h'
    · exact hput file file' h (Option.some.inj h')
    · cases h'
  · exact refl files other file file' h h'

theorem noFiles : KeepsFiles files Session.noFiles := by
  intro other file file' _ h'
  rw [Session.noFiles, Vector.getElem?_replicate] at h'
  split at h'
  · cases h'
  · cases h'

end KeepsFiles

namespace Session

variable {l : Layout} {t : SessionScene l} {handle : Nat} {file : OpenFile}

/-- An action of a session ends with the open files that there were, where these are still open. -/
def EndsKeeping {α : Type} (x : SessionM α) (t : SessionScene l) : Prop :=
  ∃ r t', Does x t r t' ∧ KeepsFiles t.files t'.files

theorem endsKeeping_of_closed {α : Type} {f : OpenFile → SessionM α}
    (hclosed : ∀ file, t.files[handle]? ≠ some (some file)) :
    EndsKeeping (openFile handle >>= f) t :=
  ⟨_, t, (does_openFile_closed hclosed).bind_error, .refl _⟩

theorem endsKeeping_openFile {α : Type} {f : OpenFile → SessionM α}
    (hf : ∀ file, t.files[handle]? = some (some file) → EndsKeeping (f file) t) :
    EndsKeeping (openFile handle >>= f) t := by
  by_cases hopen : ∃ file, t.files[handle]? = some (some file)
  · obtain ⟨file, hfile⟩ := hopen
    obtain ⟨r, t', hdo, hkeeps⟩ := hf file hfile
    exact ⟨r, t', (does_openFile hfile).bind hdo, hkeeps⟩
  · exact endsKeeping_of_closed fun file hfile => hopen ⟨file, hfile⟩

/-- What acts on the volume first leaves the open files alone until then. -/
theorem endsKeeping_onVolume {α β : Type} {x : VolumeM α} {f : α → SessionM β} {r : Except Error α}
    {s' : Scene l} (hx : Does x t.scene r s')
    (hf : ∀ a, r = .ok a → EndsKeeping (f a) ⟨s', t.files⟩) :
    EndsKeeping (onVolume x >>= f) t := by
  cases r with
  | error e => exact ⟨_, _, (does_onVolume hx).bind_error, .refl _⟩
  | ok a =>
    obtain ⟨r, t', hdo, hkeeps⟩ := hf a rfl
    exact ⟨r, t', (does_onVolume hx).bind hdo, hkeeps⟩

/-- The file under a handle gets another cursor. -/
theorem endsKeeping_moveTo {α : Type} (hfile : t.files[handle]? = some (some file)) (cursor : Nat)
    (a : α) :
    EndsKeeping (setFile handle (some { file with cursor := cursor }) >>= fun _ => pure a) t := by
  refine ⟨_, _, (does_setFile _ _).bind (Does.pure a _), .put ?_⟩
  intro old new hold hnew
  cases hold.symm.trans hfile
  cases hnew
  rfl

theorem endsKeeping_read (length : Nat) : EndsKeeping (read handle length) t := by
  apply endsKeeping_openFile
  intro file hfile
  obtain ⟨r, hread⟩ := quiet_readAt (s := t.scene) file.inode file.cursor length
  exact endsKeeping_onVolume hread fun data _ => endsKeeping_moveTo hfile _ data

theorem endsKeeping_write (hs : t.scene.Good) (data : List UInt8) :
    EndsKeeping (write handle data) t := by
  apply endsKeeping_openFile
  intro file hfile
  have hfrom (start : Nat) : EndsKeeping
      (onVolume (writeAt file.inode start data) >>= fun written =>
        setFile handle (some { file with cursor := start + written }) >>= fun _ => pure written)
      t := by
    obtain ⟨r, s', hwrite⟩ := Scene.takes (.write file.inode start data) hs
    exact endsKeeping_onVolume hwrite.does fun n _ =>
      endsKeeping_moveTo (t := ⟨s', t.files⟩) hfile _ n
  by_cases happend : file.append = true
  · obtain ⟨r, hsize⟩ := quiet_fileSize (s := t.scene) file.inode
    rw [if_pos happend]
    exact endsKeeping_onVolume hsize fun start _ => hfrom start
  · rw [if_neg happend]
    obtain ⟨r, t', hdo, hkeeps⟩ := hfrom file.cursor
    exact ⟨r, t', (Does.pure _ _).bind hdo, hkeeps⟩

theorem endsKeeping_seek (distance : Int) (whence : Whence) :
    EndsKeeping (seek handle distance whence) t := by
  apply endsKeeping_openFile
  intro file hfile
  have hbase : Quiet (base file whence) t.scene := by
    cases whence with
    | set => exact .pure _ _
    | current => exact .pure _ _
    | finish => exact quiet_fileSize _
  obtain ⟨r, hbase⟩ := hbase
  refine endsKeeping_onVolume hbase fun start _ => ?_
  split
  · next position _ =>
    by_cases hlt : position < UInt32.size
    · simp only [hlt, if_true]
      exact endsKeeping_moveTo hfile _ position
    · simp only [hlt, if_false]
      exact ⟨_, _, (Does.throw _ _).bind_error, .refl _⟩
  · exact ⟨_, _, Does.throw _ _, .refl _⟩

theorem endsKeeping_close : EndsKeeping (close handle) t := by
  apply endsKeeping_openFile
  intro file _
  exact ⟨_, _, does_setFile handle none, .put fun _ _ _ hnone => by cases hnone⟩

theorem endsKeeping_mount : EndsKeeping mount t := by
  have hclose : Does (modify fun s => { s with files := noFiles } : SessionM Unit) t (.ok ())
      (SessionScene.mk t.scene noFiles) := Does.modify fun history => ⟨history, rfl⟩
  exact ⟨_, _, hclose.bind (does_onVolume Volume.does_mount), .noFiles⟩

/-! ### Opening -/

/-- A path leads to what is opened under it. -/
theorem inodeToOpen_step {s : Scene l} (hs : s.Good) (path : String) (flags : OpenFlags) :
    ∃ r s', Does (inodeToOpen path flags) s r s' ∧
      ∀ i, r = .ok i → Does (locate path) s' (.ok i) s' := by
  obtain ⟨r, hlocate⟩ := quiet_locate (s := s) path
  cases r with
  | ok i =>
    refine ⟨_, s, hlocate.tryCatch_ok, ?_⟩
    rintro _ ⟨⟩
    exact hlocate
  | error e =>
    by_cases hmake : e = .notFound ∧ flags.create = true
    · obtain ⟨rfl, hcreate⟩ := hmake
      obtain ⟨r, s', hmake, hleads⟩ := makeFileAt_step hs path
      refine ⟨r, s', hlocate.tryCatch_error ?_, hleads⟩
      simp only [hcreate]
      exact hmake
    · refine ⟨.error e, s, hlocate.tryCatch_error ?_, fun _ h => by cases h⟩
      split
      · next hcreate => exact absurd ⟨rfl, hcreate⟩ hmake
      · exact Does.throw _ _

/-- Opening fails and leaves the open files alone, or puts a file under a handle that was free. -/
theorem openPath_step (hs : t.scene.Good) (path : String) (flags : OpenFlags) :
    ∃ r t', Does (openPath path flags) t r t' ∧ ((∃ e, r = .error e ∧ t'.files = t.files) ∨
      ∃ (handle : Nat) (file : OpenFile), r = .ok handle ∧
        t'.files = t.files.setIfInBounds handle (some file) ∧
        t.files[handle]? = some none ∧ file.append = flags.append ∧
        t'.scene.records.kind file.inode = .file ∧
        Does (locate path) t'.scene (.ok file.inode) t'.scene) := by
  match hfree : t.files.findFinIdx? Option.isNone with
  | none =>
    refine ⟨.error .tooManyOpenFiles, t, Does.get_bind fun history => ?_, .inl ⟨_, rfl, rfl⟩⟩
    simp only [Settled.state, hfree]
    exact Does.throw _ _
  | some free =>
    have hdo {r : Except Error Nat} {t' : SessionScene l}
        (hrest : Does (onVolume (inodeToOpen path flags) >>= fun inode =>
          onVolume (File.ofInode inode) >>= fun _ =>
            setFile free (some ⟨inode, 0, flags.append⟩) >>= fun _ => pure free.val) t r t') :
        Does (openPath path flags) t r t' := by
      refine Does.get_bind fun history => ?_
      simp only [Settled.state, hfree]
      exact hrest
    have hnone : t.files[free.val]? = some none := by
      obtain ⟨hisNone, -⟩ := findFinIdx?_eq_some_iff.mp hfree
      rw [Vector.getElem?_eq_getElem free.isLt]
      exact congrArg some (Option.isNone_iff_eq_none.mp hisNone)
    obtain ⟨r, s', hinode, hleads⟩ := inodeToOpen_step hs path flags
    cases r with
    | error e => exact ⟨_, _, hdo (does_onVolume hinode).bind_error, .inl ⟨e, rfl, rfl⟩⟩
    | ok i =>
      obtain ⟨r, hload⟩ := File.quiet_ofInode (s := s') i
      cases r with
      | error e =>
        exact ⟨_, _, hdo ((does_onVolume hinode).bind (does_onVolume hload).bind_error),
          .inl ⟨e, rfl, rfl⟩⟩
      | ok f =>
        refine ⟨_, _, hdo ((does_onVolume hinode).bind ((does_onVolume hload).bind
          ((does_setFile _ _).bind (Does.pure _ _)))), .inr ⟨free.val, _, rfl, rfl, hnone, rfl, ?_⟩⟩
        exact ⟨File.kind_of_does_ofInode hload, hleads i rfl⟩

theorem endsKeeping_openPath (hs : t.scene.Good) (path : String) (flags : OpenFlags) :
    EndsKeeping (openPath path flags) t := by
  obtain ⟨r, t', hdo, ⟨e, -, hfiles⟩ | ⟨handle, file, -, hfiles, hfree, -⟩⟩ :=
    openPath_step hs path flags
  · refine ⟨r, t', hdo, ?_⟩
    rw [hfiles]
    exact .refl _
  · refine ⟨r, t', hdo, ?_⟩
    rw [hfiles]
    refine .put fun old new hold _ => ?_
    cases hfree.symm.trans hold

end Session

/-! ## Calls -/

/-- The volume and the open files as a session. -/
def Service.session (v : Service) : Session := ⟨v.volume, v.files⟩

section calls

variable {l : Layout} {s : Scene l} {history : History} {v : Service}

theorem Service.session_eq (hv : v.volume = Settled.state s history) :
    v.session = Settled.state (SessionScene.mk s v.files) history := by
  rw [session, hv]
  rfl

/-- What an action on a session leaves of the volume and the open files. -/
theorem Service.onSession_eq {α : Type} {x : SessionM α} {r : Except Error α} {t : SessionScene l}
    (hv : v.volume = Settled.state s history) (hx : Does x (SessionScene.mk s v.files) r t) :
    ∃ history', (v.onSession x).volume = Settled.state t.scene history' ∧
      (v.onSession x).files = t.files := by
  obtain ⟨history', hleft⟩ := hx.leftBy_eq history
  rw [← Service.session_eq hv] at hleft
  exact ⟨history', congrArg Session.volume hleft, congrArg Session.files hleft⟩

theorem Service.keepsFiles_onSession {α : Type} {x : SessionM α}
    (hv : v.volume = Settled.state s history)
    (hx : Session.EndsKeeping x (SessionScene.mk s v.files)) :
    KeepsFiles v.files (v.onSession x).files := by
  obtain ⟨r, t', hdo, hkeeps⟩ := hx
  obtain ⟨history', -, hfiles⟩ := Service.onSession_eq hv hdo
  rw [hfiles]
  exact hkeeps

/-- No call gives a handle that stays open another file. -/
theorem Call.keepsFiles (c : Call) (hv : v.volume = Settled.state s history) (hs : s.Good) :
    KeepsFiles v.files (c.after v).files := by
  cases c with
  | reopen => exact .noFiles
  | newSession => exact .noFiles
  | mountSession => exact Service.keepsFiles_onSession hv Session.endsKeeping_mount
  | openPath path flags =>
    exact Service.keepsFiles_onSession hv (Session.endsKeeping_openPath hs path flags)
  | readHandle handle length =>
    exact Service.keepsFiles_onSession hv (Session.endsKeeping_read length)
  | writeHandle handle data =>
    exact Service.keepsFiles_onSession hv (Session.endsKeeping_write hs data)
  | seek handle distance whence =>
    exact Service.keepsFiles_onSession hv (Session.endsKeeping_seek distance whence)
  | close handle => exact Service.keepsFiles_onSession hv Session.endsKeeping_close
  | edit | look | makeFileAt | makeDirectoryAt | unlinkHere | relabelHere | pack | newServer
  | request => exact .refl _

end calls

end BlockFS
