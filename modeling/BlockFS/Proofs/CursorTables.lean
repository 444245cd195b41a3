import Mathlib.Logic.Function.Basic
import BlockFS.Proofs.Causes
import BlockFS.Proofs.Machine.Runs
import BlockFS.Proofs.OpenFiles

/-!
# Tables of cursors

The open files of a session are seen as a table that tells for every number what is open under it:
an inode and a cursor, which is a number without bound.  Each call of a session is a step on this
table and on the volume.  Whatever lies on the device and whichever transfers fail, a session does
what the table tells, and its cursors stay numbers of 32 bits.
-/

namespace BlockFS

open Volume

variable {α : Type}

/-! ## What is done at a cursor -/

namespace OpenFile

/-- Reads at the cursor.  The cursor goes behind what was read. -/
def reading (length : Nat) (file : OpenFile) : VolumeM (List UInt8 × Nat) := do
  let data ← readAt file.inode file.cursor length
  return (data, file.cursor + data.length)

/-- Where the next write begins: at the end of a file opened to append to, and at the cursor of any
other. -/
def nextPlace (file : OpenFile) : VolumeM Nat :=
  if file.append then fileSize file.inode else pure file.cursor

/-- Writes where the next write begins.  The cursor goes behind what was written. -/
def writing (data : List UInt8) (file : OpenFile) : VolumeM (Nat × Nat) := do
  let start ← file.nextPlace
  let written ← writeAt file.inode start data
  return (written, start + written)

/-- The place that a cursor is moved from: the start of the file, the cursor itself, or the end of the
file, which takes a look at the volume. -/
inductive MovesFrom (file : OpenFile) (v : Volume) : Whence → Except Error Nat → Volume → Prop
  | set : file.MovesFrom v .set (.ok 0) v
  | current : file.MovesFrom v .current (.ok file.cursor) v
  | finish {r : Except Error Nat} {v' : Volume} (hx : fileSize file.inode v = withState r v') :
      file.MovesFrom v .finish r v'

end OpenFile

/-- The inode of a path that is opened: the one that the path leads to, or that of a new file, where
the path leads nowhere and the flags ask for one. -/
inductive OpenFlags.Resolves (flags : OpenFlags) (path : String) (v : Volume) :
    Except Error Nat → Volume → Prop
  | found {inode : Nat} {v' : Volume} (hx : locate path v = .ok inode v') :
      flags.Resolves path v (.ok inode) v'
  | made {r : Except Error Nat} {v' v'' : Volume} (hx : locate path v = .error .notFound v')
      (hcreate : flags.create = true) (hmake : makeFileAt path v' = withState r v'') :
      flags.Resolves path v r v''
  | refused {e : Error} {v' : Volume} (hx : locate path v = .error e v')
      (hnot : ¬ (e = .notFound ∧ flags.create = true)) : flags.Resolves path v (.error e) v'

/-! ## Steps -/

/-- A table of cursors: what is open under a number, if anything is. -/
abbrev CursorTable := Nat → Option OpenFile

namespace CursorTable

/-- The lowest handle under which nothing is open. -/
structure Lowest (t : CursorTable) (handle : Nat) : Prop where
  lt : handle < handleCount
  closed : t handle = none
  below : ∀ lower < handle, t lower ≠ none

/-- Opening a path to a file: the lowest handle that is free is taken, and a table that is full is told
before anything is done to the volume. -/
inductive Opens (path : String) (flags : OpenFlags) (v : Volume) (t : CursorTable) :
    Except Error Nat → Volume → CursorTable → Prop
  | full (h : ∀ handle < handleCount, t handle ≠ none) :
      Opens path flags v t (.error .tooManyOpenFiles) v t
  | opened {handle inode : Nat} {file : File} {v' v'' : Volume} (h : t.Lowest handle)
      (hpath : flags.Resolves path v (.ok inode) v')
      (hfile : File.ofInode inode v' = .ok file v'') :
      Opens path flags v t (.ok handle) v''
        (Function.update t handle (some ⟨inode, 0, flags.append⟩))
  | unresolved {handle : Nat} {e : Error} {v' : Volume} (h : t.Lowest handle)
      (hpath : flags.Resolves path v (.error e) v') (he : e ≠ .tooManyOpenFiles) :
      Opens path flags v t (.error e) v' t
  | refused {handle inode : Nat} {e : Error} {v' v'' : Volume} (h : t.Lowest handle)
      (hpath : flags.Resolves path v (.ok inode) v')
      (hfile : File.ofInode inode v' = .error e v'') (he : e ≠ .tooManyOpenFiles) :
      Opens path flags v t (.error e) v'' t

/-- Something is done through a handle: it answers, and then the cursor under this handle is another
number of 32 bits, or it fails. -/
inductive Through (handle : Nat) (x : OpenFile → VolumeM (α × Nat)) (v : Volume) (t : CursorTable) :
    Except Error α → Volume → CursorTable → Prop
  | closed (h : t handle = none) : Through handle x v t (.error .invalidHandle) v t
  | moved {file : OpenFile} {a : α} {cursor : Nat} {v' : Volume} (h : t handle = some file)
      (hx : x file v = .ok (a, cursor) v') (hcursor : cursor < 2 ^ 32) :
      Through handle x v t (.ok a) v'
        (Function.update t handle (some { file with cursor := cursor }))
  | refused {file : OpenFile} {e : Error} {v' : Volume} (h : t handle = some file)
      (hx : x file v = .error e v') : Through handle x v t (.error e) v' t

/-- Moving the cursor under a handle by a distance: it goes to that place if this is a number of 32
bits, and else it stays. -/
inductive Seeks (handle : Nat) (distance : Int) (whence : Whence) (v : Volume) (t : CursorTable) :
    Except Error Nat → Volume → CursorTable → Prop
  | closed (h : t handle = none) : Seeks handle distance whence v t (.error .invalidHandle) v t
  | moved {file : OpenFile} {start place : Nat} {v' : Volume} (h : t handle = some file)
      (hstart : file.MovesFrom v whence (.ok start) v') (hplace : (place : Int) = start + distance)
      (hlt : place < 2 ^ 32) :
      Seeks handle distance whence v t (.ok place) v'
        (Function.update t handle (some { file with cursor := place }))
  | outside {file : OpenFile} {start : Nat} {v' : Volume} (h : t handle = some file)
      (hstart : file.MovesFrom v whence (.ok start) v')
      (hplace : start + distance < 0 ∨ 2 ^ 32 ≤ start + distance) :
      Seeks handle distance whence v t (.error .invalidSeek) v' t
  | refused {file : OpenFile} {e : Error} {v' : Volume} (h : t handle = some file)
      (hstart : file.MovesFrom v whence (.error e) v') :
      Seeks handle distance whence v t (.error e) v' t

/-- Closing a handle, which does nothing to the volume. -/
inductive Closes (handle : Nat) (v : Volume) (t : CursorTable) :
    Except Error Unit → Volume → CursorTable → Prop
  | closed (h : t handle = none) : Closes handle v t (.error .invalidHandle) v t
  | opened {file : OpenFile} (h : t handle = some file) :
      Closes handle v t (.ok ()) v (Function.update t handle none)

/-- Mounting the volume anew, after which nothing is open, whether it fails or not. -/
inductive Mounts (v : Volume) (t : CursorTable) :
    Except Error Unit → Volume → CursorTable → Prop
  | mounted {r : Except Error Unit} {v' : Volume} (hx : Volume.mount v = withState r v') :
      Mounts v t r v' fun _ => none

end CursorTable

namespace Session

/-- What is open under each number in a session. -/
def cursors (s : Session) : CursorTable := fun handle => s.files[handle]?.join

/-- A call of a session does a step on the volume and the table of cursors. -/
def Steps (s : Session) (x : SessionM α)
    (step : Volume → CursorTable → Except Error α → Volume → CursorTable → Prop) : Prop :=
  ∃ r s', x s = withState r s' ∧ step s.volume s.cursors r s'.volume s'.cursors

/-- A session has sixteen handles and cursors of 32 bits, and its calls do what the table of cursors
tells. -/
structure RefinesCursors (s : Session) : Prop where
  closed : ∀ handle, handleCount ≤ handle → s.cursors handle = none
  fits : ∀ handle file, s.cursors handle = some file → file.cursor < 2 ^ 32
  openPath : ∀ path flags, s.Steps (openPath path flags) (CursorTable.Opens path flags)
  read : ∀ handle length,
    s.Steps (read handle length) (CursorTable.Through handle (·.reading length))
  write : ∀ handle data, s.Steps (write handle data) (CursorTable.Through handle (·.writing data))
  seek : ∀ handle distance whence,
    s.Steps (seek handle distance whence) (CursorTable.Seeks handle distance whence)
  close : ∀ handle, s.Steps (close handle) (CursorTable.Closes handle)
  mount : s.Steps mount CursorTable.Mounts

/-! ## The table of a session -/

variable {s : Session} {handle : Nat}

theorem cursors_eq_some_iff {file : OpenFile} :
    s.cursors handle = some file ↔ s.files[handle]? = some (some file) := by
  rw [cursors, Option.join_eq_some_iff]

theorem lt_of_cursors_eq_some {file : OpenFile} (h : s.cursors handle = some file) :
    handle < handleCount := by
  by_contra hge
  rw [cursors_eq_some_iff, Vector.getElem?_eq_none (Nat.le_of_not_lt hge)] at h
  cases h

theorem cursors_eq_none_iff (h : handle < handleCount) :
    s.cursors handle = none ↔ s.files[handle] = none := by
  rw [cursors, Vector.getElem?_eq_getElem h]
  exact Iff.rfl

theorem cursors_setFile (h : handle < handleCount) (v : Volume) (file : Option OpenFile) :
    cursors ⟨v, s.files.setIfInBounds handle file⟩ = Function.update s.cursors handle file := by
  funext other
  rw [cursors, Vector.getElem?_setIfInBounds, Function.update_apply]
  by_cases hother : other = handle
  · rw [if_pos hother.symm, if_pos h, if_pos hother]
    rfl
  · rw [if_neg (Ne.symm hother), if_neg hother]
    rfl

theorem openFile_of_cursors {file : OpenFile} (h : s.cursors handle = some file) :
    openFile handle s = .ok file s := by
  rw [openFile, get_bind_apply, cursors_eq_some_iff.mp h]
  rfl

theorem openFile_of_closed (h : s.cursors handle = none) :
    openFile handle s = .error .invalidHandle s := by
  rw [openFile, get_bind_apply]
  cases hfile : s.files[handle]? with
  | none => rfl
  | some opened =>
    cases opened with
    | none => rfl
    | some file =>
      rw [cursors_eq_some_iff.mpr hfile] at h
      cases h

theorem onVolume_bind {β : Type} (x : VolumeM α) (f : α → VolumeM β) :
    onVolume (x >>= f) = onVolume x >>= fun a => onVolume (f a) := by
  funext ⟨v, files⟩
  cases h : x v with
  | ok a v' =>
    have hx : onVolume x ⟨v, files⟩ = .ok a ⟨v', files⟩ := by rw [onVolume, h]
    rw [bind_of_ok hx, onVolume, onVolume, bind_of_ok h]
  | error e v' =>
    have hx : onVolume x ⟨v, files⟩ = .error e ⟨v', files⟩ := by rw [onVolume, h]
    rw [bind_of_error hx, onVolume, bind_of_error h]

theorem onVolume_pure (a : α) : onVolume (pure a) = pure a := rfl

theorem onVolume_of_ok {x : VolumeM α} {a : α} {v' : Volume} (h : x s.volume = .ok a v') :
    onVolume x s = .ok a ⟨v', s.files⟩ := by
  rw [onVolume, h]

theorem onVolume_of_error {x : VolumeM α} {e : Error} {v' : Volume}
    (h : x s.volume = .error e v') : onVolume x s = .error e ⟨v', s.files⟩ := by
  rw [onVolume, h]

/-! ## Calls are steps -/

/-- What acts on the volume at the cursor under a handle and then moves this cursor is a step. -/
theorem steps_through {x : SessionM α} {y : OpenFile → VolumeM (α × Nat)}
    (hx : x = do
      let file ← openFile handle
      let p ← onVolume (y file)
      setFile handle (some { file with cursor := p.2 })
      return p.1)
    (hfits : ∀ file, s.cursors handle = some file →
      Yields (fun _ => True) (y file) fun p => p.2 < 2 ^ 32) :
    s.Steps x (CursorTable.Through handle y) := by
  subst hx
  cases hfile : s.cursors handle with
  | none =>
    exact ⟨.error .invalidHandle, s, bind_of_error (openFile_of_closed hfile), .closed hfile⟩
  | some file =>
    rcases hfits file hfile s.volume trivial with ⟨⟨a, cursor⟩, v', hy, -, hlt⟩ | ⟨e, v', hy, -⟩
    · refine ⟨.ok a, ⟨v', s.files.setIfInBounds handle (some { file with cursor := cursor })⟩, ?_,
        ?_⟩
      · rw [bind_of_ok (openFile_of_cursors hfile), bind_of_ok (onVolume_of_ok hy)]
        rfl
      · rw [cursors_setFile (lt_of_cursors_eq_some hfile)]
        exact .moved hfile hy hlt
    · refine ⟨.error e, ⟨v', s.files⟩, ?_, .refused hfile hy⟩
      rw [bind_of_ok (openFile_of_cursors hfile), bind_of_error (onVolume_of_error hy)]
      rfl

theorem steps_close (handle : Nat) : s.Steps (close handle) (CursorTable.Closes handle) := by
  cases hfile : s.cursors handle with
  | none =>
    exact ⟨.error .invalidHandle, s, bind_of_error (openFile_of_closed hfile), .closed hfile⟩
  | some file =>
    refine ⟨.ok (), ⟨s.volume, s.files.setIfInBounds handle none⟩, ?_, ?_⟩
    · exact bind_of_ok (openFile_of_cursors hfile)
    · rw [cursors_setFile (lt_of_cursors_eq_some hfile)]
      exact .opened hfile

theorem cursors_noFiles (v : Volume) : cursors ⟨v, noFiles⟩ = fun _ => none := by
  funext handle
  rw [cursors, noFiles, Vector.getElem?_replicate]
  split
  · rfl
  · rfl

theorem steps_mount : s.Steps mount CursorTable.Mounts := by
  cases hmount : Volume.mount s.volume with
  | ok a v' =>
    refine ⟨.ok (), ⟨v', noFiles⟩, onVolume_of_ok (s := ⟨s.volume, noFiles⟩) hmount, ?_⟩
    rw [cursors_noFiles]
    exact .mounted hmount
  | error e v' =>
    refine ⟨.error e, ⟨v', noFiles⟩, onVolume_of_error (s := ⟨s.volume, noFiles⟩) hmount, ?_⟩
    rw [cursors_noFiles]
    exact .mounted hmount

/-- The handle that is taken is the lowest one that is free. -/
theorem lowest_of_findFinIdx? {free : Fin handleCount}
    (h : s.files.findFinIdx? Option.isNone = some free) : s.cursors.Lowest free := by
  obtain ⟨hfree, hbelow⟩ := findFinIdx?_eq_some_iff.mp h
  refine ⟨free.isLt, ?_, fun lower hlower => ?_⟩
  · rw [cursors_eq_none_iff free.isLt]
    exact Option.isNone_iff_eq_none.mp hfree
  · have hlt : lower < handleCount := Nat.lt_trans hlower free.isLt
    rw [Ne, cursors_eq_none_iff hlt]
    intro hnone
    have hopen : s.files[lower].isNone = false := hbelow ⟨lower, hlt⟩ hlower
    rw [hnone] at hopen
    cases hopen

theorem openPath_of_full {path : String} {flags : OpenFlags}
    (h : s.files.findFinIdx? Option.isNone = none) :
    openPath path flags s = .error .tooManyOpenFiles s := by
  rw [openPath, get_bind_apply, h]
  rfl

theorem openPath_of_free {path : String} {flags : OpenFlags} {free : Fin handleCount}
    (h : s.files.findFinIdx? Option.isNone = some free) :
    openPath path flags s = (onVolume (inodeToOpen path flags) >>= fun inode =>
      onVolume (File.ofInode inode) >>= fun _ =>
        setFile free (some ⟨inode, 0, flags.append⟩) >>= fun _ => pure free.val) s := by
  rw [openPath, get_bind_apply, h]

theorem exists_resolves (path : String) (flags : OpenFlags) (v : Volume) :
    ∃ r v', inodeToOpen path flags v = withState r v' ∧ flags.Resolves path v r v' := by
  cases hlocate : locate path v with
  | ok inode v' => exact ⟨.ok inode, v', tryCatch_of_ok hlocate, .found hlocate⟩
  | error e v' =>
    rw [inodeToOpen, tryCatch_of_error hlocate]
    by_cases hmissing : e = .notFound ∧ flags.create = true
    · obtain ⟨rfl, hcreate⟩ := hmissing
      rw [hcreate]
      cases hmake : makeFileAt path v' with
      | ok inode v'' => exact ⟨.ok inode, v'', hmake, .made hlocate hcreate hmake⟩
      | error e v'' => exact ⟨.error e, v'', hmake, .made hlocate hcreate hmake⟩
    · refine ⟨.error e, v', ?_, .refused hlocate hmissing⟩
      generalize flags.create = create at hmissing
      split
      · exact absurd ⟨rfl, rfl⟩ hmissing
      · rfl

theorem steps_openPath (path : String) (flags : OpenFlags) :
    s.Steps (openPath path flags) (CursorTable.Opens path flags) := by
  cases hfree : s.files.findFinIdx? Option.isNone with
  | none =>
    refine ⟨.error .tooManyOpenFiles, s, openPath_of_full hfree, .full fun handle hlt => ?_⟩
    rw [Ne, cursors_eq_none_iff hlt]
    intro hnone
    have hopen : s.files[handle].isNone = false := findFinIdx?_eq_none_iff.mp hfree ⟨handle, hlt⟩
    rw [hnone] at hopen
    cases hopen
  | some free =>
    have hlowest := lowest_of_findFinIdx? hfree
    obtain ⟨r, v', hresolve, hpath⟩ := exists_resolves path flags s.volume
    cases r with
    | error e =>
      refine ⟨.error e, ⟨v', s.files⟩, ?_, ?_⟩
      · rw [openPath_of_free hfree, bind_of_error (onVolume_of_error hresolve)]
        rfl
      · exact .unresolved hlowest hpath (blames_inodeToOpen path flags _ _ _ hresolve).1
    | ok inode =>
      cases hfile : File.ofInode inode v' with
      | ok file v'' =>
        refine ⟨.ok free.val,
          ⟨v'', s.files.setIfInBounds free (some ⟨inode, 0, flags.append⟩)⟩, ?_, ?_⟩
        · rw [openPath_of_free hfree, bind_of_ok (onVolume_of_ok hresolve),
            bind_of_ok (onVolume_of_ok (s := ⟨v', s.files⟩) hfile)]
          rfl
        · rw [cursors_setFile free.isLt]
          exact .opened hlowest hpath hfile
      | error e v'' =>
        refine ⟨.error e, ⟨v'', s.files⟩, ?_, ?_⟩
        · rw [openPath_of_free hfree, bind_of_ok (onVolume_of_ok hresolve),
            bind_of_error (onVolume_of_error (s := ⟨v', s.files⟩) hfile)]
          rfl
        · exact .refused hlowest hpath hfile (File.blames_ofInode inode _ _ _ hfile).1

theorem steps_read (hs : CursorsFit s.files) (handle length : Nat) :
    s.Steps (read handle length) (CursorTable.Through handle (·.reading length)) := by
  refine steps_through (by
    simp only [read, OpenFile.reading, onVolume_bind, onVolume_pure, bind_assoc, pure_bind]) ?_
  intro file hfile
  have hcursor : file.cursor < 2 ^ 32 := hs handle file (cursors_eq_some_iff.mp hfile)
  exact (Machine.yields_readAt _ _ _).bind fun data hdata => .pure (hdata.2.lt_word hcursor).2

theorem write_eq (handle : Nat) (data : List UInt8) :
    write handle data = do
      let file ← openFile handle
      let p ← onVolume (file.writing data)
      setFile handle (some { file with cursor := p.2 })
      return p.1 := by
  refine bind_congr fun file => ?_
  rw [OpenFile.writing, OpenFile.nextPlace]
  by_cases happend : file.append = true
  · simp only [if_pos happend, onVolume_bind, onVolume_pure, bind_assoc, pure_bind]
  · simp only [if_neg happend, onVolume_bind, onVolume_pure, bind_assoc, pure_bind]

theorem steps_write (hs : CursorsFit s.files) (handle : Nat) (data : List UInt8) :
    s.Steps (write handle data) (CursorTable.Through handle (·.writing data)) := by
  refine steps_through (write_eq handle data) fun file hfile => ?_
  have hstart : Yields (fun _ => True) file.nextPlace (· < 2 ^ 32) := by
    rw [OpenFile.nextPlace]
    split
    · exact Machine.yields_fileSize _
    · exact .pure (hs handle file (cursors_eq_some_iff.mp hfile))
  refine hstart.bind fun start hstart => ?_
  exact (Machine.yields_writeAt _ _ _).bind fun written hwritten =>
    .pure (a := (written, start + written)) (hwritten.lt_word hstart).2

theorem exists_movesFrom (file : OpenFile) (whence : Whence) (v : Volume) :
    ∃ r v', base file whence v = withState r v' ∧ file.MovesFrom v whence r v' := by
  cases whence with
  | set => exact ⟨.ok 0, v, rfl, .set⟩
  | current => exact ⟨.ok file.cursor, v, rfl, .current⟩
  | finish =>
    cases hsize : fileSize file.inode v with
    | ok size v' => exact ⟨.ok size, v', hsize, .finish hsize⟩
    | error e v' => exact ⟨.error e, v', hsize, .finish hsize⟩

theorem steps_seek (handle : Nat) (distance : Int) (whence : Whence) :
    s.Steps (seek handle distance whence) (CursorTable.Seeks handle distance whence) := by
  cases hfile : s.cursors handle with
  | none =>
    exact ⟨.error .invalidHandle, s, bind_of_error (openFile_of_closed hfile), .closed hfile⟩
  | some file =>
    obtain ⟨r, v', hbase, hstart⟩ := exists_movesFrom file whence s.volume
    cases r with
    | error e =>
      refine ⟨.error e, ⟨v', s.files⟩, ?_, .refused hfile hstart⟩
      rw [seek, bind_of_ok (openFile_of_cursors hfile), bind_of_error (onVolume_of_error hbase)]
      rfl
    | ok start =>
      cases hplace : (start : Int) + distance with
      | negSucc n =>
        refine ⟨.error .invalidSeek, ⟨v', s.files⟩, ?_, .outside hfile hstart (.inl ?_)⟩
        · rw [seek, bind_of_ok (openFile_of_cursors hfile), bind_of_ok (onVolume_of_ok hbase),
            hplace]
          rfl
        · rw [hplace]
          exact Int.negSucc_lt_zero n
      | ofNat place =>
        by_cases hlt : place < UInt32.size
        · refine ⟨.ok place,
            ⟨v', s.files.setIfInBounds handle (some { file with cursor := place })⟩, ?_, ?_⟩
          · rw [seek, bind_of_ok (openFile_of_cursors hfile), bind_of_ok (onVolume_of_ok hbase),
              hplace]
            simp only [if_pos hlt]
            rfl
          · rw [cursors_setFile (lt_of_cursors_eq_some hfile)]
            exact .moved hfile hstart hplace.symm hlt
        · refine ⟨.error .invalidSeek, ⟨v', s.files⟩, ?_, .outside hfile hstart (.inr ?_)⟩
          · rw [seek, bind_of_ok (openFile_of_cursors hfile), bind_of_ok (onVolume_of_ok hbase),
              hplace]
            simp only [if_neg hlt]
            rfl
          · rw [hplace]
            exact Int.ofNat_le.mpr (Nat.le_of_not_lt hlt)

theorem refinesCursors (hs : CursorsFit s.files) : s.RefinesCursors where
  closed handle hge := by
    cases hfile : s.cursors handle with
    | none => rfl
    | some file => exact absurd (lt_of_cursors_eq_some hfile) (Nat.not_lt.mpr hge)
  fits handle file hfile := hs handle file (cursors_eq_some_iff.mp hfile)
  openPath := steps_openPath
  read := steps_read hs
  write := steps_write hs
  seek := steps_seek
  close := steps_close
  mount := steps_mount

end Session

/-! ## Runs -/

/-- The calls of a session, and those that make a new one. -/
def Call.ofSession : Call → Bool
  | .reopen | .newSession | .mountSession => true
  | .openPath .. | .readHandle .. | .writeHandle .. | .seek .. | .close _ => true
  | _ => false

theorem Call.cursors_after {c : Call} (hc : c.ofSession = false) (s : Service) :
    (c.after s).session.cursors = s.session.cursors := by
  cases c with
  | edit | look | makeFileAt | makeDirectoryAt | unlinkHere | relabelHere | pack | newServer
  | request => rfl
  | _ => cases hc

theorem Call.cursorsFit_run (cs : List Call) {s : Service} (hs : Session.CursorsFit s.files) :
    Session.CursorsFit (Call.run cs s).files := by
  induction cs generalizing s with
  | nil => exact hs
  | cons c cs ih => exact ih (Machine.cursorsFit_after c hs)

/-- Let `v` be any volume, with anything on its device and any failures of it, and make calls on a
session of it and on the volume itself, in any order.  At each point the session does what its table
of cursors tells: `Opens`, `Through`, `Seeks`, `Closes` and `Mounts` say it for each of its calls,
with their results, and the calls on the volume leave the table alone.  No cursor ever needs more
than 32 bits. -/
theorem Call.run_refines_cursors (v : Volume) (cs : List Call) :
    (Call.run cs (.new v)).session.RefinesCursors ∧ ∀ c : Call, c.ofSession = false →
      (c.after (Call.run cs (.new v))).session.cursors
        = (Call.run cs (.new v)).session.cursors := by
  refine ⟨Session.refinesCursors ?_, fun c hc => c.cursors_after hc _⟩
  exact Call.cursorsFit_run cs Machine.cursorsFit_noFiles

end BlockFS
