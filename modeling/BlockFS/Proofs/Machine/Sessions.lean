import Mathlib.Algebra.Group.Int.Defs
import BlockFS.Session
import BlockFS.Proofs.Machine.Tree

/-!
# Sessions on a machine

A session keeps a cursor of 32 bits for each open file and moves it by what was read or written.  An
action of a session is the plain one as long as the cursors fit their words, and it leaves cursors
that do.
-/

namespace BlockFS

/-- The cursors of the open files are words of 32 bits. -/
def Session.CursorsFit (files : Vector (Option OpenFile) handleCount) : Prop :=
  ∀ (handle : Nat) (file : OpenFile), files[handle]? = some (some file) → file.cursor < 2 ^ 32

namespace Machine

open Session (CursorsFit)

variable {α β : Type}

/-- Mounts the volume anew; every file is closed. -/
def mountSession : Action Error Session Unit := do
  plain (modify fun s => { s with files := Session.noFiles })
  inSession mount

/-- The inode of a path to open, made if it is missing and the flags ask for that. -/
def inodeToOpen (path : String) (flags : OpenFlags) : Action Error Volume Nat :=
  recover (locate path) fun e =>
    match e, flags.create with
    | .notFound, true => makeFileAt path
    | e, _ => fail e

/-- Opens a file under the lowest handle that is not in use. -/
def openPath (path : String) (flags : OpenFlags) : Action Error Session Nat := do
  match (← plain get).files.findFinIdx? Option.isNone with
  | none => fail .tooManyOpenFiles
  | some handle =>
    let inode ← inSession (inodeToOpen path flags)
    let _ ← inSession (loadFile inode)
    let _ ← range handle (handle + 1) handleCount
    plain (Session.setFile handle (some ⟨inode, 0, flags.append⟩))
    return handle

/-- Moves the cursor of a file from `start` on over some bytes. -/
def moveCursor (handle : Nat) (file : OpenFile) (start bytes : Nat) :
    Action Error Session Unit := do
  let count ← narrow 32 bytes
  let cursor ← word 32 (start + count)
  plain (Session.setFile handle (some { file with cursor := cursor }))

/-- Reads at the cursor and moves it behind what was read. -/
def readHandle (handle length : Nat) : Action Error Session (List UInt8) := do
  let file ← plain (Session.openFile handle)
  let data ← inSession (readAt file.inode file.cursor length)
  moveCursor handle file file.cursor data.length
  return data

/-- Writes from byte `start` on and moves the cursor behind what was written. -/
def writeFrom (handle : Nat) (file : OpenFile) (start : Nat) (data : List UInt8) :
    Action Error Session Nat := do
  let written ← inSession (writeAt file.inode start data)
  moveCursor handle file start written
  return written

/-- Writes at the cursor, or at the end of a file opened to append to. -/
def writeHandle (handle : Nat) (data : List UInt8) : Action Error Session Nat := do
  let file ← plain (Session.openFile handle)
  if file.append then
    let start ← inSession (fileSize file.inode)
    writeFrom handle file start data
  else writeFrom handle file file.cursor data

/-- The number of bytes from the start of a file to a place. -/
def base (file : OpenFile) : Whence → Action Error Volume Nat
  | .set => return 0
  | .current => return file.cursor
  | .finish => fileSize file.inode

/-- Moves the cursor relative to a place.  The sum is one of signed words of 64 bits, and it is
asked for whether it fits. -/
def seek (handle : Nat) (distance : Int) (whence : Whence) : Action Error Session Nat := do
  let file ← plain (Session.openFile handle)
  let place := (← inSession (base file whence)) + distance
  if place < -2 ^ 63 ∨ 2 ^ 63 ≤ place then fail .invalidSeek
  else
    match place with
    | .ofNat position =>
      unless position < UInt32.size do fail .invalidSeek
      plain (Session.setFile handle (some { file with cursor := position }))
      return position
    | _ => fail .invalidSeek

/-- The second half of a write on a volume of unbounded numbers. -/
def plainWriteFrom (handle : Nat) (file : OpenFile) (start : Nat) (data : List UInt8) :
    SessionM Nat := do
  let written ← Session.onVolume (Volume.writeAt file.inode start data)
  Session.setFile handle (some { file with cursor := start + written })
  return written

/-! ## What is answered -/

/-- An action on the volume leaves the open files of a session as they are. -/
theorem yields_inSession {P : Vector (Option OpenFile) handleCount → Prop} {x : VolumeM α}
    {Q : α → Prop} (hx : Yields (fun _ => True) x Q) :
    Yields (fun s : Session => P s.files) (Session.onVolume x) Q := by
  rintro ⟨v, files⟩ hs
  rcases hx v trivial with ⟨a, v', hx, -, hq⟩ | ⟨e, v', hx, -⟩
  · exact .inl ⟨a, ⟨v', files⟩, by simp only [Session.onVolume, hx], hs, hq⟩
  · exact .inr ⟨e, ⟨v', files⟩, by simp only [Session.onVolume, hx], hs⟩

theorem yields_openFile (handle : Nat) :
    Yields (fun s : Session => CursorsFit s.files) (Session.openFile handle) fun file =>
      file.cursor < 2 ^ 32 := by
  refine Yields.get.bind fun s hs => ?_
  split
  · next file hfile => exact .pure (hs handle file hfile)
  · exact .throw

theorem keeps_setFile (handle : Nat) {file : Option OpenFile}
    (h : ∀ f, file = some f → f.cursor < 2 ^ 32) :
    Keeps (fun s : Session => CursorsFit s.files) (Session.setFile handle file) := by
  refine Keeps.modify fun s hs j f hj => ?_
  simp only [Vector.getElem?_setIfInBounds] at hj
  split at hj
  · split at hj
    · exact h f (Option.some_inj.mp hj)
    · cases hj
  · exact hs j f hj

theorem keeps_setFile_some (handle : Nat) {file : OpenFile} (h : file.cursor < 2 ^ 32) :
    Keeps (fun s : Session => CursorsFit s.files) (Session.setFile handle (some file)) :=
  keeps_setFile handle fun _ hf => Option.some_inj.mp hf ▸ h

/-- A file has a size of 32 bits. -/
theorem yields_fileSize (i : Nat) : Yields (fun _ => True) (Volume.fileSize i) (· < 2 ^ 32) :=
  Yields.bind (yields_true _) fun r _ => .pure r.size.toNat_lt

theorem yields_readAt (i offset length : Nat) :
    Yields (fun _ => True) (Volume.readAt i offset length) fun data =>
      data.length ≤ length ∧ Reaches offset data.length :=
  Yields.bind (yields_true _) fun _ _ => yields_read _ _ _

theorem yields_writeAt (i offset : Nat) (data : List UInt8) :
    Yields (fun _ => True) (Volume.writeAt i offset data) (Reaches offset) :=
  Yields.bind (yields_true _) fun f _ => yields_through f (yields_write offset data)

/-- What a file may reach leaves the cursor behind it a word. -/
theorem Reaches.lt_word {offset count : Nat} (h : Reaches offset count)
    (hoffset : offset < 2 ^ 32) : count < 2 ^ 32 ∧ offset + count < 2 ^ 32 := by
  rcases Nat.eq_zero_or_pos count with rfl | hpos
  · exact ⟨by decide, hoffset⟩
  · have hle := h hpos
    simp only [pointerCount, blockSize] at hle
    omega

theorem yields_base {file : OpenFile} (h : file.cursor < 2 ^ 32) (whence : Whence) :
    Yields (fun _ => True) (Session.base file whence) (· < 2 ^ 32) := by
  cases whence with
  | set => exact .pure (by decide)
  | current => exact .pure h
  | finish => exact yields_fileSize file.inode

/-! ## The same as on the volume -/

@[simp]
theorem mountSession_eq : mountSession = plain Session.mount := by
  simp only [mountSession, Session.mount, mount_eq, plain_bind, plain_modify, plain_inSession]

@[simp]
theorem inodeToOpen_eq (path : String) (flags : OpenFlags) :
    inodeToOpen path flags = plain (Session.inodeToOpen path flags) := by
  rw [inodeToOpen, Session.inodeToOpen, locate_eq]
  refine recover_eq fun e => ?_
  cases flags.create with
  | false => cases e <;> rfl
  | true =>
    cases e with
    | notFound => exact makeFileAt_eq path
    | _ => rfl

@[simp]
theorem base_eq (file : OpenFile) (whence : Whence) :
    base file whence = plain (Session.base file whence) := by
  cases whence with
  | set => rfl
  | current => rfl
  | finish => exact fileSize_eq file.inode

@[simp]
theorem openPath_eq (path : String) (flags : OpenFlags) :
    openPath path flags = plain (Session.openPath path flags) := by
  rw [openPath, Session.openPath, plain_bind]
  refine bind_congr fun s => ?_
  cases s.files.findFinIdx? Option.isNone with
  | none => rfl
  | some handle =>
    simp only [inodeToOpen_eq, loadFile_eq, range_eq (Nat.le_succ handle.val) handle.isLt,
      pure_bind, plain_bind, plain_inSession, plain_pure]

theorem moveCursor_eq {start bytes : Nat} (h : Reaches start bytes) (hstart : start < 2 ^ 32)
    (handle : Nat) (file : OpenFile) :
    moveCursor handle file start bytes
      = plain (Session.setFile handle (some { file with cursor := start + bytes })) := by
  obtain ⟨hbytes, hsum⟩ := h.lt_word hstart
  rw [moveCursor, narrow_eq hbytes, pure_bind, word_eq hsum, pure_bind]

/-- A cursor that could stand at the end of its word would not be moved. -/
example (s : Session) (file : OpenFile) :
    leaves (moveCursor 0 file (2 ^ 32 - 1) 1) s = .error .overflow := rfl

variable {s : Session}

theorem readHandle_eq (hs : CursorsFit s.files) (handle length : Nat) :
    readHandle handle length s = plain (Session.read handle length) s := by
  rw [readHandle, Session.read, plain_bind]
  refine bind_congr_at (yields_openFile handle) (fun file hfile s hs => ?_) hs
  rw [readAt_eq, ← plain_inSession, plain_bind]
  refine bind_congr_at (yields_inSession (yields_readAt _ _ _)) (fun data hdata s _ => ?_) hs
  rw [moveCursor_eq hdata.2 hfile, plain_bind, plain_pure]

theorem writeFrom_eq {start : Nat} (hstart : start < 2 ^ 32) (handle : Nat) (file : OpenFile)
    (data : List UInt8) :
    writeFrom handle file start data = plain (plainWriteFrom handle file start data) := by
  rw [writeFrom, plainWriteFrom, writeAt_eq _ hstart, ← plain_inSession, plain_bind]
  refine bind_congr_of_yields (yields_inSession (P := fun _ => True) (yields_writeAt _ _ _))
    fun written hwritten => ?_
  rw [moveCursor_eq hwritten hstart, plain_bind, plain_pure]

theorem writeHandle_eq (hs : CursorsFit s.files) (handle : Nat) (data : List UInt8) :
    writeHandle handle data s = plain (Session.write handle data) s := by
  rw [writeHandle, Session.write, plain_bind]
  refine bind_congr_at (yields_openFile handle) (fun file hfile s hs => ?_) hs
  dsimp only
  rw [plain_ite]
  split
  · rw [fileSize_eq, ← plain_inSession, plain_bind]
    refine bind_congr_at (yields_inSession (yields_fileSize _)) (fun start hstart s _ => ?_) hs
    rw [writeFrom_eq hstart]
    rfl
  · rw [writeFrom_eq hfile]
    rfl

/-- A sum that is no signed word of 64 bits is no cursor either. -/
theorem seek_eq (hs : CursorsFit s.files) (handle : Nat) (distance : Int) (whence : Whence) :
    seek handle distance whence s = plain (Session.seek handle distance whence) s := by
  rw [seek, Session.seek, plain_bind]
  refine bind_congr_at (yields_openFile handle) (fun file hfile s hs => ?_) hs
  rw [base_eq, ← plain_inSession, plain_bind]
  refine bind_congr_at (yields_inSession (yields_base hfile whence)) (fun start hstart s _ => ?_) hs
  generalize hplace : (start : Int) + distance = place
  cases place with
  | negSucc n =>
    dsimp only
    split <;> rfl
  | ofNat position =>
    dsimp only
    by_cases hposition : position < UInt32.size
    · have hin : ¬ (Int.ofNat position < -2 ^ 63 ∨ 2 ^ 63 ≤ Int.ofNat position) := by
        simp only [UInt32.size, Int.ofNat_eq_natCast] at hposition ⊢
        omega
      rw [if_neg hin, if_pos hposition, if_pos hposition, plain_bind, plain_pure]
    · rw [if_neg hposition, if_neg hposition]
      split <;> rfl

/-! ## What is kept -/

theorem cursorsFit_noFiles : CursorsFit Session.noFiles := by
  intro handle file hfile
  rw [Session.noFiles, Vector.getElem?_replicate] at hfile
  split at hfile <;> cases hfile

theorem keeps_mount : Keeps (fun s : Session => CursorsFit s.files) Session.mount := by
  refine Keeps.bind (Keeps.modify fun _ _ => cursorsFit_noFiles) fun _ => ?_
  exact yields_inSession (yields_true _)

theorem keeps_openPath (path : String) (flags : OpenFlags) :
    Keeps (fun s : Session => CursorsFit s.files) (Session.openPath path flags) := by
  refine Keeps.get.bind fun s => ?_
  split
  · exact .throw _
  · refine Keeps.after (yields_inSession (yields_true _)) fun inode _ => ?_
    refine Keeps.after (yields_inSession (yields_true _)) fun _ _ => ?_
    exact (keeps_setFile_some _ (Nat.two_pow_pos 32)).bind fun _ => .pure _

/-- The cursor of a file that was read or written is set behind what it reaches. -/
theorem keeps_setCursor {start count : Nat} (h : Reaches start count) (hstart : start < 2 ^ 32)
    (handle : Nat) (file : OpenFile) :
    Keeps (fun s : Session => CursorsFit s.files)
      (Session.setFile handle (some { file with cursor := start + count })) :=
  keeps_setFile_some handle (h.lt_word hstart).2

theorem keeps_read (handle length : Nat) :
    Keeps (fun s : Session => CursorsFit s.files) (Session.read handle length) := by
  refine Keeps.after (yields_openFile handle) fun file hfile => ?_
  refine Keeps.after (yields_inSession (yields_readAt _ _ _)) fun data hdata => ?_
  exact (keeps_setCursor hdata.2 hfile _ _).bind fun _ => .pure _

theorem keeps_writeFrom {start : Nat} (hstart : start < 2 ^ 32) (handle : Nat) (file : OpenFile)
    (data : List UInt8) :
    Keeps (fun s : Session => CursorsFit s.files) (plainWriteFrom handle file start data) := by
  refine Keeps.after (yields_inSession (yields_writeAt _ _ _)) fun written hwritten => ?_
  exact (keeps_setCursor hwritten hstart _ _).bind fun _ => .pure _

theorem keeps_write (handle : Nat) (data : List UInt8) :
    Keeps (fun s : Session => CursorsFit s.files) (Session.write handle data) := by
  refine Keeps.after (yields_openFile handle) fun file hfile => ?_
  dsimp only
  split
  · exact Keeps.after (yields_inSession (yields_fileSize _)) fun start hstart =>
      keeps_writeFrom hstart handle file data
  · exact keeps_writeFrom hfile handle file data

theorem keeps_seek (handle : Nat) (distance : Int) (whence : Whence) :
    Keeps (fun s : Session => CursorsFit s.files) (Session.seek handle distance whence) := by
  refine Keeps.after (yields_openFile handle) fun file _ => ?_
  refine Keeps.after (yields_inSession (yields_true _)) fun start _ => ?_
  split
  · next position _ =>
    dsimp only
    split
    · next hposition =>
      exact (keeps_setFile_some _ hposition).bind fun _ => .pure _
    · exact .throw_bind _ _
  · exact .throw _

theorem keeps_close (handle : Nat) :
    Keeps (fun s : Session => CursorsFit s.files) (Session.close handle) :=
  Keeps.after (yields_openFile handle) fun _ _ => keeps_setFile _ fun _ hf => nomatch hf

end Machine

end BlockFS
