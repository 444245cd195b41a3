import BlockFS.Proofs.HostileImages
import BlockFS.Proofs.Machine.Requests

/-!
# Runs on a machine

Every call is an action of the machine that was shown to be the plain one, provided that its numbers
fit the words in which they are handed over.  By induction over the calls no run crashes, whatever
lies on the device and whichever transfers fail: nothing about a volume is assumed but that its
layout, if it is mounted, has passed the checks.
-/

namespace BlockFS

/-- The numbers of a call fit their words.  It matters for the place of a write, which has 32 bits,
and for the number of files to pack; every other number is compared before it is used. -/
def Call.InWords : Call → Prop
  | .edit (.write _ offset _) => offset < 2 ^ 32
  | .pack files => files.length < 2 ^ 64
  | _ => True

namespace Machine

open Session (CursorsFit)

variable {α : Type}

/-! ## Calls -/

/-- What an edit does. -/
def edit : Edit → Action Error Volume Nat
  | .wait clock => do
    plain (modify fun v => { v with clock := clock })
    return 0
  | .mount => do
    mount
    return 0
  | .unmount => do
    plain Volume.unmount
    return 0
  | .makeFile parent name => makeFile parent name
  | .makeDirectory parent name => makeDirectory parent name
  | .write inode offset data => writeAt inode offset data
  | .unlink parent name => do
    unlink parent name
    return 0
  | .relabel parent old new => do
    relabel parent old new
    return 0
  | .enter path => enter path
  | .enterRoot => do
    plain Volume.enterRoot
    return 0

/-- What a call does that only looks at the volume. -/
def look : Look → Action Error Volume Unit
  | .locate path => do
    let _ ← locate path
  | .find parent name => do
    let _ ← find parent name
  | .readAt inode offset length => do
    let _ ← readAt inode offset length
  | .fileSize inode => do
    let _ ← fileSize inode
  | .record inode => do
    let _ ← loadInode inode
  | .list inode => do
    let _ ← itemsOf (← walk inode)
  | .bitmap r => do
    let _ ← loadBitmap r
  | .block index => do
    let _ ← loadBlock index

/-- The service after an action on its volume. -/
def onVolume (s : Service) (x : Action Error Volume α) : Except Crash Service := do
  let volume ← leaves x s.volume
  return { s with volume := volume }

/-- The service after an action on its session. -/
def onSession (s : Service) (x : Action Error Session α) : Except Crash Service := do
  let t ← leaves x ⟨s.volume, s.files⟩
  return { s with volume := t.volume, files := t.files }

/-- The service after an action of its server. -/
def onServer (s : Service) (x : Action Int Kernel.Server α) : Except Crash Service := do
  let t ← leaves x ⟨s.volume, s.owner, s.group⟩
  return { s with volume := t.volume, owner := t.owner, group := t.group }

/-- The service after a call, unless the machine crashes. -/
def after : Call → Service → Except Crash Service
  | .reopen, s => do
    let volume ← leaves mount (.unmounted s.volume.device s.volume.clock)
    return .new volume
  | .edit e, s => onVolume s (edit e)
  | .look q, s => onVolume s (look q)
  | .makeFileAt path, s => onVolume s (makeFileAt path)
  | .makeDirectoryAt path, s => onVolume s (makeDirectoryAt path)
  | .unlinkHere name, s => onVolume s (unlinkHere name)
  | .relabelHere old new, s => onVolume s (relabelHere old new)
  | .pack files, s => onVolume s (packAll files)
  | .newSession, s => return { s with files := Session.noFiles }
  | .mountSession, s => onSession s mountSession
  | .openPath path flags, s => onSession s (openPath path flags)
  | .readHandle handle length, s => onSession s (readHandle handle length)
  | .writeHandle handle data, s => onSession s (writeHandle handle data)
  | .seek handle distance whence, s => onSession s (seek handle distance whence)
  | .close handle, s => onSession s (plain (Session.close handle))
  | .newServer, s => return { s with owner := 0, group := 0 }
  | .request q, s => onServer s (answer q)

/-- The service after calls, one after another, unless the machine crashes. -/
def run (cs : List Call) (s : Service) : Except Crash Service :=
  cs.foldlM (fun s c => after c s) s

/-! ## No call crashes -/

theorem edit_eq {e : Edit} (h : (Call.edit e).InWords) : edit e = plain e.action := by
  cases e with
  | wait clock => rfl
  | mount => simp only [edit, Edit.action, mount_eq, plain_bind, plain_pure]
  | unmount => simp only [edit, Edit.action, plain_bind, plain_pure]
  | makeFile parent name => exact makeFile_eq parent name
  | makeDirectory parent name => exact makeDirectory_eq parent name
  | write inode offset data => exact writeAt_eq inode h data
  | unlink parent name => simp only [edit, Edit.action, unlink_eq, plain_bind, plain_pure]
  | relabel parent old new => simp only [edit, Edit.action, relabel_eq, plain_bind, plain_pure]
  | enter path => exact enter_eq path
  | enterRoot => simp only [edit, Edit.action, plain_bind, plain_pure]

theorem look_eq (q : Look) : look q = plain q.action := by
  cases q <;>
    simp only [look, Look.action, locate_eq, find_eq, readAt_eq, fileSize_eq, loadInode_eq, walk_eq,
      itemsOf_eq, loadBitmap_eq, loadBlock_eq, plain_bind, plain_pure]

section

variable {s : Service}

theorem onVolume_eq {x : Action Error Volume α} {y : VolumeM α} (h : x = plain y) :
    onVolume s x = .ok (s.onVolume y) := by
  rw [onVolume, h, leaves_plain]
  rfl

theorem onSession_eq {x : Action Error Session α} {y : SessionM α}
    (h : x ⟨s.volume, s.files⟩ = plain y ⟨s.volume, s.files⟩) :
    onSession s x = .ok (s.onSession y) := by
  rw [onSession, leaves, h, ← leaves, leaves_plain]
  rfl

theorem onServer_eq {x : Action Int Kernel.Server α} {y : Kernel.ServerM α} (h : x = plain y) :
    onServer s x = .ok (s.onServer y) := by
  rw [onServer, h, leaves_plain]
  rfl

/-- A call does on the machine what it does on unbounded numbers. -/
theorem after_eq {c : Call} (hc : c.InWords) (hs : CursorsFit s.files) :
    after c s = .ok (c.after s) := by
  cases c with
  | reopen =>
    rw [after, mount_eq, leaves_plain]
    rfl
  | edit e => exact onVolume_eq (edit_eq hc)
  | look q => exact onVolume_eq (look_eq q)
  | makeFileAt path => exact onVolume_eq (makeFileAt_eq path)
  | makeDirectoryAt path => exact onVolume_eq (makeDirectoryAt_eq path)
  | unlinkHere name => exact onVolume_eq (unlinkHere_eq name)
  | relabelHere old new => exact onVolume_eq (relabelHere_eq old new)
  | pack files => exact onVolume_eq (packAll_eq hc)
  | newSession => rfl
  | mountSession => exact onSession_eq (congrFun mountSession_eq _)
  | openPath path flags => exact onSession_eq (congrFun (openPath_eq path flags) _)
  | readHandle handle length => exact onSession_eq (readHandle_eq hs handle length)
  | writeHandle handle data => exact onSession_eq (writeHandle_eq hs handle data)
  | seek handle distance whence => exact onSession_eq (seek_eq hs handle distance whence)
  | close handle => exact onSession_eq rfl
  | newServer => rfl
  | request q => exact onServer_eq (answer_eq q)

/-- Every call leaves cursors that fit their words. -/
theorem cursorsFit_after (c : Call) (hs : CursorsFit s.files) : CursorsFit (c.after s).files := by
  have hsession {β : Type} {x : SessionM β} (hx : Keeps (fun t : Session => CursorsFit t.files) x) :
      CursorsFit (s.onSession x).files := hx.leftBy (s := ⟨s.volume, s.files⟩) hs
  cases c with
  | reopen => exact cursorsFit_noFiles
  | newSession => exact cursorsFit_noFiles
  | mountSession => exact hsession keeps_mount
  | openPath path flags => exact hsession (keeps_openPath path flags)
  | readHandle handle length => exact hsession (keeps_read handle length)
  | writeHandle handle data => exact hsession (keeps_write handle data)
  | seek handle distance whence => exact hsession (keeps_seek handle distance whence)
  | close handle => exact hsession (keeps_close handle)
  | _ => exact hs

theorem run_eq {cs : List Call} (hcs : ∀ c ∈ cs, c.InWords) (hs : CursorsFit s.files) :
    run cs s = .ok (Call.run cs s) := by
  induction cs generalizing s with
  | nil => rfl
  | cons c cs ih =>
    have hfirst := after_eq (hcs c (List.mem_cons_self ..)) hs
    rw [run, List.foldlM_cons, hfirst]
    exact ih (fun d hd => hcs d (List.mem_cons_of_mem _ hd)) (cursorsFit_after c hs)

end

/-- No byte of an image and no failing transfer makes a machine crash.  Let `v` be any volume:
whatever lies on its device and whichever of its transfers fail, mounted with any layout that passes
the checks, or not mounted yet.  Calls in any order, among them those that mount it anew, do what
they do on unbounded numbers: no index or range leaves its row, no sum, product or difference leaves
its word, no block number and no count loses bits, each turn of the loops that read and write makes
progress and the loops end, and each sector that is transferred lies below the end of the volume
that is mounted. The same holds where a new volume is made on the device. -/
theorem run_never_crashes (v : Volume) {cs : List Call} (hcs : ∀ c ∈ cs, c.InWords) :
    run cs (.new v) = .ok (Call.run cs (.new v)) ∧
      ∀ g, leaves (format g) v = .ok (leftBy (Volume.format g) v) := by
  refine ⟨run_eq hcs cursorsFit_noFiles, fun g => ?_⟩
  rw [format_eq, leaves_plain]

/-- A file that points to the superblock is read and written, and the volume whose superblock is
gone then is mounted anew and asked how full it is: the calls fail, but the machine does not crash.
-/
theorem run_never_crashes_rigged :
    let v : Volume := Settled.state (Scene.rigged .floppy) ⟨0, 0⟩
    let cs : List Call :=
      [.look (.readAt 2 0 1), .edit (.write 2 0 [0]), .reopen, .request .statistics]
    (∀ c ∈ cs, c.InWords) ∧ run cs (.new v) = .ok (Call.run cs (.new v)) ∧
      ∀ g, leaves (format g) v = .ok (leftBy (Volume.format g) v) := by
  intro v cs
  have hcs : ∀ c ∈ cs, c.InWords := by simp [cs, Call.InWords]
  exact ⟨hcs, run_never_crashes v hcs⟩

end Machine

end BlockFS
