import BlockFS.Proofs.Runs

/-!
# What calls answer

Besides what a call leaves behind there is what it answers.  On a device that fails no transfer both
depend on nothing but the scene, the open files and the user: two services that differ only in the
history of their transfers cannot be told apart by any sequence of calls.
-/

namespace BlockFS

open Volume

/-- What a call answers when it succeeds. -/
inductive Answer where
  | done
  | number (n : Nat)
  | bytes (data : List UInt8)
  | record (r : Inode)
  | listing (items : List (Except Error Child))
  | bitmap (b : Bitmap)
  | block (b : Block)
  | reply (r : Kernel.Reply)

/-- Why a call fails: a cause on the volume, or a number of the host's error table. -/
inductive Refusal where
  | failed (cause : Error)
  | refused (errno : Int)

/-- The result of an action, without the state that it leaves behind. -/
def resultOf {ε τ α : Type} (x : EStateM ε τ α) (s : τ) : Except ε α :=
  match x s with
  | .ok a _ => .ok a
  | .error e _ => .error e

/-- A result as the answer of a call. -/
def Answer.told {ε α : Type} (refusal : ε → Refusal) (answer : α → Answer) :
    Except ε α → Except Refusal Answer
  | .ok a => .ok (answer a)
  | .error e => .error (refusal e)

/-- What a call that only looks answers. -/
def Look.answer : Look → VolumeM Answer
  | .locate path => .number <$> Volume.locate path
  | .find parent name => .number <$> Volume.find parent name
  | .readAt inode offset length => .bytes <$> Volume.readAt inode offset length
  | .fileSize inode => .number <$> Volume.fileSize inode
  | .record inode => .record <$> Volume.readInode inode
  | .list inode => .listing <$> (Volume.walk inode >>= Listing.items)
  | .bitmap r => .bitmap <$> Volume.readBitmap r
  | .block index => .block <$> Volume.readBlock index

namespace Service

variable {α : Type} (answer : α → Answer)

/-- What an action on the volume of a service answers. -/
def tellVolume (s : Service) (x : VolumeM α) : Except Refusal Answer :=
  Answer.told .failed answer (resultOf x s.volume)

/-- What an action on the session of a service answers. -/
def tellSession (s : Service) (x : SessionM α) : Except Refusal Answer :=
  Answer.told .failed answer (resultOf x ⟨s.volume, s.files⟩)

/-- What an action of the server of a service answers. -/
def tellServer (s : Service) (x : Kernel.ServerM α) : Except Refusal Answer :=
  Answer.told .refused answer (resultOf x ⟨s.volume, s.owner, s.group⟩)

end Service

/-- What a call answers. -/
def Call.answer : Call → Service → Except Refusal Answer
  | .reopen, s =>
    Answer.told .failed (fun _ => .done)
      (resultOf Volume.mount (.unmounted s.volume.device s.volume.clock))
  | .edit e, s => s.tellVolume .number e.action
  | .look q, s => s.tellVolume id q.answer
  | .makeFileAt path, s => s.tellVolume .number (Volume.makeFileAt path)
  | .makeDirectoryAt path, s => s.tellVolume .number (Volume.makeDirectoryAt path)
  | .unlinkHere name, s => s.tellVolume (fun _ => .done) (Volume.unlinkHere name)
  | .relabelHere old new, s => s.tellVolume (fun _ => .done) (Volume.relabelHere old new)
  | .pack files, s => s.tellVolume .number (Volume.packAll files)
  | .newSession, _ => .ok .done
  | .mountSession, s => s.tellSession (fun _ => .done) Session.mount
  | .openPath path flags, s => s.tellSession .number (Session.openPath path flags)
  | .readHandle handle length, s => s.tellSession .bytes (Session.read handle length)
  | .writeHandle handle data, s => s.tellSession .number (Session.write handle data)
  | .seek handle distance whence, s =>
    s.tellSession .number (Session.seek handle distance whence)
  | .close handle, s => s.tellSession (fun _ => .done) (Session.close handle)
  | .newServer, _ => .ok .done
  | .request q, s => s.tellServer .reply (Kernel.answer q)

/-- What is seen of a call: its answer, and then the disk, the layout in force and the current
directory. -/
structure Observation where
  answer : Except Refusal Answer
  disk : Disk
  layout : Option Layout
  cwd : Nat

/-- What is seen of a sequence of calls, one after another. -/
def Call.observe : List Call → Service → List Observation
  | [], _ => []
  | c :: cs, s =>
    let s' := c.after s
    ⟨c.answer s, s'.volume.device.disk, s'.volume.layout, s'.volume.cwd⟩ :: observe cs s'

/-! ## Histories of transfers do not show -/

variable {l : Layout} {s : Scene l}

theorem Does.resultOf_eq {S τ ε α : Type} [Settled S τ] {x : EStateM ε τ α} {t t' : S}
    {r : Except ε α} (hx : Does x t r t') (history : History) :
    resultOf x (Settled.state t history) = r := by
  obtain ⟨history', hx⟩ := hx history
  rw [resultOf, hx]
  cases r with
  | ok a => rfl
  | error e => rfl

/-- Services that differ in nothing but the history of transfers, on a good scene. -/
structure Service.Alike (l : Layout) (v w : Service) : Prop where
  scene : ∃ (s : Scene l) (history history' : History),
    v.volume = Settled.state s history ∧ w.volume = Settled.state s history' ∧ s.Good
  files : v.files = w.files
  owner : v.owner = w.owner
  group : v.group = w.group

namespace Service

section

variable {α : Type} {answer : α → Answer} {es : List Edit}
  {files : Vector (Option OpenFile) handleCount} {owner group : Nat} {history history' : History}

/-- Two runs of a call answer the same and leave services behind that are alike. -/
def Agree (l : Layout) (r r' : Except Refusal Answer) (v w : Service) : Prop :=
  r = r' ∧ v.Alike l w

theorem alike_onVolume {x : VolumeM α} (hx : Performs x es s) :
    ((Service.mk (Settled.state s history) files owner group).onVolume x).Alike l
      ((Service.mk (Settled.state s history') files owner group).onVolume x) := by
  obtain ⟨r, s', hdo, hes⟩ := hx
  obtain ⟨h₁, hleft⟩ := hdo.leftBy_eq history
  obtain ⟨h₂, hleft'⟩ := hdo.leftBy_eq history'
  exact ⟨⟨s', h₁, h₂, hleft, hleft', hes.good⟩, rfl, rfl, rfl⟩

theorem agree_onVolume {x : VolumeM α} (hx : Performs x es s) :
    let v := Service.mk (Settled.state s history) files owner group
    let w := Service.mk (Settled.state s history') files owner group
    Agree l (v.tellVolume answer x) (w.tellVolume answer x) (v.onVolume x) (w.onVolume x) := by
  intro v w
  refine ⟨?_, alike_onVolume hx⟩
  obtain ⟨r, s', hdo, -⟩ := hx
  rw [tellVolume, tellVolume, hdo.resultOf_eq, hdo.resultOf_eq]

theorem agree_onSession {x : SessionM α} (hx : Performs x es (SessionScene.mk s files)) :
    let v := Service.mk (Settled.state s history) files owner group
    let w := Service.mk (Settled.state s history') files owner group
    Agree l (v.tellSession answer x) (w.tellSession answer x) (v.onSession x) (w.onSession x) := by
  intro v w
  obtain ⟨r, t', hdo, hes⟩ := hx
  obtain ⟨h₁, hleft⟩ := hdo.leftBy_eq history
  obtain ⟨h₂, hleft'⟩ := hdo.leftBy_eq history'
  have hresult (history : History) :
      resultOf x ⟨Settled.state s history, files⟩ = r := hdo.resultOf_eq history
  have hfiles : (v.onSession x).files = t'.files := congrArg Session.files hleft
  have hfiles' : (w.onSession x).files = t'.files := congrArg Session.files hleft'
  refine ⟨?_, ⟨t'.scene, h₁, h₂, congrArg Session.volume hleft, congrArg Session.volume hleft',
    hes.good⟩, hfiles.trans hfiles'.symm, rfl, rfl⟩
  rw [tellSession, tellSession, hresult, hresult]

theorem agree_onServer {x : Kernel.ServerM α}
    (hx : Performs x es (ServerScene.mk s owner group)) :
    let v := Service.mk (Settled.state s history) files owner group
    let w := Service.mk (Settled.state s history') files owner group
    Agree l (v.tellServer answer x) (w.tellServer answer x) (v.onServer x) (w.onServer x) := by
  intro v w
  obtain ⟨r, t', hdo, hes⟩ := hx
  obtain ⟨h₁, hleft⟩ := hdo.leftBy_eq history
  obtain ⟨h₂, hleft'⟩ := hdo.leftBy_eq history'
  have hresult (history : History) :
      resultOf x ⟨Settled.state s history, owner, group⟩ = r := hdo.resultOf_eq history
  have howner : (v.onServer x).owner = t'.owner := congrArg Kernel.Server.owner hleft
  have howner' : (w.onServer x).owner = t'.owner := congrArg Kernel.Server.owner hleft'
  have hgroup : (v.onServer x).group = t'.group := congrArg Kernel.Server.group hleft
  have hgroup' : (w.onServer x).group = t'.group := congrArg Kernel.Server.group hleft'
  refine ⟨?_, ⟨t'.scene, h₁, h₂, congrArg Kernel.Server.volume hleft,
    congrArg Kernel.Server.volume hleft', hes.good⟩, rfl, howner.trans howner'.symm,
    hgroup.trans hgroup'.symm⟩
  rw [tellServer, tellServer, hresult, hresult]

end

end Service

theorem Look.quiet_answer (q : Look) : Quiet q.answer s := by
  cases q with
  | locate path => exact (quiet_locate path).map
  | find p name => exact (quiet_find p name).map
  | readAt i offset length => exact (quiet_readAt i offset length).map
  | fileSize i => exact (quiet_fileSize i).map
  | record i => exact (quiet_readInode i).map
  | list i => exact ((quiet_walk i).bind fun w => w.quiet_items).map
  | bitmap r => exact (quiet_readBitmap r).map
  | block i => exact (quiet_readBlock i).map

/-- A call answers the same on services that are alike, and leaves them alike. -/
theorem Call.agree (c : Call) {v w : Service} (h : v.Alike l w) :
    Service.Agree l (c.answer v) (c.answer w) (c.after v) (c.after w) := by
  obtain ⟨volume, files, owner, group⟩ := v
  obtain ⟨volume', files', owner', group'⟩ := w
  obtain ⟨⟨s, history, history', hv, hw, hs⟩, hfiles, howner, hgroup⟩ := h
  obtain rfl : volume = Settled.state s history := hv
  obtain rfl : volume' = Settled.state s history' := hw
  obtain rfl : files = files' := hfiles
  obtain rfl : owner = owner' := howner
  obtain rfl : group = group' := hgroup
  cases c with
  | reopen =>
    let s₀ : Scene l := { s with mounted := false, cwd := rootInode }
    have hs₀ : s₀.Good := ⟨hs.tidy, hs.tidy.tree.root⟩
    have hmount : Performs Volume.mount [.mount] s₀ := performs_of_action .mount hs₀ rfl
    let v₀ (history : History) : Service :=
      ⟨Settled.state s₀ history, Session.noFiles, 0, 0⟩
    have hagree : Service.Agree l ((v₀ history).tellVolume (fun _ => .done) Volume.mount)
        ((v₀ history').tellVolume (fun _ => .done) Volume.mount)
        ((v₀ history).onVolume Volume.mount) ((v₀ history').onVolume Volume.mount) :=
      Service.agree_onVolume hmount
    exact hagree
  | edit e => exact Service.agree_onVolume (performs_edit e hs)
  | look q =>
    -- what is done is told apart from what is answered, and both only look
    have hanswer : Performs q.answer [] s := .of_quiet q.quiet_answer hs
    exact ⟨(Service.agree_onVolume hanswer).1, Service.alike_onVolume (.of_quiet q.quiet hs)⟩
  | makeFileAt path =>
    exact Service.agree_onVolume (performs_atPath hs .makeFile path history)
  | makeDirectoryAt path =>
    exact Service.agree_onVolume (performs_atPath hs .makeDirectory path history)
  | unlinkHere name =>
    exact Service.agree_onVolume (performs_here hs (.unlink · name) (fun _ => rfl) history)
  | relabelHere old new =>
    exact Service.agree_onVolume (performs_here hs (.relabel · old new) (fun _ => rfl) history)
  | pack files => exact Service.agree_onVolume (performs_pack hs history)
  | newSession => exact ⟨rfl, ⟨s, history, history', rfl, rfl, hs⟩, rfl, rfl, rfl⟩
  | mountSession => exact Service.agree_onSession (Session.performs_mount hs)
  | openPath path flags =>
    exact Service.agree_onSession (Session.performs_openPath hs path flags history)
  | readHandle handle length => exact Service.agree_onSession (Session.performs_read hs length)
  | writeHandle handle data =>
    exact Service.agree_onSession (Session.performs_write hs data history)
  | seek handle distance whence =>
    exact Service.agree_onSession (Session.performs_seek hs distance whence)
  | close handle => exact Service.agree_onSession (Session.performs_close hs)
  | newServer => exact ⟨rfl, ⟨s, history, history', rfl, rfl, hs⟩, rfl, rfl, rfl⟩
  | request q => exact Service.agree_onServer (Kernel.performs_answer hs q history)

/-- No sequence of calls tells services apart that are alike. -/
theorem Service.Alike.observe_eq {v w : Service} (h : v.Alike l w) (cs : List Call) :
    Call.observe cs v = Call.observe cs w := by
  induction cs generalizing v w with
  | nil => rfl
  | cons c cs ih =>
    obtain ⟨hanswer, halike⟩ := c.agree h
    obtain ⟨s', h₁, h₂, hv, hw, -⟩ := halike.scene
    rw [Call.observe, Call.observe, hanswer, ih halike, hv, hw]
    rfl

end BlockFS
