import BlockFS.Proofs.AllocationExact
import BlockFS.Proofs.Faults.Calls
import BlockFS.Proofs.Undoing.Requests
import BlockFS.Proofs.Undoing.Sessions

/-!
# Calls that fail

On a device that fails no transfer, a call that fails leaves everything that is in use as it was, byte
for byte: block 0, the superblock, the bitmaps, the records and the blocks of what is linked, the
current directory and the open files.  Packing files is no such call, for it keeps the files that were
packed before it failed.
-/

namespace BlockFS

open Volume

variable {l : Layout} {g : Geometry} {v : Service} {logs : Logs} {s s' : Scene l}

/-- Whether an action fails. -/
def failed {ε τ α : Type} (x : EStateM ε τ α) (s : τ) : Bool :=
  match x s with
  | .ok _ _ => false
  | .error _ _ => true

/-- Whether a call fails. -/
def Call.fails : Call → Service → Bool
  | .reopen, s => failed Volume.mount (.unmounted s.volume.device s.volume.clock)
  | .edit e, s => failed e.action s.volume
  | .look q, s => failed q.action s.volume
  | .makeFileAt path, s => failed (Volume.makeFileAt path) s.volume
  | .makeDirectoryAt path, s => failed (Volume.makeDirectoryAt path) s.volume
  | .unlinkHere name, s => failed (Volume.unlinkHere name) s.volume
  | .relabelHere old new, s => failed (Volume.relabelHere old new) s.volume
  | .pack files, s => failed (Volume.packAll files) s.volume
  | .newSession, _ => false
  | .mountSession, s => failed Session.mount ⟨s.volume, s.files⟩
  | .openPath path flags, s => failed (Session.openPath path flags) ⟨s.volume, s.files⟩
  | .readHandle handle length, s => failed (Session.read handle length) ⟨s.volume, s.files⟩
  | .writeHandle handle data, s => failed (Session.write handle data) ⟨s.volume, s.files⟩
  | .seek handle distance whence, s =>
    failed (Session.seek handle distance whence) ⟨s.volume, s.files⟩
  | .close handle, s => failed (Session.close handle) ⟨s.volume, s.files⟩
  | .newServer, _ => false
  | .request q, s => failed (Kernel.answer q) ⟨s.volume, s.owner, s.group⟩

/-- What is in use on a volume of a layout, the current directory and the open files are the same,
byte for byte. -/
structure Service.Untouched (l : Layout) (v v' : Service) : Prop where
  boot : v'.volume.device.disk.block 0 = v.volume.device.disk.block 0
  superblock : v'.volume.device.disk.block superblockBlock
    = v.volume.device.disk.block superblockBlock
  bitmap : ∀ r : Resource, v'.volume.device.disk.block (r.bitmapBlock l)
    = v.volume.device.disk.block (r.bitmapBlock l)
  record : ∀ i, (v.volume.records l).written.Linked i →
    l.inodeBytes v'.volume.device.disk.block i = l.inodeBytes v.volume.device.disk.block i
  block : ∀ i slot b, (v.volume.records l).PointsTo i slot b →
    v'.volume.device.disk.block b = v.volume.device.disk.block b
  cwd : v'.volume.cwd = v.volume.cwd
  files : v'.files = v.files

/-! ## What an intact scene keeps -/

namespace Scene.Intact

variable (w : s.Intact s') {i slot b : Nat}

include w

theorem block_of_lt_tableStart (hb : b < l.tableStart) : s'.store.block b = s.store.block b := by
  have hlower := congrFun w.lower b
  rw [Scene.lower, Scene.lower, Layout.lower, Layout.lower, if_pos hb, if_pos hb] at hlower
  exact hlower

theorem inodeBytes_of_live (hi : s.records.kind i ≠ .free) :
    l.inodeBytes s'.store.block i = l.inodeBytes s.store.block i := by
  have hlt : i < l.inodeCount := lt_count_of_used (Records.used_of_kind_ne hi)
  have hrecord := w.agree.inode_eq hi
  rw [records_inode hlt, records_inode hlt] at hrecord
  have hencoded := congrArg Inode.encode hrecord
  rw [Layout.inode, Layout.inode, Inode.encode_decode, Inode.encode_decode] at hencoded
  exact hencoded

theorem block_of_owns (hs : s.Good) (hb : s.records.Owns i slot b) :
    s'.store.block b = s.store.block b := by
  obtain ⟨hge, hlt⟩ := hs.tidy.blocks.range i slot b hb
  have hblock := w.agree.block b (hs.tidy.blocks.used_of_owns hb)
  rw [records_block hge hlt, records_block hge hlt] at hblock
  exact hblock

end Scene.Intact

/-- A service on an intact scene is untouched. -/
theorem Scene.Intact.untouched (w : s.Intact s') (hs : s.Good) {v v' : Service}
    {history history' : History} (hv : v.volume = Settled.state s history)
    (hv' : v'.volume = Settled.state s' history') (hfiles : v'.files = v.files) :
    v.Untouched l v' := by
  have hrecords : v.volume.records l = s.records := by rw [hv]; rfl
  have hdisk : v.volume.device.disk.block = s.store.block := by rw [hv]; rfl
  have hdisk' : v'.volume.device.disk.block = s'.store.block := by rw [hv']; rfl
  have hbelow {b : Nat} (hb : b < l.tableStart) :
      v'.volume.device.disk.block b = v.volume.device.disk.block b := by
    rw [hdisk, hdisk']
    exact w.block_of_lt_tableStart hb
  have hsuper := l.superblock_lt_tableStart
  constructor
  · exact hbelow (Nat.zero_lt_of_lt hsuper)
  · exact hbelow hsuper
  · exact fun r => hbelow (l.bitmapBlock_lt_tableStart r)
  · intro i hi
    rw [hrecords] at hi
    rw [hdisk, hdisk']
    exact w.inodeBytes_of_live (hs.tidy.linked_written_iff.mp hi)
  · intro i slot b hb
    rw [hrecords] at hb
    rw [hdisk, hdisk']
    exact w.block_of_owns hs (hs.tidy.pointsTo_iff.mp hb)
  · rw [hv, hv']
    exact w.cwd
  · exact hfiles

/-! ## Calls that fail undo what they did -/

/-- An action that failed leaves a state behind as its failures do. -/
theorem Ends.leftBy_of_failed {S τ ε α : Type} [Exposed S τ] {plan : FaultPlan}
    {x : EStateM ε τ α} {t : S} {Q : α → S → Prop} {E : ε → S → Prop} {history : History}
    (hx : Ends plan x t Q E) (hfailed : failed x (Exposed.under plan t history) = true) :
    ∃ e t' history', leftBy x (Exposed.under plan t history) = Exposed.under plan t' history' ∧
      E e t' := by
  rcases hx history with ⟨a, t', h', hx, -⟩ | ⟨e, t', h', hx, he⟩
  · rw [failed, hx] at hfailed
    cases hfailed
  · refine ⟨e, t', h', ?_, he⟩
    rw [leftBy, hx]

section

variable {α : Type} {files : Vector (Option OpenFile) handleCount} {owner group : Nat}
  {history : History}

/-- A service is on an intact scene with the same files open. -/
def Service.Keeps (v : Service) (s : Scene l)
    (files : Vector (Option OpenFile) handleCount) : Prop :=
  ∃ (s' : Scene l) (history' : History), v.volume = Settled.state s' history' ∧ s.Intact s' ∧
    v.files = files

theorem Service.keeps_onVolume {x : VolumeM α} {Q : α → Scene l → Prop}
    (hx : Ends .never x s Q fun _ s' => s.Intact s')
    (hfailed : failed x (Settled.state s history) = true) :
    ((Service.mk (Settled.state s history) files owner group).onVolume x).Keeps s files := by
  obtain ⟨-, s', history', hleft, hintact⟩ := hx.leftBy_of_failed hfailed
  exact ⟨s', history', hleft, hintact, rfl⟩

theorem Service.keeps_onSession {x : SessionM α} {Q : α → SessionScene l → Prop}
    (hx : Ends .never x (SessionScene.mk s files) Q fun _ t' => (SessionScene.mk s files).Intact t')
    (hfailed : failed x ⟨Settled.state s history, files⟩ = true) :
    ((Service.mk (Settled.state s history) files owner group).onSession x).Keeps s files := by
  obtain ⟨-, t', history', hleft, hintact⟩ := hx.leftBy_of_failed hfailed
  exact ⟨t'.scene, history', congrArg Session.volume hleft, hintact.scene,
    (congrArg Session.files hleft).trans hintact.files⟩

theorem Service.keeps_onServer {x : Kernel.ServerM α} {Q : α → ServerScene l → Prop}
    (hx : Ends .never x (ServerScene.mk s owner group) Q fun _ t' => s.Intact t'.scene)
    (hfailed : failed x ⟨Settled.state s history, owner, group⟩ = true) :
    ((Service.mk (Settled.state s history) files owner group).onServer x).Keeps s files := by
  obtain ⟨-, t', history', hleft, hintact⟩ := hx.leftBy_of_failed hfailed
  exact ⟨t'.scene, history', congrArg Kernel.Server.volume hleft, hintact, rfl⟩

/-- A call that fails, other than packing files, leaves what it was made on intact. -/
theorem Call.keeps (c : Call) (hv : v.volume = Settled.state s history) (hs : s.Good)
    (hpack : ∀ files, c ≠ .pack files) (hfails : c.fails v = true) :
    (c.after v).Keeps s v.files := by
  obtain ⟨volume, files, owner, group⟩ := v
  obtain rfl : volume = Settled.state s history := hv
  cases c with
  | reopen =>
    -- a volume that was opened once can always be opened again
    let s0 : Scene l := { s with mounted := false, cwd := rootInode }
    have hmount : Ends .never mount s0 (fun _ _ => True) (fun _ _ => False) :=
      does_mount.ends_ok trivial
    obtain ⟨-, -, -, -, hno⟩ := hmount.leftBy_of_failed hfails
    exact hno.elim
  | edit e => exact Service.keeps_onVolume (e.undoes hs) hfails
  | look q =>
    exact Service.keeps_onVolume (Q := fun _ _ => True)
      (q.quiet.ends (fun _ => trivial) fun _ => .refl s) hfails
  | makeFileAt path => exact Service.keeps_onVolume (undoes_makeFileAt hs path) hfails
  | makeDirectoryAt path => exact Service.keeps_onVolume (undoes_makeDirectoryAt hs path) hfails
  | unlinkHere name => exact Service.keeps_onVolume (undoes_unlinkHere hs name) hfails
  | relabelHere old new => exact Service.keeps_onVolume (undoes_relabelHere hs old new) hfails
  | pack files => exact absurd rfl (hpack files)
  | newSession => cases hfails
  | mountSession => exact Service.keeps_onSession Session.undoes_mount hfails
  | openPath path flags =>
    exact Service.keeps_onSession (Session.undoes_openPath hs path flags) hfails
  | readHandle handle length => exact Service.keeps_onSession (Session.undoes_read length) hfails
  | writeHandle handle data => exact Service.keeps_onSession (Session.undoes_write hs data) hfails
  | seek handle distance whence =>
    exact Service.keeps_onSession (Session.undoes_seek distance whence) hfails
  | close handle => exact Service.keeps_onSession Session.undoes_close hfails
  | newServer => cases hfails
  | request q => exact Service.keeps_onServer (Kernel.undoes_answer hs q) hfails

end

/-- Whatever calls led to a volume, a call that fails leaves untouched what is in use. -/
theorem Reached.failed_call_changes_nothing (h : Reached g v logs)
    (hl : Layout.ofGeometry g = .ok l) (c : Call) (hpack : ∀ files, c ≠ .pack files)
    (hfails : c.fails v = true) : v.Untouched l (c.after v) := by
  obtain ⟨s, history, hv, -, hs, -⟩ := h.exists_scene hl
  obtain ⟨s', history', hv', hintact, hfiles⟩ := c.keeps hv hs hpack hfails
  exact hintact.untouched hs hv hv' hfiles

/-! ## A volume on which there is no room -/

/-- The layout of a volume of six blocks, the last of which holds the root. -/
def Layout.crowded : Layout := ⟨.ofGeometry ⟨6, 8, 1⟩, by decide⟩

theorem Layout.ofGeometry_crowded : Layout.ofGeometry ⟨6, 8, 1⟩ = .ok .crowded := rfl

/-- A new volume of six blocks. -/
def Service.crowded : Service :=
  .new (leftBy (format ⟨6, 8, 1⟩) (unmounted (.reliable .empty) 0))

/-- An inode is free for a directory but no block, and the inode is taken back. -/
theorem Scene.New.does_makeDirectory_crowded {s : Scene .crowded} (h : s.New) :
    ∃ s', Does (makeDirectory rootInode "a") s (.error .noSpace) s' := by
  have hroot : s.records.kind rootInode = .directory := h.good.tidy.tree.root
  exact ⟨_, does_makeDirectory_noBlock h.mounted h.good.tidy.toExact StoredName.encode_a hroot
    (h.empty.lookup_eq_none (by decide)) (h.lowestFree_inode (by decide))
    (h.lowestFree_block_full (by decide))⟩

/-- A directory is to be made where no block is left for its table. -/
theorem Reached.failed_call_changes_nothing_crowded :
    let c := Call.edit (.makeDirectory rootInode "a")
    Reached ⟨6, 8, 1⟩ Service.crowded (fun _ => []) ∧
      Layout.ofGeometry ⟨6, 8, 1⟩ = .ok .crowded ∧ (∀ files, c ≠ .pack files) ∧
      c.fails Service.crowded = true ∧
      Service.crowded.Untouched .crowded (c.after Service.crowded) := by
  intro c
  obtain ⟨s, history, hformat, hnew⟩ := format_eq Layout.ofGeometry_crowded .empty 0
  have hcrowded : Service.crowded = .new (Settled.state s history) := by
    rw [Service.crowded, leftBy, hformat]
  have hreached : Reached ⟨6, 8, 1⟩ Service.crowded fun _ => [] := by
    rw [hcrowded]
    exact .new hformat
  have hfails : c.fails Service.crowded = true := by
    obtain ⟨s', hfull⟩ := hnew.does_makeDirectory_crowded
    obtain ⟨history', hfull⟩ := hfull history
    rw [hcrowded]
    change failed (makeDirectory rootInode "a") (Settled.state s history) = true
    rw [failed, hfull]
    rfl
  have hpack : ∀ files, c ≠ .pack files := fun _ => Call.noConfusion
  exact ⟨hreached, Layout.ofGeometry_crowded, hpack, hfails,
    hreached.failed_call_changes_nothing Layout.ofGeometry_crowded c hpack hfails⟩

end BlockFS
