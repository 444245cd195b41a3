import BlockFS.Proofs.Answers
import BlockFS.Proofs.Scene.Maps

/-!
# Mounting again

All that a mounted volume keeps in memory is its layout, which the device tells, and the current
directory.  A volume that is taken off its device and mounted again therefore goes on as if only the
root had become the current directory: nothing on the disk changes, and no sequence of calls shows a
difference.
-/

namespace BlockFS

open Volume

variable {l : Layout} {g : Geometry} {v w : Service} {logs : Logs} {s : Scene l}

/-- The service whose volume was unmounted and mounted again. -/
def Service.remounted (v : Service) : Service :=
  (Call.edit .mount).after ((Call.edit .unmount).after v)

/-- A service goes on as another one would after it moved to the root directory. -/
structure Service.Resumes (v w : Service) : Prop where
  layout : w.volume.layout = v.volume.layout
  cwd : w.volume.cwd = rootInode
  disk : w.volume.device.disk = v.volume.device.disk
  observe : ∀ cs, Call.observe cs w = Call.observe cs ((Call.edit .enterRoot).after v)

/-- A mounted scene whose current directory is the root. -/
def Scene.atRoot (s : Scene l) : Scene l := { s with mounted := true, cwd := rootInode }

theorem Scene.Good.atRoot (hs : s.Good) : s.atRoot.Good := ⟨hs.tidy, hs.tidy.tree.root⟩

theorem Scene.does_unmount_edit :
    Does (Edit.unmount).action s (.ok 0) { s with mounted := false } :=
  does_unmount.bind (Does.pure _ _)

theorem Scene.does_mount_again : Does (Edit.mount).action { s with mounted := false } (.ok 0)
    s.atRoot :=
  does_mount.bind (Does.pure _ _)

theorem Scene.does_enterRoot_mounted (hm : s.mounted = true) :
    Does (Edit.enterRoot).action s (.ok 0) s.atRoot := by
  have hroot : s.atRoot = { s with cwd := rootInode } := by rw [Scene.atRoot, ← hm]
  rw [hroot]
  exact ((does_getLayout hm).bind (does_setCwd _)).bind (Does.pure _ _)

/-- What is on the scene of a mounted volume, moved to the root, resumes the volume. -/
theorem Service.resumes_of_atRoot {history history' : History} (hm : s.mounted = true)
    (hs : s.Good) (hv : v.volume = Settled.state s history)
    (hw : w.volume = Settled.state s.atRoot history') (hfiles : w.files = v.files)
    (howner : w.owner = v.owner) (hgroup : w.group = v.group) : v.Resumes w := by
  obtain ⟨history'', hroot⟩ := (Scene.does_enterRoot_mounted hm).leftBy_eq history
  have halike : w.Alike l ((Call.edit .enterRoot).after v) := by
    refine ⟨⟨s.atRoot, history', history'', hw, ?_, hs.atRoot⟩, hfiles, howner, hgroup⟩
    change leftBy (Edit.enterRoot).action v.volume = _
    rw [hv, hroot]
  refine ⟨?_, ?_, ?_, halike.observe_eq⟩
  · rw [hv, hw]
    change (if s.atRoot.mounted = true then some l else none) = if s.mounted = true then _ else _
    rw [hm]
    rfl
  · rw [hw]
    rfl
  · rw [hv, hw]
    rfl

/-- Whatever calls led to a mounted volume, it can be opened anew on its device, or unmounted and
mounted, and resumes as if it had only moved to the root directory. -/
theorem Reached.remounting_unseen (h : Reached g v logs) (hm : v.volume.isMounted = true) :
    (∃ volume, openOn v.volume.device v.volume.clock = .ok () volume ∧
      v.Resumes { v with volume := volume }) ∧
    (∃ n, (Call.edit .mount).answer ((Call.edit .unmount).after v) = .ok (.number n)) ∧
    v.Resumes v.remounted := by
  obtain ⟨l, -, s, history, hv, hs, -⟩ := h.stands
  rw [hv, isMounted_state] at hm
  let s₀ : Scene l := { s with mounted := false, cwd := rootInode }
  obtain ⟨h₁, hopen⟩ := (does_mount (s := s₀)) history
  obtain ⟨h₂, hunmount⟩ := (Scene.does_unmount_edit (s := s)).leftBy_eq history
  obtain ⟨h₃, hmount⟩ := (Scene.does_mount_again (s := s)).leftBy_eq h₂
  have hunmounted : ((Call.edit .unmount).after v).volume
      = Settled.state { s with mounted := false } h₂ := by
    change leftBy (Edit.unmount).action v.volume = _
    rw [hv, hunmount]
  have hremounted : v.remounted.volume = Settled.state s.atRoot h₃ := by
    change leftBy (Edit.mount).action ((Call.edit .unmount).after v).volume = _
    rw [hunmounted, hmount]
  refine ⟨⟨Settled.state s.atRoot h₁, ?_, ?_⟩, ⟨0, ?_⟩, ?_⟩
  · rw [hv]
    exact hopen
  · exact Service.resumes_of_atRoot hm hs hv rfl rfl rfl rfl
  · rw [Call.answer, Service.tellVolume, hunmounted, Scene.does_mount_again.resultOf_eq]
    rfl
  · exact Service.resumes_of_atRoot hm hs hv hremounted rfl rfl rfl

/-! ## A volume whose current directory is not the root -/

namespace Scene

/-- A path that leads to a directory makes it the current one. -/
theorem does_enter {path : String} {i : Nat} (hm : s.mounted = true)
    (hlocate : Does (locate path) s (.ok i) s) (hi : s.records.kind i = .directory) :
    Does (enter path) s (.ok i) { s with cwd := i } := by
  have hused := Records.used_of_kind_ne (Records.ne_free_of_directory hi)
  refine hlocate.bind ((does_readInode hm hused).bind ?_)
  rw [Records.kind_of_used hused] at hi
  simp only [hi, if_true]
  exact (does_setCwd i).bind (Does.pure _ _)

/-- The first directory of a new volume is found under its name. -/
theorem New.does_makeDirectory_enter (h : s.New) (hinodes : 2 < l.inodeCount)
    (hblocks : l.firstDataBlock + 1 < l.blockCount) :
    ∃ s', Does (makeDirectory rootInode "a") s (.ok 2) s' ∧ s'.mounted = true ∧
      Does (enter "a") s' (.ok 2) { s' with cwd := 2 } := by
  have hroot : s.records.kind rootInode = .directory := h.good.tidy.tree.root
  obtain ⟨s', hdo, hmakes⟩ := does_makeDirectory_makes h.mounted h.good StoredName.encode_a hroot
    (h.empty.lookup_eq_none (by decide)) (h.lowestFree_inode hinodes) (h.lowestFree_block hblocks)
    (h.empty.findFinIdx?_isFree (by decide) (by decide))
  have hs := hmakes.good h.good
  have hm : s'.mounted = true := hmakes.mounted.trans h.mounted
  have hcwd : s'.cwd = rootInode := hmakes.cwd.trans (h.onlyRoot.cwd_eq h.good)
  have hfound : (s'.records.table rootInode).find? "a" = some 2 := by
    rw [EntryTable.find?_eq StoredName.encode_a]
    change s'.maps.map rootInode _ = _
    rw [hmakes.maps_eq h.good, NameMaps.link]
    simp only
    rw [Function.update_of_ne (by decide), Function.update_self, Function.update_self]
  have hstart : s'.start "a" = (rootInode, "a") := by rw [← hcwd]; rfl
  have hkind : s'.records.kind 2 = .directory := by rw [hmakes.kind_eq, if_pos rfl]
  exact ⟨s', hdo, hm,
    does_enter hm (does_locate_found hm hs hstart StoredName.encode_a hfound) hkind⟩

end Scene

/-- A directory is made on a new floppy disk and entered; when the disk is mounted again, its root
is the current directory. -/
theorem Reached.remounting_unseen_floppy :
    let v := (Call.edit (.enter "a")).after
      ((Call.edit (.makeDirectory rootInode "a")).after Service.floppy)
    ∃ logs, Reached .floppy v logs ∧ v.volume.isMounted = true ∧ v.volume.cwd = 2 ∧
      (∃ volume, openOn v.volume.device v.volume.clock = .ok () volume ∧
        v.Resumes { v with volume := volume }) ∧
      (∃ n, (Call.edit .mount).answer ((Call.edit .unmount).after v) = .ok (.number n)) ∧
      v.Resumes v.remounted := by
  intro v
  have hreached := (reached_floppy.call (.edit (.makeDirectory rootInode "a"))).call
    (.edit (.enter "a"))
  obtain ⟨s, history, hfloppy, hnew⟩ := Service.floppy_eq
  obtain ⟨s', hmake, hm, henter⟩ := hnew.does_makeDirectory_enter (by decide) (by decide)
  obtain ⟨h₁, hmade⟩ :=
    Does.leftBy_eq (x := (Edit.makeDirectory rootInode "a").action) hmake history
  obtain ⟨h₂, hentered⟩ := Does.leftBy_eq (x := (Edit.enter "a").action) henter h₁
  have hv : v.volume = Settled.state { s' with cwd := 2 } h₂ := by
    change leftBy _ (leftBy _ Service.floppy.volume) = _
    rw [hfloppy]
    change leftBy _ (leftBy _ (Settled.state s history)) = _
    rw [hmade, hentered]
  have hmounted : v.volume.isMounted = true := by rw [hv, isMounted_state, hm]
  refine ⟨_, hreached, hmounted, ?_, hreached.remounting_unseen hmounted⟩
  rw [hv]
  rfl

end BlockFS
