import BlockFS.Proofs.FileContents
import BlockFS.Proofs.Faults.Views
import BlockFS.Proofs.Scene.Maps

/-!
# Calls that fail on the device

A call on a volume that calls led to, made on a device that follows a plan of failures from then on.
What it leaves behind is read by a device that fails no more.
-/

namespace BlockFS

variable {l : Layout} {g : Geometry} {v : Service} {logs : Logs} {plan : FaultPlan}

theorem Scene.withFaults_eq (s : Scene l) (history : History) (plan : FaultPlan) :
    (Settled.state s history).withFaults plan = Exposed.under plan s ⟨0, 0⟩ := rfl

/-- What is left of a volume by a call that failed. -/
theorem Reached.exists_scene_of_error (h : Reached g v logs) (hl : Layout.ofGeometry g = .ok l)
    {α : Type} {x : VolumeM α} {e : Error} {v' : Volume} {E : Scene l → Error → Scene l → Prop}
    (hx : ∀ s : Scene l, s.Good → Ends plan x s (fun _ _ => True) (E s))
    (herror : x (v.volume.withFaults plan) = .error e v') :
    ∃ s s' : Scene l, v.volume.records l = s.records ∧ v'.records l = s'.records ∧ s.Good ∧
      E s e s' ∧ l.Reads (v'.device.withFaults .never) (v'.records l) := by
  obtain ⟨s, history, hvolume, hrecords, hs, -⟩ := h.exists_scene hl
  rw [hvolume, s.withFaults_eq] at herror
  obtain ⟨s', history', rfl, hE⟩ := (hx s hs).of_error herror
  exact ⟨s, s', hrecords, rfl, hs, hE, s'.store.reads ⟨0, 0⟩⟩

/-- What is left of a volume by a call, whether it failed or not. -/
theorem Reached.exists_scene_of_left (h : Reached g v logs) (hl : Layout.ofGeometry g = .ok l)
    {α : Type} {x : VolumeM α} {P : Scene l → Scene l → Prop}
    (hx : ∀ s : Scene l, s.Good → Ends plan x s (fun _ s' => P s s') fun _ s' => P s s') :
    let v' := leftBy x (v.volume.withFaults plan)
    ∃ s s' : Scene l, v.volume.records l = s.records ∧ v'.records l = s'.records ∧ s.Good ∧
      P s s' ∧ l.Reads (v'.device.withFaults .never) (v'.records l) := by
  obtain ⟨s, history, hvolume, hrecords, hs, -⟩ := h.exists_scene hl
  rw [hvolume, s.withFaults_eq]
  have hleft : ∃ s' history', leftBy x (Exposed.under plan s ⟨0, 0⟩)
      = Exposed.under plan s' history' ∧ P s s' := by
    rcases hx s hs ⟨0, 0⟩ with ⟨a, s', history', hx, hP⟩ | ⟨e, s', history', hx, hP⟩
    · exact ⟨s', history', by rw [leftBy, hx], hP⟩
    · exact ⟨s', history', by rw [leftBy, hx], hP⟩
  obtain ⟨s', history', hleft, hP⟩ := hleft
  rw [hleft]
  exact ⟨s, s', hvolume ▸ hrecords, rfl, hs, hP, s'.store.reads ⟨0, 0⟩⟩

/-! ## A file on a new floppy disk -/

/-- The file `a` was made on a new floppy disk, which holds nothing else. -/
structure Scene.OneFile (s : Scene .floppy) (slot : Fin slotCount) : Prop where
  good : s.Good
  mounted : s.mounted = true
  cwd : s.cwd = rootInode
  map : s.maps.map rootInode = Function.update (NameMaps.selfAndParent rootInode rootInode)
    (.ofList nameWidth [0x61]) (some 2)
  tableBlock : s.records.tableBlock rootInode = Layout.floppy.firstDataBlock
  file : s.records.kind 2 = .file
  blank : ∀ k, (s.records.inode 2).block? k = none
  room : s.records.lowestFree .block Layout.floppy.blockCount
    = some (Layout.floppy.firstDataBlock + 1)
  named : (s.records.table rootInode).slotOf? "a" = some slot
  links : s.records.tree.Links rootInode slot 2

theorem Scene.OneFile.linked_file {s : Scene .floppy} {slot : Fin slotCount} (h : s.OneFile slot) :
    s.records.written.Linked 2 ∧ (s.records.inode 2).kind = .file := by
  have hlive := Records.ne_free_of_file h.file
  refine ⟨h.good.tidy.linked_written_iff.mpr hlive, ?_⟩
  rw [← Records.kind_of_used (Records.used_of_kind_ne hlive), h.file]

theorem reached_oneFile :
    let v := (Call.edit (.makeFile rootInode "a")).after Service.floppy
    ∃ logs slot history, ∃ s : Scene .floppy, Reached .floppy v logs ∧
      v.volume = Settled.state s history ∧ s.OneFile slot := by
  intro v
  obtain ⟨s, history, hfloppy, hnew⟩ := Service.floppy_eq
  obtain ⟨s', hmake, hmakes⟩ := hnew.does_makeFile (by decide) StoredName.encode_a (by decide)
  obtain ⟨history', hleft⟩ := Does.leftBy_eq (x := (Edit.makeFile rootInode "a").action) hmake
    history
  obtain ⟨slot, hslot, hlinks⟩ := hmakes.exists_slot hnew.good StoredName.encode_a
  refine ⟨_, slot, history', s', reached_floppy.call (.edit (.makeFile rootInode "a")), ?_,
    hmakes.good hnew.good, hmakes.mounted.trans hnew.mounted,
    hmakes.cwd.trans (hnew.onlyRoot.cwd_eq hnew.good), ?_, ?_, ?_, fun k => ?_, ?_, hslot, hlinks⟩
  · change leftBy _ Service.floppy.volume = _
    rw [hfloppy]
    exact hleft
  · have hroot : s.maps.map rootInode = NameMaps.selfAndParent rootInode rootInode :=
      (hnew.onlyRoot.holdsNothing hnew.good).lookup_eq (by decide) (by decide)
    rw [hmakes.maps_eq hnew.good, NameMaps.link]
    dsimp only
    rw [Function.update_of_ne (by decide), Function.update_self, hroot]
  · rw [hmakes.tableBlock_eq, hnew.tableBlock]
  · rw [hmakes.kind_eq, if_pos rfl]
  · exact Records.content_eq_none_iff.mp (hmakes.blank.2 k)
  · exact hmakes.lowestFree_block_eq.trans (hnew.lowestFree_block (by decide))

end BlockFS
