import BlockFS.Proofs.DeviceView
import Mathlib.Data.Nat.Find

/-!
# What files hold

A file on a volume that calls lead to is as long as the write that reached farthest, and is read as the
bytes that the last writes put there, up to the first block that no write put a byte into.  What was
done to other files and directories, and what removed files held, has no influence.
-/

namespace BlockFS

variable {l : Layout} {g : Geometry} {v : Service} {logs : Logs}

namespace WriteLog

/-- The bytes that the last writes put from `start` on, before `stop`, with zeros where there is
none. -/
def bytes (log : WriteLog) (start stop : Nat) : List UInt8 :=
  (List.range' start (stop - start)).map fun k => (log.lastByte? k).getD 0

/-- The first block from that of byte `offset` on that no write put a byte into. -/
structure FirstGap (log : WriteLog) (offset gap : Nat) : Prop where
  behind : offset / blockSize ≤ gap
  untouched : ¬ log.Touches gap
  touched : ∀ slot, offset / blockSize ≤ slot → slot < gap → log.Touches slot

end WriteLog

namespace Scene

variable {s : Scene l} {i : Nat}

/-- The holes of a file are the blocks that no write put a byte into. -/
theorem Recounts.content_eq_none_iff (h : s.Recounts logs) (hi : s.records.kind i = .file)
    (slot : Nat) : s.records.content i slot = none ↔ ¬ (logs i).Touches slot := by
  have hshows := h.shows i hi
  rw [← WriteLog.touches_iff]
  constructor
  · exact hshows.hole slot
  · intro hnot
    match hc : s.records.content i slot with
    | none => rfl
    | some b => exact absurd (hshows.touched slot b hc) hnot

theorem Recounts.exists_firstGap (h : s.Recounts logs) (hi : s.records.kind i = .file)
    (offset : Nat) : ∃ gap, (logs i).FirstGap offset gap := by
  classical
  have hsome : ∃ gap, offset / blockSize ≤ gap ∧ ¬ (logs i).Touches gap := by
    refine ⟨max (offset / blockSize) pointerCount, Nat.le_max_left _ _, ?_⟩
    rw [← h.content_eq_none_iff hi, Records.content_eq_none_iff]
    exact Inode.block?_eq_none_of_le (Nat.le_max_right _ _)
  obtain ⟨hle, hnot⟩ := Nat.find_spec hsome
  refine ⟨Nat.find hsome, hle, hnot, fun slot hslot hlt => ?_⟩
  by_contra huntouched
  exact Nat.find_min hsome hlt ⟨hslot, huntouched⟩

/-- A file is read as the logs tell, up to the first gap. -/
theorem Recounts.does_readAt (h : s.Recounts logs) (hm : s.mounted = true) (hs : s.Good)
    (hi : s.records.kind i = .file) {offset gap : Nat} (hgap : (logs i).FirstGap offset gap)
    (length : Nat) :
    Does (Volume.readAt i offset length) s
      (.ok ((logs i).bytes offset (min (min (offset + length) (logs i).size) (gap * blockSize))))
      s := by
  obtain ⟨hle, hnot, hfull⟩ := hgap
  have hread := Volume.does_readAt hm hs.tidy.toExact hi (h.shows i hi) offset length hle
    ((h.content_eq_none_iff hi gap).mpr hnot) fun b hb hlt hnone =>
      (h.content_eq_none_iff hi b).mp hnone (hfull b hb hlt)
  rw [h.size i hi] at hread
  exact hread

theorem Recounts.does_fileSize (h : s.Recounts logs) (hm : s.mounted = true)
    (hi : s.records.kind i = .file) : Does (Volume.fileSize i) s (.ok (logs i).size) s := by
  rw [← h.size i hi]
  exact Volume.does_fileSize hm (Records.used_of_kind_ne (Records.ne_free_of_file hi))

end Scene

/-- A linked file has the size and the bytes that the log of the writes into it tells. -/
theorem Reached.file_holds_writes (h : Reached g v logs) (hl : Layout.ofGeometry g = .ok l)
    (hm : v.volume.isMounted = true) {f : Nat} (hf : (v.volume.records l).written.Linked f)
    (hk : ((v.volume.records l).inode f).kind = .file) :
    v.volume.Answers (Volume.fileSize f) (.ok (logs f).size) ∧
      ∀ offset length, ∃ gap, (logs f).FirstGap offset gap ∧
        v.volume.Answers (Volume.readAt f offset length)
          (.ok ((logs f).bytes offset
            (min (min (offset + length) (logs f).size) (gap * blockSize)))) := by
  obtain ⟨s, history, hvolume, hrecords, hs, hlogs⟩ := h.exists_scene hl
  rw [hvolume, isMounted_state] at hm
  rw [hrecords] at hf hk
  rw [hvolume]
  have hused := Records.used_of_kind_ne (hs.tidy.linked_written_iff.mp hf)
  have hi : s.records.kind f = .file := (Records.kind_of_used hused).trans hk
  constructor
  · have hsize := Volume.does_fileSize hm hused
    rw [hlogs.size f hi] at hsize
    exact hsize.answers history
  · intro offset length
    obtain ⟨gap, hgap⟩ := hlogs.exists_firstGap hi offset
    exact ⟨gap, hgap, (hlogs.does_readAt hm hs hi hgap length).answers history⟩

/-! ## A file on a new floppy disk -/

namespace Scene

variable {s : Scene l} {n : StoredName} {name : String}

/-- With room for three inodes, the first file beside the root gets the inode two. -/
theorem OnlyRoot.does_makeFile (h : s.OnlyRoot) (hm : s.mounted = true) (hs : s.Good)
    (hcount : 2 < l.inodeCount) (hn : StoredName.encode name = .ok n)
    (hdot : n.isSelfOrParent = false) :
    ∃ s', Does (Volume.makeFile rootInode name) s (.ok 2) s' ∧ Makes rootInode 2 n s s' := by
  have hroot : s.records.kind rootInode = .directory := hs.tidy.tree.root
  have hempty := h.holdsNothing hs
  exact does_makeFile_makes hm hs hn hroot (hempty.lookup_eq_none hdot)
    (h.lowestFree_inode hs hcount) (hempty.findFinIdx?_isFree (by decide) (by decide))

theorem New.does_makeFile (h : s.New) (hcount : 2 < l.inodeCount)
    (hn : StoredName.encode name = .ok n) (hdot : n.isSelfOrParent = false) :
    ∃ s', Does (Volume.makeFile rootInode name) s (.ok 2) s' ∧ Makes rootInode 2 n s s' :=
  h.onlyRoot.does_makeFile h.mounted h.good hcount hn hdot

/-- A file was made on a new volume and written to. -/
theorem New.does_makeFile_write (h : s.New) (hcount : 2 < l.inodeCount)
    (hn : StoredName.encode name = .ok n) (hdot : n.isSelfOrParent = false) (offset : Nat)
    (data : List UInt8) :
    ∃ s' r s'', Does (Edit.makeFile rootInode name).action s (.ok 2) s' ∧
      Does (Edit.write 2 offset data).action s' r s'' ∧ s''.Good ∧ s''.mounted = true ∧
      s''.records.kind 2 = .file := by
  obtain ⟨s', hmake, hmakes⟩ := h.does_makeFile hcount hn hdot
  have hs := hmakes.good h.good
  have hm : s'.mounted = true := hmakes.mounted.trans h.mounted
  have hk : s'.records.kind 2 = .file := by rw [hmakes.kind_eq, if_pos rfl]
  obtain ⟨r, s'', count, hwrite, hputs, -⟩ := Volume.does_writeAt hm hs.tidy hk
    (Cells.shows_ofContent _) offset data
  refine ⟨s', r, s'', hmake, hwrite, hputs.good hs, ?_, ?_⟩
  · exact hputs.writes.mounted.trans hm
  · rw [hputs.writes.kind_eq, hk]

end Scene

/-- A file is made on a new floppy disk, and three bytes are written behind its first block. -/
theorem Reached.file_holds_writes_floppy :
    let v := (Call.edit (.write 2 1500 [1, 2, 3])).after
      ((Call.edit (.makeFile rootInode "a")).after Service.floppy)
    ∃ logs, Reached .floppy v logs ∧ Layout.ofGeometry .floppy = .ok .floppy ∧
      v.volume.isMounted = true ∧ (v.volume.records .floppy).written.Linked 2 ∧
      ((v.volume.records .floppy).inode 2).kind = .file ∧
      v.volume.Answers (Volume.fileSize 2) (.ok (logs 2).size) ∧
      ∀ offset length, ∃ gap, (logs 2).FirstGap offset gap ∧
        v.volume.Answers (Volume.readAt 2 offset length)
          (.ok ((logs 2).bytes offset
            (min (min (offset + length) (logs 2).size) (gap * blockSize)))) := by
  intro v
  have hreached := (reached_floppy.call (.edit (.makeFile rootInode "a"))).call
    (.edit (.write 2 1500 [1, 2, 3]))
  obtain ⟨s, history, hfloppy, hnew⟩ := Service.floppy_eq
  have hname : StoredName.encode "a" = .ok (.ofList nameWidth [0x61]) := by
    apply StoredName.encode_eq_ok_iff.mpr
    rw [toList_eq_data_toList]
    decide
  obtain ⟨s', r, s'', hmake, hwrite, hs, hm, hk⟩ :=
    hnew.does_makeFile_write (by decide) hname (by decide) 1500 [1, 2, 3]
  obtain ⟨h1, hleft1⟩ := hmake.leftBy_eq history
  obtain ⟨h2, hleft2⟩ := hwrite.leftBy_eq h1
  have hvolume : v.volume = Settled.state s'' h2 := by
    change leftBy _ (leftBy _ Service.floppy.volume) = _
    rw [hfloppy]
    change leftBy _ (leftBy _ (Settled.state s history)) = _
    rw [hleft1, hleft2]
  have hmounted : v.volume.isMounted = true := by
    rw [hvolume, isMounted_state, hm]
  have hrecords : v.volume.records .floppy = s''.records := by
    rw [hvolume]
    rfl
  have hlinked : (v.volume.records .floppy).written.Linked 2 := by
    rw [hrecords, hs.tidy.linked_written_iff, hk]
    exact Kind.noConfusion
  have hkind : ((v.volume.records .floppy).inode 2).kind = .file := by
    rw [hrecords, ← hk]
    exact (Records.kind_of_used (Records.used_of_kind_ne (Records.ne_free_of_file hk))).symm
  exact ⟨_, hreached, Layout.ofGeometry_floppy, hmounted, hlinked, hkind,
    hreached.file_holds_writes Layout.ofGeometry_floppy hmounted hlinked hkind⟩

end BlockFS
