import BlockFS.Directory.Listing
import BlockFS.Proofs.Scene.Steps

/-!
# Looking at a volume

What only looks at a volume leaves it as it was, mounted or not and whatever is on it.  On a volume
that is not mounted every operation only looks, for it fails before it changes anything.
-/

namespace BlockFS

open Volume

variable {l : Layout} {s : Scene l}

/-! ## Reading what is stored -/

namespace Volume

theorem quiet_readBitmap (r : Resource) : Quiet (readBitmap r) s := by
  by_cases hm : s.mounted = true
  · exact ⟨_, does_readBitmap hm r⟩
  · exact ⟨_, (does_getLayout_unmounted (Bool.eq_false_iff.mpr hm)).bind_error⟩

theorem quiet_readBlock (i : Nat) : Quiet (readBlock i) s := by
  by_cases hm : s.mounted = true
  · by_cases hi : i < l.blockCount
    · exact ⟨_, (does_getLayout hm).bind (does_onDevice (s.store.does_readBlock hi))⟩
    · refine ⟨.error .corruptVolume, (does_getLayout hm).bind (does_onDevice ?_)⟩
      rw [Layout.readBlock, if_neg hi]
      exact Does.throw _ _
  · exact ⟨_, (does_getLayout_unmounted (Bool.eq_false_iff.mpr hm)).bind_error⟩

theorem does_readInode_unmounted (hm : s.mounted = false) (i : Nat) :
    Does (readInode i) s (.error .notMounted) s :=
  (does_getLayout_unmounted hm).bind_error.bind_error

theorem quiet_readInode (i : Nat) : Quiet (readInode i) s := by
  by_cases hm : s.mounted = true
  · by_cases hi : s.records.used .inode i = true
    · exact ⟨_, does_readInode hm hi⟩
    · exact ⟨_, does_readInode_free hm (Bool.eq_false_iff.mpr hi)⟩
  · exact ⟨_, does_readInode_unmounted (Bool.eq_false_iff.mpr hm) i⟩

theorem quiet_fileSize (i : Nat) : Quiet (fileSize i) s :=
  (quiet_readInode i).bind fun _ => .pure _ _

/-- Only a regular file is loaded, and only from a mounted volume. -/
theorem does_ofInode_fails {i : Nat} (hi : s.mounted = true → s.records.kind i ≠ .file) :
    ∃ e, Does (File.ofInode i) s (.error e) s := by
  by_cases hm : s.mounted = true
  · exact does_ofInode_other hm (hi hm)
  · exact ⟨_, (does_readInode_unmounted (Bool.eq_false_iff.mpr hm) i).bind_error⟩

end Volume

theorem File.quiet_ofInode (i : Nat) : Quiet (File.ofInode i) s := by
  apply (quiet_readInode i).bind
  intro record
  split
  · exact .pure _ _
  · exact .throw _ _
  · exact .throw _ _

theorem File.quiet_readSpans (r : Inode) (spans : List Span) :
    Quiet (File.readSpans r spans) s := by
  induction spans with
  | nil => exact .pure _ _
  | cons span spans ih =>
    rw [File.readSpans]
    split
    · exact .pure _ _
    · apply (quiet_readBlock _).bind
      intro _
      exact ih.bind fun _ => .pure _ _

theorem File.quiet_read (f : File) (offset length : Nat) : Quiet (f.read offset length) s := by
  rw [File.read]
  split
  · exact File.quiet_readSpans _ _
  · exact .pure _ _

theorem Directory.quiet_ofInode (i : Nat) : Quiet (Directory.ofInode i) s := by
  apply (quiet_readInode i).bind
  intro record
  by_cases hkind : record.kind = .directory
  · simp only [hkind, if_true]
    split
    · exact .throw _ _
    · exact (quiet_readBlock _).bind fun _ => .pure _ _
  · simp only [hkind, if_false]
    exact (Quiet.throw _ _).bind fun _ => by
      split
      · exact .throw _ _
      · exact (quiet_readBlock _).bind fun _ => .pure _ _

/-! ## Looking by name -/

namespace Volume

theorem quiet_readAt (i offset length : Nat) : Quiet (readAt i offset length) s :=
  (File.quiet_ofInode i).bind fun f => f.quiet_read offset length

theorem quiet_find (p : Nat) (name : String) : Quiet (find p name) s := by
  refine Quiet.bind ((Directory.quiet_ofInode p).tryCatch fun e => ?_) fun d => ?_
  · split
    · exact .throw _ _
    · exact .throw _ _
  · split
    · exact .pure _ _
    · exact .throw _ _

end Volume

/-- The directory in which a path is looked up, and the name to look up in it. -/
def Scene.start (s : Scene l) (path : String) : Nat × String :=
  match path.toList with
  | '/' :: name => (rootInode, String.ofList name)
  | _ => (s.cwd, path)

namespace Volume

theorem does_splitPath (hm : s.mounted = true) (path : String) :
    Does (splitPath path) s (.ok (s.start path)) s := by
  apply (does_getLayout hm).bind
  split
  · next name hname =>
    rw [Scene.start, hname]
    exact Does.pure _ _
  · next hname =>
    rw [Scene.start]
    split
    · next name hname' => exact absurd hname' (hname name)
    · exact Does.get_bind fun _ => Does.pure _ _

theorem does_splitPath_unmounted (hm : s.mounted = false) (path : String) :
    Does (splitPath path) s (.error .notMounted) s :=
  (does_getLayout_unmounted hm).bind_error

theorem quiet_splitPath (path : String) : Quiet (splitPath path) s := by
  by_cases hm : s.mounted = true
  · exact ⟨_, does_splitPath hm path⟩
  · exact ⟨_, does_splitPath_unmounted (Bool.eq_false_iff.mpr hm) path⟩

theorem quiet_locate (path : String) : Quiet (locate path) s := by
  apply (quiet_splitPath path).bind
  intro start
  obtain ⟨parent, name⟩ := start
  simp only
  split
  · exact .pure _ _
  · exact quiet_find parent name

/-- A path that has a name leads to what is found under the name. -/
theorem does_locate {path name : String} {n : StoredName} {p : Nat}
    (hm : s.mounted = true) (hs : s.Good) (hstart : s.start path = (p, name))
    (hn : StoredName.encode name = .ok n) :
    Does (locate path) s
      (match (s.records.table p).find? name with
        | some i => .ok i
        | none => .error .notFound) s := by
  have hname : name.isEmpty = false := by
    rw [Bool.eq_false_iff, Ne, String.isEmpty_iff]
    rintro rfl
    exact (StoredName.encode_eq_ok_iff.mp hn).1 (by rw [toList_eq_data_toList]; decide)
  apply (does_splitPath hm path).bind
  rw [hstart]
  simp only [hname, Bool.false_eq_true, if_false]
  exact does_find hm hs.tidy.toExact p name

theorem does_locate_found {path name : String} {n : StoredName} {p i : Nat}
    (hm : s.mounted = true) (hs : s.Good) (hstart : s.start path = (p, name))
    (hn : StoredName.encode name = .ok n) (hfound : (s.records.table p).find? name = some i) :
    Does (locate path) s (.ok i) s := by
  have hlocate := does_locate hm hs hstart hn
  rw [hfound] at hlocate
  exact hlocate

theorem does_locate_missing {path name : String} {n : StoredName} {p : Nat}
    (hm : s.mounted = true) (hs : s.Good) (hstart : s.start path = (p, name))
    (hn : StoredName.encode name = .ok n) (hnone : (s.records.table p).find? name = none) :
    Does (locate path) s (.error .notFound) s := by
  have hlocate := does_locate hm hs hstart hn
  rw [hnone] at hlocate
  exact hlocate

end Volume

/-! ## Listings -/

theorem Entry.quiet_child (e : Entry) : Quiet e.child s :=
  (quiet_readInode e.target).bind fun _ => .pure _ _

namespace Listing

theorem quiet_next (w : Listing) : Quiet w.next s := by
  rw [next]
  split
  · exact .pure _ _
  · next e rest _ =>
    exact (e.quiet_child.map.tryCatch fun _ => .pure _ _).bind fun _ => .pure _ _

theorem quiet_steps (n : Nat) (w : Listing) : Quiet (steps n w) s := by
  induction n generalizing w with
  | zero => exact .pure _ _
  | succ n ih =>
    apply w.quiet_next.bind
    intro item
    obtain ⟨item, w⟩ := item
    exact (ih w).bind fun _ => .pure _ _

theorem quiet_items (w : Listing) : Quiet w.items s :=
  (quiet_steps _ w).bind fun _ => .pure _ _

end Listing

theorem Volume.quiet_walk (i : Nat) : Quiet (walk i) s := (Directory.quiet_ofInode i).map

/-! ## A volume that is not mounted -/

section unmounted

variable (hm : s.mounted = false)

include hm

theorem Directory.does_ofInode_unmounted (p : Nat) :
    Does (Directory.ofInode p) s (.error .notMounted) s :=
  (does_readInode_unmounted hm p).bind_error

namespace Volume

theorem does_makeFile_unmounted (p : Nat) (name : String) :
    ∃ e, Does (makeFile p name) s (.error e) s := by
  match hn : StoredName.encode name with
  | .error e => exact ⟨e, does_makeFile_badName hn⟩
  | .ok n =>
    rw [makeFile, hn]
    exact ⟨.notMounted, (Does.liftExcept _ _).bind
      (Directory.does_ofInode_unmounted hm p).bind_error⟩

theorem quiet_makeDirectory_unmounted (p : Nat) (name : String) :
    Quiet (makeDirectory p name) s := by
  apply (Quiet.liftExcept _ _).bind
  intro _
  exact ⟨_, (Directory.does_ofInode_unmounted hm p).bind_error⟩

theorem does_writeAt_unmounted (i offset : Nat) (data : List UInt8) :
    Does (writeAt i offset data) s (.error .notMounted) s :=
  (does_readInode_unmounted hm i).bind_error.bind_error

theorem quiet_unlink_unmounted (p : Nat) (name : String) : Quiet (unlink p name) s := by
  by_cases hdot : isSelfOrParent name = true
  · exact ⟨_, does_unlink_selfOrParent hdot⟩
  · rw [unlink, if_neg hdot]
    exact ⟨_, (Directory.does_ofInode_unmounted hm p).bind_error⟩

theorem quiet_relabel_unmounted (p : Nat) (old new : String) : Quiet (relabel p old new) s := by
  by_cases hdot : (isSelfOrParent old || isSelfOrParent new) = true
  · exact ⟨_, does_relabel_selfOrParent hdot⟩
  · rw [relabel, if_neg hdot]
    apply (Quiet.liftExcept _ _).bind
    intro _
    apply (Quiet.liftExcept _ _).bind
    intro _
    exact ⟨_, (Directory.does_ofInode_unmounted hm p).bind_error⟩

end Volume

end unmounted

/-! ## Mounting and moving -/

namespace Volume

/-- A volume on its store can always be mounted. -/
theorem does_mount : Does mount s (.ok ()) { s with mounted := true, cwd := rootInode } := by
  let s' : Scene l := { s with mounted := false }
  have hread : Does Device.readLayout s.store (.ok l) s.store := by
    have hblock : 2 * superblockBlock + 1 < s.store.disk.sectors.size := by
      have hcovers := s.store.covers
      have hroom := l.superblock_lt_bitmapBlock .inode
      have hcount := l.bitmapBlock_lt_blockCount .inode
      omega
    have hcheck : Layout.check (.ofBlock (s.store.disk.block superblockBlock)) = .ok l := by
      rw [s.store.signed, Layout.check, dif_pos l.valid]
    intro history
    obtain ⟨history', hread⟩ := does_device_readBlock hblock history
    refine ⟨history', ?_⟩
    change EStateM.bind (Device.readBlock superblockBlock) _ _ = _
    simp only [Settled.state] at hread ⊢
    simp only [EStateM.bind, hread, withState, hcheck]
    rfl
  have hunset : Does (setLayout none) s (.ok ()) s' := Does.modify fun history => ⟨history, rfl⟩
  apply hunset.bind
  apply (does_onDevice (s := s') hread).bind
  have hset : Does (setLayout (some l)) s' (.ok ()) { s with mounted := true } :=
    Does.modify fun history => ⟨history, rfl⟩
  apply hset.bind
  exact Does.modify fun history => ⟨history, rfl⟩

theorem does_unmount : Does unmount s (.ok ()) { s with mounted := false } :=
  Does.modify fun history => ⟨history, rfl⟩

theorem does_setCwd (i : Nat) : Does (setCwd i) s (.ok ()) { s with cwd := i } :=
  Does.modify fun history => ⟨history, rfl⟩

/-- Entering a path changes the current directory to a directory or changes nothing. -/
theorem enter_step (path : String) :
    ∃ r s', Does (enter path) s r s' ∧
      (s' = s ∨ ∃ i, r = .ok i ∧ s' = { s with cwd := i } ∧ s.records.kind i = .directory) := by
  obtain ⟨r, hlocate⟩ := quiet_locate (s := s) path
  cases r with
  | error e => exact ⟨.error e, s, hlocate.bind_error, .inl rfl⟩
  | ok i =>
    by_cases hm : s.mounted = true
    · by_cases hused : s.records.used .inode i = true
      · have hread := does_readInode hm hused
        by_cases hkind : (s.records.inode i).kind = .directory
        · refine ⟨.ok i, { s with cwd := i }, hlocate.bind (hread.bind ?_), .inr ⟨i, rfl, rfl, ?_⟩⟩
          · simp only [hkind, if_true]
            exact (does_setCwd i).bind (Does.pure _ _)
          · rw [Records.kind_of_used hused]
            exact hkind
        · refine ⟨.error .notADirectory, s, hlocate.bind (hread.bind ?_), .inl rfl⟩
          simp only [hkind, if_false]
          exact (Does.throw _ _).bind_error
      · have hread := does_readInode_free hm (Bool.eq_false_iff.mpr hused)
        exact ⟨_, s, hlocate.bind hread.bind_error, .inl rfl⟩
    · have hread := does_readInode_unmounted (Bool.eq_false_iff.mpr hm) i
      exact ⟨_, s, hlocate.bind hread.bind_error, .inl rfl⟩

theorem enterRoot_step :
    ∃ r s', Does enterRoot s r s' ∧
      (s' = s ∨ (r = .ok () ∧ s' = { s with cwd := rootInode })) := by
  by_cases hm : s.mounted = true
  · exact ⟨_, _, (does_getLayout hm).bind (does_setCwd _), .inr ⟨rfl, rfl⟩⟩
  · exact ⟨_, s, (does_getLayout_unmounted (Bool.eq_false_iff.mpr hm)).bind_error, .inl rfl⟩

end Volume

end BlockFS
