import BlockFS.Proofs.DeviceView

/-!
# The tree of directories

On every volume that calls lead to, the directories in use form a tree: each inode in use but the root
is linked once, `.` and `..` are right, names do not repeat, every way up ends at the root, and the
current directory is one of them.
-/

namespace BlockFS

variable {l : Layout} {g : Geometry} {v : Service} {logs : Logs}

/-- The directories form a tree, told by their slots alone. -/
structure NameTree.FormsTree (t : NameTree) : Prop where
  root : t.kind rootInode = .directory
  rootEntries : (t.entry rootInode 0).target = rootInode ∧ (t.entry rootInode 1).target = rootInode
  rootFree : ∀ d slot, ¬ t.Links d slot rootInode
  linkedOnce : ∀ i, t.kind i ≠ .free → i ≠ rootInode →
    ∃! link : Nat × Fin slotCount, t.Links link.1 link.2 i
  self : ∀ d, t.kind d = .directory →
    (t.entry d 0).target = d ∧ StoredName.encode "." = .ok (t.entry d 0).name
  up : ∀ d, t.kind d = .directory → StoredName.encode ".." = .ok (t.entry d 1).name ∧
    (d ≠ rootInode → ∃ slot, t.Links (t.entry d 1).target slot d)
  unique : ∀ d, t.kind d = .directory → ∀ slot slot', (t.entry d slot).target ≠ 0 →
    (t.entry d slot').target ≠ 0 → (t.entry d slot).name = (t.entry d slot').name → slot = slot'
  reaches : ∀ d, t.kind d = .directory → ∃ n, t.parent^[n] d = rootInode

theorem NameTree.Sound.formsTree {t : NameTree} (h : t.Sound) : t.FormsTree where
  root := h.root
  rootEntries := ⟨(h.self _ h.root).1, h.rootParent⟩
  rootFree d slot hl := (h.live d slot rootInode hl).2 rfl
  linkedOnce := by
    intro i hlive hroot
    obtain ⟨d, slot, hl⟩ := h.linked i hlive hroot
    refine ⟨(d, slot), hl, ?_⟩
    rintro ⟨d', slot'⟩ hl'
    obtain ⟨rfl, rfl⟩ := h.once d' slot' d slot i hl' hl
    rfl
  self := by
    intro d hd
    obtain ⟨htarget, hname⟩ := h.self d hd
    rw [hname]
    exact ⟨htarget, StoredName.encode_here⟩
  up := by
    intro d hd
    rw [(h.up d hd).2]
    refine ⟨StoredName.encode_up, fun hroot => ?_⟩
    obtain ⟨p, slot, hl⟩ := h.linked d (by rw [hd]; exact Kind.noConfusion) hroot
    have hparent : (t.entry d 1).target = p := h.back p slot d hl hd
    rw [hparent]
    exact ⟨slot, hl⟩
  unique d hd slot slot' hused hused' hname := h.unique d hd slot slot' hused hused' hname
  reaches _ hd := h.exists_iterate_parent hd

/-- Whatever calls lead to a volume, its directories form a tree, everything in use but the inode zero
is a file or a directory in it, and the current directory is a directory in use. -/
theorem Reached.directories_form_tree (h : Reached g v logs) (hl : Layout.ofGeometry g = .ok l) :
    l.Reads v.volume.device (v.volume.records l) ∧ (v.volume.records l).tree.FormsTree ∧
      (∀ i, (v.volume.records l).used .inode i = true → i ≠ 0 →
        (v.volume.records l).kind i = .file ∨ (v.volume.records l).kind i = .directory) ∧
      (v.volume.isMounted = true → (v.volume.records l).kind v.volume.cwd = .directory) := by
  have htidy := h.tidy hl
  refine ⟨h.reads hl, htidy.tree.formsTree, fun i hused hne => ?_, fun _ => ?_⟩
  · have hlive := ((htidy.inodes.used_iff i).mp hused).resolve_left hne
    match hk : (v.volume.records l).kind i with
    | .free => exact absurd hk hlive
    | .file => exact .inl rfl
    | .directory => exact .inr rfl
  · obtain ⟨s, history, hvolume, hrecords, hs, -⟩ := h.exists_scene hl
    rw [hrecords, hvolume]
    exact hs.cwd

/-- The current directory of a floppy disk is removed while it is the current one. -/
theorem Reached.directories_form_tree_floppy :
    let v := (Call.unlinkHere "/d").after ((Call.edit (.unlink rootInode "d")).after
      ((Call.edit (.enter "d")).after ((Call.makeDirectoryAt "/d").after Service.floppy)))
    ∃ logs, Reached .floppy v logs ∧ Layout.ofGeometry .floppy = .ok .floppy ∧
      Layout.floppy.Reads v.volume.device (v.volume.records .floppy) ∧
      (v.volume.records .floppy).tree.FormsTree ∧
      (∀ i, (v.volume.records .floppy).used .inode i = true → i ≠ 0 →
        (v.volume.records .floppy).kind i = .file ∨
          (v.volume.records .floppy).kind i = .directory) ∧
      (v.volume.isMounted = true →
        (v.volume.records .floppy).kind v.volume.cwd = .directory) := by
  have hreached := (((reached_floppy.call (.makeDirectoryAt "/d")).call (.edit (.enter "d"))).call
    (.edit (.unlink rootInode "d"))).call (.unlinkHere "/d")
  exact ⟨_, hreached, Layout.ofGeometry_floppy,
    hreached.directories_form_tree Layout.ofGeometry_floppy⟩

end BlockFS
