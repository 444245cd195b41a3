import BlockFS.Proofs.Faults.Calls
import BlockFS.Proofs.Faults.Linking

/-!
# Failed attempts to make a name

Making a file or a directory that fails on the device leaves all names as they were, unless just the
last write of it failed, that of the second half of the parent's table.  Then the new name may stay
in the first half, and link an inode that is free.
-/

namespace BlockFS

open Volume

variable {l : Layout} {g : Geometry} {v : Service} {logs : Logs} {plan : FaultPlan}

namespace Records

/-- The same directories are linked, they hold the same entries, and what these name is in use. -/
structure NamesKept (c c' : Records) : Prop where
  linked : ∀ d, c'.written.Linked d ↔ c.written.Linked d
  kind : ∀ d, c.written.Linked d → c'.written.kind d = c.written.kind d
  table : ∀ d, c.written.Linked d → c.written.kind d = .directory →
    c'.written.table d = c.written.table d
  used : ∀ d slot, c.written.Linked d → c.written.kind d = .directory →
    c'.used .inode (c'.written.entry d slot).target = true

/-- A slot in the first half of a table was free and holds the name of an inode that was free.  All
other entries are as they were, and no inode became free. -/
structure NameLanded (c c' : Records) (p : Nat) (slot : Fin slotCount) (i : Nat) (n : StoredName) :
    Prop where
  lower : slot.val < EntryTable.firstHalf
  freeSlot : (c.written.entry p slot).target = 0
  freeInode : c.used .inode i = false
  kind : ∀ d, c.written.Linked d → c'.written.kind d = c.written.kind d
  table : ∀ d, c.written.Linked d → c.written.kind d = .directory →
    c'.written.table d =
      if d = p then (c.written.table p).put slot ⟨.ofNat i, n⟩ else c.written.table d
  used : ∀ j, c.used .inode j = true → c'.used .inode j = true

variable {c c' : Records} {d i p : Nat} {slot : Fin slotCount} {n : StoredName}

theorem kind_written (hd : c.kind d ≠ .free) : c.written.kind d = c.kind d :=
  (kind_of_used (used_of_kind_ne hd)).symm

theorem table_written (hd : c.kind d = .directory) : c.written.table d = c.table d :=
  (table_of_directory hd).symm

/-- What the entries of a directory name is in use. -/
theorem Tidy.used_target (h : c.Tidy l) (hd : c.kind d = .directory) (slot : Fin slotCount) :
    c.used .inode (c.tree.entry d slot).target = true := by
  by_contra hfree
  obtain ⟨hkind, hne⟩ := h.kind_of_free (Bool.eq_false_iff.mpr hfree)
  match slot with
  | ⟨0, _⟩ =>
    have hself : (c.tree.entry d ⟨0, by decide⟩).target = d := (h.tree.self d hd).1
    rw [hself, hd] at hkind
    cases hkind
  | ⟨1, _⟩ =>
    have hup : c.kind (c.tree.entry d ⟨1, by decide⟩).target = .directory := (h.tree.up d hd).1
    rw [hup] at hkind
    cases hkind
  | ⟨m + 2, hm⟩ =>
    have hname := h.tree.named d ⟨m + 2, hm⟩ hd (Nat.le_add_left 2 m) hne
    exact (h.tree.live d ⟨m + 2, hm⟩ _ ⟨hd, rfl, hne, hname⟩).1 hkind

/-- Links are told by the kind and the table. -/
theorem links_written_congr (hkind : c'.written.kind d = c.written.kind d)
    (htable : c.written.kind d = .directory → c'.written.table d = c.written.table d) :
    c'.written.Links d slot i ↔ c.written.Links d slot i := by
  constructor
  · rintro ⟨hd, htarget, hne, hname⟩
    rw [hkind] at hd
    rw [NameTree.entry, htable hd] at htarget hname
    exact ⟨hd, htarget, hne, hname⟩
  · rintro ⟨hd, htarget, hne, hname⟩
    rw [NameTree.entry, ← htable hd] at htarget hname
    exact ⟨hkind.trans hd, htarget, hne, hname⟩

namespace Extends

theorem kind_written_of_linked (h : c.Extends c') (hc : c.Tidy l) (hd : c.written.Linked d) :
    c'.written.kind d = c.written.kind d :=
  congrArg Inode.kind (h.inode d (used_of_kind_ne (hc.linked_written_iff.mp hd)))

theorem table_written_of_linked (h : c.Extends c') (hc : c.Tidy l) (hd : c.written.Linked d)
    (hdir : c.written.kind d = .directory) : c'.written.table d = c.written.table d := by
  have hlive := hc.linked_written_iff.mp hd
  have hdir' : c.kind d = .directory := (Records.kind_written hlive).symm.trans hdir
  rw [table_written hdir', table_written ((h.kind_eq hlive).trans hdir'),
    h.table_eq hc.toExact hdir']

theorem namesKept (h : c.Extends c') (hc : c.Tidy l) : NamesKept c c' where
  linked := by
    intro d
    constructor
    · intro hd
      induction hd with
      | root => exact .root
      | child _ hlinks ih =>
        exact .child ih ((links_written_congr (h.kind_written_of_linked hc ih)
          (h.table_written_of_linked hc ih)).mp hlinks)
    · intro hd
      induction hd with
      | root => exact .root
      | child hd hlinks ih =>
        exact .child ih ((links_written_congr (h.kind_written_of_linked hc hd)
          (h.table_written_of_linked hc hd)).mpr hlinks)
  kind _ hd := h.kind_written_of_linked hc hd
  table _ hd hdir := h.table_written_of_linked hc hd hdir
  used := by
    intro d slot hd hdir
    have hlive := hc.linked_written_iff.mp hd
    have hdir' : c.kind d = .directory := (Records.kind_written hlive).symm.trans hdir
    rw [NameTree.entry, h.table_written_of_linked hc hd hdir, table_written hdir']
    exact h.used _ _ (hc.used_target hdir' slot)

end Extends

end Records

theorem Scene.Landed.nameLanded {s s' : Scene l} {p i : Nat} {n : StoredName}
    {slot : Fin slotCount} {e : Error} (hx : s.Landed plan p i n slot e s') (h : s.records.Tidy l)
    (hp : s.records.kind p = .directory) : s.records.NameLanded s'.records p slot i n := by
  have hext := hx.extends_setTable
  have hkind (d : Nat) (hd : s.records.written.Linked d) :
      s'.records.written.kind d = s.records.written.kind d :=
    congrArg Inode.kind (hext.inode d (Records.used_of_kind_ne (h.linked_written_iff.mp hd)))
  refine ⟨hx.lower, ?_, (Records.lowestFree_eq_some_iff.mp hx.lowest).2.2.1, hkind, ?_,
    hext.used .inode⟩
  · rw [NameTree.entry, Records.table_written hp]
    exact Entry.isFree_iff.mp (findFinIdx?_eq_some_iff.mp hx.free).1
  · intro d hd hdir
    have hlive := h.linked_written_iff.mp hd
    have hdir' : s.records.kind d = .directory := (Records.kind_written hlive).symm.trans hdir
    rw [Records.table_written ((hext.kind_eq (c := s.records.setTable p _) hlive).trans hdir'),
      hext.table_eq (h.setTable p _) hdir', Records.table_setTable h.toExact hp,
      Records.table_written hdir', Records.table_written hp]

/-- Where no transfer failed before, making a file or a directory fails and leaves all names as they
were, or the write of the second half of the parent's table was refused and the name landed in the
first half. -/
theorem Reached.failed_making_keeps_names (h : Reached g v logs) (hl : Layout.ofGeometry g = .ok l)
    (plan : FaultPlan) (p : Nat) (name : String) {x : VolumeM Nat}
    (hx : x = makeFile p name ∨ x = makeDirectory p name) {e : Error} {v' : Volume}
    (herror : x (v.volume.withFaults plan) = .error e v') :
    l.Reads (v'.device.withFaults .never) (v'.records l) ∧
      ((v.volume.records l).NamesKept (v'.records l) ∨
        (v.volume.records l).written.Linked p ∧ (v.volume.records l).written.kind p = .directory ∧
        ∃ slot i n, StoredName.encode name = .ok n ∧
          (v.volume.records l).NameLanded (v'.records l) p slot i n ∧
          ∃ e', plan.Strikes (· = .write (2 * (v.volume.records l).tableBlock p + 1)) e') := by
  have hends (s : Scene l) (hs : s.Good) : Ends plan x s (fun _ _ => True) (fun e s' =>
      s.records.Extends s'.records ∨ s.records.kind p = .directory ∧
        ∃ n i slot, StoredName.encode name = .ok n ∧ s.Landed plan p i n slot e s') := by
    rcases hx with rfl | rfl
    · exact ends_makeFile hs.tidy.toExact p name
    · exact ends_makeDirectory hs.tidy.toExact p name
  obtain ⟨s, s', hrecords, hrecords', hs, hfailed, hreads⟩ :=
    h.exists_scene_of_error hl hends herror
  refine ⟨hreads, ?_⟩
  rw [hrecords, hrecords']
  rcases hfailed with hext | ⟨hp, n, i, slot, hn, hlanded⟩
  · exact .inl (hext.namesKept hs.tidy)
  · have hlive := Records.ne_free_of_directory hp
    exact .inr ⟨hs.tidy.linked_written_iff.mpr hlive,
      (Records.kind_written hlive).trans hp, slot, i, n, hn,
      hlanded.nameLanded hs.tidy hp, hlanded.struck⟩

/-! ## An attempt whose last write is refused -/

/-- The last write is refused, and the name of the first file of a new floppy disk has landed. -/
theorem Scene.New.makeFile_refused {s : Scene .floppy} (h : s.New) :
    ∃ e, ∃ s' : Scene .floppy, ∃ history' slot,
      makeFile rootInode "a" (Exposed.under (.refusing [25]) s ⟨0, 0⟩)
        = .error e (Exposed.under (.refusing [25]) s' history') ∧
      s.records.NameLanded s'.records rootInode slot 2 (.ofList nameWidth [0x61]) ∧
      s'.records.used .inode 2 = false := by
  have hexact := h.good.tidy.toExact
  have hroot : s.records.kind rootInode = .directory := h.good.tidy.tree.root
  have hinode := h.lowestFree_inode (by decide)
  have hblock := h.lowestFree_block (by decide)
  have hends : Ends (.refusing [25]) (makeFile rootInode "a") s _ _ :=
    ends_makeFile_new h.mounted hexact hroot StoredName.encode_a
      (h.empty.lookup_eq_none (by decide))
  rw [h.tableBlock] at hends
  obtain ⟨e, s', history', herror, hx⟩ := (hends.mono (fun _ _ hadmits =>
    hadmits.not_refused (by decide)) fun _ _ hx => hx).exists_error ⟨0, 0⟩
  refine ⟨e, s', history', ?_⟩
  rcases hx with ⟨-, hexcused⟩ | ⟨i, slot, hlanded⟩
  · exfalso
    rcases hexcused with ⟨-, hfull | hfull⟩ | hstrikes | hslots
    · rw [hinode] at hfull
      cases hfull
    · rw [hblock] at hfull
      cases hfull
    · obtain ⟨k, hk, hne⟩ := hstrikes.exists_refused
      rw [List.mem_singleton] at hk
      rw [hk, h.tableBlock] at hne
      exact hne (by decide)
    · have hslot := h.empty.findFinIdx?_isFree (by decide) (by decide)
      exact absurd (hslots _ hslot) (by decide)
  · obtain rfl := Option.some.inj (hlanded.lowest.symm.trans hinode)
    refine ⟨slot, herror, hlanded.nameLanded h.good.tidy hroot, ?_⟩
    rcases hlanded.undone with hfree | hstrikes
    · exact hfree
    · obtain ⟨k, hk, hspares⟩ := hstrikes.exists_refused
      rw [List.mem_singleton] at hk
      subst hk
      exact absurd rfl (h.tableBlock ▸ hspares.ne hexact hroot)

/-- The last write of making a file is refused, and the root links an inode that is free. -/
theorem Reached.making_not_atomic_floppy :
    ∃ e v' slot, Reached .floppy Service.floppy (fun _ => []) ∧
      makeFile rootInode "a" (Service.floppy.volume.withFaults (.refusing [25])) = .error e v' ∧
      ¬ (Service.floppy.volume.records .floppy).NamesKept (v'.records .floppy) ∧
      (v'.records .floppy).written.Linked rootInode ∧
      (v'.records .floppy).written.Links rootInode slot 2 ∧
      (v'.records .floppy).used .inode 2 = false := by
  obtain ⟨s, history, hfloppy, hnew⟩ := Service.floppy_eq
  obtain ⟨e, s', history', slot, herror, hlanded, hfree⟩ := hnew.makeFile_refused
  have hvolume : Service.floppy.volume = Settled.state s history := by rw [hfloppy]; rfl
  rw [← s.withFaults_eq history, ← hvolume] at herror
  have hroot : s.records.kind rootInode = .directory := hnew.good.tidy.tree.root
  have hdir : s.records.written.kind rootInode = .directory :=
    (Records.kind_written (Records.ne_free_of_directory hroot)).trans hroot
  have hentry : s'.records.written.entry rootInode slot = ⟨.ofNat 2, .ofList nameWidth [0x61]⟩ := by
    rw [NameTree.entry, hlanded.table rootInode .root hdir, if_pos rfl, EntryTable.entry_put,
      if_pos rfl]
  have hlinks : s'.records.written.Links rootInode slot 2 := by
    refine ⟨(hlanded.kind rootInode .root).trans hdir, ?_, by decide, ?_⟩
    · rw [hentry]
      rfl
    · rw [hentry]
      decide
  refine ⟨e, _, slot, reached_floppy, herror, fun hkept => ?_, .root, hlinks, hfree⟩
  rw [hvolume] at hkept
  have hused := hkept.used rootInode slot .root hdir
  change s'.records.used .inode (s'.records.written.entry rootInode slot).target = true at hused
  rw [hlinks.target, hfree] at hused
  cases hused

/-- The same attempt leaves all other names as they were. -/
theorem Reached.failed_making_keeps_names_floppy :
    ∃ e v', Reached .floppy Service.floppy (fun _ => []) ∧
      Layout.ofGeometry .floppy = .ok .floppy ∧
      makeFile rootInode "a" (Service.floppy.volume.withFaults (.refusing [25])) = .error e v' ∧
      Layout.floppy.Reads (v'.device.withFaults .never) (v'.records .floppy) ∧
      ((Service.floppy.volume.records .floppy).NamesKept (v'.records .floppy) ∨
        (Service.floppy.volume.records .floppy).written.Linked rootInode ∧
        (Service.floppy.volume.records .floppy).written.kind rootInode = .directory ∧
        ∃ slot i n, StoredName.encode "a" = .ok n ∧
          (Service.floppy.volume.records .floppy).NameLanded (v'.records .floppy) rootInode slot
            i n ∧
          ∃ e', (FaultPlan.refusing [25]).Strikes
            (· = .write (2 * (Service.floppy.volume.records .floppy).tableBlock rootInode + 1))
            e') := by
  obtain ⟨s, history, hfloppy, hnew⟩ := Service.floppy_eq
  obtain ⟨e, s', history', slot, herror, -, -⟩ := hnew.makeFile_refused
  have hvolume : Service.floppy.volume = Settled.state s history := by rw [hfloppy]; rfl
  rw [← s.withFaults_eq history, ← hvolume] at herror
  exact ⟨e, _, reached_floppy, Layout.ofGeometry_floppy, herror,
    reached_floppy.failed_making_keeps_names Layout.ofGeometry_floppy (.refusing [25]) rootInode
      "a" (.inl rfl) herror⟩

end BlockFS
