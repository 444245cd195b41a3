import BlockFS.Proofs.Scene.Files
import BlockFS.Proofs.Scene.Names
import BlockFS.Proofs.Scene.Restoring

/-!
# Steps of a mounted volume

A scene is good if its records are tidy and its current directory is a directory.  Each operation on a
good scene answers something and leaves a good scene behind, in which files that it does not touch are
as they were.
-/

namespace BlockFS

open Volume

namespace Scene

variable {l : Layout} {s s' s'' : Scene l} {p i b : Nat} {slot : Fin slotCount} {n m : StoredName}
  {name : String} {x : Inode} {t : EntryTable}

/-- The records are tidy and the current directory is a directory. -/
structure Good (s : Scene l) : Prop where
  tidy : s.records.Tidy l
  cwd : s.records.kind s.cwd = .directory

/-- A file was there before with the same record and the same contents. -/
structure FileKept (s s' : Scene l) (j : Nat) : Prop where
  kind : s.records.kind j = .file
  inode : s'.records.inode j = s.records.inode j
  content : ∀ k, s'.records.content j k = s.records.content j k

/-- Only the store changed, and what is in use there stayed as it was. -/
structure Same (s s' : Scene l) : Prop where
  mounted : s'.mounted = s.mounted
  clock : s'.clock = s.clock
  cwd : s'.cwd = s.cwd
  agree : Records.Agree s.records s'.records

theorem Same.refl (s : Scene l) : Same s s := ⟨rfl, rfl, rfl, .refl _⟩

theorem FileKept.of_agree (h : Records.Agree s.records s'.records) (hs : s.Good) {j : Nat}
    (hj : s'.records.kind j = .file) : FileKept s s' j := by
  rw [h.kind_eq] at hj
  have hlive := Records.ne_free_of_file hj
  exact ⟨hj, h.inode_eq hlive, fun _ => h.content_eq hs.tidy.toExact hlive⟩

/-- What is in use stayed as it was, and so did every byte before the table of inodes. -/
structure Intact (s s' : Scene l) : Prop extends Same s s' where
  lower : s'.lower = s.lower

theorem Intact.refl (s : Scene l) : Intact s s := ⟨.refl s, rfl⟩

theorem same_discard {i : Nat} (hm : s'.mounted = s.mounted) (hclock : s'.clock = s.clock)
    (hcwd : s'.cwd = s.cwd) (hi : i < l.inodeCount)
    (hb : ∀ b ∈ (s'.records.inode i).blocks, b < l.blockCount)
    (ha : Records.Agree s.records (s'.records.discard i)) : Same s (s'.discard i) where
  mounted := (mounted_freeBlocks s' _).trans hm
  clock := (clock_freeBlocks s' _).trans hclock
  cwd := (cwd_discard s' i).trans hcwd
  agree := by
    rw [records_discard hi hb]
    exact ha

/-! ## Making a file -/

/-- Undoing the making of a file. -/
theorem intact_discard_addInode (hi : i < l.inodeCount)
    (hunused : s.records.used .inode i = false) :
    Intact s ((s.addInode i (.new .file s.clock)).discard i) := by
  have hblocks := Inode.blocks_new .file s.clock
  have hnone : ∀ b, b ∉ (Inode.new .file s.clock).blocks := by
    rw [hblocks]
    exact fun _ => List.not_mem_nil
  have hrecords := s.records_addInode (x := .new .file s.clock) hi
  refine ⟨same_discard rfl rfl rfl hi ?_ ?_, lower_discard_addInode hi hunused hblocks⟩
  · rw [hrecords, Records.inode_addInode, if_pos rfl]
    exact fun b hb => absurd hb (hnone b)
  · rw [hrecords]
    exact Records.agree_discard_addInode hunused fun b hb => absurd hb (hnone b)

theorem records_setTable_addInode (h : s.records.Exact l) (ha : s.records.tree.CanAdd p slot i n)
    (hi : i < l.inodeCount) :
    ((s.addInode i (.new .file s.clock)).setTable p
      ((s.records.table p).put slot ⟨.ofNat i, n⟩)).records
        = s.records.linkFile p slot i n (.new .file s.clock) := by
  have hrecords := s.records_addInode (x := .new .file s.clock) hi
  rw [records_setTable, hrecords]
  · rfl
  · rw [hrecords]
    exact h.addFile ha.unused ha.ne_zero hi (Inode.kind_new _ _) fun _ => Inode.block?_new _ _
  · rw [hrecords, Records.kind_addInode, if_neg ha.ne]
    exact ha.directory

/-- A file came into being under a name. -/
structure Makes (p i : Nat) (n : StoredName) (s s' : Scene l) : Prop where
  mounted : s'.mounted = s.mounted
  clock : s'.clock = s.clock
  cwd : s'.cwd = s.cwd
  lowest : s.records.lowestFree .inode l.inodeCount = some i
  linked : ∃ slot, (s.records.table p).findFinIdx? Entry.isFree = some slot ∧
    s.records.tree.CanAdd p slot i n ∧
    s'.records = s.records.linkFile p slot i n (.new .file s.clock)

namespace Makes

variable (w : Makes p i n s s')

include w

theorem inode_lt : i < l.inodeCount := (Records.lowestFree_eq_some_iff.mp w.lowest).2.1

theorem kind_eq (j : Nat) : s'.records.kind j = if j = i then .file else s.records.kind j := by
  obtain ⟨slot, -, -, hrecords⟩ := w.linked
  rw [hrecords]
  exact Records.kind_addInode

/-- The new file is empty. -/
theorem blank : (s'.records.inode i).size = 0 ∧ ∀ k, s'.records.content i k = none := by
  obtain ⟨slot, -, -, hrecords⟩ := w.linked
  have hinode : s'.records.inode i = .new .file s.clock := by
    rw [hrecords]
    exact Records.inode_addInode.trans (if_pos rfl)
  refine ⟨by rw [hinode]; rfl, fun k => ?_⟩
  rw [Records.content_eq_none_iff, hinode]
  exact Inode.block?_new _ _

theorem tableBlock_eq : s'.records.tableBlock p = s.records.tableBlock p := by
  obtain ⟨slot, -, ha, hrecords⟩ := w.linked
  rw [hrecords]
  exact Records.tableBlock_addInode ha.ne

/-- Making a file takes no block. -/
theorem used_block_eq : s'.records.used .block = s.records.used .block := by
  obtain ⟨slot, -, -, hrecords⟩ := w.linked
  rw [hrecords]
  funext b
  have hne : ¬ (Resource.block = Resource.inode ∧ b = i) := fun he => Resource.noConfusion he.1
  change (s.records.addInode i (.new .file s.clock)).used .block b = _
  rw [Records.used_addInode, if_neg hne]

theorem lowestFree_block_eq :
    s'.records.lowestFree .block l.blockCount = s.records.lowestFree .block l.blockCount := by
  rw [Records.lowestFree, w.used_block_eq]
  rfl

/-- The inode of the new file was not in use. -/
theorem unused : s.records.kind i = .free :=
  Records.kind_of_not_used (Records.lowestFree_eq_some_iff.mp w.lowest).2.2.1

variable (hs : s.Good)

include hs

theorem ne_root : i ≠ rootInode := by
  rintro rfl
  have hroot : s.records.kind rootInode = .directory := hs.tidy.tree.root
  cases hroot.symm.trans w.unused

theorem good : s'.Good := by
  obtain ⟨slot, -, ha, hrecords⟩ := w.linked
  have hx : (Inode.new .file s.clock).kind = .file := Inode.kind_new _ _
  have hp (k : Nat) : (Inode.new .file s.clock).block? k = none := Inode.block?_new _ _
  constructor
  · rw [hrecords]
    exact hs.tidy.linkFile ha hx hp w.inode_lt
  · have hkind : s'.records.kind = (s.records.tree.add p slot i n .file .empty).kind := by
      rw [hrecords, ← Records.kind_tree, hs.tidy.tree_linkFile ha hx hp w.inode_lt]
    rw [w.cwd, hkind]
    exact ha.kind_add_of_directory hs.cwd

theorem fileKept {j : Nat} (hj : s'.records.kind j = .file) (hji : j ≠ i) : FileKept s s' j := by
  have hkind := w.kind_eq j
  rw [if_neg hji] at hkind
  rw [hkind] at hj
  obtain ⟨slot, -, ha, hrecords⟩ := w.linked
  have hexact := hs.tidy.toExact.addFile ha.unused ha.ne_zero w.inode_lt
    (Inode.kind_new .file s.clock) fun _ => Inode.block?_new _ _
  have hdir : (s.records.addInode i (.new .file s.clock)).kind p = .directory := by
    rw [Records.kind_addInode, if_neg ha.ne]
    exact ha.directory
  have hlive : (s.records.addInode i (.new .file s.clock)).kind j ≠ .free := by
    rw [Records.kind_addInode, if_neg hji]
    exact Records.ne_free_of_file hj
  have hjp : j ≠ p := by
    rintro rfl
    exact Kind.noConfusion (hj.symm.trans ha.directory)
  refine ⟨hj, ?_, fun k => ?_⟩
  · rw [hrecords]
    exact Records.inode_addInode.trans (if_neg hji)
  · rw [hrecords, Records.linkFile, Records.content_setTable hexact hdir hlive hjp,
      Records.content_addInode_of_ne hji]

/-- The new file is found under its name. -/
theorem exists_slot (hn : StoredName.encode name = .ok n) :
    ∃ slot, (s'.records.table p).slotOf? name = some slot ∧ s'.records.tree.Links p slot i := by
  obtain ⟨slot, -, ha, hrecords⟩ := w.linked
  have htree := hs.tidy.tree_linkFile ha (Inode.kind_new .file s.clock)
    (fun _ => Inode.block?_new _ _) w.inode_lt
  rw [← hrecords] at htree
  have hlinks : s'.records.tree.Links p slot i := by
    rw [htree]
    exact (ha.links_add_iff (.inl ⟨rfl, rfl⟩)).mpr (.inr ⟨rfl, rfl, rfl⟩)
  have hentry : (s'.records.tree.entry p slot).name = n := by
    rw [htree, NameTree.entry_add_of_ne ha.ne, if_pos ⟨rfl, rfl⟩]
  have hused : (s'.records.tree.entry p slot).target ≠ 0 := by
    rw [hlinks.target]
    exact hlinks.used
  have hfound := ((w.good hs).tidy.tree.unique p hlinks.directory).findFinIdx?_eq hused
  refine ⟨slot, (EntryTable.slotOf?_eq hn).trans ?_, hlinks⟩
  rw [← hentry]
  exact hfound

theorem find?_eq (hn : StoredName.encode name = .ok n) :
    (s'.records.table p).find? name = some i := by
  obtain ⟨slot, hslot, hlinks⟩ := w.exists_slot hs hn
  rw [EntryTable.find?, hslot]
  exact congrArg some hlinks.target

end Makes

/-- Making a file where there is an inode and a slot for it. -/
theorem does_makeFile_makes (hm : s.mounted = true) (hs : s.Good)
    (hn : StoredName.encode name = .ok n) (hp : s.records.kind p = .directory)
    (hnone : (s.records.table p).lookup n = none)
    (hfree : s.records.lowestFree .inode l.inodeCount = some i)
    (hslot : (s.records.table p).findFinIdx? Entry.isFree = some slot) :
    ∃ s', Does (makeFile p name) s (.ok i) s' ∧ Makes p i n s s' := by
  obtain ⟨-, hi, -, -⟩ := Records.lowestFree_eq_some_iff.mp hfree
  have ha := hs.tidy.canAdd hp hn hnone hslot hfree
  have hdo := does_makeFile hm hs.tidy.toExact hn hp hnone hfree hslot
  exact ⟨_, hdo, rfl, rfl, rfl, hfree, slot, hslot, ha,
    records_setTable_addInode hs.tidy.toExact ha hi⟩

/-- What making a file may end in. -/
theorem makeFile_step (hm : s.mounted = true) (hs : s.Good) (p : Nat) (name : String) :
    ∃ r s', Does (makeFile p name) s r s' ∧
      ((∃ e, r = .error e ∧ Intact s s') ∨
        (∃ i, r = .ok i ∧ s' = s ∧ (s.records.table p).find? name = some i) ∨
        ∃ i n, r = .ok i ∧ StoredName.encode name = .ok n ∧
          (s.records.table p).find? name = none ∧ Makes p i n s s') := by
  have hexact := hs.tidy.toExact
  match hn : StoredName.encode name with
  | .error e => exact ⟨.error e, s, does_makeFile_badName hn, .inl ⟨e, rfl, .refl s⟩⟩
  | .ok n =>
    match ho : s.opened p with
    | .error e =>
      exact ⟨.error e, s, does_makeFile_notOpened hm hexact hn ho, .inl ⟨e, rfl, .refl s⟩⟩
    | .ok d =>
      obtain ⟨hp, -⟩ := directory_of_opened ho
      match hl : (s.records.table p).lookup n with
      | some i =>
        refine ⟨.ok i, s, does_makeFile_existing hm hexact hn hp hl, .inr (.inl ⟨i, rfl, rfl, ?_⟩)⟩
        exact (EntryTable.find?_eq hn).trans hl
      | none =>
        match hfree : s.records.lowestFree .inode l.inodeCount with
        | none =>
          exact ⟨_, s, does_makeFile_noInode hm hexact hn hp hl hfree, .inl ⟨_, rfl, .refl s⟩⟩
        | some i =>
          obtain ⟨-, hi, hunused, -⟩ := Records.lowestFree_eq_some_iff.mp hfree
          match hslot : (s.records.table p).findFinIdx? Entry.isFree with
          | none =>
            refine ⟨_, _, does_makeFile_noSlot hm hexact hn hp hl hfree hslot, .inl ⟨_, rfl, ?_⟩⟩
            exact intact_discard_addInode hi hunused
          | some slot =>
            obtain ⟨s', hdo, hmakes⟩ := does_makeFile_makes hm hs hn hp hl hfree hslot
            exact ⟨_, s', hdo,
              .inr (.inr ⟨i, n, rfl, rfl, (EntryTable.find?_eq hn).trans hl, hmakes⟩)⟩

/-! ## Making a directory -/

/-- Undoing the making of a directory. -/
theorem intact_discard_addDirectory (h : s.records.Exact l)
    (hfree : s.records.lowestFree .inode l.inodeCount = some i)
    (hblock : s.records.lowestFree .block l.blockCount = some b) (t : EntryTable) :
    Intact s ((s.addDirectory i b (Directory.firstRecord s.clock b) t).discard i) := by
  obtain ⟨-, hi, hunused, -⟩ := Records.lowestFree_eq_some_iff.mp hfree
  obtain ⟨-, hlt, hb, -⟩ := Records.lowestFree_eq_some_iff.mp hblock
  have hge := h.reserves.le_of_free hb
  have hblocks := Directory.blocks_firstRecord s.clock (h.ne_zero_of_free hb)
    (l.small_of_lt (r := .block) hlt)
  have hmem (y : Nat) : y ∈ (Directory.firstRecord s.clock b).blocks ↔ y = b := by
    rw [hblocks, List.mem_singleton]
  have hrecords := s.records_addDirectory (x := Directory.firstRecord s.clock b) (t := t) hi hge hlt
  refine ⟨same_discard rfl rfl rfl hi ?_ ?_,
    lower_discard_addDirectory hi hunused hge hlt hb hblocks⟩
  · rw [hrecords, Records.inode_addInode, if_pos rfl]
    intro y hy
    rw [(hmem y).mp hy]
    exact hlt
  · rw [hrecords]
    exact Records.agree_discard_addDirectory hunused hb hmem

/-- A directory came into being under a name. -/
structure MakesDirectory (p i b : Nat) (n : StoredName) (s s' : Scene l) : Prop where
  mounted : s'.mounted = s.mounted
  clock : s'.clock = s.clock
  cwd : s'.cwd = s.cwd
  lowest : s.records.lowestFree .inode l.inodeCount = some i
  lowestBlock : s.records.lowestFree .block l.blockCount = some b
  linked : ∃ slot, (s.records.table p).findFinIdx? Entry.isFree = some slot ∧
    s.records.tree.CanAdd p slot i n ∧
    s'.records = s.records.linkDirectory p slot i n (Directory.firstRecord s.clock b) b
      (Directory.firstEntries i p)

namespace MakesDirectory

variable (w : MakesDirectory p i b n s s')

include w

theorem inode_lt : i < l.inodeCount := (Records.lowestFree_eq_some_iff.mp w.lowest).2.1

theorem block_free : b < l.blockCount ∧ s.records.used .block b = false := by
  obtain ⟨-, hlt, hb, -⟩ := Records.lowestFree_eq_some_iff.mp w.lowestBlock
  exact ⟨hlt, hb⟩

theorem kind_eq (j : Nat) :
    s'.records.kind j = if j = i then .directory else s.records.kind j := by
  obtain ⟨slot, -, -, hrecords⟩ := w.linked
  rw [hrecords]
  apply Records.kind_addInode.trans
  rw [Records.kind_takeBlock, Directory.kind_firstRecord]

variable (hs : s.Good)

include hs

theorem block?_record (k : Nat) :
    (Directory.firstRecord s.clock b).block? k = if k = 0 then some b else none :=
  Directory.block?_firstRecord s.clock (hs.tidy.toExact.ne_zero_of_free w.block_free.2)
    (l.small_of_lt (r := .block) w.block_free.1) k

theorem tidy_and_tree : s'.records.Tidy l ∧ ∃ slot, s.records.tree.CanAdd p slot i n ∧
    s'.records.tree = s.records.tree.add p slot i n .directory (Directory.firstEntries i p) := by
  obtain ⟨slot, -, ha, hrecords⟩ := w.linked
  have hx := Directory.kind_firstRecord s.clock b
  have hsmall : p < UInt16.size :=
    l.small_of_lt (r := .inode) (hs.tidy.lt_of_live (Records.ne_free_of_directory ha.directory))
  have ht := Directory.holdsNothing_firstEntries ha.small hsmall
  rw [hrecords]
  exact ⟨hs.tidy.linkDirectory ha hx (w.block?_record hs) w.inode_lt w.block_free.2
    w.block_free.1 ht, slot, ha, hs.tidy.tree_linkDirectory ha hx (w.block?_record hs) w.inode_lt
    w.block_free.2 w.block_free.1⟩

theorem good : s'.Good := by
  obtain ⟨htidy, slot, ha, htree⟩ := w.tidy_and_tree hs
  refine ⟨htidy, ?_⟩
  rw [w.cwd, ← Records.kind_tree, htree]
  exact ha.kind_add_of_directory hs.cwd

theorem fileKept {j : Nat} (hj : s'.records.kind j = .file) : FileKept s s' j := by
  obtain ⟨slot, -, ha, hrecords⟩ := w.linked
  have hkind := w.kind_eq j
  have hji : j ≠ i := by
    rintro rfl
    rw [if_pos rfl, hj] at hkind
    cases hkind
  rw [if_neg hji] at hkind
  rw [hkind] at hj
  have hexact := hs.tidy.toExact.addDirectory (z := (Directory.firstEntries i p).toBlock)
    ha.unused ha.ne_zero w.inode_lt w.block_free.2 w.block_free.1
    (Directory.kind_firstRecord s.clock b) (w.block?_record hs)
  have hdir : ((s.records.takeBlock b (Directory.firstEntries i p).toBlock).addInode i
      (Directory.firstRecord s.clock b)).kind p = .directory := by
    rw [Records.kind_addInode, if_neg ha.ne, Records.kind_takeBlock]
    exact ha.directory
  have hlive : ((s.records.takeBlock b (Directory.firstEntries i p).toBlock).addInode i
      (Directory.firstRecord s.clock b)).kind j ≠ .free := by
    rw [Records.kind_addInode, if_neg hji, Records.kind_takeBlock]
    exact Records.ne_free_of_file hj
  have hjp : j ≠ p := by
    rintro rfl
    exact Kind.noConfusion (hj.symm.trans ha.directory)
  refine ⟨hj, ?_, fun k => ?_⟩
  · rw [hrecords]
    exact Records.inode_addInode.trans (if_neg hji)
  · rw [hrecords, Records.linkDirectory, Records.content_setTable hexact hdir hlive hjp,
      Records.content_addInode_of_ne hji,
      Records.content_takeBlock hs.tidy.toExact w.block_free.2 (Records.ne_free_of_file hj)]

end MakesDirectory

theorem records_setTable_addDirectory (h : s.records.Exact l)
    (ha : s.records.tree.CanAdd p slot i n) (hi : i < l.inodeCount) (hlt : b < l.blockCount)
    (hb : s.records.used .block b = false) (t' : EntryTable) :
    ((s.addDirectory i b (Directory.firstRecord s.clock b) t').setTable p
      ((s.records.table p).put slot ⟨.ofNat i, n⟩)).records
        = s.records.linkDirectory p slot i n (Directory.firstRecord s.clock b) b t' := by
  have hrecords := s.records_addDirectory (x := Directory.firstRecord s.clock b) (t := t') hi
    (h.reserves.le_of_free hb) hlt
  rw [records_setTable, hrecords]
  · rfl
  · rw [hrecords]
    exact h.addDirectory ha.unused ha.ne_zero hi hb hlt (Directory.kind_firstRecord _ _)
      (Directory.block?_firstRecord _ (h.ne_zero_of_free hb) (l.small_of_lt (r := .block) hlt))
  · rw [hrecords, Records.kind_addInode, if_neg ha.ne, Records.kind_takeBlock]
    exact ha.directory

/-- Making a directory where there is an inode, a block and a slot for it. -/
theorem does_makeDirectory_makes (hm : s.mounted = true) (hs : s.Good)
    (hn : StoredName.encode name = .ok n) (hp : s.records.kind p = .directory)
    (hnone : (s.records.table p).lookup n = none)
    (hfree : s.records.lowestFree .inode l.inodeCount = some i)
    (hblock : s.records.lowestFree .block l.blockCount = some b)
    (hslot : (s.records.table p).findFinIdx? Entry.isFree = some slot) :
    ∃ s', Does (makeDirectory p name) s (.ok i) s' ∧ MakesDirectory p i b n s s' := by
  obtain ⟨-, hi, -, -⟩ := Records.lowestFree_eq_some_iff.mp hfree
  obtain ⟨-, hlt, hb, -⟩ := Records.lowestFree_eq_some_iff.mp hblock
  have ha := hs.tidy.canAdd hp hn hnone hslot hfree
  have hdo := does_makeDirectory hm hs.tidy.toExact hn hp hnone hfree hblock hslot
  exact ⟨_, hdo, rfl, rfl, rfl, hfree, hblock, slot, hslot, ha,
    records_setTable_addDirectory hs.tidy.toExact ha hi hlt hb _⟩

/-- Making a directory without a block for it takes nothing. -/
theorem intact_mark_mark (hfree : s.records.lowestFree .inode l.inodeCount = some i) :
    Intact s ((s.mark .inode i true).mark .inode i false) where
  mounted := rfl
  clock := rfl
  cwd := rfl
  lower := by
    obtain ⟨-, hi, hunused, -⟩ := Records.lowestFree_eq_some_iff.mp hfree
    exact lower_mark_mark hi hunused
  agree := by
    obtain ⟨-, hi, hunused, -⟩ := Records.lowestFree_eq_some_iff.mp hfree
    rw [records_mark (r := .inode) _ hi, s.records_mark (r := .inode) hi]
    exact Records.agree_mark_mark hunused

/-- What making a directory may end in. -/
theorem makeDirectory_step (hm : s.mounted = true) (hs : s.Good) (p : Nat) (name : String) :
    ∃ r s', Does (makeDirectory p name) s r s' ∧
      ((∃ e, r = .error e ∧ Intact s s') ∨
        ∃ i b n, r = .ok i ∧ StoredName.encode name = .ok n ∧ MakesDirectory p i b n s s') := by
  have hexact := hs.tidy.toExact
  match hn : StoredName.encode name with
  | .error e => exact ⟨.error e, s, does_makeDirectory_badName hn, .inl ⟨e, rfl, .refl s⟩⟩
  | .ok n =>
    match ho : s.opened p with
    | .error e =>
      exact ⟨.error e, s, does_makeDirectory_notOpened hm hexact hn ho, .inl ⟨e, rfl, .refl s⟩⟩
    | .ok d =>
      obtain ⟨hp, -⟩ := directory_of_opened ho
      match hl : (s.records.table p).lookup n with
      | some i =>
        exact ⟨_, s, does_makeDirectory_existing hm hexact hn hp hl, .inl ⟨_, rfl, .refl s⟩⟩
      | none =>
        match hfree : s.records.lowestFree .inode l.inodeCount with
        | none =>
          exact ⟨_, s, does_makeDirectory_noInode hm hexact hn hp hl hfree,
            .inl ⟨_, rfl, .refl s⟩⟩
        | some i =>
          match hblock : s.records.lowestFree .block l.blockCount with
          | none =>
            exact ⟨_, _, does_makeDirectory_noBlock hm hexact hn hp hl hfree hblock,
              .inl ⟨_, rfl, intact_mark_mark hfree⟩⟩
          | some b =>
            match hslot : (s.records.table p).findFinIdx? Entry.isFree with
            | none =>
              exact ⟨_, _, does_makeDirectory_noSlot hm hexact hn hp hl hfree hblock hslot,
                .inl ⟨_, rfl, intact_discard_addDirectory hexact hfree hblock _⟩⟩
            | some slot =>
              obtain ⟨s', hdo, hmakes⟩ :=
                does_makeDirectory_makes hm hs hn hp hl hfree hblock hslot
              exact ⟨_, s', hdo, .inr ⟨i, b, n, rfl, rfl, hmakes⟩⟩

/-! ## Removing a name -/

/-- What a slot linked went. -/
structure Removes (p : Nat) (slot : Fin slotCount) (i : Nat) (s s' : Scene l) : Prop where
  mounted : s'.mounted = s.mounted
  clock : s'.clock = s.clock
  cwd : s'.cwd = if s.cwd = i then rootInode else s.cwd
  removable : s.records.tree.CanRemove p slot i
  records : s'.records = s.records.unlink p slot i

namespace Removes

variable (w : Removes p slot i s s')

include w

theorem kind_eq (j : Nat) : s'.records.kind j = if j = i then .free else s.records.kind j := by
  rw [w.records]
  exact Records.kind_discard

variable (hs : s.Good)

include hs

theorem good : s'.Good := by
  constructor
  · rw [w.records]
    exact hs.tidy.unlink w.removable
  · have hroot := (w.removable.ne_root hs.tidy.tree).symm
    rw [w.cwd]
    by_cases hcwd : s.cwd = i
    · rw [if_pos hcwd, w.kind_eq, if_neg hroot]
      exact hs.tidy.tree.root
    · rw [if_neg hcwd, w.kind_eq, if_neg hcwd]
      exact hs.cwd

theorem fileKept {j : Nat} (hj : s'.records.kind j = .file) : FileKept s s' j := by
  have hkind := w.kind_eq j
  have hji : j ≠ i := by
    rintro rfl
    rw [if_pos rfl, hj] at hkind
    cases hkind
  rw [if_neg hji] at hkind
  rw [hkind] at hj
  have hlive : s.records.kind i ≠ .free := (hs.tidy.tree.live p slot i w.removable.links).1
  have hexact := hs.tidy.toExact.discard hlive w.removable.links.used
  have hpi := w.removable.ne hs.tidy.tree
  have hdir : (s.records.discard i).kind p = .directory := by
    rw [Records.kind_discard, if_neg hpi]
    exact w.removable.links.directory
  have hjp : j ≠ p := by
    rintro rfl
    exact Kind.noConfusion (hj.symm.trans w.removable.links.directory)
  refine ⟨hj, ?_, fun k => ?_⟩
  · rw [w.records]
    rfl
  · rw [w.records, Records.unlink, Records.content_setTable hexact hdir ?_ hjp,
      Records.content_discard]
    rw [Records.kind_discard, if_neg hji]
    exact Records.ne_free_of_file hj

end Removes

theorem records_discard_of_live (h : s.records.PointsToData l) (hi : s.records.kind i ≠ .free) :
    (s.discard i).records = s.records.discard i :=
  records_discard (lt_count_of_used (Records.used_of_kind_ne hi)) fun _ => h.lt_of_mem_blocks hi

/-- A name that is found lies in a slot. -/
theorem slot_of_find? {t : EntryTable} {name : String} {i : Nat}
    (h : t.find? name = some i) :
    ∃ n slot, StoredName.encode name = .ok n ∧ t.slotOf? name = some slot ∧
      (t.findFinIdx? fun e => e.isNamed n) = some slot ∧ (t.entry slot).target = i := by
  obtain ⟨slot, hslot, htarget⟩ := Option.map_eq_some_iff.mp h
  match hn : StoredName.encode name with
  | .error e =>
    rw [EntryTable.slotOf?, hn] at hslot
    cases hslot
  | .ok n =>
    have hfind := hslot
    rw [EntryTable.slotOf?_eq hn] at hfind
    exact ⟨n, slot, rfl, hslot, hfind, htarget⟩

/-- Removing a name of a slot whose target may go. -/
theorem does_unlink_removes (hm : s.mounted = true) (hs : s.Good)
    (hdot : isSelfOrParent name = false) (hslot : (s.records.table p).slotOf? name = some slot)
    (hl : s.records.tree.Links p slot i)
    (hempty : s.records.kind i = .directory → (s.records.table i).holdsNothing = true) :
    ∃ s', Does (unlink p name) s (.ok ()) s' ∧ Removes p slot i s s' := by
  have hexact := hs.tidy.toExact
  have hr := hs.tidy.canRemove hl hempty
  have hlive : s.records.kind i ≠ .free := (hs.tidy.tree.live p slot i hl).1
  have hpi := hr.ne hs.tidy.tree
  have hrecords := records_discard_of_live hexact.pointsToData hlive
  have hexact' : (s.discard i).records.Exact l := by
    rw [hrecords]
    exact hexact.discard hlive hl.used
  have hdir' : (s.discard i).records.kind p = .directory := by
    rw [hrecords, Records.kind_discard, if_neg hpi]
    exact hl.directory
  have hblock : s.records.tableBlock p = (s.discard i).records.tableBlock p := by
    rw [hrecords]
    rfl
  have hm' : (s.discard i).mounted = true := (mounted_freeBlocks s _).trans hm
  have hdone : (s.discard i).records.setTable p ((s.records.table p).put slot .empty)
      = s.records.unlink p slot i := by
    rw [hrecords]
    rfl
  match hk : s.records.kind i with
  | .free => exact absurd hk hlive
  | .file =>
    have hcwd : s.cwd ≠ i := by
      rintro rfl
      exact Kind.noConfusion (hs.cwd.symm.trans hk)
    refine ⟨_, does_unlink hm hexact hdot hl.directory hslot hl.target
      (does_discard_file hm hexact hk) hm' hexact' hdir' hblock, hm'.trans hm.symm,
      clock_freeBlocks s _, ?_, hr, ?_⟩
    · rw [if_neg hcwd]
      exact cwd_discard s i
    · rw [records_setTable hexact' hdir', hdone]
  | .directory =>
    have hgone := does_discard_directory hm hexact hk (hempty hk)
    refine ⟨_, does_unlink hm hexact hdot hl.directory hslot hl.target hgone hm' hexact' hdir'
      hblock, hm'.trans hm.symm, clock_freeBlocks s _, ?_, hr, ?_⟩
    · change (if (s.discard i).cwd = i then rootInode else (s.discard i).cwd) = _
      rw [cwd_discard]
    · rw [records_setTable (s := (s.discard i).leave i) hexact' hdir']
      exact hdone

/-- Removing a name fails, or what is found under it goes. -/
theorem unlink_found (hm : s.mounted = true) (hs : s.Good) (p : Nat) (name : String) :
    ∃ r s', Does (unlink p name) s r s' ∧
      ((∃ e, r = .error e ∧ s' = s) ∨ (r = .ok () ∧ ∃ slot i,
        (s.records.table p).find? name = some i ∧ Removes p slot i s s')) := by
  have hexact := hs.tidy.toExact
  by_cases hdot : isSelfOrParent name = true
  · exact ⟨_, s, does_unlink_selfOrParent hdot, .inl ⟨_, rfl, rfl⟩⟩
  · rw [Bool.not_eq_true] at hdot
    match ho : s.opened p with
    | .error e =>
      exact ⟨_, s, does_unlink_notOpened hm hexact hdot ho, .inl ⟨_, rfl, rfl⟩⟩
    | .ok d =>
      obtain ⟨hp, -⟩ := directory_of_opened ho
      match hf : (s.records.table p).find? name with
      | none => exact ⟨_, s, does_unlink_missing hm hexact hdot hp hf, .inl ⟨_, rfl, rfl⟩⟩
      | some i =>
        obtain ⟨n, slot, hn, hslot, hfind, htarget⟩ := slot_of_find? hf
        have hl := Records.links_of_slot hp hdot hn hfind
        rw [htarget] at hl
        by_cases hfull : s.records.kind i = .directory ∧
            (s.records.table i).holdsNothing = false
        · exact ⟨_, s, does_unlink_refused hm hexact hdot hp hslot htarget
            (does_discard_notEmpty hm hexact hfull.1 hfull.2), .inl ⟨_, rfl, rfl⟩⟩
        · have hempty (hk : s.records.kind i = .directory) :
              (s.records.table i).holdsNothing = true := by
            rw [← Bool.not_eq_false]
            exact fun he => hfull ⟨hk, he⟩
          obtain ⟨s', hdo, hr⟩ := does_unlink_removes hm hs hdot hslot hl hempty
          exact ⟨_, s', hdo, .inr ⟨rfl, slot, i, rfl, hr⟩⟩

/-- What removing a name may end in. -/
theorem unlink_step (hm : s.mounted = true) (hs : s.Good) (p : Nat) (name : String) :
    ∃ r s', Does (unlink p name) s r s' ∧
      ((∃ e, r = .error e ∧ s' = s) ∨ (r = .ok () ∧ ∃ slot i, Removes p slot i s s')) := by
  obtain ⟨r, s', hdo, hfailed | ⟨hr, slot, i, -, hgone⟩⟩ := unlink_found hm hs p name
  · exact ⟨r, s', hdo, .inl hfailed⟩
  · exact ⟨r, s', hdo, .inr ⟨hr, slot, i, hgone⟩⟩

/-! ## Changing a name -/

/-- A slot got another name. -/
structure Relabels (p : Nat) (slot : Fin slotCount) (n : StoredName) (s s' : Scene l) : Prop where
  mounted : s'.mounted = s.mounted
  clock : s'.clock = s.clock
  cwd : s'.cwd = s.cwd
  allowed : s.records.tree.CanRelabel p slot n
  records : s'.records = s.records.relabel p slot n

namespace Relabels

variable (w : Relabels p slot n s s') (hs : s.Good)

include w hs

theorem good : s'.Good := by
  constructor
  · rw [w.records]
    exact hs.tidy.relabel w.allowed
  · rw [w.cwd, w.records]
    exact hs.cwd

theorem fileKept {j : Nat} (hj : s'.records.kind j = .file) : FileKept s s' j := by
  rw [w.records] at hj
  have hold : s.records.kind j = .file := hj
  have hjp : j ≠ p := by
    rintro rfl
    exact Kind.noConfusion (hold.symm.trans w.allowed.directory)
  refine ⟨hold, ?_, fun k => ?_⟩
  · rw [w.records]
    rfl
  · rw [w.records, Records.relabel, Records.content_setTable hs.tidy.toExact w.allowed.directory
      (Records.ne_free_of_file hold) hjp]

end Relabels

/-- Changing a name to one that is not linked yet. -/
theorem does_relabel_relabels {old new : String} {j : Nat}
    (hdot : (isSelfOrParent old || isSelfOrParent new) = false) (hm : s.mounted = true)
    (hs : s.Good) (hn : StoredName.encode old = .ok n) (hn' : StoredName.encode new = .ok m)
    (hp : s.records.kind p = .directory) (hfound : (s.records.table p).lookup n = some j)
    (hne : n ≠ m) (hnone : (s.records.table p).lookup m = none) :
    ∃ slot s', (s.records.table p).findFinIdx? (fun e => e.isNamed n) = some slot ∧
      Does (relabel p old new) s (.ok ()) s' ∧ Relabels p slot m s s' := by
  have hexact := hs.tidy.toExact
  obtain ⟨slot, hslot, -⟩ := EntryTable.exists_slot_of_lookup hfound
  have hslot' := (EntryTable.slotOf?_eq hn).trans hslot
  have hlinks := Records.links_of_slot hp (Bool.or_eq_false_iff.mp hdot).1 hn hslot
  have hdo := does_relabel hdot hm hexact hn hn' hp hfound hne hnone hslot'
  exact ⟨slot, _, hslot, hdo, rfl, rfl, rfl, hs.tidy.canRelabel hlinks hn' hnone,
    records_setTable hexact hp _⟩

/-- What changing a name may end in: nothing changes, which is a success if the names are stored alike,
or a name is changed to one that is stored otherwise and not linked. -/
theorem relabel_step (hm : s.mounted = true) (hs : s.Good) (p : Nat) (old new : String) :
    ∃ r s', Does (relabel p old new) s r s' ∧
      ((s' = s ∧ (r = .ok () → ∃ n, StoredName.encode old = .ok n ∧
          StoredName.encode new = .ok n)) ∨
        (r = .ok () ∧ isSelfOrParent old = false ∧ ∃ slot n m, StoredName.encode old = .ok n ∧
          StoredName.encode new = .ok m ∧ n ≠ m ∧
          ((s.records.table p).findFinIdx? fun e => e.isNamed n) = some slot ∧
          Relabels p slot m s s')) := by
  have hexact := hs.tidy.toExact
  by_cases hdot : (isSelfOrParent old || isSelfOrParent new) = true
  · exact ⟨_, s, does_relabel_selfOrParent hdot, .inl ⟨rfl, nofun⟩⟩
  · rw [Bool.not_eq_true] at hdot
    match hn : StoredName.encode old with
    | .error e => exact ⟨_, s, does_relabel_badOld hdot hn, .inl ⟨rfl, nofun⟩⟩
    | .ok n =>
      match hm' : StoredName.encode new with
      | .error e => exact ⟨_, s, does_relabel_badNew hdot hn hm', .inl ⟨rfl, nofun⟩⟩
      | .ok m =>
        match ho : s.opened p with
        | .error e =>
          exact ⟨_, s, does_relabel_notOpened hdot hm hexact hn hm' ho, .inl ⟨rfl, nofun⟩⟩
        | .ok d =>
          obtain ⟨hp, -⟩ := directory_of_opened ho
          match hl : (s.records.table p).lookup n with
          | none =>
            exact ⟨_, s, does_relabel_missing hdot hm hexact hn hm' hp hl, .inl ⟨rfl, nofun⟩⟩
          | some i =>
            by_cases hnm : n = m
            · exact ⟨_, s, does_relabel_same hdot hm hexact hn hm' hp hl hnm,
                .inl ⟨rfl, fun _ => ⟨n, rfl, by rw [hnm]⟩⟩⟩
            · match hl' : (s.records.table p).lookup m with
              | some j =>
                exact ⟨_, s, does_relabel_existing hdot hm hexact hn hm' hp hl hnm hl',
                  .inl ⟨rfl, nofun⟩⟩
              | none =>
                obtain ⟨slot, s', hslot, hdo, hr⟩ :=
                  does_relabel_relabels hdot hm hs hn hm' hp hl hnm hl'
                exact ⟨_, s', hdo, .inr ⟨rfl, (Bool.or_eq_false_iff.mp hdot).1, slot, n, m, rfl,
                  rfl, hnm, hslot, hr⟩⟩

/-! ## Writing into a file -/

theorem Puts.good {offset k : Nat} {data : List UInt8} {cells : Cells}
    (w : Puts i offset data cells s s' k) (hs : s.Good) : s'.Good where
  tidy := w.writes.tidy
  cwd := by
    rw [w.writes.cwd, w.writes.kind_eq]
    exact hs.cwd

theorem Writes.fileKept (w : Writes i s s') {j : Nat} (hj : s'.records.kind j = .file)
    (hji : j ≠ i) : FileKept s s' j := by
  rw [w.kind_eq] at hj
  exact ⟨hj, w.inode j hji, fun k => w.content j k hji (Records.ne_free_of_file hj)⟩

/-- Blocks before the data are not among the data blocks. -/
theorem records_block_of_lt (s : Scene l) {b : Nat} (hb : b < l.firstDataBlock) :
    s.records.block b = .zero := if_neg fun h => Nat.not_le_of_lt hb h.1

namespace Writes

variable (w : Writes i s s') (h : s.records.Tidy l)

include w h

/-- What is in use stays in use. -/
theorem used (r : Resource) (j : Nat) (hj : s.records.used r j = true) :
    s'.records.used r j = true := by
  cases r with
  | inode =>
    rw [w.tidy.inodes.used_iff, w.kind_eq]
    exact (h.inodes.used_iff j).mp hj
  | block =>
    rcases Nat.lt_or_ge j l.firstDataBlock with hlt | hge
    · exact w.tidy.reserves j hlt
    · obtain ⟨o, k, hown⟩ := (h.blocks.used_iff j hge).mp hj
      have hlive : s'.records.kind o ≠ .free := by
        rw [w.kind_eq]
        exact hown.live
      have hkept : (s'.records.inode o).block? k = some j := by
        by_cases ho : o = i
        · subst ho
          exact w.points k j hown.points
        · rw [w.inode o ho]
          exact hown.points
      have hown' : s'.records.Owns o k j := ⟨hlive, hkept⟩
      exact w.tidy.blocks.used_of_owns hown'

/-- A block in use that the file does not point to holds what it held. -/
theorem block (b : Nat) (hb : s.records.used .block b = true)
    (hnot : ∀ slot, (s.records.inode i).block? slot ≠ some b) :
    s'.records.block b = s.records.block b := by
  rcases Nat.lt_or_ge b l.firstDataBlock with hlt | hge
  · rw [records_block_of_lt _ hlt, records_block_of_lt _ hlt]
  · obtain ⟨j, k, hown⟩ := (h.blocks.used_iff b hge).mp hb
    have hj : j ≠ i := by
      rintro rfl
      exact hnot k hown.points
    have hcontent := w.content j k hj hown.live
    rw [hown.content_eq, Records.content, w.inode j hj, hown.points] at hcontent
    exact Option.some.inj hcontent

/-- What the file points to it pointed to before, or it was a hole and the block was free. -/
theorem pointer (hi : s.records.kind i = .file) (slot : Nat) :
    (s'.records.inode i).block? slot = (s.records.inode i).block? slot ∨
      (s.records.inode i).block? slot = none ∧ ∃ b, (s'.records.inode i).block? slot = some b ∧
        s.records.used .block b = false ∧ s'.records.used .block b = true := by
  have hlive : s'.records.kind i ≠ .free := Records.ne_free_of_file ((w.kind_eq i).trans hi)
  cases hold : (s.records.inode i).block? slot with
  | some b => exact .inl (w.points slot b hold)
  | none =>
    cases hnew : (s'.records.inode i).block? slot with
    | none => exact .inl rfl
    | some b =>
      have hown : s'.records.Owns i slot b := ⟨hlive, hnew⟩
      refine .inr ⟨rfl, b, rfl, ?_, w.tidy.blocks.used_of_owns hown⟩
      by_contra hused
      have hused := eq_true_of_ne_false hused
      obtain ⟨j, k, hown'⟩ :=
        (h.blocks.used_iff b (w.tidy.blocks.range i slot b hown).1).mp hused
      by_cases hj : j = i
      · subst hj
        have hkept : s'.records.Owns j k b := ⟨hlive, w.points k b hown'.points⟩
        obtain ⟨-, rfl⟩ := w.tidy.blocks.once j k j slot b hkept hown
        cases hold.symm.trans hown'.points
      · have hkept : s'.records.Owns j k b := by
          refine ⟨?_, ?_⟩
          · rw [w.kind_eq]
            exact hown'.live
          · rw [w.inode j hj]
            exact hown'.points
        exact hj (w.tidy.blocks.once j k i slot b hkept hown).1

end Writes

end Scene

end BlockFS
