import BlockFS.Proofs.Faults.Making

/-!
# Linking what was made where transfers may fail

A file or a directory that was made is linked in one slot of its parent, or taken back.  If only the
write of the second half of the parent's table failed and the slot lies in the first half, the name
has landed, and stays while the inode is taken back.
-/

namespace BlockFS

open Volume

namespace Records.Extends

variable {l : Layout} {c c' : Records} {i d : Nat} (h : Extends c c')

include h

theorem kind_eq (hi : c.kind i ≠ .free) : c'.kind i = c.kind i := by
  have hused := used_of_kind_ne hi
  rw [kind_of_used (h.used _ _ hused), kind_of_used hused, h.inode i hused]

theorem tableBlock_eq (hd : c.kind d = .directory) : c'.tableBlock d = c.tableBlock d := by
  rw [tableBlock, h.inode d (used_of_kind_ne (ne_free_of_directory hd))]
  rfl

theorem table_eq (hc : c.Exact l) (hd : c.kind d = .directory) : c'.table d = c.table d := by
  have hd' : c'.kind d = .directory := (h.kind_eq (ne_free_of_directory hd)).trans hd
  rw [table_of_directory hd', table_of_directory hd, h.tableBlock_eq hd,
    h.block _ (hc.blocks.used_of_owns (hc.owns_tableBlock hd))]

end Records.Extends

variable {l : Layout} {plan : FaultPlan} {s s' : Scene l} {p i : Nat} {slot : Fin slotCount}
  {n : StoredName} {name : String} {x : Inode} {e : Error}

namespace Scene

/-- A failure after which no new name can be left in the table of a directory. -/
def Excused (plan : FaultPlan) (s : Scene l) (p : Nat) (e : Error) : Prop :=
  s.NoRoom e ∨ plan.Strikes (· ≠ .write (2 * s.records.tableBlock p + 1)) e ∨
    ∀ slot, (s.records.table p).findFinIdx? Entry.isFree = some slot →
      EntryTable.firstHalf ≤ slot.val

/-- A name landed in a directory although its making failed. -/
structure Landed (plan : FaultPlan) (s : Scene l) (p i : Nat) (n : StoredName)
    (slot : Fin slotCount) (e : Error) (s' : Scene l) : Prop where
  free : (s.records.table p).findFinIdx? Entry.isFree = some slot
  lower : slot.val < EntryTable.firstHalf
  lowest : s.records.lowestFree .inode l.inodeCount = some i
  struck : ∃ e', plan.Strikes (· = .write (2 * s.records.tableBlock p + 1)) e'
  extends_setTable :
    (s.records.setTable p ((s.records.table p).put slot ⟨.ofNat i, n⟩)).Extends s'.records
  undone : s'.records.used .inode i = false ∨ plan.Strikes (Transfer.Spares l s.records) e

/-- What may be left of a volume by making something under a name where that failed. -/
def Unlinked (plan : FaultPlan) (s : Scene l) (p : Nat) (n : StoredName) (e : Error)
    (s' : Scene l) : Prop :=
  (s.records.Extends s'.records ∧ s.Excused plan p e) ∨ ∃ i slot, s.Landed plan p i n slot e s'

end Scene

section

variable (h : s.records.Exact l) (hp : s.records.kind p = .directory)

include h hp

theorem Transfer.Spares.ne {t : Transfer} (ht : t.Spares l s.records) :
    t ≠ .write (2 * s.records.tableBlock p + 1) := by
  rintro rfl
  have hown := h.owns_tableBlock hp
  exact ht _ (h.blocks.range p 0 _ hown).1 (h.blocks.used_of_owns hown) (.inr rfl)

theorem Scene.Unmade.unlinked (hx : s.Unmade plan e s') : s.Unlinked plan p n e s' :=
  .inl ⟨hx.1, hx.2.imp_right fun hstrikes => .inl (hstrikes.mono fun _ ht => ht.ne h hp)⟩

variable (hn : StoredName.encode name = .ok n)
  (hfree : s.records.lowestFree .inode l.inodeCount = some i) (hm : s'.mounted = true)
  (hext : s.records.Extends s'.records) (hexact : s'.records.Exact l)

include hn hfree hm hext hexact

/-- Linking a new inode, which leaves the directory as it was or has landed. -/
theorem Directory.ends_link :
    Ends plan (ViewM.through (s.directory p) (Directory.link name i)) s'
      (fun _ _ => plan.Admits (.write (2 * s.records.tableBlock p + 1)))
      (fun e s'' => (s'' = s' ∧ s.Excused plan p e) ∨
        ∃ slot, (s.records.table p).findFinIdx? Entry.isFree = some slot ∧
          slot.val < EntryTable.firstHalf ∧
          s'' = s'.setTable p ((s.records.table p).put slot ⟨.ofNat i, n⟩) ∧
          plan.Strikes (· = .write (2 * s.records.tableBlock p + 1)) e) := by
  have hi : i < UInt16.size :=
    l.small_of_lt (r := .inode) (Records.lowestFree_eq_some_iff.mp hfree).2.1
  have hdir : s'.records.kind p = .directory :=
    (hext.kind_eq (Records.ne_free_of_directory hp)).trans hp
  have hblock := hext.tableBlock_eq hp
  have htable := hext.table_eq h hp
  refine ViewM.ends_through (ViewM.current_bind ?_)
  match hslot : (s.records.table p).findFinIdx? Entry.isFree with
  | none =>
    have hfull : (s.directory p).table.link name i = .error .noSpace :=
      EntryTable.link_full hi hn hslot
    rw [hfull]
    refine Ends.error_bind (.inl ⟨rfl, .inr (.inr fun slot hsome => ?_)⟩)
    rw [hslot] at hsome
    cases hsome
  | some slot =>
    have hlink : (s.directory p).table.link name i
        = .ok ((s'.records.table p).put slot ⟨.ofNat i, n⟩) := by
      rw [htable]
      exact EntryTable.link_eq hi hn hslot
    rw [hlink]
    refine Ends.ok_bind ((Directory.ends_replaceTable hm (hexact.opens hdir) hblock.symm).mono
      (fun _ t ht => by rw [← hblock]; exact ht.2) fun e t ht => ?_)
    rw [Scene.TornSlot, hblock, htable] at ht
    rcases ht with ⟨hs, hstrikes | ⟨hslot', -⟩⟩ | ⟨hs, hslot', -, hstrikes⟩
    · refine .inl ⟨hs, .inr (.inl (hstrikes.mono ?_))⟩
      rintro t rfl heq
      injection heq with heq
      omega
    · refine .inl ⟨hs, .inr (.inr fun slot' hsome => ?_)⟩
      rw [hslot] at hsome
      cases hsome
      exact hslot'
    · exact .inr ⟨slot, rfl, hslot', hs, hstrikes⟩

/-- Linking a new inode, which is taken back where that fails. -/
theorem Directory.ends_link_orUndo
    (hblocks : ∀ b ∈ x.blocks, b < l.blockCount ∧ s.records.used .block b = false) :
    Ends plan (orUndo (ViewM.through (s.directory p) (Directory.link name i)) (discardInode i x)) s'
      (fun _ _ => plan.Admits (.write (2 * s.records.tableBlock p + 1)))
      (s.Unlinked plan p n) := by
  obtain ⟨-, hi, hunused, -⟩ := Records.lowestFree_eq_some_iff.mp hfree
  refine ends_orUndo (Directory.ends_link h hp hn hfree hm hext hexact) fun e s'' hx => ?_
  rcases hx with ⟨rfl, hexcused⟩ | ⟨slot, hslot, hlower, rfl, hstruck⟩
  · refine (ends_discardInode_extends hm hext hi hunused hblocks).mono
      (fun _ t ht => .inl ⟨ht.2, hexcused⟩) fun e t ht => ?_
    exact .inl ⟨ht.1, .inr (.inl (ht.2.mono fun _ ht => ht.ne h hp))⟩
  · have hdir : s'.records.kind p = .directory :=
      (hext.kind_eq (Records.ne_free_of_directory hp)).trans hp
    have hext' : (s.records.setTable p ((s.records.table p).put slot ⟨.ofNat i, n⟩)).Extends
        (s'.setTable p ((s.records.table p).put slot ⟨.ofNat i, n⟩)).records := by
      rw [Scene.records_setTable hexact hdir, Records.setTable, Records.setTable,
        hext.tableBlock_eq hp]
      exact hext.update _ _
    have hlanded {e' : Error} {t : Scene l}
        (hext : (s.records.setTable p ((s.records.table p).put slot ⟨.ofNat i, n⟩)).Extends
          t.records)
        (hundone : t.records.used .inode i = false ∨
          plan.Strikes (Transfer.Spares l s.records) e') : s.Unlinked plan p n e' t :=
      .inr ⟨i, slot, hslot, hlower, hfree, ⟨e, hstruck⟩, hext, hundone⟩
    have hm' : (s'.setTable p ((s.records.table p).put slot ⟨.ofNat i, n⟩)).mounted = true := hm
    exact (ends_discardInode_extends hm' hext' hi hunused hblocks).mono
      (fun _ t ht => hlanded ht.2 (.inl ht.1)) fun e' t ht => hlanded ht.1 (.inr ht.2)

end

/-! ## Making files and directories -/

namespace Volume

section

variable (hm : s.mounted = true) (h : s.records.Exact l)

include hm h

/-- What is made in a directory is made after the directory was opened. -/
theorem ends_openFirst {f : Directory → VolumeM Nat} {Q : Nat → Scene l → Prop}
    (hp : s.records.kind p = .directory) (hn : StoredName.encode name = .ok n)
    (hf : Ends plan (f (s.directory p)) s Q (s.Unlinked plan p n)) :
    Ends plan (do
        let _ ← liftExcept (StoredName.encode name)
        let d ← Directory.ofInode p
        f d) s Q (s.Unlinked plan p n) := by
  rw [hn]
  refine Ends.ok_bind (Views.bind_ends (Directory.views_ofInode hm h p) (fun e he => ?_)
    fun d hd => ?_)
  · rcases he with hrefused | hstrikes
    · rw [Scene.opened_of_directory hp] at hrefused
      cases hrefused
    · exact .inl ⟨.refl _, .inr (.inl (hstrikes.mono fun _ ht => ht.spares.ne h hp))⟩
  · obtain ⟨-, rfl⟩ := Scene.directory_of_opened hd
    exact hf

variable (hp : s.records.kind p = .directory) (hn : StoredName.encode name = .ok n)
  (hnone : (s.records.table p).lookup n = none)

include hp hn hnone

theorem ends_makeFile_new :
    Ends plan (makeFile p name) s
      (fun _ _ => plan.Admits (.write (2 * s.records.tableBlock p + 1)))
      (s.Unlinked plan p n) := by
  have hfind : (s.directory p).find? name = none := (EntryTable.find?_eq hn).trans hnone
  refine ends_openFirst hm h hp hn ?_
  rw [hfind]
  refine Ends.bind ((File.ends_make hm).weaken fun _ _ hx => hx.unlinked h hp) fun f s' hf => ?_
  obtain ⟨i, hfree, rfl, rfl⟩ := hf
  obtain ⟨-, hi, hunused, -⟩ := Records.lowestFree_eq_some_iff.mp hfree
  obtain ⟨hkind, hzero⟩ := h.kind_of_free hunused
  have hrecords := s.records_addInode (x := .new .file s.clock) hi
  have hext : s.records.Extends (s.addInode i (.new .file s.clock)).records := by
    rw [hrecords]
    exact ((Records.Extends.refl _).mark hunused true).putInode hunused
  have hexact : (s.addInode i (.new .file s.clock)).records.Exact l := by
    rw [hrecords]
    exact h.addFile hkind hzero hi (Inode.kind_new _ _) fun _ => Inode.block?_new _ _
  refine Ends.bind (Directory.ends_link_orUndo h hp hn hfree hm hext hexact fun b hb => ?_)
    fun _ _ hadmits => .pure hadmits
  rw [Inode.blocks_new] at hb
  exact absurd hb List.not_mem_nil

theorem ends_makeDirectory_new :
    Ends plan (makeDirectory p name) s
      (fun _ _ => plan.Admits (.write (2 * s.records.tableBlock p + 1)))
      (s.Unlinked plan p n) := by
  have hfind : (s.directory p).find? name = none := (EntryTable.find?_eq hn).trans hnone
  have hsmall : p < UInt16.size :=
    l.small_of_lt (r := .inode) (h.lt_of_live (Records.ne_free_of_directory hp))
  refine ends_openFirst hm h hp hn ?_
  rw [hfind]
  refine Ends.bind ((Directory.ends_make hm h.reserves hsmall).weaken
    fun _ _ hx => hx.unlinked h hp) fun d s' hd => ?_
  obtain ⟨i, b, hfree, hblock, rfl, rfl⟩ := hd
  obtain ⟨-, hi, hunused, -⟩ := Records.lowestFree_eq_some_iff.mp hfree
  obtain ⟨-, hlt, hb, -⟩ := Records.lowestFree_eq_some_iff.mp hblock
  obtain ⟨hkind, hzero⟩ := h.kind_of_free hunused
  have hrecord := Directory.block?_firstRecord s.clock (h.ne_zero_of_free hb)
    (l.small_of_lt (r := .block) hlt)
  have hrecords := s.records_addDirectory (x := Directory.firstRecord s.clock b)
    (t := Directory.firstEntries i p) hi (h.reserves.le_of_free hb) hlt
  have hext : s.records.Extends (s.addDirectory i b (Directory.firstRecord s.clock b)
      (Directory.firstEntries i p)).records := by
    rw [hrecords]
    exact ((((Records.Extends.refl _).mark hb true).putBlock hb).mark hunused true).putInode
      hunused
  have hexact : (s.addDirectory i b (Directory.firstRecord s.clock b)
      (Directory.firstEntries i p)).records.Exact l := by
    rw [hrecords]
    exact h.addDirectory hkind hzero hi hb hlt (Directory.kind_firstRecord _ _) hrecord
  refine Ends.bind (Directory.ends_link_orUndo h hp hn hfree hm hext hexact fun y hy => ?_)
    fun _ _ hadmits => .pure hadmits
  obtain ⟨k, hk⟩ := Inode.mem_blocks_iff.mp hy
  rw [hrecord] at hk
  split at hk
  · cases hk
    exact ⟨hlt, hb⟩
  · cases hk

end

/-- Making something under a name leaves what is in use as it was, or the name has landed, if that
holds for new names in directories. -/
theorem ends_makeUnder (h : s.records.Exact l) {x : VolumeM Nat} {f : Directory → VolumeM Nat}
    (hx : x = do
      let _ ← liftExcept (StoredName.encode name)
      let d ← Directory.ofInode p
      f d)
    (hold : ∀ i, (s.directory p).find? name = some i →
      Ends plan (f (s.directory p)) s (fun _ _ => True) (fun _ s' => s' = s))
    (hnew : ∀ n, s.mounted = true → s.records.kind p = .directory →
      StoredName.encode name = .ok n → (s.records.table p).lookup n = none →
      Ends plan x s (fun _ _ => True) (s.Unlinked plan p n)) :
    Ends plan x s (fun _ _ => True) (fun e s' => s.records.Extends s'.records ∨
      s.records.kind p = .directory ∧ ∃ n i slot, StoredName.encode name = .ok n ∧
        s.Landed plan p i n slot e s') := by
  match hn : StoredName.encode name with
  | .error e =>
    rw [hx, hn]
    exact Ends.error_bind (.inl (.refl _))
  | .ok n =>
    by_cases hfresh : s.mounted = true ∧ s.records.kind p = .directory ∧
      (s.records.table p).lookup n = none
    · obtain ⟨hm, hp, hnone⟩ := hfresh
      refine (hnew n hm hp hn hnone).weaken fun e s' he => ?_
      rcases he with ⟨hext, -⟩ | ⟨i, slot, hlanded⟩
      · exact .inl hext
      · exact .inr ⟨hp, n, i, slot, rfl, hlanded⟩
    · rw [hx, hn]
      refine Ends.ok_bind ?_
      by_cases hm : s.mounted = true
      · refine Views.bind_ends (Directory.views_ofInode hm h p) (fun _ _ => .inl (.refl _))
          fun d hd => ?_
        obtain ⟨hp, rfl⟩ := Scene.directory_of_opened hd
        match hl : (s.records.table p).lookup n with
        | none => exact absurd ⟨hm, hp, hl⟩ hfresh
        | some i =>
          refine (hold i ((EntryTable.find?_eq hn).trans hl)).weaken fun e s' he => ?_
          rw [he]
          exact .inl (.refl _)
      · exact Views.bind_ends (Directory.views_ofInode_unmounted (Bool.eq_false_iff.mpr hm) p)
          (fun _ _ => .inl (.refl _)) fun _ => False.elim

theorem ends_makeFile (h : s.records.Exact l) (p : Nat) (name : String) :
    Ends plan (makeFile p name) s (fun _ _ => True) (fun e s' => s.records.Extends s'.records ∨
      s.records.kind p = .directory ∧ ∃ n i slot, StoredName.encode name = .ok n ∧
        s.Landed plan p i n slot e s') := by
  refine ends_makeUnder h rfl (fun i hi => ?_) fun n hm hp hn hnone =>
    (ends_makeFile_new hm h hp hn hnone).mono (fun _ _ _ => trivial) fun _ _ he => he
  rw [hi]
  exact .pure trivial

theorem ends_makeDirectory (h : s.records.Exact l) (p : Nat) (name : String) :
    Ends plan (makeDirectory p name) s (fun _ _ => True)
      (fun e s' => s.records.Extends s'.records ∨
        s.records.kind p = .directory ∧ ∃ n i slot, StoredName.encode name = .ok n ∧
          s.Landed plan p i n slot e s') := by
  refine ends_makeUnder h rfl (fun i hi => ?_) fun n hm hp hn hnone =>
    (ends_makeDirectory_new hm h hp hn hnone).mono (fun _ _ _ => trivial) fun _ _ he => he
  rw [hi]
  exact Ends.throw_bind rfl

end Volume

end BlockFS
