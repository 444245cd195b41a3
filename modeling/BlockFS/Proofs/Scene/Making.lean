import BlockFS.Proofs.Scene.Views

/-!
# Making and discarding where no transfer fails

A file or a directory is made before it is linked.  If it cannot be linked it is discarded, and then
everything in use is as it was before.
-/

namespace BlockFS

open Volume

namespace Records

variable {l : Layout} {c : Records} {i b : Nat} {x : Inode} {z : Block}

/-- An inode that comes into use and goes again with its blocks, which were free, leaves no trace in
what is in use. -/
theorem agree_discard_addInode (hi : c.used .inode i = false)
    (hb : ∀ b ∈ x.blocks, c.used .block b = false) :
    Agree c ((c.addInode i x).discard i) := by
  constructor
  · intro r j
    cases r with
    | inode =>
      rw [used_inode_discard, used_addInode]
      by_cases hj : j = i
      · rw [if_pos hj, hj, hi]
      · rw [if_neg hj, if_neg (fun h => hj h.2)]
    | block =>
      rw [used_block_discard, inode_addInode, if_pos rfl]
      by_cases hj : j ∈ x.blocks
      · rw [if_pos hj, hb j hj]
      · rw [if_neg hj]
        rfl
  · intro j hj
    have hne : j ≠ i := by
      rintro rfl
      rw [hi] at hj
      cases hj
    change (c.addInode i x).inode j = c.inode j
    rw [inode_addInode, if_neg hne]
  · intro j _
    rfl

/-- The same for an inode with one block. -/
theorem agree_discard_addDirectory (hi : c.used .inode i = false) (hb : c.used .block b = false)
    (hx : ∀ y, y ∈ x.blocks ↔ y = b) :
    Agree c (((c.takeBlock b z).addInode i x).discard i) := by
  constructor
  · intro r j
    cases r with
    | inode =>
      rw [used_inode_discard, used_addInode]
      by_cases hj : j = i
      · rw [if_pos hj, hj, hi]
      · rw [if_neg hj, if_neg (fun h => hj h.2), used_takeBlock,
          if_neg (fun h => Resource.noConfusion h.1)]
    | block =>
      rw [used_block_discard, inode_addInode, if_pos rfl]
      by_cases hj : j = b
      · rw [if_pos ((hx j).mpr hj), hj, hb]
      · rw [if_neg (fun h => hj ((hx j).mp h)), used_addInode,
          if_neg (fun h => Resource.noConfusion h.1), used_takeBlock, if_neg (fun h => hj h.2)]
  · intro j hj
    have hne : j ≠ i := by
      rintro rfl
      rw [hi] at hj
      cases hj
    change ((c.takeBlock b z).addInode i x).inode j = c.inode j
    rw [inode_addInode, if_neg hne]
    rfl
  · intro j hj
    have hne : j ≠ b := by
      rintro rfl
      rw [hb] at hj
      cases hj
    exact Function.update_of_ne hne _ _

theorem agree_mark_mark (hi : c.used .inode i = false) :
    Agree c ((c.mark .inode i true).mark .inode i false) := by
  constructor
  · intro r j
    simp only [mark]
    by_cases hj : r = .inode ∧ j = i
    · rw [if_pos hj, hj.1, hj.2, hi]
    · rw [if_neg hj, if_neg hj]
  · exact fun _ _ => rfl
  · exact fun _ _ => rfl

end Records

variable {l : Layout} {s : Scene l} {i p b : Nat} {x : Inode} {t : EntryTable}

namespace Scene

/-- The scene with an inode in use. -/
def addInode (s : Scene l) (i : Nat) (x : Inode) : Scene l :=
  (s.mark .inode i true).putInode i x

/-- The scene with an inode in use that has one block. -/
def addDirectory (s : Scene l) (i b : Nat) (x : Inode) (t : EntryTable) : Scene l :=
  ((((s.mark .inode i true).mark .block b true).putBlock b .zero).putBlock b t.toBlock).putInode i x

/-- The scene with an inode and the blocks of its record free. -/
def discard (s : Scene l) (i : Nat) : Scene l :=
  (s.freeBlocks (s.records.inode i).blocks).mark .inode i false

/-- The scene after the directory went that may have been the current one. -/
def leave (s : Scene l) (i : Nat) : Scene l :=
  { s with cwd := if s.cwd = i then rootInode else s.cwd }

theorem cwd_discard (s : Scene l) (i : Nat) : (s.discard i).cwd = s.cwd :=
  cwd_freeBlocks s _

theorem records_addInode (s : Scene l) (hi : i < l.inodeCount) :
    (s.addInode i x).records = s.records.addInode i x := by
  rw [addInode, records_putInode _ hi, s.records_mark (r := .inode) hi]
  rfl

theorem records_addDirectory (s : Scene l) (hi : i < l.inodeCount) (hge : l.firstDataBlock ≤ b)
    (hlt : b < l.blockCount) :
    (s.addDirectory i b x t).records = (s.records.takeBlock b t.toBlock).addInode i x := by
  rw [addDirectory, records_putInode _ hi, records_putBlock _ hge hlt, records_putBlock _ hge hlt,
    records_mark (r := .block) _ hlt, s.records_mark (r := .inode) hi]
  apply Records.ext
  · funext r j
    simp only [Records.putInode, Records.putBlock, Records.mark, Records.addInode,
      Records.takeBlock]
    by_cases hr : r = .inode
    · simp [hr]
    · simp [hr]
  · rfl
  · simp only [Records.putInode, Records.putBlock, Records.mark, Records.addInode,
      Records.takeBlock, Function.update_idem]

theorem records_discard (hi : i < l.inodeCount)
    (hb : ∀ b ∈ (s.records.inode i).blocks, b < l.blockCount) :
    (s.discard i).records = s.records.discard i := by
  rw [discard, records_mark (r := .inode) _ hi, s.records_freeBlocks hb]
  rfl

end Scene

namespace Records.Exact

variable {c : Records} (h : c.Exact l)

include h

theorem ne_zero_of_free (hb : c.used .block b = false) : b ≠ 0 := by
  have hge := h.reserves.le_of_free hb
  have hpos := l.tableStart_lt_firstDataBlock
  omega

end Records.Exact

/-! ## Files -/

namespace File

theorem does_make (hm : s.mounted = true)
    (hfree : s.records.lowestFree .inode l.inodeCount = some i) :
    Does make s (.ok ⟨i, .new .file s.clock⟩) (s.addInode i (.new .file s.clock)) := by
  have hi : i < l.inodeCount := (Records.lowestFree_eq_some_iff.mp hfree).2.1
  apply (does_allocate (r := .inode) hm hfree).bind
  apply Does.get_bind
  intro _
  apply (does_orUndo_ok (does_writeInode (s := s.mark .inode i true) hm hi _)).bind
  exact Does.pure _ _

theorem does_make_full (hm : s.mounted = true)
    (hfree : s.records.lowestFree .inode l.inodeCount = none) :
    Does make s (.error .noSpace) s :=
  (does_allocate_full (r := .inode) hm hfree).bind_error

theorem does_ofInode (hm : s.mounted = true) (hi : s.records.kind i = .file) :
    Does (ofInode i) s (.ok (s.file i)) s := by
  have hused : s.records.used .inode i = true :=
    Records.used_of_kind_ne (Records.ne_free_of_file hi)
  rw [Records.kind_of_used hused] at hi
  apply (does_readInode hm hused).bind
  simp only [hi]
  exact Does.pure _ _

theorem does_ofInode_unused (hm : s.mounted = true) (hi : s.records.kind i = .free) :
    Does (ofInode i) s (.error .notFound) s := by
  by_cases hused : s.records.used .inode i = true
  · rw [Records.kind_of_used hused] at hi
    apply (does_readInode hm hused).bind
    simp only [hi]
    exact Does.throw _ _
  · exact (does_readInode_free hm (Bool.eq_false_iff.mpr hused)).bind_error

theorem does_ofInode_directory (hm : s.mounted = true) (hi : s.records.kind i = .directory) :
    Does (ofInode i) s (.error .notAFile) s := by
  have hused : s.records.used .inode i = true :=
    Records.used_of_kind_ne (Records.ne_free_of_directory hi)
  rw [Records.kind_of_used hused] at hi
  apply (does_readInode hm hused).bind
  simp only [hi]
  exact Does.throw _ _

/-- A file that was just made owns no blocks yet. -/
theorem does_discard_made (hm : s.mounted = true) (hi : i < l.inodeCount) :
    Does (discard ⟨i, .new .file s.clock⟩) (s.addInode i (.new .file s.clock)) (.ok ())
      ((s.addInode i (.new .file s.clock)).discard i) := by
  have hrecord : (s.addInode i (.new .file s.clock)).records.inode i = .new .file s.clock := by
    rw [Scene.records_addInode _ hi, Records.inode_addInode, if_pos rfl]
  have hm' : (s.addInode i (.new .file s.clock)).mounted = true := hm
  rw [discard, Scene.discard, hrecord]
  apply does_discardInode hm' hi
  rw [Inode.blocks_new]
  exact fun b hb => absurd hb List.not_mem_nil

end File

/-- What an inode owns and the inode itself are taken back. -/
theorem does_discardInode_of_exact (hm : s.mounted = true) (h : s.records.Exact l)
    (hi : s.records.kind i ≠ .free) :
    Does (discardInode i (s.records.inode i)) s (.ok ()) (s.discard i) :=
  does_discardInode hm (h.lt_of_live hi) fun _ => h.pointsToData.lt_of_mem_blocks hi

/-! ## Directories -/

namespace Directory

theorem does_make (hm : s.mounted = true) (hres : s.records.Reserves l)
    (hp : p < UInt16.size)
    (hfree : s.records.lowestFree .inode l.inodeCount = some i)
    (hblock : s.records.lowestFree .block l.blockCount = some b) :
    Does (make p) s
      (.ok ⟨i, firstRecord s.clock b, b, firstEntries i p⟩)
      (s.addDirectory i b (firstRecord s.clock b) (firstEntries i p)) := by
  have hi : i < l.inodeCount := (Records.lowestFree_eq_some_iff.mp hfree).2.1
  obtain ⟨-, hlt, hb, -⟩ := Records.lowestFree_eq_some_iff.mp hblock
  have hge := hres.le_of_free hb
  have hsmall : i < UInt16.size := l.small_of_lt (r := .inode) hi
  have hmark : (s.mark .inode i true).records = s.records.mark .inode i true :=
    s.records_mark (r := .inode) hi true
  have hres' : (s.mark .inode i true).records.Reserves l := by
    intro j hj
    rw [hmark]
    exact hres j hj
  have hblock' : (s.mark .inode i true).records.lowestFree .block l.blockCount = some b := by
    rw [hmark]
    exact hblock
  apply (does_allocate (r := .inode) hm hfree).bind
  apply (does_orUndo_ok (does_allocateBlock (s := s.mark .inode i true) hm hres' hblock')).bind
  apply Does.get_bind
  intro _
  refine (does_orUndo_ok (?_ : Does _ _ (.ok (firstEntries i p)) _)).bind (Does.pure _ _)
  rw [firstTable_eq hsmall hp]
  apply (Does.liftExcept _ _).bind
  let s' := ((s.mark .inode i true).mark .block b true).putBlock b .zero
  apply (does_writeBlock (s := s') hm hge hlt _).bind
  apply (does_writeInode (s := s'.putBlock b _) hm hi _).bind
  exact Does.pure _ _

theorem does_make_noInode (hm : s.mounted = true)
    (hfree : s.records.lowestFree .inode l.inodeCount = none) :
    Does (make p) s (.error .noSpace) s :=
  (does_allocate_full (r := .inode) hm hfree).bind_error

theorem does_make_noBlock (hm : s.mounted = true)
    (hfree : s.records.lowestFree .inode l.inodeCount = some i)
    (hblock : s.records.lowestFree .block l.blockCount = none) :
    Does (make p) s (.error .noSpace) ((s.mark .inode i true).mark .inode i false) := by
  have hi : i < l.inodeCount := (Records.lowestFree_eq_some_iff.mp hfree).2.1
  have hblock' : (s.mark .inode i true).records.lowestFree .block l.blockCount = none := by
    rw [s.records_mark (r := .inode) hi true]
    exact hblock
  apply (does_allocate (r := .inode) hm hfree).bind
  refine (does_orUndo_error (does_allocateBlock_full (s := s.mark .inode i true) hm hblock')
    ?_).bind_error
  exact does_deallocate (r := .inode) (s := s.mark .inode i true) hm hi

/-- A directory that was just made owns one block. -/
theorem does_discard_made (hm : s.mounted = true) (h : s.records.Exact l)
    (hfree : s.records.lowestFree .inode l.inodeCount = some i)
    (hblock : s.records.lowestFree .block l.blockCount = some b) (t : EntryTable) :
    Does (discard ⟨i, firstRecord s.clock b, b, t⟩)
      (s.addDirectory i b (firstRecord s.clock b) t) (.ok ())
      ((s.addDirectory i b (firstRecord s.clock b) t).discard i) := by
  have hi : i < l.inodeCount := (Records.lowestFree_eq_some_iff.mp hfree).2.1
  obtain ⟨-, hlt, hb, -⟩ := Records.lowestFree_eq_some_iff.mp hblock
  have hrecord : (s.addDirectory i b (firstRecord s.clock b) t).records.inode i
      = firstRecord s.clock b := by
    rw [s.records_addDirectory hi (h.reserves.le_of_free hb) hlt, Records.inode_addInode,
      if_pos rfl]
  have hm' : (s.addDirectory i b (firstRecord s.clock b) t).mounted = true := hm
  rw [discard, Scene.discard, hrecord]
  apply does_discardInode hm' hi
  intro y hy
  obtain ⟨k, hk⟩ := Inode.mem_blocks_iff.mp hy
  rw [block?_firstRecord _ (h.ne_zero_of_free hb) (l.small_of_lt (r := .block) hlt)] at hk
  split at hk
  · cases hk
    exact hlt
  · cases hk

end Directory

end BlockFS
