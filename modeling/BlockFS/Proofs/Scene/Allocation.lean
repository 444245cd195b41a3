import BlockFS.Proofs.MountedVolumes

/-!
# Allocation where no transfer fails

Allocation hands out the lowest free item, or fails and changes nothing.  A block is handed out full
of zeros.  Undoing an allocation gives the records back that were there before, up to what was written
into the item meanwhile.
-/

namespace BlockFS

namespace Records

/-- The blocks before the data are in use, so that none of them is ever handed out. -/
def Reserves (l : Layout) (c : Records) : Prop :=
  ∀ i, i < l.firstDataBlock → c.used .block i = true

theorem Reserves.le_of_free {l : Layout} {c : Records} (h : c.Reserves l) {i : Nat}
    (hi : c.used .block i = false) : l.firstDataBlock ≤ i := by
  rcases Nat.lt_or_ge i l.firstDataBlock with hlt | hge
  · rw [h i hlt] at hi
    cases hi
  · exact hge

end Records

namespace Volume

variable {l : Layout} {s s' : Scene l} {α : Type}

theorem does_orUndo_ok {x : VolumeM α} {undo : VolumeM Unit} {a : α}
    (hx : Does x s (.ok a) s') : Does (orUndo x undo) s (.ok a) s' :=
  hx.tryCatch_ok

theorem does_orUndo_error {x : VolumeM α} {undo : VolumeM Unit} {e : Error} {s'' : Scene l}
    (hx : Does x s (.error e) s') (hundo : Does undo s' (.ok ()) s'') :
    Does (orUndo x undo) s (.error e) s'' :=
  hx.tryCatch_error (hundo.bind (Does.throw _ _))

theorem does_allocate (hm : s.mounted = true) {r : Resource} {i : Nat}
    (h : s.records.lowestFree r (r.count l) = some i) :
    Does (allocate r) s (.ok i) (s.mark r i true) := by
  have hdoes : Does (allocate r) s.onDisk _ _ := Mounted.does_allocate (s.covers_onDisk r) h
  rw [← s.onDisk_mark] at hdoes
  exact Scene.does_of_onDisk hdoes hm hm

theorem does_allocate_full (hm : s.mounted = true) {r : Resource}
    (h : s.records.lowestFree r (r.count l) = none) :
    Does (allocate r) s (.error .noSpace) s :=
  Scene.does_of_onDisk (Mounted.does_allocate_full (s.covers_onDisk r) h) hm hm

theorem does_deallocate (hm : s.mounted = true) {r : Resource} {i : Nat} (hi : i < r.count l) :
    Does (deallocate r i) s (.ok ()) (s.mark r i false) := by
  have hdoes : Does (deallocate r i) s.onDisk _ _ := Mounted.does_deallocate (s.covers_onDisk r) hi
  rw [← s.onDisk_mark] at hdoes
  exact Scene.does_of_onDisk hdoes hm hm

theorem does_allocateBlock (hm : s.mounted = true) (hres : s.records.Reserves l) {i : Nat}
    (h : s.records.lowestFree .block l.blockCount = some i) :
    Does allocateBlock s (.ok i) ((s.mark .block i true).putBlock i .zero) := by
  obtain ⟨-, -, hfree, -⟩ := Records.lowestFree_eq_some_iff.mp h
  have hsuper : superblockBlock < i :=
    Nat.lt_of_lt_of_le (Nat.lt_trans l.superblock_lt_tableStart l.tableStart_lt_firstDataBlock)
      (hres.le_of_free hfree)
  have hdoes : Does allocateBlock s.onDisk _ _ :=
    Mounted.does_allocateBlock (s.covers_onDisk .block) h
  rw [← s.onDisk_mark, ← (s.mark .block i true).onDisk_putBlock hsuper] at hdoes
  exact Scene.does_of_onDisk hdoes hm hm

theorem does_allocateBlock_full (hm : s.mounted = true)
    (h : s.records.lowestFree .block l.blockCount = none) :
    Does allocateBlock s (.error .noSpace) s :=
  (does_allocate_full (r := .block) hm h).bind_error

theorem does_deallocate_all (hm : s.mounted = true) {is : List Nat}
    (h : ∀ i ∈ is, i < l.blockCount) :
    Does (is.forM (deallocate .block)) s (.ok ()) (s.freeBlocks is) := by
  induction is generalizing s with
  | nil => exact Does.pure _ _
  | cons i rest ih =>
    have hi : i < l.blockCount := h i (List.mem_cons_self ..)
    apply (does_deallocate (r := .block) hm hi).bind
    exact ih hm fun j hj => h j (List.mem_cons_of_mem _ hj)

theorem does_discardInode (hm : s.mounted = true) {i : Nat} {x : Inode} (hi : i < l.inodeCount)
    (h : ∀ b ∈ x.blocks, b < l.blockCount) :
    Does (discardInode i x) s (.ok ()) ((s.freeBlocks x.blocks).mark .inode i false) := by
  have hm' : (s.freeBlocks x.blocks).mounted = true := by rw [Scene.mounted_freeBlocks, hm]
  exact (does_deallocate_all hm h).bind (does_deallocate (r := .inode) hm' hi)

end Volume

end BlockFS
