import BlockFS.Proofs.NameMaps
import BlockFS.Proofs.Scene.Steps

/-!
# Outcomes as maps

What the operations on names leave behind, told by the maps of the directories; and the conditions on
which their outcomes depend, told without searches.
-/

namespace BlockFS

namespace Scene

variable {l : Layout} {s s' : Scene l} {p i j b : Nat} {slot : Fin slotCount} {n m : StoredName}

/-- The directories of a scene as maps. -/
def maps (s : Scene l) : NameMaps := s.records.tree.maps

theorem Same.maps_eq (h : Same s s') (hs : s.Good) : s'.maps = s.maps := by
  rw [maps, h.agree.tree_eq hs.tidy.toExact]
  rfl

theorem Makes.maps_eq (w : Makes p i n s s') (hs : s.Good) :
    s'.maps = s.maps.link p n i .file NameMaps.nothing := by
  obtain ⟨slot, -, ha, hrecords⟩ := w.linked
  rw [maps, hrecords, hs.tidy.tree_linkFile ha (Inode.kind_new _ _)
    (fun _ => Inode.block?_new _ _) w.inode_lt, hs.tidy.tree.maps_add ha (.inl ⟨rfl, rfl⟩)]
  exact congrArg _ (funext EntryTable.lookup_empty)

theorem MakesDirectory.maps_eq (w : MakesDirectory p i b n s s') (hs : s.Good) :
    s'.maps = s.maps.link p n i .directory (NameMaps.selfAndParent i p) := by
  obtain ⟨-, slot, ha, htree⟩ := w.tidy_and_tree hs
  have hsmall : p < UInt16.size :=
    l.small_of_lt (r := .inode) (hs.tidy.lt_of_live (Records.ne_free_of_directory ha.directory))
  have ht := Directory.holdsNothing_firstEntries ha.small hsmall
  rw [maps, htree, hs.tidy.tree.maps_add ha (.inr ⟨rfl, ht⟩),
    ht.lookup_eq ha.ne_zero (hs.tidy.tree.ne_zero ha.directory)]
  rfl

theorem Removes.maps_eq (w : Removes p slot i s s') (hs : s.Good)
    (hn : ((s.records.table p).entry slot).name = n) : s'.maps = s.maps.unlink p n i := by
  rw [maps, w.records, hs.tidy.tree_unlink w.removable]
  exact hs.tidy.tree.maps_remove w.removable hn

theorem Relabels.maps_eq (w : Relabels p slot m s s') (hs : s.Good)
    (hused : ((s.records.table p).entry slot).target ≠ 0)
    (hn : ((s.records.table p).entry slot).name = n) : s'.maps = s.maps.relabel p n m := by
  rw [maps, w.records, hs.tidy.tree_relabel w.allowed]
  exact hs.tidy.tree.maps_relabel w.allowed hused hn

end Scene

/-! ## Conditions -/

namespace Records

variable {l : Layout} {c : Records} {p i : Nat} {r : Resource}

/-- The least inode that is not in use. -/
structure LeastFree (c : Records) (l : Layout) (i : Nat) : Prop where
  lt : i < l.inodeCount
  free : c.used .inode i = false
  least : ∀ j, j < i → c.used .inode j = true

/-- All inodes, or all blocks, are in use. -/
def AllUsed (c : Records) (l : Layout) (r : Resource) : Prop :=
  ∀ i, i < r.count l → c.used r i = true

/-- No slot of a directory is free. -/
def AllSlotsUsed (c : Records) (p : Nat) : Prop :=
  ∀ slot : Fin slotCount, ((c.table p).entry slot).target ≠ 0

namespace Exact

variable (h : c.Exact l)

include h

/-- What has the number zero is always in use. -/
theorem used_zero (r : Resource) : c.used r 0 = true := by
  cases r with
  | inode => exact (h.inodes.used_iff 0).mpr (.inl rfl)
  | block =>
    have hstart := l.tableStart_lt_firstDataBlock
    exact h.blocks.reserved 0 (by omega)

theorem lowestFree_of_leastFree (hi : c.LeastFree l i) :
    c.lowestFree .inode l.inodeCount = some i := by
  refine lowestFree_eq_some_iff.mpr ⟨?_, hi.lt, hi.free, fun j _ hj => hi.least j hj⟩
  rw [Nat.one_le_iff_ne_zero]
  rintro rfl
  exact Bool.false_ne_true (hi.free.symm.trans (h.used_zero .inode))

theorem lowestFree_eq_none_iff_allUsed :
    c.lowestFree r (r.count l) = none ↔ c.AllUsed l r := by
  rw [lowestFree_eq_none_iff]
  constructor
  · intro hall i hi
    by_cases hzero : i = 0
    · rw [hzero]
      exact h.used_zero r
    · exact hall i (Nat.one_le_iff_ne_zero.mpr hzero) hi
  · exact fun hall i _ hi => hall i hi

theorem exists_lowestFree (hr : ¬ c.AllUsed l r) : ∃ i, c.lowestFree r (r.count l) = some i := by
  rw [← h.lowestFree_eq_none_iff_allUsed] at hr
  exact Option.ne_none_iff_exists'.mp hr

end Exact

theorem findFinIdx?_isFree_eq_none_iff :
    (c.table p).findFinIdx? Entry.isFree = none ↔ c.AllSlotsUsed p := by
  rw [findFinIdx?_eq_none_iff]
  simp only [Entry.isFree_eq_false_iff]
  rfl

theorem exists_findFinIdx?_isFree (hp : ¬ c.AllSlotsUsed p) :
    ∃ slot, (c.table p).findFinIdx? Entry.isFree = some slot := by
  rw [← findFinIdx?_isFree_eq_none_iff] at hp
  exact Option.ne_none_iff_exists'.mp hp

end Records

end BlockFS
