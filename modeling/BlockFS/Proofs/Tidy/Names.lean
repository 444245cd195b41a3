import BlockFS.Proofs.Tidy.Operations

/-!
# Names in tidy records

What the search for a name in a directory tells about the slots of the directory, and so about what may
be linked, removed or renamed there.
-/

namespace BlockFS.Records

variable {l : Layout} {c : Records} {p i : Nat} {slot : Fin slotCount} {n m : StoredName}
  {name : String}

/-- A name other than `.` and `..` that is found links something. -/
theorem links_of_slot (hp : c.kind p = .directory) (hname : BlockFS.isSelfOrParent name = false)
    (hn : StoredName.encode name = .ok n)
    (hslot : (c.table p).findFinIdx? (fun e => e.isNamed n) = some slot) :
    c.tree.Links p slot ((c.table p).entry slot).target := by
  obtain ⟨hused, hentry⟩ := EntryTable.named_of_findFinIdx? hslot
  refine ⟨hp, rfl, hused, ?_⟩
  change ((c.table p).entry slot).name.isSelfOrParent = false
  rw [hentry, Bool.eq_false_iff]
  intro hdot
  rw [StoredName.eq_of_isSelfOrParent hn hdot] at hname
  cases hname

namespace Tidy

variable (h : c.Tidy l)

include h

/-- The names `.` and `..` are found in every directory. -/
theorem lookup_ne_none (hp : c.kind p = .directory) (hn : StoredName.encode name = .ok n)
    (hdot : n.isSelfOrParent = true) : (c.table p).lookup n ≠ none := by
  intro hnone
  rw [EntryTable.lookup_eq_none_iff] at hnone
  have hname : name = "." ∨ name = ".." := by
    have := StoredName.eq_of_isSelfOrParent hn hdot
    simpa [BlockFS.isSelfOrParent] using this
  rcases hname with rfl | rfl
  · rw [StoredName.encode_here] at hn
    cases hn
    exact hnone 0 (h.tree.target_ne_of_lt_two hp (by decide)) (h.tree.self p hp).2
  · rw [StoredName.encode_up] at hn
    cases hn
    exact hnone 1 (h.tree.target_ne_of_lt_two hp (by decide)) (h.tree.up p hp).2

/-- What the names `.` and `..` lead to. -/
theorem lookup_selfOrParent (hp : c.kind p = .directory) (hdot : n.isSelfOrParent = true)
    (hi : (c.table p).lookup n = some i) : i = p ∨ i = c.tree.parent p := by
  obtain ⟨slot, -, rfl, hused, hname⟩ := EntryTable.exists_slot_of_lookup hi
  have hself : (c.tree.entry p slot).isSelfOrParent = true := by
    rw [Entry.isSelfOrParent, ← hdot, ← hname]
    rfl
  have hfirst : ¬ 2 ≤ slot.val := fun hge =>
    Bool.false_ne_true ((h.tree.named p slot hp hge hused).symm.trans hself)
  obtain ⟨_ | _ | k, hk⟩ := slot
  · exact .inl (h.tree.self p hp).1
  · exact .inr rfl
  · exact absurd (Nat.le_add_left 2 k) hfirst

/-- An inode is linked under one name, in one directory. -/
theorem eq_of_lookup {d : Nat} (hl : c.tree.Links p slot i) (hd : c.kind d = .directory)
    (hn : n.isSelfOrParent = false) (hi : (c.table d).lookup n = some i) :
    d = p ∧ (c.tree.entry p slot).name = n := by
  obtain ⟨slot', -, htarget, hused, hname⟩ := EntryTable.exists_slot_of_lookup hi
  have hl' : c.tree.Links d slot' i := by
    refine ⟨hd, htarget, hused, ?_⟩
    rw [Entry.isSelfOrParent, ← hn, ← hname]
    rfl
  obtain ⟨rfl, rfl⟩ := h.tree.once _ _ _ _ _ hl' hl
  exact ⟨rfl, hname⟩

/-- A name that is not found may be linked in a free slot. -/
theorem canAdd (hp : c.kind p = .directory) (hn : StoredName.encode name = .ok n)
    (hnone : (c.table p).lookup n = none)
    (hslot : (c.table p).findFinIdx? Entry.isFree = some slot)
    (hi : c.lowestFree .inode l.inodeCount = some i) : c.tree.CanAdd p slot i n := by
  obtain ⟨-, hlt, hfree, -⟩ := lowestFree_eq_some_iff.mp hi
  obtain ⟨hkind, hne⟩ := h.toExact.kind_of_free hfree
  constructor
  · exact hp
  · exact Entry.isFree_iff.mp (findFinIdx?_eq_some_iff.mp hslot).1
  · exact hkind
  · exact hne
  · exact l.small_of_lt (r := .inode) hlt
  · rw [Bool.eq_false_iff]
    intro hdot
    exact h.lookup_ne_none hp hn hdot hnone
  · exact EntryTable.lookup_eq_none_iff.mp hnone

theorem canRemove (hl : c.tree.Links p slot i)
    (hempty : c.kind i = .directory → (c.table i).holdsNothing = true) :
    c.tree.CanRemove p slot i := by
  refine ⟨hl, ?_⟩
  intro hdir s hs
  by_contra hused
  have hself := EntryTable.holdsNothing_iff.mp (hempty hdir) s hused
  have hnot := h.tree.named i s hdir hs hused
  change ((c.table i).entry s).isSelfOrParent = false at hnot
  rw [hnot] at hself
  cases hself

theorem canRelabel (hl : c.tree.Links p slot i) (hn : StoredName.encode name = .ok n)
    (hnone : (c.table p).lookup n = none) : c.tree.CanRelabel p slot n := by
  constructor
  · exact hl.directory
  · exact h.tree.two_le hl
  · rw [Bool.eq_false_iff]
    intro hdot
    exact h.lookup_ne_none hl.directory hn hdot hnone
  · intro s _ hused
    exact EntryTable.lookup_eq_none_iff.mp hnone s hused

end Tidy

end BlockFS.Records
