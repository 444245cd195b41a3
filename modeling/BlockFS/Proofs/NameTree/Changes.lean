import BlockFS.Proofs.NameTree

/-!
# Changes of the tree of names

Each change says what it links afterwards.  From this follows that the tree stays sound.  A new tree has
nothing but its root.
-/

namespace BlockFS.NameTree

variable {t : NameTree} {p d i j : Nat} {slot s : Fin slotCount} {n : StoredName} {k : Kind}
  {table : EntryTable}

/-! ## Adding an inode -/

/-- The tree with a new inode, which a slot of a directory links under a name. -/
def add (t : NameTree) (p : Nat) (slot : Fin slotCount) (i : Nat) (n : StoredName) (k : Kind)
    (table : EntryTable) : NameTree where
  kind := Function.update t.kind i k
  table := Function.update (Function.update t.table p ((t.table p).put slot ⟨.ofNat i, n⟩)) i table

/-- A slot of a directory may link a new inode under a name. -/
structure CanAdd (t : NameTree) (p : Nat) (slot : Fin slotCount) (i : Nat) (n : StoredName) :
    Prop where
  directory : t.kind p = .directory
  free : (t.entry p slot).target = 0
  unused : t.kind i = .free
  ne_zero : i ≠ 0
  small : i < UInt16.size
  named : n.isSelfOrParent = false
  fresh : ∀ s : Fin slotCount, (t.entry p s).target ≠ 0 → (t.entry p s).name ≠ n

/-- A table holds `.` and `..` and nothing else. -/
structure HoldsNothing (table : EntryTable) (i p : Nat) : Prop where
  self : (table.entry 0).target = i ∧ (table.entry 0).name = .here
  up : (table.entry 1).target = p ∧ (table.entry 1).name = .up
  rest : ∀ s : Fin slotCount, 2 ≤ s.val → (table.entry s).target = 0

/-- What is added is an empty file or a directory without children. -/
def Addable (k : Kind) (table : EntryTable) (i p : Nat) : Prop :=
  (k = .file ∧ table = .empty) ∨ (k = .directory ∧ HoldsNothing table i p)

theorem Addable.ne_free (h : Addable k table i p) : k ≠ .free := by
  rcases h with ⟨rfl, -⟩ | ⟨rfl, -⟩
  · exact Kind.noConfusion
  · exact Kind.noConfusion

theorem kind_add_of_ne (h : j ≠ i) : (t.add p slot i n k table).kind j = t.kind j :=
  Function.update_of_ne h _ _

theorem kind_add_self : (t.add p slot i n k table).kind i = k :=
  Function.update_self _ _ _

theorem entry_add_self : (t.add p slot i n k table).entry i s = table.entry s := by
  simp only [entry, add, Function.update_self]

theorem entry_add_of_ne (h : d ≠ i) :
    (t.add p slot i n k table).entry d s =
      if d = p ∧ s = slot then ⟨.ofNat i, n⟩ else t.entry d s := by
  by_cases hd : d = p
  · subst hd
    simp only [entry, add, Function.update_of_ne h, Function.update_self,
      EntryTable.entry_put, true_and]
  · simp only [entry, add, Function.update_of_ne h, Function.update_of_ne hd, hd, false_and,
      if_false]

namespace HoldsNothing

variable (h : HoldsNothing table i p)

include h

/-- What is not `.` or `..` in such a table is free. -/
theorem target_eq_zero (hname : (table.entry s).isSelfOrParent = false) :
    (table.entry s).target = 0 := by
  match s with
  | ⟨0, _⟩ =>
    have hself : (table.entry ⟨0, by decide⟩).name = .here := h.self.2
    rw [Entry.isSelfOrParent, hself, StoredName.isSelfOrParent_here] at hname
    cases hname
  | ⟨1, _⟩ =>
    have hup : (table.entry ⟨1, by decide⟩).name = .up := h.up.2
    rw [Entry.isSelfOrParent, hup, StoredName.isSelfOrParent_up] at hname
    cases hname
  | ⟨m + 2, hm⟩ => exact h.rest ⟨m + 2, hm⟩ (Nat.le_add_left 2 m)

theorem eq_zero_or_one (hused : (table.entry s).target ≠ 0) : s = 0 ∨ s = 1 := by
  match s, hused with
  | ⟨0, _⟩, _ => exact .inl rfl
  | ⟨1, _⟩, _ => exact .inr rfl
  | ⟨m + 2, hm⟩, hused => exact absurd (h.rest ⟨m + 2, hm⟩ (Nat.le_add_left 2 m)) hused

theorem unique : table.Unique := by
  intro s s' hs hs' hname
  have hne : (table.entry 0).name ≠ (table.entry 1).name := by
    rw [h.self.2, h.up.2]
    exact StoredName.here_ne_up
  rcases h.eq_zero_or_one hs with rfl | rfl
  · rcases h.eq_zero_or_one hs' with rfl | rfl
    · rfl
    · exact absurd hname hne
  · rcases h.eq_zero_or_one hs' with rfl | rfl
    · exact absurd hname.symm hne
    · rfl

theorem lookup_eq_none (hdot : n.isSelfOrParent = false) : table.lookup n = none := by
  refine EntryTable.lookup_eq_none_iff.mpr fun s hused hname => hused (h.target_eq_zero ?_)
  rw [Entry.isSelfOrParent, hname, hdot]

theorem findFinIdx?_isFree (hi : i ≠ 0) (hp : p ≠ 0) :
    table.findFinIdx? Entry.isFree = some 2 := by
  refine findFinIdx?_eq_some_iff.mpr ⟨Entry.isFree_iff.mpr (h.rest 2 (by decide)), ?_⟩
  intro j hj
  rw [Entry.isFree_eq_false_iff]
  match j with
  | ⟨0, _⟩ => exact fun hfree => hi (h.self.1.symm.trans hfree)
  | ⟨1, _⟩ => exact fun hfree => hp (h.up.1.symm.trans hfree)
  | ⟨m + 2, _⟩ => exact absurd hj (Nat.not_lt.mpr (Nat.le_add_left 2 m))

/-- There is room for more than one child. -/
theorem exists_isFree_put (e : Entry) :
    ∃ slot, (table.put 2 e).findFinIdx? Entry.isFree = some slot := by
  cases hfound : (table.put 2 e).findFinIdx? Entry.isFree with
  | some slot => exact ⟨slot, rfl⟩
  | none =>
    have hused : ((table.put 2 e).entry 3).isFree = false := findFinIdx?_eq_none_iff.mp hfound 3
    rw [EntryTable.entry_put, if_neg (by decide), Entry.isFree_eq_false_iff] at hused
    exact absurd (h.rest 3 (by decide)) hused

end HoldsNothing

namespace CanAdd

variable (c : t.CanAdd p slot i n)

include c

theorem ne_of_directory (hd : t.kind d = .directory) : d ≠ i := by
  rintro rfl
  rw [c.unused] at hd
  cases hd

theorem ne : p ≠ i := c.ne_of_directory c.directory

/-- What is linked afterwards is what was linked before and the new inode. -/
theorem links_add_iff (hk : Addable k table i p) :
    (t.add p slot i n k table).Links d s j ↔
      t.Links d s j ∨ (d = p ∧ s = slot ∧ j = i) := by
  by_cases hd : d = i
  · subst hd
    constructor
    · intro hl
      rcases hk with ⟨rfl, -⟩ | ⟨rfl, hnew⟩
      · have hdir := hl.directory
        rw [kind_add_self] at hdir
        cases hdir
      · have htarget := hl.target
        have hname := hl.named
        rw [entry_add_self] at htarget hname
        exact absurd (htarget.symm.trans (hnew.target_eq_zero hname)) hl.used
    · rintro (hl | ⟨hdp, -, -⟩)
      · exact absurd rfl (c.ne_of_directory hl.directory)
      · exact absurd hdp.symm c.ne
  · by_cases hhere : d = p ∧ s = slot
    · obtain ⟨rfl, rfl⟩ := hhere
      have hentry : (t.add d s i n k table).entry d s = ⟨.ofNat i, n⟩ := by
        rw [entry_add_of_ne hd, if_pos ⟨rfl, rfl⟩]
      constructor
      · intro hl
        have htarget := hl.target
        rw [hentry, Entry.target_mk c.small] at htarget
        exact .inr ⟨rfl, rfl, htarget.symm⟩
      · rintro (hl | ⟨-, -, rfl⟩)
        · exact absurd (hl.target.symm.trans c.free) hl.used
        · refine ⟨(kind_add_of_ne hd).trans c.directory, ?_, c.ne_zero, ?_⟩
          · rw [hentry, Entry.target_mk c.small]
          · rw [hentry]
            exact c.named
    · have hentry : (t.add p slot i n k table).entry d s = t.entry d s := by
        rw [entry_add_of_ne hd, if_neg hhere]
      have hkind : (t.add p slot i n k table).kind d = t.kind d := kind_add_of_ne hd
      constructor
      · intro hl
        exact .inl ⟨hkind ▸ hl.directory, hentry ▸ hl.target, hl.used, hentry ▸ hl.named⟩
      · rintro (hl | ⟨hdp, hss, -⟩)
        · exact ⟨hkind.trans hl.directory, by rw [hentry, hl.target], hl.used,
            by rw [hentry, hl.named]⟩
        · exact absurd ⟨hdp, hss⟩ hhere

/-- The first two slots of the directories that were there stay as they are. -/
theorem entry_add_of_lt_two (h : t.Sound) (hd : t.kind d = .directory) {s : Fin slotCount}
    (hs : s.val < 2) : (t.add p slot i n k table).entry d s = t.entry d s := by
  have hslot : ¬ (d = p ∧ s = slot) := by
    rintro ⟨rfl, rfl⟩
    exact h.target_ne_of_lt_two hd hs c.free
  rw [entry_add_of_ne (c.ne_of_directory hd), if_neg hslot]

theorem parent_add (h : t.Sound) (hd : t.kind d = .directory) :
    (t.add p slot i n k table).parent d = t.parent d := by
  rw [parent, c.entry_add_of_lt_two h hd (by decide), parent]

theorem directory_add (hd : (t.add p slot i n k table).kind d = .directory) :
    (d = i ∧ k = .directory) ∨ (d ≠ i ∧ t.kind d = .directory) := by
  by_cases hdi : d = i
  · subst hdi
    exact .inl ⟨rfl, kind_add_self.symm.trans hd⟩
  · exact .inr ⟨hdi, (kind_add_of_ne hdi).symm.trans hd⟩

theorem kind_add_of_directory (hd : t.kind d = .directory) :
    (t.add p slot i n k table).kind d = .directory :=
  (kind_add_of_ne (c.ne_of_directory hd)).trans hd

theorem unique_add (h : t.Sound) (hk : Addable k table i p)
    (hd : (t.add p slot i n k table).kind d = .directory) :
    ((t.add p slot i n k table).table d).Unique := by
  intro s s' hs hs' hname
  change ((t.add p slot i n k table).entry d s).target ≠ 0 at hs
  change ((t.add p slot i n k table).entry d s').target ≠ 0 at hs'
  change ((t.add p slot i n k table).entry d s).name
    = ((t.add p slot i n k table).entry d s').name at hname
  rcases c.directory_add hd with ⟨rfl, rfl⟩ | ⟨hdi, hdir⟩
  · obtain ⟨hkind, -⟩ | ⟨-, hnew⟩ := hk
    · cases hkind
    · rw [entry_add_self] at hs hs' hname
      rw [entry_add_self] at hname
      exact hnew.unique s s' hs hs' hname
  · rw [entry_add_of_ne hdi] at hs hs' hname
    rw [entry_add_of_ne hdi] at hname
    by_cases hh : d = p ∧ s = slot
    · by_cases hh' : d = p ∧ s' = slot
      · exact hh.2.trans hh'.2.symm
      · rw [if_pos hh, if_neg hh'] at hname
        rw [if_neg hh'] at hs'
        rw [hh.1] at hname hs'
        exact absurd hname.symm (c.fresh s' hs')
    · by_cases hh' : d = p ∧ s' = slot
      · rw [if_neg hh, if_pos hh'] at hname
        rw [if_neg hh] at hs
        rw [hh'.1] at hname hs
        exact absurd hname (c.fresh s hs)
      · rw [if_neg hh, if_neg hh'] at hname
        rw [if_neg hh] at hs
        rw [if_neg hh'] at hs'
        exact h.unique d hdir s s' hs hs' hname

end CanAdd

/-- Adding an empty file or a directory without children keeps the tree sound. -/
theorem Sound.add (h : t.Sound) (c : t.CanAdd p slot i n) (hk : Addable k table i p) :
    (t.add p slot i n k table).Sound := by
  have hnew (hdir : k = .directory) : HoldsNothing table i p := by
    rcases hk with ⟨rfl, -⟩ | ⟨-, hnew⟩
    · cases hdir
    · exact hnew
  have hfree (d : Nat) (s : Fin slotCount) : ¬ t.Links d s i := fun hl =>
    (h.live d s i hl).1 c.unused
  constructor
  case null => rw [kind_add_of_ne c.ne_zero.symm, h.null]
  case root => exact c.kind_add_of_directory h.root
  case rootParent => rw [c.parent_add h h.root, h.rootParent]
  case self =>
    intro d hd
    rcases c.directory_add hd with ⟨rfl, hdir⟩ | ⟨-, hdir⟩
    · rw [entry_add_self]
      exact (hnew hdir).self
    · rw [c.entry_add_of_lt_two h hdir (by decide)]
      exact h.self d hdir
  case up =>
    intro d hd
    rcases c.directory_add hd with ⟨rfl, hdir⟩ | ⟨-, hdir⟩
    · rw [parent, entry_add_self, (hnew hdir).up.1]
      exact ⟨c.kind_add_of_directory c.directory, (hnew hdir).up.2⟩
    · rw [c.parent_add h hdir, c.entry_add_of_lt_two h hdir (by decide)]
      exact ⟨c.kind_add_of_directory (h.up d hdir).1, (h.up d hdir).2⟩
  case named =>
    intro d s hd hslot hused
    rcases c.directory_add hd with ⟨rfl, hdir⟩ | ⟨hdi, hdir⟩
    · rw [entry_add_self] at hused
      exact absurd ((hnew hdir).rest s hslot) hused
    · rw [entry_add_of_ne hdi] at hused ⊢
      by_cases hhere : d = p ∧ s = slot
      · rw [if_pos hhere]
        exact c.named
      · rw [if_neg hhere] at hused ⊢
        exact h.named d s hdir hslot hused
  case unique => exact fun d hd => c.unique_add h hk hd
  case live =>
    intro d s j hl
    rcases (c.links_add_iff hk).mp hl with hold | ⟨-, -, rfl⟩
    · have hji : j ≠ i := by
        rintro rfl
        exact hfree d s hold
      rw [kind_add_of_ne hji]
      exact h.live d s j hold
    · rw [kind_add_self]
      exact ⟨hk.ne_free, (c.ne_of_directory h.root).symm⟩
  case linked =>
    intro j hj hjroot
    by_cases hji : j = i
    · exact ⟨p, slot, (c.links_add_iff hk).mpr (.inr ⟨rfl, rfl, hji⟩)⟩
    · rw [kind_add_of_ne hji] at hj
      obtain ⟨d, s, hl⟩ := h.linked j hj hjroot
      exact ⟨d, s, (c.links_add_iff hk).mpr (.inl hl)⟩
  case once =>
    intro d s d' s' j hl hl'
    rcases (c.links_add_iff hk).mp hl with hold | ⟨rfl, rfl, rfl⟩
    · rcases (c.links_add_iff hk).mp hl' with hold' | ⟨rfl, rfl, rfl⟩
      · exact h.once d s d' s' j hold hold'
      · exact absurd hold (hfree d s)
    · rcases (c.links_add_iff hk).mp hl' with hold' | ⟨rfl, rfl, -⟩
      · exact absurd hold' (hfree d' s')
      · exact ⟨rfl, rfl⟩
  case back =>
    intro d s j hl hdir
    rcases (c.links_add_iff hk).mp hl with hold | ⟨rfl, -, rfl⟩
    · have hji : j ≠ i := by
        rintro rfl
        exact hfree d s hold
      rw [kind_add_of_ne hji] at hdir
      rw [c.parent_add h hdir]
      exact h.back d s j hold hdir
    · rw [kind_add_self] at hdir
      rw [parent, entry_add_self]
      exact (hnew hdir).up.1
  case ranked =>
    obtain ⟨rank, hrank⟩ := h.ranked
    refine ⟨Function.update rank i (rank p + 1), ?_⟩
    intro d hd hne
    rcases c.directory_add hd with ⟨rfl, hdir⟩ | ⟨hdi, hdir⟩
    · rw [parent, entry_add_self, (hnew hdir).up.1, Function.update_self,
        Function.update_of_ne c.ne]
      exact Nat.lt_succ_self _
    · have hup : t.parent d ≠ i := c.ne_of_directory (h.up d hdir).1
      rw [c.parent_add h hdir, Function.update_of_ne hup, Function.update_of_ne hdi]
      exact hrank d hdir hne

/-! ## Removing an inode -/

/-- The tree without an inode, which a slot of a directory linked. -/
def remove (t : NameTree) (p : Nat) (slot : Fin slotCount) (i : Nat) : NameTree where
  kind := Function.update t.kind i .free
  table := Function.update (Function.update t.table p ((t.table p).put slot .empty)) i .empty

/-- A slot links an inode that may go: a file, or a directory without children. -/
structure CanRemove (t : NameTree) (p : Nat) (slot : Fin slotCount) (i : Nat) : Prop where
  links : t.Links p slot i
  childless : t.kind i = .directory → ∀ s : Fin slotCount, 2 ≤ s.val → (t.entry i s).target = 0

theorem kind_remove_of_ne (h : j ≠ i) : (t.remove p slot i).kind j = t.kind j :=
  Function.update_of_ne h _ _

theorem kind_remove_self : (t.remove p slot i).kind i = .free :=
  Function.update_self _ _ _

theorem entry_remove_of_ne (h : d ≠ i) :
    (t.remove p slot i).entry d s = if d = p ∧ s = slot then .empty else t.entry d s := by
  by_cases hd : d = p
  · subst hd
    simp only [entry, remove, Function.update_of_ne h, Function.update_self,
      EntryTable.entry_put, true_and]
  · simp only [entry, remove, Function.update_of_ne h, Function.update_of_ne hd, hd, false_and,
      if_false]

/-- What is in use afterwards was there before. -/
theorem entry_remove_of_used (h : d ≠ i) (hs : ((t.remove p slot i).entry d s).target ≠ 0) :
    (t.remove p slot i).entry d s = t.entry d s := by
  rw [entry_remove_of_ne h] at hs ⊢
  by_cases hhere : d = p ∧ s = slot
  · rw [if_pos hhere] at hs
    exact absurd Entry.target_empty hs
  · rw [if_neg hhere]

theorem directory_remove (hd : (t.remove p slot i).kind d = .directory) :
    d ≠ i ∧ t.kind d = .directory := by
  by_cases hdi : d = i
  · rw [hdi, kind_remove_self] at hd
    cases hd
  · exact ⟨hdi, (kind_remove_of_ne hdi).symm.trans hd⟩

namespace CanRemove

variable (c : t.CanRemove p slot i) (h : t.Sound)

include c h

theorem no_links_from : ¬ t.Links i s j := by
  intro hl
  have hfree := c.childless hl.directory s (h.two_le hl)
  exact hl.used (hl.target.symm.trans hfree)

theorem ne : p ≠ i := by
  rintro rfl
  exact c.no_links_from h c.links

theorem ne_root : i ≠ rootInode := (h.live p slot i c.links).2

/-- What is linked afterwards is what was linked before except by the slot. -/
theorem links_remove_iff :
    (t.remove p slot i).Links d s j ↔ t.Links d s j ∧ ¬ (d = p ∧ s = slot) := by
  by_cases hdi : d = i
  · subst hdi
    constructor
    · intro hl
      exact absurd rfl (directory_remove hl.directory).1
    · rintro ⟨hl, -⟩
      exact absurd hl (c.no_links_from h)
  · by_cases hhere : d = p ∧ s = slot
    · constructor
      · intro hl
        have htarget := hl.target
        rw [entry_remove_of_ne hdi, if_pos hhere] at htarget
        exact absurd htarget.symm hl.used
      · rintro ⟨-, hnot⟩
        exact absurd hhere hnot
    · have hentry : (t.remove p slot i).entry d s = t.entry d s := by
        rw [entry_remove_of_ne hdi, if_neg hhere]
      have hkind : (t.remove p slot i).kind d = t.kind d := kind_remove_of_ne hdi
      constructor
      · intro hl
        exact ⟨⟨hkind ▸ hl.directory, hentry ▸ hl.target, hl.used, hentry ▸ hl.named⟩, hhere⟩
      · rintro ⟨hl, -⟩
        exact ⟨hkind.trans hl.directory, by rw [hentry, hl.target], hl.used,
          by rw [hentry, hl.named]⟩

theorem entry_remove_of_lt_two (hd : d ≠ i) {s : Fin slotCount} (hs : s.val < 2) :
    (t.remove p slot i).entry d s = t.entry d s := by
  have hslot : ¬ (d = p ∧ s = slot) := by
    rintro ⟨-, rfl⟩
    exact absurd (h.two_le c.links) (Nat.not_le_of_lt hs)
  rw [entry_remove_of_ne hd, if_neg hslot]

theorem parent_remove (hd : d ≠ i) : (t.remove p slot i).parent d = t.parent d := by
  rw [parent, c.entry_remove_of_lt_two h hd (by decide), parent]

/-- What may go is no directory's parent. -/
theorem parent_ne (hd : t.kind d = .directory) : t.parent d ≠ i := by
  intro hup
  by_cases hroot : d = rootInode
  · rw [hroot, h.rootParent] at hup
    exact c.ne_root h hup.symm
  · obtain ⟨d', s, hl⟩ := h.linked d (by rw [hd]; exact Kind.noConfusion) hroot
    have hback := h.back d' s d hl hd
    rw [hup] at hback
    rw [← hback] at hl
    exact c.no_links_from h hl

end CanRemove

/-- Removing a file or a directory without children keeps the tree sound. -/
theorem Sound.remove (h : t.Sound) (c : t.CanRemove p slot i) : (t.remove p slot i).Sound := by
  have hkept (d : Nat) (s : Fin slotCount) (j : Nat) (hl : (t.remove p slot i).Links d s j) :
      t.Links d s j ∧ j ≠ i := by
    obtain ⟨hold, hnot⟩ := (c.links_remove_iff h).mp hl
    refine ⟨hold, ?_⟩
    rintro rfl
    exact hnot (h.once d s p slot j hold c.links)
  constructor
  case null =>
    have hne : 0 ≠ i := Ne.symm (fun e => c.links.used e)
    rw [kind_remove_of_ne hne, h.null]
  case root => rw [kind_remove_of_ne (c.ne_root h).symm, h.root]
  case rootParent => rw [c.parent_remove h (c.ne_root h).symm, h.rootParent]
  case self =>
    intro d hd
    obtain ⟨hdi, hdir⟩ := directory_remove hd
    rw [c.entry_remove_of_lt_two h hdi (by decide)]
    exact h.self d hdir
  case up =>
    intro d hd
    obtain ⟨hdi, hdir⟩ := directory_remove hd
    rw [c.parent_remove h hdi, c.entry_remove_of_lt_two h hdi (by decide),
      kind_remove_of_ne (c.parent_ne h hdir)]
    exact h.up d hdir
  case named =>
    intro d s hd hslot hused
    obtain ⟨hdi, hdir⟩ := directory_remove hd
    have hentry := entry_remove_of_used hdi hused
    rw [hentry] at hused ⊢
    exact h.named d s hdir hslot hused
  case unique =>
    intro d hd s s' hs hs' hname
    obtain ⟨hdi, hdir⟩ := directory_remove hd
    have he : ((t.remove p slot i).table d).entry s = (t.table d).entry s :=
      entry_remove_of_used hdi hs
    have he' : ((t.remove p slot i).table d).entry s' = (t.table d).entry s' :=
      entry_remove_of_used hdi hs'
    rw [he] at hs hname
    rw [he'] at hs' hname
    exact h.unique d hdir s s' hs hs' hname
  case live =>
    intro d s j hl
    obtain ⟨hold, hji⟩ := hkept d s j hl
    rw [kind_remove_of_ne hji]
    exact h.live d s j hold
  case linked =>
    intro j hj hjroot
    have hji : j ≠ i := by
      rintro rfl
      exact hj kind_remove_self
    rw [kind_remove_of_ne hji] at hj
    obtain ⟨d, s, hl⟩ := h.linked j hj hjroot
    refine ⟨d, s, (c.links_remove_iff h).mpr ⟨hl, ?_⟩⟩
    rintro ⟨rfl, rfl⟩
    exact hji (hl.target.symm.trans c.links.target)
  case once =>
    intro d s d' s' j hl hl'
    exact h.once d s d' s' j (hkept d s j hl).1 (hkept d' s' j hl').1
  case back =>
    intro d s j hl hdir
    obtain ⟨hold, hji⟩ := hkept d s j hl
    rw [kind_remove_of_ne hji] at hdir
    rw [c.parent_remove h hji]
    exact h.back d s j hold hdir
  case ranked =>
    obtain ⟨rank, hrank⟩ := h.ranked
    refine ⟨rank, ?_⟩
    intro d hd hne
    obtain ⟨hdi, hdir⟩ := directory_remove hd
    rw [c.parent_remove h hdi]
    exact hrank d hdir hne

/-! ## Changing a name -/

/-- The tree with another name in a slot of a directory. -/
def relabel (t : NameTree) (p : Nat) (slot : Fin slotCount) (n : StoredName) : NameTree :=
  { t with
    table := Function.update t.table p ((t.table p).put slot ⟨(t.entry p slot).inode, n⟩) }

/-- A slot that links something may get a name. -/
structure CanRelabel (t : NameTree) (p : Nat) (slot : Fin slotCount) (n : StoredName) :
    Prop where
  directory : t.kind p = .directory
  place : 2 ≤ slot.val
  named : n.isSelfOrParent = false
  fresh : ∀ s : Fin slotCount, s ≠ slot → (t.entry p s).target ≠ 0 → (t.entry p s).name ≠ n

theorem entry_relabel :
    (t.relabel p slot n).entry d s =
      if d = p ∧ s = slot then ⟨(t.entry p slot).inode, n⟩ else t.entry d s := by
  by_cases hd : d = p
  · subst hd
    simp only [entry, relabel, Function.update_self, EntryTable.entry_put, true_and]
  · simp only [entry, relabel, Function.update_of_ne hd, hd, false_and, if_false]

theorem target_relabel :
    ((t.relabel p slot n).entry d s).target = (t.entry d s).target := by
  rw [entry_relabel]
  split
  · next hhere =>
    rw [hhere.1, hhere.2]
    rfl
  · rfl

namespace CanRelabel

variable (c : t.CanRelabel p slot n) (h : t.Sound)

include c

theorem entry_relabel_of_lt_two {s : Fin slotCount} (hs : s.val < 2) :
    (t.relabel p slot n).entry d s = t.entry d s := by
  have hslot : ¬ (d = p ∧ s = slot) := by
    rintro ⟨-, rfl⟩
    exact absurd c.place (Nat.not_le_of_lt hs)
  rw [entry_relabel, if_neg hslot]

theorem parent_relabel : (t.relabel p slot n).parent d = t.parent d := by
  rw [parent, c.entry_relabel_of_lt_two (by decide), parent]

include h

/-- A name tells nothing about what is linked. -/
theorem links_relabel_iff : (t.relabel p slot n).Links d s j ↔ t.Links d s j := by
  have hnamed (hd : t.kind d = .directory) (hused : (t.entry d s).target ≠ 0) :
      ((t.relabel p slot n).entry d s).isSelfOrParent = false
        ↔ (t.entry d s).isSelfOrParent = false := by
    rw [entry_relabel]
    split
    · next hhere =>
      have hold := h.named d s hd (hhere.2 ▸ c.place) hused
      simp only [hold, iff_true]
      exact c.named
    · rfl
  constructor
  · intro hl
    have htarget := target_relabel.symm.trans hl.target
    have hused : (t.entry d s).target ≠ 0 := htarget ▸ hl.used
    exact ⟨hl.directory, htarget, hl.used, (hnamed hl.directory hused).mp hl.named⟩
  · intro hl
    have hused : (t.entry d s).target ≠ 0 := hl.target ▸ hl.used
    exact ⟨hl.directory, target_relabel.trans hl.target, hl.used,
      (hnamed hl.directory hused).mpr hl.named⟩

end CanRelabel

/-- Changing a name to one that is not in use keeps the tree sound. -/
theorem Sound.relabel (h : t.Sound) (c : t.CanRelabel p slot n) :
    (t.relabel p slot n).Sound := by
  constructor
  case null => exact h.null
  case root => exact h.root
  case rootParent => rw [c.parent_relabel, h.rootParent]
  case self =>
    intro d hd
    rw [c.entry_relabel_of_lt_two (by decide)]
    exact h.self d hd
  case up =>
    intro d hd
    rw [c.parent_relabel, c.entry_relabel_of_lt_two (by decide)]
    exact h.up d hd
  case named =>
    intro d s hd hslot hused
    rw [target_relabel] at hused
    rw [entry_relabel]
    split
    · exact c.named
    · exact h.named d s hd hslot hused
  case unique =>
    intro d hd s s' hs hs' hname
    change ((t.relabel p slot n).entry d s).target ≠ 0 at hs
    change ((t.relabel p slot n).entry d s').target ≠ 0 at hs'
    change ((t.relabel p slot n).entry d s).name
      = ((t.relabel p slot n).entry d s').name at hname
    rw [target_relabel] at hs hs'
    rw [entry_relabel, entry_relabel] at hname
    by_cases hh : d = p ∧ s = slot
    · by_cases hh' : d = p ∧ s' = slot
      · exact hh.2.trans hh'.2.symm
      · rw [if_pos hh, if_neg hh'] at hname
        have hne : s' ≠ slot := fun e => hh' ⟨hh.1, e⟩
        rw [hh.1] at hname hs'
        exact absurd hname.symm (c.fresh s' hne hs')
    · by_cases hh' : d = p ∧ s' = slot
      · rw [if_neg hh, if_pos hh'] at hname
        have hne : s ≠ slot := fun e => hh ⟨hh'.1, e⟩
        rw [hh'.1] at hname hs
        exact absurd hname (c.fresh s hne hs)
      · rw [if_neg hh, if_neg hh'] at hname
        exact h.unique d hd s s' hs hs' hname
  case live =>
    intro d s j hl
    exact h.live d s j ((c.links_relabel_iff h).mp hl)
  case linked =>
    intro j hj hjroot
    obtain ⟨d, s, hl⟩ := h.linked j hj hjroot
    exact ⟨d, s, (c.links_relabel_iff h).mpr hl⟩
  case once =>
    intro d s d' s' j hl hl'
    exact h.once d s d' s' j ((c.links_relabel_iff h).mp hl) ((c.links_relabel_iff h).mp hl')
  case back =>
    intro d s j hl hdir
    rw [c.parent_relabel]
    exact h.back d s j ((c.links_relabel_iff h).mp hl) hdir
  case ranked =>
    obtain ⟨rank, hrank⟩ := h.ranked
    refine ⟨rank, ?_⟩
    intro d hd hne
    rw [c.parent_relabel]
    exact hrank d hd hne

/-! ## A new tree -/

/-- A root without children is a sound tree. -/
theorem Sound.of_root (hkind : ∀ i, t.kind i = if i = rootInode then .directory else .free)
    (htable : HoldsNothing (t.table rootInode) rootInode rootInode) : t.Sound := by
  have hdir (d : Nat) (hd : t.kind d = .directory) : d = rootInode := by
    by_contra hne
    rw [hkind, if_neg hne] at hd
    cases hd
  have hnot (d : Nat) (s : Fin slotCount) (j : Nat) : ¬ t.Links d s j := by
    intro hl
    have htarget := hl.target
    have hname := hl.named
    rw [entry, hdir d hl.directory] at htarget hname
    exact hl.used (htarget.symm.trans (htable.target_eq_zero hname))
  constructor
  case null => rw [hkind, if_neg (by decide)]
  case root => rw [hkind, if_pos rfl]
  case rootParent => exact htable.up.1
  case self =>
    intro d hd
    rw [hdir d hd]
    exact htable.self
  case up =>
    intro d hd
    rw [hdir d hd]
    have hup : t.parent rootInode = rootInode := htable.up.1
    rw [hup, hkind, if_pos rfl]
    exact ⟨rfl, htable.up.2⟩
  case named =>
    intro d s hd hslot hused
    rw [entry, hdir d hd] at hused
    exact absurd (htable.rest s hslot) hused
  case unique =>
    intro d hd
    rw [hdir d hd]
    exact htable.unique
  case live => exact fun d s j hl => absurd hl (hnot d s j)
  case linked =>
    intro j hj hjroot
    rw [hkind, if_neg hjroot] at hj
    exact absurd rfl hj
  case once => exact fun d s _ _ j hl => absurd hl (hnot d s j)
  case back => exact fun d s j hl => absurd hl (hnot d s j)
  case ranked => exact ⟨id, fun d hd hne => absurd (hdir d hd) hne⟩

end BlockFS.NameTree
