import BlockFS.Inode
import BlockFS.Proofs.EntryTables
import Mathlib.Logic.Function.Iterate

/-!
# The tree of names

The directories of a volume are seen as a function from inode numbers to kinds and one from directory
numbers to tables.  `NameTree.Sound` says that they form a tree whose links up are right.  Adding an
inode, removing one that holds nothing, and changing a name keep it.
-/

namespace BlockFS

/-- What the inodes of a volume are, and the tables of its directories. -/
@[ext]
structure NameTree where
  kind : Nat → Kind
  table : Nat → EntryTable

namespace NameTree

variable {t : NameTree} {p d i : Nat} {slot : Fin slotCount}

/-- A slot of a directory. -/
def entry (t : NameTree) (d : Nat) (slot : Fin slotCount) : Entry := (t.table d).entry slot

/-- The inode that a directory names as its parent. -/
def parent (t : NameTree) (d : Nat) : Nat := (t.entry d 1).target

/-- A slot of a directory links an inode under a name other than `.` and `..`. -/
structure Links (t : NameTree) (d : Nat) (slot : Fin slotCount) (i : Nat) : Prop where
  directory : t.kind d = .directory
  target : (t.entry d slot).target = i
  used : i ≠ 0
  named : (t.entry d slot).isSelfOrParent = false

/-- An inode is the root, or some linked directory links it. -/
inductive Linked (t : NameTree) : Nat → Prop where
  | root : Linked t rootInode
  | child {d i : Nat} {slot : Fin slotCount} : Linked t d → t.Links d slot i → Linked t i

/-- The directories form a tree.  Each of them begins with `.` and `..`, which name itself and the
directory that links it, and ranks decrease on the way up, so that every way up ends at the root. -/
structure Sound (t : NameTree) : Prop where
  null : t.kind 0 = .free
  root : t.kind rootInode = .directory
  rootParent : t.parent rootInode = rootInode
  self : ∀ d, t.kind d = .directory → (t.entry d 0).target = d ∧ (t.entry d 0).name = .here
  up : ∀ d, t.kind d = .directory →
    t.kind (t.parent d) = .directory ∧ (t.entry d 1).name = .up
  named : ∀ d slot, t.kind d = .directory → 2 ≤ slot.val → (t.entry d slot).target ≠ 0 →
    (t.entry d slot).isSelfOrParent = false
  unique : ∀ d, t.kind d = .directory → (t.table d).Unique
  live : ∀ d slot i, t.Links d slot i → t.kind i ≠ .free ∧ i ≠ rootInode
  linked : ∀ i, t.kind i ≠ .free → i ≠ rootInode → ∃ d slot, t.Links d slot i
  once : ∀ d slot d' slot' i, t.Links d slot i → t.Links d' slot' i → d = d' ∧ slot = slot'
  back : ∀ d slot i, t.Links d slot i → t.kind i = .directory → t.parent i = d
  ranked : ∃ rank : Nat → Nat, ∀ d, t.kind d = .directory → d ≠ rootInode →
    rank (t.parent d) < rank d

namespace Sound

variable (h : t.Sound)

include h

theorem ne_zero (hd : t.kind d = .directory) : d ≠ 0 := by
  rintro rfl
  rw [h.null] at hd
  cases hd

theorem parent_ne_zero (hd : t.kind d = .directory) : t.parent d ≠ 0 :=
  h.ne_zero (h.up d hd).1

theorem isSelfOrParent_zero (hd : t.kind d = .directory) :
    (t.entry d 0).isSelfOrParent = true := by
  rw [Entry.isSelfOrParent, (h.self d hd).2]
  exact StoredName.isSelfOrParent_here

theorem isSelfOrParent_one (hd : t.kind d = .directory) :
    (t.entry d 1).isSelfOrParent = true := by
  rw [Entry.isSelfOrParent, (h.up d hd).2]
  exact StoredName.isSelfOrParent_up

/-- The first two slots of a directory are in use. -/
theorem target_ne_of_lt_two (hd : t.kind d = .directory) (hslot : slot.val < 2) :
    (t.entry d slot).target ≠ 0 := by
  match slot with
  | ⟨0, _⟩ =>
    have hself : (t.entry d ⟨0, by decide⟩).target = d := (h.self d hd).1
    rw [hself]
    exact h.ne_zero hd
  | ⟨1, _⟩ => exact h.parent_ne_zero hd
  | ⟨m + 2, _⟩ => exact absurd hslot (by simp)

/-- A slot in use links something unless it is one of the first two. -/
theorem two_le_iff (hd : t.kind d = .directory) (hused : (t.entry d slot).target ≠ 0) :
    2 ≤ slot.val ↔ (t.entry d slot).isSelfOrParent = false := by
  constructor
  · intro hslot
    exact h.named d slot hd hslot hused
  · intro hname
    match slot with
    | ⟨0, _⟩ => exact absurd (h.isSelfOrParent_zero hd) (Bool.eq_false_iff.mp hname)
    | ⟨1, _⟩ => exact absurd (h.isSelfOrParent_one hd) (Bool.eq_false_iff.mp hname)
    | ⟨n + 2, _⟩ => exact Nat.le_add_left 2 n

theorem two_le (hl : t.Links d slot i) : 2 ≤ slot.val :=
  (h.two_le_iff hl.directory (by rw [hl.target]; exact hl.used)).mpr hl.named

/-- A directory does not link itself. -/
theorem ne_of_links (hl : t.Links d slot i) : d ≠ i := by
  rintro rfl
  obtain ⟨rank, hrank⟩ := h.ranked
  have hlt := hrank d hl.directory (h.live d slot d hl).2
  rw [h.back d slot d hl hl.directory] at hlt
  exact Nat.lt_irrefl _ hlt

/-- A directory is not the parent of its parent. -/
theorem parent_ne_of_links (hl : t.Links d slot i) : t.parent d ≠ i := by
  rintro rfl
  obtain ⟨rank, hrank⟩ := h.ranked
  have hnotRoot := (h.live d slot _ hl).2
  have hup := (h.up d hl.directory).1
  by_cases hroot : d = rootInode
  · rw [hroot, h.rootParent] at hnotRoot
    exact hnotRoot rfl
  · have hlt := hrank d hl.directory hroot
    have hlt' := hrank _ hup hnotRoot
    rw [h.back d slot _ hl hup] at hlt'
    exact Nat.lt_asymm hlt hlt'

/-- Everything in use is linked, and nothing else. -/
theorem linked_iff : t.Linked i ↔ t.kind i ≠ .free := by
  constructor
  · intro hi
    cases hi with
    | root =>
      rw [h.root]
      exact Kind.noConfusion
    | child _ hl => exact (h.live _ _ _ hl).1
  · intro hi
    obtain ⟨rank, hrank⟩ := h.ranked
    -- A directory is linked once its parent is, which has a lower rank.
    have hdir : ∀ n d, rank d < n → t.kind d = .directory → t.Linked d := by
      intro n
      induction n with
      | zero =>
        intro d hlt
        exact absurd hlt (Nat.not_lt_zero _)
      | succ n ih =>
        intro d hlt hd
        by_cases hroot : d = rootInode
        · rw [hroot]
          exact Linked.root
        · obtain ⟨p, slot, hl⟩ := h.linked d (by rw [hd]; exact Kind.noConfusion) hroot
          have hp := h.back p slot d hl hd
          have hless := hrank d hd hroot
          rw [hp] at hless
          exact Linked.child (ih p (by omega) hl.directory) hl
    by_cases hroot : i = rootInode
    · rw [hroot]
      exact Linked.root
    · obtain ⟨d, slot, hl⟩ := h.linked i hi hroot
      exact Linked.child (hdir _ d (Nat.lt_succ_self _) hl.directory) hl

/-- From every directory, going up often enough leads to the root. -/
theorem exists_iterate_parent (hd : t.kind d = .directory) :
    ∃ n, t.parent^[n] d = rootInode := by
  obtain ⟨rank, hrank⟩ := h.ranked
  have hup : ∀ n d, rank d < n → t.kind d = .directory → ∃ k, t.parent^[k] d = rootInode := by
    intro n
    induction n with
    | zero =>
      intro d hlt
      exact absurd hlt (Nat.not_lt_zero _)
    | succ n ih =>
      intro d hlt hd
      by_cases hroot : d = rootInode
      · exact ⟨0, hroot⟩
      · have hless := hrank d hd hroot
        obtain ⟨k, hk⟩ := ih (t.parent d) (by omega) (h.up d hd).1
        exact ⟨k + 1, hk⟩
  exact hup _ d (Nat.lt_succ_self _) hd

end Sound

end NameTree

end BlockFS
