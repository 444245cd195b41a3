import BlockFS.Proofs.NameTree.Changes
import BlockFS.Proofs.Ownership

/-!
# Tidy records

The records of a volume are exact if the bitmaps tell of the inodes in use and of the blocks that these
own, and tidy if the directories form a sound tree besides.  Records that agree on everything in use
are told apart by nobody.
-/

namespace BlockFS

namespace Records

/-- What an inode is.  One that is not in use is free, whatever its record says. -/
def kind (c : Records) (i : Nat) : Kind := if c.used .inode i then (c.inode i).kind else .free

/-- An inode in use points to a block from a slot. -/
structure Owns (c : Records) (i slot b : Nat) : Prop where
  live : c.kind i ≠ .free
  points : (c.inode i).block? slot = some b

/-- The block that holds the table of a directory. -/
def tableBlock (c : Records) (d : Nat) : Nat := ((c.inode d).block? 0).getD 0

/-- The table of a directory. -/
def table (c : Records) (d : Nat) : EntryTable :=
  if c.kind d = .directory then .ofBlock (c.block (c.tableBlock d)) else .empty

/-- The directories and what they link. -/
def tree (c : Records) : NameTree := ⟨c.kind, c.table⟩

/-- The block that a slot of an inode holds, unless it is a hole. -/
def content (c : Records) (i slot : Nat) : Option Block := ((c.inode i).block? slot).map c.block

/-- The bitmaps tell of what is in use, and every directory has a table. -/
structure Exact (l : Layout) (c : Records) : Prop where
  blocks : BlocksExact l (c.used .block) c.Owns
  inodes : InodesExact l (c.used .inode) c.kind
  table : ∀ d, c.kind d = .directory → ∃ b, c.Owns d 0 b

/-- The inodes in use point to blocks of the data only.  Neither need their blocks be in use, nor need
these have one owner. -/
def PointsToData (l : Layout) (c : Records) : Prop := ∀ i slot b, c.Owns i slot b → l.IsData b

/-- The bitmaps are exact and the directories form a sound tree. -/
structure Tidy (l : Layout) (c : Records) : Prop extends Exact l c where
  tree : c.tree.Sound

variable {l : Layout} {c c' : Records} {i j p d slot b : Nat} {x : Inode} {contents : Block}

theorem used_of_kind_ne (h : c.kind i ≠ .free) : c.used .inode i = true := by
  by_contra hfree
  rw [kind, if_neg hfree] at h
  exact h rfl

theorem ne_free_of_file (h : c.kind i = .file) : c.kind i ≠ .free := by
  rw [h]
  exact Kind.noConfusion

theorem ne_free_of_directory (h : c.kind i = .directory) : c.kind i ≠ .free := by
  rw [h]
  exact Kind.noConfusion

theorem kind_of_used (h : c.used .inode i = true) : c.kind i = (c.inode i).kind := by
  rw [kind, if_pos h]

theorem kind_of_not_used (h : c.used .inode i = false) : c.kind i = .free := by
  rw [kind, h]
  rfl

theorem Owns.tableBlock_eq (h : c.Owns d 0 b) : c.tableBlock d = b := by
  rw [tableBlock, h.points]
  rfl

theorem Owns.content_eq (h : c.Owns i slot b) : c.content i slot = some (c.block b) := by
  rw [content, h.points]
  rfl

theorem Exact.reserves (h : c.Exact l) : c.Reserves l := h.blocks.reserved

theorem Exact.lt_of_live (h : c.Exact l) (hi : c.kind i ≠ .free) : i < l.inodeCount :=
  h.inodes.range i (used_of_kind_ne hi)

theorem Exact.owns_tableBlock (h : c.Exact l) (hd : c.kind d = .directory) :
    c.Owns d 0 (c.tableBlock d) := by
  obtain ⟨b, ho⟩ := h.table d hd
  rw [ho.tableBlock_eq]
  exact ho

theorem Exact.pointsToData (h : c.Exact l) : c.PointsToData l := h.blocks.range

theorem PointsToData.lt_of_mem_blocks (h : c.PointsToData l) (hi : c.kind i ≠ .free)
    (hb : b ∈ (c.inode i).blocks) : b < l.blockCount := by
  obtain ⟨slot, hslot⟩ := Inode.mem_blocks_iff.mp hb
  exact (h i slot b ⟨hi, hslot⟩).2

theorem table_of_directory (hd : c.kind d = .directory) :
    c.table d = .ofBlock (c.block (c.tableBlock d)) := if_pos hd

theorem table_of_ne_directory (hd : c.kind d ≠ .directory) : c.table d = .empty := if_neg hd

/-! ## Agreement on everything in use -/

/-- Two volumes have the same items in use, and these hold the same. -/
structure Agree (c c' : Records) : Prop where
  used : ∀ r i, c'.used r i = c.used r i
  inode : ∀ i, c.used .inode i = true → c'.inode i = c.inode i
  block : ∀ b, c.used .block b = true → c'.block b = c.block b

namespace Agree

variable (a : Agree c c')

theorem refl (c : Records) : Agree c c := ⟨fun _ _ => rfl, fun _ _ => rfl, fun _ _ => rfl⟩

include a

theorem kind_eq : c'.kind i = c.kind i := by
  rw [kind, kind, a.used]
  split
  · next hi => rw [a.inode i hi]
  · rfl

theorem inode_eq (hi : c.kind i ≠ .free) : c'.inode i = c.inode i :=
  a.inode i (used_of_kind_ne hi)

theorem owns_iff : c'.Owns i slot b ↔ c.Owns i slot b := by
  constructor
  · rintro ⟨hl, hp⟩
    rw [a.kind_eq] at hl
    rw [a.inode_eq hl] at hp
    exact ⟨hl, hp⟩
  · rintro ⟨hl, hp⟩
    exact ⟨by rw [a.kind_eq]; exact hl, by rw [a.inode_eq hl]; exact hp⟩

theorem exact (h : c.Exact l) : c'.Exact l where
  blocks := h.blocks.congr (a.used .block) fun _ _ _ => a.owns_iff
  inodes := h.inodes.congr (a.used .inode) fun _ => a.kind_eq
  table := by
    intro d hd
    rw [a.kind_eq] at hd
    obtain ⟨b, ho⟩ := h.table d hd
    exact ⟨b, a.owns_iff.mpr ho⟩

variable (h : c.Exact l)

include h

theorem block_eq (ho : c.Owns i slot b) : c'.block b = c.block b :=
  a.block b (h.blocks.used_of_owns ho)

theorem table_eq : c'.table d = c.table d := by
  by_cases hd : c.kind d = .directory
  · rw [table_of_directory hd, table_of_directory (a.kind_eq.trans hd), tableBlock,
      a.inode_eq (ne_free_of_directory hd), ← tableBlock, a.block_eq h (h.owns_tableBlock hd)]
  · have hd' : c'.kind d ≠ .directory := by
      rw [a.kind_eq]
      exact hd
    rw [table_of_ne_directory hd, table_of_ne_directory hd']

theorem tree_eq : c'.tree = c.tree := by
  apply NameTree.ext
  · funext i
    exact a.kind_eq
  · funext d
    exact a.table_eq h

theorem content_eq (hi : c.kind i ≠ .free) : c'.content i slot = c.content i slot := by
  rw [content, content, a.inode_eq hi]
  match hp : (c.inode i).block? slot with
  | none => rfl
  | some b =>
    have ho : c.Owns i slot b := ⟨hi, hp⟩
    rw [Option.map_some, Option.map_some, a.block_eq h ho]

end Agree

theorem Tidy.agree (h : c.Tidy l) (a : Agree c c') : c'.Tidy l where
  toExact := a.exact h.toExact
  tree := by
    rw [a.tree_eq h.toExact]
    exact h.tree

end Records

end BlockFS
