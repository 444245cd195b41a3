import BlockFS.Proofs.Tidy.Changes

/-!
# What the operations keep

Linking a new file or directory, removing what a name links, changing a name, and writing into a file
keep the records of a volume tidy.
-/

namespace BlockFS.Records

variable {l : Layout} {c : Records} {i p b : Nat} {slot : Fin slotCount} {n : StoredName}
  {x : Inode} {t : EntryTable}

/-- The records with a file in use that a slot of a directory links. -/
def linkFile (c : Records) (p : Nat) (slot : Fin slotCount) (i : Nat) (n : StoredName)
    (x : Inode) : Records :=
  (c.addInode i x).setTable p ((c.table p).put slot ⟨.ofNat i, n⟩)

/-- The records with a directory in use that a slot of a directory links. -/
def linkDirectory (c : Records) (p : Nat) (slot : Fin slotCount) (i : Nat) (n : StoredName)
    (x : Inode) (b : Nat) (t : EntryTable) : Records :=
  ((c.takeBlock b t.toBlock).addInode i x).setTable p ((c.table p).put slot ⟨.ofNat i, n⟩)

/-- The records without an inode that a slot of a directory linked. -/
def unlink (c : Records) (p : Nat) (slot : Fin slotCount) (i : Nat) : Records :=
  (c.discard i).setTable p ((c.table p).put slot .empty)

/-- The records with another name in a slot of a directory. -/
def relabel (c : Records) (p : Nat) (slot : Fin slotCount) (n : StoredName) : Records :=
  c.setTable p ((c.table p).put slot ⟨((c.table p).entry slot).inode, n⟩)

theorem kind_tree : c.tree.kind = c.kind := rfl

namespace Exact

variable (h : c.Exact l)

include h

theorem kind_of_free (hused : c.used .inode i = false) : c.kind i = .free ∧ i ≠ 0 := by
  refine ⟨kind_of_not_used hused, ?_⟩
  rintro rfl
  rw [(h.inodes.used_iff 0).mpr (.inl rfl)] at hused
  cases hused

end Exact

section linkFile

variable (h : c.Tidy l) (ha : c.tree.CanAdd p slot i n) (hx : x.kind = .file)
  (hp : ∀ k, x.block? k = none) (hlt : i < l.inodeCount)

include h ha hx hp hlt

theorem Tidy.tree_linkFile :
    (c.linkFile p slot i n x).tree = c.tree.add p slot i n .file .empty := by
  have hexact := h.toExact.addFile ha.unused ha.ne_zero hlt hx hp
  have hpi := ha.ne
  have hdir : (c.addInode i x).kind p = .directory := by
    rw [kind_addInode, if_neg hpi]
    exact ha.directory
  rw [linkFile, tree_setTable hexact hdir]
  apply NameTree.ext
  · funext j
    change (c.addInode i x).kind j = Function.update c.kind i .file j
    rw [kind_addInode, hx, Function.update_apply]
  · funext d
    change Function.update (c.addInode i x).table p _ d
      = Function.update (Function.update c.table p _) i .empty d
    by_cases hdi : d = i
    · subst hdi
      rw [Function.update_self, Function.update_of_ne (Ne.symm hpi), table_of_ne_directory]
      rw [kind_addInode, if_pos rfl, hx]
      exact Kind.noConfusion
    · simp only [Function.update_apply, if_neg hdi, table_addInode_of_ne hdi]
      rfl

theorem Tidy.linkFile : (c.linkFile p slot i n x).Tidy l where
  toExact := (h.toExact.addFile ha.unused ha.ne_zero hlt hx hp).setTable p _
  tree := by
    rw [h.tree_linkFile ha hx hp hlt]
    exact h.tree.add ha (.inl ⟨rfl, rfl⟩)

end linkFile

section linkDirectory

variable (h : c.Tidy l) (ha : c.tree.CanAdd p slot i n) (hx : x.kind = .directory)
  (hp : ∀ k, x.block? k = if k = 0 then some b else none) (hlt : i < l.inodeCount)
  (hb : c.used .block b = false) (hblt : b < l.blockCount)

include h ha hx hp hlt hb hblt

theorem Tidy.tree_linkDirectory :
    (c.linkDirectory p slot i n x b t).tree = c.tree.add p slot i n .directory t := by
  have hexact := h.toExact.addDirectory (z := t.toBlock) ha.unused ha.ne_zero hlt hb hblt hx hp
  have hpi := ha.ne
  have hdir : ((c.takeBlock b t.toBlock).addInode i x).kind p = .directory := by
    rw [kind_addInode, if_neg hpi, kind_takeBlock]
    exact ha.directory
  rw [linkDirectory, tree_setTable hexact hdir]
  apply NameTree.ext
  · funext j
    change ((c.takeBlock b t.toBlock).addInode i x).kind j
      = Function.update c.kind i .directory j
    rw [kind_addInode, hx, Function.update_apply, kind_takeBlock]
  · funext d
    change Function.update ((c.takeBlock b t.toBlock).addInode i x).table p _ d
      = Function.update (Function.update c.table p _) i t d
    by_cases hdi : d = i
    · subst hdi
      rw [Function.update_self, Function.update_of_ne (Ne.symm hpi),
        table_addDirectory_self hx (hp 0)]
    · simp only [Function.update_apply, if_neg hdi, table_addInode_of_ne hdi,
        table_takeBlock h.toExact hb]
      rfl

theorem Tidy.linkDirectory (ht : NameTree.HoldsNothing t i p) :
    (c.linkDirectory p slot i n x b t).Tidy l where
  toExact := (h.toExact.addDirectory ha.unused ha.ne_zero hlt hb hblt hx hp).setTable p _
  tree := by
    rw [h.tree_linkDirectory ha hx hp hlt hb hblt]
    exact h.tree.add ha (.inr ⟨rfl, ht⟩)

end linkDirectory

section unlink

variable (h : c.Tidy l) (hr : c.tree.CanRemove p slot i)

include h hr

theorem Tidy.tree_unlink : (c.unlink p slot i).tree = c.tree.remove p slot i := by
  have hlive : c.kind i ≠ .free := (h.tree.live p slot i hr.links).1
  have hexact := h.toExact.discard hlive hr.links.used
  have hpi := hr.ne h.tree
  have hdir : (c.discard i).kind p = .directory := by
    rw [kind_discard, if_neg hpi]
    exact hr.links.directory
  rw [unlink, tree_setTable hexact hdir]
  apply NameTree.ext
  · funext j
    change (c.discard i).kind j = Function.update c.kind i .free j
    rw [kind_discard, Function.update_apply]
  · funext d
    change Function.update (c.discard i).table p _ d
      = Function.update (Function.update c.table p _) i .empty d
    by_cases hdi : d = i
    · subst hdi
      rw [Function.update_self, Function.update_of_ne (Ne.symm hpi), table_discard, if_pos rfl]
    · simp only [Function.update_apply, if_neg hdi, table_discard]
      rfl

theorem Tidy.unlink : (c.unlink p slot i).Tidy l where
  toExact :=
    (h.toExact.discard (h.tree.live p slot i hr.links).1 hr.links.used).setTable p _
  tree := by
    rw [h.tree_unlink hr]
    exact h.tree.remove hr

end unlink

theorem Tidy.tree_relabel (h : c.Tidy l) (hr : c.tree.CanRelabel p slot n) :
    (c.relabel p slot n).tree = c.tree.relabel p slot n := by
  rw [relabel, tree_setTable h.toExact hr.directory]
  rfl

theorem Tidy.relabel (h : c.Tidy l) (hr : c.tree.CanRelabel p slot n) :
    (c.relabel p slot n).Tidy l where
  toExact := h.toExact.setTable p _
  tree := by
    rw [h.tree_relabel hr]
    exact h.tree.relabel hr

/-! ## Changes that leave the tree alone -/

section

variable {k : Nat} {z : Block}

theorem Tidy.tree_grow (h : c.Tidy l) (hi : c.kind i ≠ .directory)
    (hb : c.used .block b = false) (hx : x.kind = (c.inode i).kind) :
    ((c.takeBlock b z).putInode i x).tree = c.tree := by
  have hi' : (c.takeBlock b z).kind i ≠ .directory := by
    rw [kind_takeBlock]
    exact hi
  apply NameTree.ext
  · funext j
    exact (kind_putInode (c := c.takeBlock b z) hx).trans kind_takeBlock
  · funext d
    exact (table_putInode (c := c.takeBlock b z) hx hi').trans (table_takeBlock h.toExact hb)

theorem Tidy.grow (h : c.Tidy l) (hi : c.kind i = .file) (hhole : (c.inode i).block? k = none)
    (hb : c.used .block b = false) (hblt : b < l.blockCount) (hx : x.kind = (c.inode i).kind)
    (hp : ∀ j, x.block? j = if j = k then some b else (c.inode i).block? j) :
    ((c.takeBlock b z).putInode i x).Tidy l where
  toExact := h.toExact.grow (ne_free_of_file hi) hhole hb hblt hx hp
  tree := by
    rw [h.tree_grow (fun he => Kind.noConfusion (hi.symm.trans he)) hb hx]
    exact h.tree

theorem Tidy.tree_putBlock (h : c.Tidy l) (ho : c.Owns i k b) (hi : c.kind i = .file) :
    (c.putBlock b z).tree = c.tree := by
  apply NameTree.ext
  · rfl
  · funext d
    exact table_putBlock h.toExact ho (fun he => Kind.noConfusion (hi.symm.trans he))

theorem Tidy.putBlock (h : c.Tidy l) (ho : c.Owns i k b) (hi : c.kind i = .file) :
    (c.putBlock b z).Tidy l where
  toExact := h.toExact.putBlock b z
  tree := by
    rw [h.tree_putBlock ho hi]
    exact h.tree

theorem Tidy.tree_putInode (hi : c.kind i = .file) (hx : x.kind = (c.inode i).kind) :
    (c.putInode i x).tree = c.tree := by
  apply NameTree.ext
  · funext j
    exact kind_putInode hx
  · funext d
    exact table_putInode hx (fun he => Kind.noConfusion (hi.symm.trans he))

theorem Tidy.putInode (h : c.Tidy l) (hi : c.kind i = .file) (hx : x.kind = (c.inode i).kind)
    (hp : ∀ j, x.block? j = (c.inode i).block? j) : (c.putInode i x).Tidy l where
  toExact := h.toExact.putInode hx hp
  tree := by
    rw [Tidy.tree_putInode hi hx]
    exact h.tree

end

end BlockFS.Records
