import BlockFS.Proofs.Tidy

/-!
# Changes of tidy records

The changes that calls make to the records of a volume, each with what it does to the kinds, the owners,
the tables and the contents.  Exact records stay exact under each of them.
-/

namespace BlockFS.Records

variable {l : Layout} {c : Records} {i j p d slot k b y : Nat} {x : Inode} {z : Block}
  {t : EntryTable}

/-! ## Other contents of a block -/

theorem owns_putBlock_iff : (c.putBlock b z).Owns j k y ↔ c.Owns j k y :=
  ⟨fun ⟨hl, hp⟩ => ⟨hl, hp⟩, fun ⟨hl, hp⟩ => ⟨hl, hp⟩⟩

theorem Exact.putBlock (h : c.Exact l) (b : Nat) (z : Block) : (c.putBlock b z).Exact l where
  blocks := h.blocks.congr (fun _ => rfl) fun _ _ _ => owns_putBlock_iff
  inodes := h.inodes
  table := by
    intro d hd
    obtain ⟨b', ho⟩ := h.table d hd
    exact ⟨b', owns_putBlock_iff.mpr ho⟩

theorem content_putBlock (h : c.Exact l) (ho : c.Owns i slot b) (hj : c.kind j ≠ .free) :
    (c.putBlock b z).content j k = if j = i ∧ k = slot then some z else c.content j k := by
  by_cases hhere : j = i ∧ k = slot
  · obtain ⟨rfl, rfl⟩ := hhere
    rw [if_pos ⟨rfl, rfl⟩, (owns_putBlock_iff.mpr ho).content_eq]
    simp only [Records.putBlock, Function.update_self]
  · rw [if_neg hhere]
    simp only [content, Records.putBlock]
    cases hp : (c.inode j).block? k with
    | none => rfl
    | some b' =>
      have hne : b' ≠ b := by
        rintro rfl
        exact hhere (h.blocks.once j k i slot b' ⟨hj, hp⟩ ho)
      simp only [Option.map_some, Function.update_of_ne hne]

/-- A block that holds no table may change without any table changing. -/
theorem table_putBlock (h : c.Exact l) (ho : c.Owns i slot b) (hi : c.kind i ≠ .directory) :
    (c.putBlock b z).table d = c.table d := by
  by_cases hd : c.kind d = .directory
  · have hne : c.tableBlock d ≠ b := by
      intro he
      have hod := h.owns_tableBlock hd
      rw [he] at hod
      have hdi := (h.blocks.once d 0 i slot b hod ho).1
      rw [hdi] at hd
      exact hi hd
    have hd' : (c.putBlock b z).kind d = .directory := hd
    rw [table_of_directory hd, table_of_directory hd']
    simp only [Records.putBlock, tableBlock] at hne ⊢
    rw [Function.update_of_ne hne]
  · have hd' : (c.putBlock b z).kind d ≠ .directory := hd
    rw [table_of_ne_directory hd, table_of_ne_directory hd']

/-- The records with another table of a directory. -/
def setTable (c : Records) (p : Nat) (t : EntryTable) : Records :=
  c.putBlock (c.tableBlock p) t.toBlock

theorem table_setTable (h : c.Exact l) (hp : c.kind p = .directory) :
    (c.setTable p t).table d = if d = p then t else c.table d := by
  by_cases hd : c.kind d = .directory
  · have hd' : (c.setTable p t).kind d = .directory := hd
    rw [table_of_directory hd, table_of_directory hd']
    simp only [setTable, Records.putBlock, tableBlock]
    by_cases hdp : d = p
    · subst hdp
      rw [Function.update_self, if_pos rfl, EntryTable.ofBlock_toBlock]
    · have hne : ((c.inode d).block? 0).getD 0 ≠ ((c.inode p).block? 0).getD 0 := by
        intro he
        have hod := h.owns_tableBlock hd
        have hop := h.owns_tableBlock hp
        rw [tableBlock, he] at hod
        exact hdp (h.blocks.once d 0 p 0 _ hod hop).1
      rw [Function.update_of_ne hne, if_neg hdp]
  · have hdp : d ≠ p := by
      rintro rfl
      exact hd hp
    have hd' : (c.setTable p t).kind d ≠ .directory := hd
    rw [table_of_ne_directory hd, table_of_ne_directory hd', if_neg hdp]

theorem tree_setTable (h : c.Exact l) (hp : c.kind p = .directory) :
    (c.setTable p t).tree = { c.tree with table := Function.update c.table p t } := by
  apply NameTree.ext
  · rfl
  · funext d
    exact (table_setTable h hp).trans (Function.update_apply ..).symm

theorem content_setTable (h : c.Exact l) (hp : c.kind p = .directory) (hj : c.kind j ≠ .free)
    (hjp : j ≠ p) : (c.setTable p t).content j k = c.content j k := by
  rw [setTable, content_putBlock h (h.owns_tableBlock hp) hj, if_neg (fun he => hjp he.1)]

theorem Exact.setTable (h : c.Exact l) (p : Nat) (t : EntryTable) : (c.setTable p t).Exact l :=
  h.putBlock _ _

/-! ## A block that is handed out -/

/-- The records with a block in use. -/
def takeBlock (c : Records) (b : Nat) (z : Block) : Records := (c.mark .block b true).putBlock b z

theorem used_takeBlock (r : Resource) :
    (c.takeBlock b z).used r i = if r = .block ∧ i = b then true else c.used r i := rfl

theorem kind_takeBlock : (c.takeBlock b z).kind i = c.kind i := by
  have hne : ¬ (Resource.inode = Resource.block ∧ i = b) := fun he => Resource.noConfusion he.1
  simp only [kind, used_takeBlock, if_neg hne]
  rfl

theorem owns_takeBlock_iff : (c.takeBlock b z).Owns j k y ↔ c.Owns j k y := by
  constructor
  · rintro ⟨hl, hp⟩
    exact ⟨kind_takeBlock ▸ hl, hp⟩
  · rintro ⟨hl, hp⟩
    exact ⟨by rw [kind_takeBlock]; exact hl, hp⟩

theorem content_takeBlock (h : c.Exact l) (hb : c.used .block b = false)
    (hj : c.kind j ≠ .free) : (c.takeBlock b z).content j k = c.content j k := by
  simp only [content, takeBlock, Records.putBlock, mark]
  cases hp : (c.inode j).block? k with
  | none => rfl
  | some b' =>
    have hne : b' ≠ b := by
      rintro rfl
      exact h.blocks.not_owns_of_free hb ⟨hj, hp⟩
    simp only [Option.map_some, Function.update_of_ne hne]

theorem table_takeBlock (h : c.Exact l) (hb : c.used .block b = false) :
    (c.takeBlock b z).table d = c.table d := by
  by_cases hd : c.kind d = .directory
  · have hne : c.tableBlock d ≠ b := by
      intro he
      have hod := h.owns_tableBlock hd
      rw [he] at hod
      exact h.blocks.not_owns_of_free hb hod
    rw [table_of_directory hd, table_of_directory (kind_takeBlock.trans hd)]
    simp only [takeBlock, Records.putBlock, mark, tableBlock] at hne ⊢
    rw [Function.update_of_ne hne]
  · have hd' : (c.takeBlock b z).kind d ≠ .directory := by
      rw [kind_takeBlock]
      exact hd
    rw [table_of_ne_directory hd, table_of_ne_directory hd']

/-! ## An inode that comes into use -/

/-- The records with an inode in use. -/
def addInode (c : Records) (i : Nat) (x : Inode) : Records := (c.mark .inode i true).putInode i x

theorem used_addInode (r : Resource) :
    (c.addInode i x).used r j = if r = .inode ∧ j = i then true else c.used r j := rfl

theorem inode_addInode : (c.addInode i x).inode j = if j = i then x else c.inode j := by
  simp only [addInode, putInode, Function.update_apply]
  rfl

theorem kind_addInode : (c.addInode i x).kind j = if j = i then x.kind else c.kind j := by
  simp only [kind, used_addInode, inode_addInode, true_and]
  by_cases hj : j = i
  · simp only [if_pos hj, if_true]
  · simp only [if_neg hj]

theorem owns_addInode_iff (hi : c.kind i = .free) (hx : x.kind ≠ .free) :
    (c.addInode i x).Owns j k y ↔ c.Owns j k y ∨ (j = i ∧ x.block? k = some y) := by
  by_cases hj : j = i
  · subst hj
    constructor
    · rintro ⟨-, hp⟩
      rw [inode_addInode, if_pos rfl] at hp
      exact .inr ⟨rfl, hp⟩
    · rintro (⟨hl, -⟩ | ⟨-, hp⟩)
      · exact absurd hi hl
      · exact ⟨by rw [kind_addInode, if_pos rfl]; exact hx,
          by rw [inode_addInode, if_pos rfl]; exact hp⟩
  · constructor
    · rintro ⟨hl, hp⟩
      rw [kind_addInode, if_neg hj] at hl
      rw [inode_addInode, if_neg hj] at hp
      exact .inl ⟨hl, hp⟩
    · rintro (⟨hl, hp⟩ | ⟨he, -⟩)
      · exact ⟨by rw [kind_addInode, if_neg hj]; exact hl,
          by rw [inode_addInode, if_neg hj]; exact hp⟩
      · exact absurd he hj

theorem tableBlock_addInode (hd : d ≠ i) : (c.addInode i x).tableBlock d = c.tableBlock d := by
  rw [tableBlock, inode_addInode, if_neg hd, tableBlock]

theorem table_addInode_of_ne (hd : d ≠ i) : (c.addInode i x).table d = c.table d := by
  simp only [table, kind_addInode, if_neg hd, tableBlock_addInode hd]
  rfl

theorem content_addInode_of_ne (hj : j ≠ i) : (c.addInode i x).content j k = c.content j k := by
  rw [content, inode_addInode, if_neg hj, content]
  rfl

theorem Exact.addFile (h : c.Exact l) (hi : c.kind i = .free) (hne : i ≠ 0)
    (hlt : i < l.inodeCount) (hx : x.kind = .file) (hp : ∀ k, x.block? k = none) :
    (c.addInode i x).Exact l where
  blocks := by
    apply h.blocks.congr (fun _ => rfl)
    intro j k y
    have hlive : x.kind ≠ .free := by
      rw [hx]
      exact Kind.noConfusion
    rw [owns_addInode_iff hi hlive]
    constructor
    · rintro (ho | ⟨-, hk⟩)
      · exact ho
      · rw [hp k] at hk
        cases hk
    · exact .inl
  inodes := by
    refine h.inodes.update hne hlt (k := .file) (fun j => ?_) fun j => ?_
    · simp only [used_addInode, true_and]
      rfl
    · rw [kind_addInode, hx]
  table := by
    intro d hd
    have hdi : d ≠ i := by
      rintro rfl
      rw [kind_addInode, if_pos rfl, hx] at hd
      cases hd
    rw [kind_addInode, if_neg hdi] at hd
    obtain ⟨b, hl, hb⟩ := h.table d hd
    exact ⟨b, by rw [kind_addInode, if_neg hdi]; exact hl,
      by rw [inode_addInode, if_neg hdi]; exact hb⟩

/-- The records with an inode in use that has one block, in its first slot. -/
theorem Exact.addDirectory (h : c.Exact l) (hi : c.kind i = .free) (hne : i ≠ 0)
    (hlt : i < l.inodeCount) (hb : c.used .block b = false) (hblt : b < l.blockCount)
    (hx : x.kind = .directory) (hp : ∀ k, x.block? k = if k = 0 then some b else none) :
    ((c.takeBlock b z).addInode i x).Exact l where
  blocks := by
    refine h.blocks.give i 0 hb hblt (fun y => ?_) fun j k y => ?_
    · have hne : ¬ (Resource.block = Resource.inode ∧ y = i) :=
        fun he => Resource.noConfusion he.1
      simp only [used_addInode, if_neg hne, used_takeBlock, true_and]
    · have hlive : x.kind ≠ .free := by
        rw [hx]
        exact Kind.noConfusion
      rw [owns_addInode_iff (kind_takeBlock.trans hi) hlive, owns_takeBlock_iff, hp k]
      refine or_congr_right (and_congr_right fun _ => ?_)
      split
      · next hk => simp [hk, eq_comm]
      · next hk => simp [hk]
  inodes := by
    refine h.inodes.update hne hlt (k := .directory) (fun j => ?_) fun j => ?_
    · have hne : ¬ (Resource.inode = Resource.block ∧ j = b) :=
        fun he => Resource.noConfusion he.1
      simp only [used_addInode, used_takeBlock, if_neg hne, true_and]
      rfl
    · rw [kind_addInode, hx, kind_takeBlock]
  table := by
    intro d hd
    by_cases hdi : d = i
    · subst hdi
      refine ⟨b, ?_, ?_⟩
      · rw [hd]
        exact Kind.noConfusion
      · rw [inode_addInode, if_pos rfl, hp 0, if_pos rfl]
    · rw [kind_addInode, if_neg hdi, kind_takeBlock] at hd
      obtain ⟨b', hl, hb'⟩ := h.table d hd
      exact ⟨b', by rw [kind_addInode, if_neg hdi, kind_takeBlock]; exact hl,
        by rw [inode_addInode, if_neg hdi]; exact hb'⟩

/-- The table that was written into the block of a new directory. -/
theorem table_addDirectory_self (hx : x.kind = .directory) (hp : x.block? 0 = some b) :
    ((c.takeBlock b t.toBlock).addInode i x).table i = t := by
  have hk : ((c.takeBlock b t.toBlock).addInode i x).kind i = .directory := by
    rw [kind_addInode, if_pos rfl, hx]
  have hblock : ((c.takeBlock b t.toBlock).addInode i x).tableBlock i = b := by
    rw [tableBlock, inode_addInode, if_pos rfl, hp]
    rfl
  have hcontents : ((c.takeBlock b t.toBlock).addInode i x).block b = t.toBlock :=
    Function.update_self _ _ _
  rw [table_of_directory hk, hblock, hcontents, EntryTable.ofBlock_toBlock]

/-! ## An inode that goes out of use -/

/-- The records with an inode and its blocks free. -/
def discard (c : Records) (i : Nat) : Records :=
  (c.freeBlocks (c.inode i).blocks).mark .inode i false

theorem used_inode_discard :
    (c.discard i).used .inode j = if j = i then false else c.used .inode j := by
  simp only [discard, mark, freeBlocks, true_and, reduceCtorEq, false_and, if_false]

theorem used_block_discard :
    (c.discard i).used .block b = if b ∈ (c.inode i).blocks then false else c.used .block b := by
  simp only [discard, mark, freeBlocks, true_and, reduceCtorEq, false_and, if_false]

theorem kind_discard : (c.discard i).kind j = if j = i then .free else c.kind j := by
  simp only [kind, used_inode_discard]
  by_cases hj : j = i
  · simp [hj]
  · simp only [if_neg hj]
    rfl

theorem owns_discard_iff : (c.discard i).Owns j k y ↔ c.Owns j k y ∧ j ≠ i := by
  constructor
  · rintro ⟨hl, hp⟩
    rw [kind_discard] at hl
    by_cases hj : j = i
    · rw [if_pos hj] at hl
      exact absurd rfl hl
    · rw [if_neg hj] at hl
      exact ⟨⟨hl, hp⟩, hj⟩
  · rintro ⟨⟨hl, hp⟩, hj⟩
    exact ⟨by rw [kind_discard, if_neg hj]; exact hl, hp⟩

theorem table_discard : (c.discard i).table d = if d = i then .empty else c.table d := by
  by_cases hd : d = i
  · have hk : (c.discard i).kind d ≠ .directory := by
      rw [kind_discard, if_pos hd]
      exact Kind.noConfusion
    rw [table_of_ne_directory hk, if_pos hd]
  · rw [if_neg hd, table, kind_discard, if_neg hd]
    rfl

theorem content_discard : (c.discard i).content j k = c.content j k := rfl

theorem Exact.discard (h : c.Exact l) (hi : c.kind i ≠ .free) (hne : i ≠ 0) :
    (c.discard i).Exact l where
  blocks := by
    have hmem (y : Nat) : y ∈ (c.inode i).blocks ↔ ∃ k, c.Owns i k y := by
      rw [Inode.mem_blocks_iff]
      constructor
      · rintro ⟨k, hk⟩
        exact ⟨k, hi, hk⟩
      · rintro ⟨k, -, hk⟩
        exact ⟨k, hk⟩
    refine h.blocks.release (i := i) (fun y hy => ?_) (fun y hy => ?_) fun _ _ _ =>
      owns_discard_iff
    · rw [used_block_discard, if_pos ((hmem y).mpr hy)]
    · rw [used_block_discard, if_neg (fun he => hy ((hmem y).mp he))]
  inodes := by
    have hlt : i < l.inodeCount := h.lt_of_live hi
    refine h.inodes.update hne hlt (k := .free) (fun j => ?_) fun j => kind_discard
    rw [used_inode_discard]
    rfl
  table := by
    intro d hd
    rw [kind_discard] at hd
    by_cases hdi : d = i
    · rw [if_pos hdi] at hd
      cases hd
    · rw [if_neg hdi] at hd
      obtain ⟨b, ho⟩ := h.table d hd
      exact ⟨b, owns_discard_iff.mpr ⟨ho, hdi⟩⟩

/-! ## Another record of an inode in use -/

theorem inode_putInode : (c.putInode i x).inode j = if j = i then x else c.inode j := by
  simp only [putInode, Function.update_apply]

theorem kind_putInode (hx : x.kind = (c.inode i).kind) : (c.putInode i x).kind j = c.kind j := by
  simp only [kind, inode_putInode]
  by_cases hj : j = i
  · subst hj
    rw [if_pos rfl, hx]
    rfl
  · rw [if_neg hj]
    rfl

theorem content_putInode_of_ne (hj : j ≠ i) :
    (c.putInode i x).content j k = c.content j k := by
  rw [content, inode_putInode, if_neg hj, content]
  rfl

theorem content_putInode_self : (c.putInode i x).content i k = (x.block? k).map c.block := by
  rw [content, inode_putInode, if_pos rfl]
  rfl

theorem table_putInode (hx : x.kind = (c.inode i).kind) (hi : c.kind i ≠ .directory) :
    (c.putInode i x).table d = c.table d := by
  by_cases hd : d = i
  · have hi' : (c.putInode i x).kind i ≠ .directory := by
      rw [kind_putInode hx]
      exact hi
    rw [hd, table_of_ne_directory hi, table_of_ne_directory hi']
  · simp only [table, kind_putInode hx, tableBlock, inode_putInode, if_neg hd]
    rfl

/-- A record that differs in no pointer and in no kind. -/
theorem Exact.putInode (h : c.Exact l) (hx : x.kind = (c.inode i).kind)
    (hp : ∀ k, x.block? k = (c.inode i).block? k) : (c.putInode i x).Exact l := by
  have howns (j k y : Nat) : (c.putInode i x).Owns j k y ↔ c.Owns j k y := by
    have hpoints : ((c.putInode i x).inode j).block? k = (c.inode j).block? k := by
      rw [inode_putInode]
      split
      · next hj => rw [hj, hp]
      · rfl
    constructor
    · rintro ⟨hl, hb⟩
      exact ⟨kind_putInode hx ▸ hl, hpoints ▸ hb⟩
    · rintro ⟨hl, hb⟩
      exact ⟨by rw [kind_putInode hx]; exact hl, by rw [hpoints]; exact hb⟩
  constructor
  · exact h.blocks.congr (fun _ => rfl) howns
  · exact h.inodes.congr (fun _ => rfl) fun _ => kind_putInode hx
  · intro d hd
    rw [kind_putInode hx] at hd
    obtain ⟨b, ho⟩ := h.table d hd
    exact ⟨b, (howns d 0 b).mpr ho⟩

/-- An inode in use gets a block in a slot that was a hole. -/
theorem Exact.grow (h : c.Exact l) (hi : c.kind i ≠ .free) (hhole : (c.inode i).block? slot = none)
    (hb : c.used .block b = false) (hblt : b < l.blockCount) (hx : x.kind = (c.inode i).kind)
    (hp : ∀ k, x.block? k = if k = slot then some b else (c.inode i).block? k) :
    ((c.takeBlock b z).putInode i x).Exact l := by
  have hx' : x.kind = ((c.takeBlock b z).inode i).kind := hx
  have howns (j k y : Nat) : ((c.takeBlock b z).putInode i x).Owns j k y ↔
      c.Owns j k y ∨ (j = i ∧ k = slot ∧ y = b) := by
    by_cases hj : j = i
    · subst hj
      constructor
      · rintro ⟨-, hb⟩
        rw [inode_putInode, if_pos rfl, hp k] at hb
        split at hb
        · next hk =>
          cases hb
          exact .inr ⟨rfl, hk, rfl⟩
        · exact .inl ⟨hi, hb⟩
      · intro ho
        refine ⟨by rw [kind_putInode hx', kind_takeBlock]; exact hi, ?_⟩
        rw [inode_putInode, if_pos rfl, hp k]
        rcases ho with ⟨-, hb⟩ | ⟨-, rfl, rfl⟩
        · rw [if_neg]
          · exact hb
          · rintro rfl
            rw [hhole] at hb
            cases hb
        · rw [if_pos rfl]
    · constructor
      · rintro ⟨hl, hb⟩
        rw [kind_putInode hx', kind_takeBlock] at hl
        rw [inode_putInode, if_neg hj] at hb
        exact .inl ⟨hl, hb⟩
      · rintro (⟨hl, hb⟩ | ⟨he, -, -⟩)
        · exact ⟨by rw [kind_putInode hx', kind_takeBlock]; exact hl,
            by rw [inode_putInode, if_neg hj]; exact hb⟩
        · exact absurd he hj
  constructor
  · refine h.blocks.give i slot hb hblt (fun y => ?_) howns
    change (c.takeBlock b z).used .block y = _
    simp only [used_takeBlock, true_and]
  · refine h.inodes.congr (fun j => ?_) fun j => ?_
    · change (c.takeBlock b z).used .inode j = _
      simp only [used_takeBlock, reduceCtorEq, false_and, if_false]
    · rw [kind_putInode hx', kind_takeBlock]
  · intro d hd
    rw [kind_putInode hx', kind_takeBlock] at hd
    obtain ⟨b', ho⟩ := h.table d hd
    exact ⟨b', (howns d 0 b').mpr (.inl ho)⟩

end BlockFS.Records
