import BlockFS.Proofs.Scene

/-!
# Changes of a store, one after another

Writing inside a disk changes neither its length nor the bytes behind its last whole sector.  So two
stores that were written from the same one are the same if all their blocks are, and laws about rows of
changes follow from laws about rows of blocks: a later change of a block or of a record hides an earlier
one, and changes in different places may change places.
-/

namespace BlockFS

variable {l : Layout} {i b : Nat}

/-! ## Disks of one shape -/

namespace Disk

variable {d d' d'' : Disk}

/-- The disks have as many whole sectors, and the same bytes behind them. -/
structure SameShape (d d' : Disk) : Prop where
  size : d'.sectors.size = d.sectors.size
  tail : d'.tail = d.tail

theorem SameShape.refl (d : Disk) : SameShape d d := ⟨rfl, rfl⟩

theorem SameShape.trans (h : d.SameShape d') (h' : d'.SameShape d'') : d.SameShape d'' :=
  ⟨h'.size.trans h.size, h'.tail.trans h.tail⟩

theorem sameShape_writeSector {k : Nat} (h : k < d.sectors.size) (s : Sector) :
    d.SameShape (d.writeSector k s) := by
  have hwrite : d.writeSector k s = ⟨d.sectors.setIfInBounds k s, d.tail, d.tail_lt⟩ := if_pos h
  rw [hwrite]
  exact ⟨Array.size_setIfInBounds, rfl⟩

theorem sameShape_putBlock (h : 2 * i + 1 < d.sectors.size) (b : Block) :
    d.SameShape (d.putBlock i b) := by
  have hlower := sameShape_writeSector (Nat.lt_of_succ_lt h) b.lower
  exact hlower.trans (sameShape_writeSector (by rw [hlower.size]; exact h) b.upper)

theorem sameShape_writeOver {start : Nat} {data : List UInt8} (h : 2 * i + 1 < d.sectors.size)
    (hnext : blockSize < start + data.length → 2 * (i + 1) + 1 < d.sectors.size) :
    d.SameShape (d.writeOver i start data) := by
  have hfirst := sameShape_putBlock h ((d.block i).write start data)
  rw [writeOver]
  split
  · exact hfirst
  · next hrest =>
    have hspill : blockSize < start + data.length := by
      simp at hrest
      omega
    exact hfirst.trans (sameShape_putBlock (by rw [hfirst.size]; exact hnext hspill) _)

theorem sector_eq_of_block_eq (h : d.block = d'.block) (k : Nat) : d.sector k = d'.sector k := by
  have hblock := congrFun h (k / 2)
  rcases Nat.mod_two_eq_zero_or_one k with heven | hodd
  · have hk : 2 * (k / 2) = k := by omega
    have hlower := congrArg Block.lower hblock
    rwa [block, block, Block.lower_ofSectors, Block.lower_ofSectors, hk] at hlower
  · have hk : 2 * (k / 2) + 1 = k := by omega
    have hupper := congrArg Block.upper hblock
    rwa [block, block, Block.upper_ofSectors, Block.upper_ofSectors, hk] at hupper

/-- Disks of one shape are told apart by their blocks. -/
theorem SameShape.eq_of_block_eq (h : d.SameShape d') (hblock : d.block = d'.block) : d = d' := by
  have hsector := sector_eq_of_block_eq hblock
  obtain ⟨sectors, tail, tail_lt⟩ := d
  obtain ⟨sectors', tail', tail_lt'⟩ := d'
  obtain ⟨hsize, rfl⟩ := h
  have hsectors : sectors = sectors' := by
    refine Array.ext hsize.symm fun k hk hk' => ?_
    have hk := hsector k
    rwa [sector, sector, dif_pos ‹_›, dif_pos ‹_›] at hk
  rw [Disk.mk.injEq]
  exact ⟨hsectors, rfl⟩

end Disk

/-! ## Rows of blocks -/

namespace Blocks

variable {bs bs' : Blocks} {start j : Nat} {data data' : List UInt8}

/-- What is laid over a block depends on nothing but that block. -/
theorem writeOver_congr (h : bs j = bs' j) :
    bs.writeOver b start data j = bs'.writeOver b start data j := by
  apply Vector.ext
  intro t ht
  rw [getElem_writeOver _ _ _ _ _ _ ht, getElem_writeOver _ _ _ _ _ _ ht, h]

/-- Data laid over other data of the same length hides it. -/
theorem writeOver_writeOver (h : data.length = data'.length) :
    (bs.writeOver b start data).writeOver b start data' = bs.writeOver b start data' := by
  funext j
  apply Vector.ext
  intro t ht
  simp only [getElem_writeOver _ _ _ _ _ _ ht]
  grind

end Blocks

namespace Layout

theorem superblock_lt_of_le (l : Layout) (h : l.firstDataBlock ≤ b) : superblockBlock < b :=
  Nat.lt_of_lt_of_le (Nat.lt_trans l.superblock_lt_tableStart l.tableStart_lt_firstDataBlock) h

theorem putInode_putInode (l : Layout) (bs : Blocks) (i : Nat) (x y : Inode) :
    l.putInode (l.putInode bs i x) i y = l.putInode bs i y :=
  Blocks.writeOver_writeOver (by rw [Vector.length_toList, Vector.length_toList])

/-- A block outside the inode table may be replaced before or after a record of an inode. -/
theorem putInode_update (l : Layout) (bs : Blocks) (hi : i < l.inodeCount)
    (hb : b < l.tableStart ∨ l.firstDataBlock ≤ b) (x : Inode) (z : Block) :
    l.putInode (Function.update bs b z) i x = Function.update (l.putInode bs i x) b z := by
  funext j
  by_cases hj : j = b
  · subst hj
    rw [l.putInode_of_outside _ x hi hb, Function.update_self, Function.update_self]
  · rw [Function.update_of_ne hj]
    exact Blocks.writeOver_congr (Function.update_of_ne hj _ _)

end Layout

/-! ## Stores -/

namespace Store

variable {st st' : Store l}

theorem lt_size (st : Store l) (h : i < l.blockCount) : 2 * i + 1 < st.disk.sectors.size := by
  have := st.covers
  omega

theorem eq_of_disk_eq (h : st.disk = st'.disk) : st = st' := by
  obtain ⟨disk, covers, signed⟩ := st
  obtain ⟨disk', covers', signed'⟩ := st'
  obtain rfl : disk = disk' := h
  rfl

/-- The disk of a store is one of the same shape, written anew. -/
def From (st st' : Store l) : Prop := st.disk.SameShape st'.disk

theorem From.refl (st : Store l) : st.From st := Disk.SameShape.refl st.disk

theorem From.trans {t : Store l} (h : st.From st') (h' : st'.From t) : st.From t :=
  Disk.SameShape.trans h h'

theorem from_putBlock (st : Store l) (hb : superblockBlock < b) (h : b < l.blockCount) (z : Block) :
    st.From (st.putBlock b z) := by
  rw [From, st.disk_putBlock z hb]
  exact Disk.sameShape_putBlock (st.lt_size h) z

theorem from_writeOver (st : Store l) (hb : superblockBlock < b) (h : b + 1 < l.blockCount)
    (start : Nat) (data : List UInt8) : st.From (st.writeOver b start data) := by
  rw [From, st.disk_writeOver start data hb]
  exact Disk.sameShape_writeOver (st.lt_size (Nat.lt_of_succ_lt h)) fun _ => st.lt_size h

theorem from_putInode (st : Store l) (hi : i < l.inodeCount) (x : Inode) :
    st.From (st.putInode i x) :=
  st.from_writeOver (l.superblock_lt_inodeBlock i)
    (Nat.lt_of_le_of_lt (l.inodeBlock_lt hi) l.firstDataBlock_lt_blockCount) _ _

/-- Stores that were written from the same one are told apart by their blocks. -/
theorem From.eq_of_block_eq {t : Store l} (h : t.From st) (h' : t.From st')
    (hblock : st.block = st'.block) : st = st' := by
  have hshape : st.disk.SameShape st'.disk :=
    ⟨h'.size.trans h.size.symm, h'.tail.trans h.tail.symm⟩
  exact eq_of_disk_eq (hshape.eq_of_block_eq hblock)

theorem block_putInode (st : Store l) (i : Nat) (x : Inode) :
    (st.putInode i x).block = l.putInode st.block i x :=
  st.block_writeOver _ _ (l.superblock_lt_inodeBlock i)

theorem putBlock_block (st : Store l) (h : b < l.blockCount) (hb : superblockBlock < b) :
    st.putBlock b (st.block b) = st := by
  refine (st.from_putBlock hb h _).eq_of_block_eq (.refl st) ?_
  rw [st.block_putBlock _ hb, Function.update_eq_self]

theorem putBlock_putBlock (st : Store l) (hb : superblockBlock < b) (h : b < l.blockCount)
    (y z : Block) : (st.putBlock b y).putBlock b z = st.putBlock b z := by
  have hfirst := st.from_putBlock hb h y
  refine (hfirst.trans (from_putBlock _ hb h z)).eq_of_block_eq (st.from_putBlock hb h z) ?_
  rw [block_putBlock _ _ hb, block_putBlock _ _ hb, block_putBlock _ _ hb, Function.update_idem]

theorem putInode_putInode (st : Store l) (hi : i < l.inodeCount) (x y : Inode) :
    (st.putInode i x).putInode i y = st.putInode i y := by
  have hfirst := st.from_putInode hi x
  refine (hfirst.trans (from_putInode _ hi y)).eq_of_block_eq (st.from_putInode hi y) ?_
  rw [block_putInode, block_putInode, block_putInode, l.putInode_putInode]

/-- A block outside the inode table may be replaced before or after a record of an inode. -/
theorem putBlock_putInode (st : Store l) (hi : i < l.inodeCount)
    (hb : superblockBlock < b) (h : b < l.blockCount)
    (hout : b < l.tableStart ∨ l.firstDataBlock ≤ b) (x : Inode) (z : Block) :
    (st.putInode i x).putBlock b z = (st.putBlock b z).putInode i x := by
  have hinode := st.from_putInode hi x
  have hblock := st.from_putBlock hb h z
  refine (hinode.trans (from_putBlock _ hb h z)).eq_of_block_eq
    (hblock.trans (from_putInode _ hi x)) ?_
  rw [block_putBlock _ _ hb, block_putInode, block_putInode, block_putBlock _ _ hb,
    l.putInode_update _ hi hout]

/-- A bitmap may be changed before or after a record of an inode. -/
theorem mark_putInode (st : Store l) (hi : i < l.inodeCount) (x : Inode) (r : Resource) (k : Nat)
    (used : Bool) : (st.putInode i x).mark r k used = (st.mark r k used).putInode i x := by
  have hout := l.bitmapBlock_lt_tableStart r
  have hsame : l.bitmap (st.putInode i x).block r = l.bitmap st.block r := by
    rw [block_putInode, Layout.bitmap, Layout.bitmap, l.putInode_of_outside _ x hi (.inl hout)]
  rw [mark, mark, hsame]
  exact st.putBlock_putInode hi (l.superblock_lt_bitmapBlock r) (l.bitmapBlock_lt_blockCount r)
    (.inl hout) x _

end Store

/-! ## Scenes -/

namespace Scene

/-- Writing back what a data block holds changes nothing. -/
theorem putBlock_block (s : Scene l) (hb : l.firstDataBlock ≤ b) (h : b < l.blockCount) :
    s.putBlock b (s.store.block b) = s := by
  rw [putBlock, s.store.putBlock_block h (l.superblock_lt_of_le hb)]

theorem putBlock_putBlock (s : Scene l) (hb : l.firstDataBlock ≤ b) (h : b < l.blockCount)
    (y z : Block) : (s.putBlock b y).putBlock b z = s.putBlock b z := by
  simp only [putBlock, s.store.putBlock_putBlock (l.superblock_lt_of_le hb) h]

theorem putInode_putInode (s : Scene l) (hi : i < l.inodeCount) (x y : Inode) :
    (s.putInode i x).putInode i y = s.putInode i y := by
  simp only [putInode, s.store.putInode_putInode hi]

theorem putBlock_putInode (s : Scene l) (hi : i < l.inodeCount) (hb : l.firstDataBlock ≤ b)
    (h : b < l.blockCount) (x : Inode) (z : Block) :
    (s.putInode i x).putBlock b z = (s.putBlock b z).putInode i x := by
  simp only [putBlock, putInode,
    s.store.putBlock_putInode hi (l.superblock_lt_of_le hb) h (.inr hb)]

theorem mark_putInode (s : Scene l) (hi : i < l.inodeCount) (x : Inode) (r : Resource) (k : Nat)
    (used : Bool) : (s.putInode i x).mark r k used = (s.mark r k used).putInode i x := by
  simp only [mark, putInode, s.store.mark_putInode hi]

end Scene

end BlockFS
