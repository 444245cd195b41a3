import BlockFS.Proofs.ListedNames

/-!
# Which shapes are made, and what they become

A shape is accepted exactly if its regions fit, as sums and products without bound tell, although
the place of the data is computed in 32 bits.  Then the blocks of the new volume are functions of
the shape and the clock: the old contents of the device and its old length show only behind them.
-/

namespace BlockFS

open Volume

/-! ## Shapes -/

/-- The table of inodes has a block, the data begins inside the volume, each bitmap fits its block,
there is a root inode, and the table has room for every inode. -/
structure Geometry.Fits (g : Geometry) : Prop where
  table : 1 ≤ g.tableBlocks.toNat
  data : 4 + g.tableBlocks.toNat < g.blockCount.toNat
  blocks : g.blockCount.toNat ≤ 8192
  root : 2 ≤ g.inodeCount.toNat
  inodes : g.inodeCount.toNat ≤ 8192
  records : 30 * g.inodeCount.toNat ≤ 1024 * g.tableBlocks.toNat

theorem Superblock.toNat_firstDataBlock_ofGeometry (g : Geometry) :
    (ofGeometry g).firstDataBlock.toNat = min (4 + g.tableBlocks.toNat) (UInt32.size - 1) := by
  change (UInt32.ofNat (min (4 + g.tableBlocks.toNat) (UInt32.size - 1))).toNat = _
  have hsize : UInt32.size = 4294967296 := rfl
  exact UInt32.toNat_ofNat_of_lt' (by omega)

theorem Geometry.valid_iff_fits (g : Geometry) : (Superblock.ofGeometry g).Valid ↔ g.Fits := by
  have hsize : UInt32.size = 4294967296 := rfl
  have hdata := Superblock.toNat_firstDataBlock_ofGeometry g
  have htable : (Superblock.ofGeometry g).tableStart.toNat = 4 := rfl
  have hblocks : (Superblock.ofGeometry g).blockCount = g.blockCount := rfl
  have hinodes : (Superblock.ofGeometry g).inodeCount = g.inodeCount := rfl
  have hcount := g.blockCount.toNat_lt
  constructor
  · intro h
    have hstart := UInt32.lt_iff_toNat_lt.mp h.data
    have hinside := UInt32.lt_iff_toNat_lt.mp h.inside
    have hitems := h.blocks
    have hroot := h.root
    have hnumber := h.inodes
    have hroom := h.table
    simp only [hdata, htable, hblocks, hinodes, itemsPerBitmap, rootInode, blockSize,
      inodeRecordSize] at hstart hinside hitems hroot hnumber hroom
    constructor <;> omega
  · intro h
    obtain ⟨hstart, hinside, hitems, hroot, hnumber, hroom⟩ := h
    constructor
    case magic => rfl
    case inodeBitmap => exact show 1 < 2 by decide
    case blockBitmap => exact show (2 : UInt32) < 3 by decide
    case inodeTable => exact show (3 : UInt32) < 4 by decide
    case data =>
      rw [UInt32.lt_iff_toNat_lt, hdata, htable]
      omega
    case inside =>
      rw [UInt32.lt_iff_toNat_lt, hdata, hblocks]
      omega
    all_goals
      simp only [hdata, htable, hblocks, hinodes, itemsPerBitmap, rootInode, blockSize,
        inodeRecordSize]
      omega

/-- A shape that fits has a layout, and one that does not has none. -/
theorem Layout.ofGeometry_eq (g : Geometry) :
    (g.Fits ∧ ∃ l, ofGeometry g = .ok l ∧ l.superblock = .ofGeometry g) ∨
      (¬ g.Fits ∧ ofGeometry g = .error .invalidGeometry) := by
  by_cases h : (Superblock.ofGeometry g).Valid
  · exact .inl ⟨g.valid_iff_fits.mp h, ⟨_, h⟩, dif_pos h, rfl⟩
  · exact .inr ⟨fun hfits => h (g.valid_iff_fits.mpr hfits), dif_neg h⟩

/-! ## Stores that differ behind the volume -/

namespace Store

variable {l : Layout} {ref st : Store l} {d : Disk} {i start : Nat}

/-- A store has the blocks of another one, and behind them the bytes of a disk. -/
def Over (ref st : Store l) (d : Disk) : Prop := Disk.Overlays ref.block l.blockCount d st.disk

namespace Over

variable (h : ref.Over st d)

include h

theorem putBlock (hi : superblockBlock < i) (hc : i < l.blockCount) (b : Block) :
    (ref.putBlock i b).Over (st.putBlock i b) d := by
  rw [Over, ref.block_putBlock b hi, st.disk_putBlock b hi]
  exact Disk.Overlays.putBlock h hc b

theorem mark (r : Resource) (k : Nat) (used : Bool) :
    (ref.mark r k used).Over (st.mark r k used) d := by
  have hsame : l.bitmap st.block r = l.bitmap ref.block r := by
    rw [Layout.bitmap, Layout.bitmap]
    exact congrArg (Bitmap.mk · _) (h.block _ (l.bitmapBlock_lt_blockCount r))
  rw [Store.mark, Store.mark, hsame]
  exact h.putBlock (l.superblock_lt_bitmapBlock r) (l.bitmapBlock_lt_blockCount r) _

theorem writeOver (hi : superblockBlock < i) (hc : i + 1 < l.blockCount) (data : List UInt8) :
    (ref.writeOver i start data).Over (st.writeOver i start data) d := by
  have hblock {ref st : Store l} (h : ref.Over st d) {j : Nat} (hj : j < l.blockCount) :
      st.block j = ref.block j := h.block j hj
  have hfirst := h.putBlock hi (Nat.lt_of_succ_lt hc) ((ref.block i).write start data)
  rw [Store.writeOver, Store.writeOver, hblock h (Nat.lt_of_succ_lt hc)]
  split
  · exact hfirst
  · rw [hblock hfirst hc]
    exact hfirst.putBlock (Nat.lt_succ_of_lt hi) hc _

theorem putInode (hi : i < l.inodeCount) (x : Inode) :
    (ref.putInode i x).Over (st.putInode i x) d :=
  h.writeOver (l.superblock_lt_inodeBlock i)
    (Nat.lt_of_le_of_lt (l.inodeBlock_lt hi) l.firstDataBlock_lt_blockCount) _

end Over

end Store

theorem Scene.over_addRoot {l : Layout} {ref st : Store l} {d : Disk} (h : ref.Over st d)
    (clock : Int) : (addRoot ⟨ref, clock, true, rootInode⟩).store.Over
      (addRoot ⟨st, clock, true, rootInode⟩).store d := by
  have hdata : superblockBlock < l.firstDataBlock :=
    Nat.lt_trans l.superblock_lt_tableStart l.tableStart_lt_firstDataBlock
  have hcount := l.firstDataBlock_lt_blockCount
  exact ((((h.mark .inode _ _).mark .block _ _).putBlock hdata hcount _).putBlock hdata hcount
    _).putInode l.rootInode_lt_inodeCount _

/-! ## New volumes -/

namespace Scene

variable {l : Layout} {s : Scene l}

theorem OnlyRoot.root (h : s.OnlyRoot) : s.records.kind rootInode = .directory :=
  (h rootInode).trans (if_pos rfl)

/-- The root of a new volume owns the first block that it may own, and no other. -/
theorem New.owns_root (h : s.New) (slot b : Nat) :
    (s.records.inode rootInode).block? slot = some b ↔ slot = 0 ∧ b = l.firstDataBlock := by
  have hlive : s.records.kind rootInode ≠ .free := Records.ne_free_of_directory h.onlyRoot.root
  have hblocks := h.good.tidy.blocks
  obtain ⟨first, howns⟩ := h.good.tidy.table rootInode h.onlyRoot.root
  have hfirst : first = l.firstDataBlock := by
    rw [← h.tableBlock, Records.tableBlock, howns.2]
    rfl
  rw [hfirst] at howns
  constructor
  · intro hslot
    have hother : s.records.Owns rootInode slot b := ⟨hlive, hslot⟩
    have hle := hblocks.used_of_owns hother
    rw [h.usedBlock, decide_eq_true_eq] at hle
    obtain rfl : b = l.firstDataBlock := Nat.le_antisymm hle (hblocks.range _ _ _ hother).1
    exact ⟨(hblocks.once _ _ _ _ _ hother howns).2, rfl⟩
  · rintro ⟨rfl, rfl⟩
    exact howns.2

end Scene

namespace Volume

variable {l : Layout}

/-- A mounted volume on which nothing is in use but the blocks up to the first one behind the table,
the inode that stands for none and the root, which owns that block and holds nothing.  It can be
mounted again. -/
structure JustMade (v : Volume) (l : Layout) : Prop where
  mounted : v.layout = some l
  reads : l.Reads v.device (v.records l)
  blocks : ∀ b, (v.records l).used .block b = true ↔ b ≤ l.firstDataBlock
  inodes : ∀ i, (v.records l).used .inode i = true ↔ i = 0 ∨ i = rootInode
  root : (v.records l).kind rootInode = .directory
  owns : ∀ slot b, ((v.records l).inode rootInode).block? slot = some b ↔
    slot = 0 ∧ b = l.firstDataBlock
  childless : v.Answers (walk rootInode >>= Listing.items) (.ok [])
  reopens : ∀ clock, ∃ history,
    openOn v.device clock = .ok () ⟨{ v.device with history }, clock, some l, rootInode⟩

theorem justMade {s : Scene l} (h : s.New) (history : History) :
    (Settled.state s history : Volume).JustMade l where
  mounted := if_pos h.mounted
  reads := s.store.reads history
  blocks b := by
    change s.records.used .block b = true ↔ _
    rw [h.usedBlock, decide_eq_true_eq]
  inodes i := by
    change s.records.used .inode i = true ↔ _
    rw [h.good.tidy.inodes.used_iff, h.kind]
    by_cases hi : i = rootInode
    · simp [hi]
    · simp [hi]
  root := h.onlyRoot.root
  owns := h.owns_root
  childless := by
    have hlist := does_list h.mounted h.good h.onlyRoot.root
    have hnone : (s.records.table rootInode).children = [] :=
      List.eq_nil_iff_forall_not_mem.mpr fun e he => by
        obtain ⟨slot, rfl, hlinks⟩ := (Records.mem_children_iff h.onlyRoot.root).mp he
        exact hlinks.used (h.empty.target_eq_zero hlinks.named)
    rw [Records.children, hnone] at hlist
    exact hlist.answers history
  reopens clock := does_mount (s := ⟨s.store, clock, false, rootInode⟩) history

/-- Making a volume succeeds exactly if the shape fits, and else nothing changes.  The volume that
is made covers the first bytes of the device with an image that depends on nothing but the shape and
the clock, and leaves the bytes behind it as they were. -/
theorem format_exact (g : Geometry) :
    (g.Fits ∧ ∃ l : Layout, l.superblock = .ofGeometry g ∧ ∀ clock : Int, ∃ image : List UInt8,
      image.length = blockSize * l.blockCount ∧ ∀ (d : Disk) (history : History), ∃ v,
        format g (unmounted ⟨d, .never, history⟩ clock) = .ok () v ∧
        v.device.disk.contents = image ++ d.contents.drop (blockSize * l.blockCount) ∧
        v.JustMade l) ∨
      (¬ g.Fits ∧ ∀ v, format g v = .error .invalidGeometry v) := by
  refine (Layout.ofGeometry_eq g).imp (And.imp_right ?_) (And.imp_right ?_)
  · rintro ⟨l, hl, hsuper⟩
    refine ⟨l, hsuper, fun clock => ?_⟩
    obtain ⟨bs, hformat⟩ := format_addRoot hl
    obtain ⟨ref, -, -, href, -⟩ := hformat .empty ⟨0, 0⟩ clock
    let made (st : Store l) : Scene l := Scene.addRoot ⟨st, clock, true, rootInode⟩
    refine ⟨Disk.bytesBelow (made ref).store.block l.blockCount, Disk.length_bytesBelow _ _,
      fun d history => ?_⟩
    obtain ⟨st, history', hmade, hst, hblank⟩ := hformat d history clock
    have hover : ref.Over st d :=
      ⟨hst.covers, fun b hb => (hst.block b hb).trans (href.block b hb).symm, hst.behind⟩
    have hfirst : (Scene.mk st clock true rootInode).records.First l := hblank.first
    exact ⟨_, hmade, (Scene.over_addRoot hover clock).contents,
      justMade (hfirst.new_addRoot rfl rfl) history'⟩
  · intro hl v
    rw [format, hl]
    rfl

end Volume

end BlockFS
