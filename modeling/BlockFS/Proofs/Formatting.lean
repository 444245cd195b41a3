import BlockFS.Format
import BlockFS.Proofs.DiskContents
import BlockFS.Proofs.Edits

/-!
# New volumes

Making a volume on a device that fails no transfer leaves a good scene behind whatever was on the
device before: the bitmaps tell of the blocks before the data and of the inode zero, and the root is a
directory without children.
-/

namespace BlockFS

open Volume

/-! ## The first bitmaps -/

/-- Setting the items below a number one after another. -/
theorem Bitmap.foldlM_set {count : Nat} (fits : count ≤ 8 * blockSize) {n : Nat} (hn : n ≤ count) :
    ∃ b : Bitmap, (List.range n).foldlM (fun b index => b.set index true) (allFree count) = .ok b ∧
      b.count = count ∧ ∀ i, b.get i = decide (i < n) := by
  induction n with
  | zero =>
    refine ⟨allFree count, rfl, rfl, fun i => ?_⟩
    rw [get_allFree]
    simp
  | succ n ih =>
    obtain ⟨b, hfold, hcount, hget⟩ := ih (Nat.le_of_succ_le hn)
    have hlt : n < b.count := by omega
    refine ⟨b.mark n true, ?_, hcount, fun i => ?_⟩
    · rw [List.range_succ, List.foldlM_append, hfold]
      change [n].foldlM (fun b index => b.set index true) b = _
      rw [List.foldlM_cons, set_eq_mark hlt]
      rfl
    · rw [get_mark hlt (by omega), hget]
      by_cases hi : i = n
      · simp [hi]
      · simp only [if_neg hi, decide_eq_decide]
        omega

namespace Layout

variable (l : Layout)

theorem firstInodes_eq :
    ∃ b : Bitmap, l.firstInodes = .ok b ∧ b.count = l.inodeCount ∧
      ∀ i, b.get i = decide (i = 0) := by
  have hlt : 0 < (Bitmap.allFree l.inodeCount).count :=
    Nat.lt_trans (by decide) l.rootInode_lt_inodeCount
  refine ⟨(Bitmap.allFree l.inodeCount).mark 0 true, Bitmap.set_eq_mark hlt true, rfl, fun i => ?_⟩
  rw [Bitmap.get_mark hlt (l.count_le .inode), Bitmap.get_allFree]
  by_cases hi : i = 0
  · simp [hi]
  · simp [hi]

theorem firstBlocks_eq :
    ∃ b : Bitmap, l.firstBlocks = .ok b ∧ b.count = l.blockCount ∧
      ∀ i, b.get i = decide (i < l.firstDataBlock) :=
  Bitmap.foldlM_set (l.count_le .block) (Nat.le_of_lt l.firstDataBlock_lt_blockCount)

end Layout

/-- Where the table holds zeros, so does every record. -/
theorem Layout.inode_of_zero (l : Layout) {bs : Blocks} {i : Nat} (hi : i < l.inodeCount)
    (h : ∀ b, l.tableStart ≤ b → b < l.firstDataBlock → bs b = .zero) :
    l.inode bs i = .decode (Vector.ofFn fun _ => 0) := by
  have hbytes : l.inodeBytes (fun _ => Block.zero) i = Vector.ofFn fun _ => 0 := by
    apply Vector.ext
    intro t ht
    simp [inodeBytes, tableByte, Block.zero, Bytes.zero]
  have hsame : l.inode bs i = l.inode (fun _ => Block.zero) i := l.inode_congr hi h
  rw [hsame, inode, hbytes]

/-- A record of zeros is no file and no directory. -/
theorem Layout.kind_inode_of_zero (l : Layout) {bs : Blocks} {i : Nat} (hi : i < l.inodeCount)
    (h : ∀ b, l.tableStart ≤ b → b < l.firstDataBlock → bs b = .zero) :
    (l.inode bs i).kind = .free := by
  rw [l.inode_of_zero hi h]
  decide

/-! ## Writing the records of a new volume -/

/-- Zeros come over the blocks, and the disk reaches at least behind them. -/
theorem does_clearBlocks (count : Nat) :
    ∀ (first : Nat) (d : Disk), ∃ d' : Disk, Does (Device.clearBlocks first count) d (.ok ()) d' ∧
      (∀ i, d'.block i = if first ≤ i ∧ i < first + count then .zero else d.block i) ∧
      d.sectors.size ≤ d'.sectors.size ∧
      (0 < count → 2 * (first + count) ≤ d'.sectors.size) ∧ ∀ n, first + count ≤ n →
        d'.contents.drop (blockSize * n) = d.contents.drop (blockSize * n) := by
  induction count with
  | zero =>
    intro first d
    refine ⟨d, Does.pure _ _, fun i => ?_, Nat.le_refl _, fun h => absurd h (Nat.lt_irrefl 0),
      fun _ _ => rfl⟩
    rw [if_neg (by omega)]
  | succ count ih =>
    intro first d
    obtain ⟨d', hrest, hblock, hle, hsize, hbehind⟩ := ih (first + 1) (d.putBlock first .zero)
    rw [Disk.size_sectors_putBlock] at hle
    refine ⟨d', (does_device_writeBlock d first .zero).bind hrest, fun i => ?_, by omega,
      fun _ => ?_, fun n hn => ?_⟩
    · rw [hblock, Disk.block_putBlock]
      by_cases hi : i = first
      · rw [if_neg (by omega), if_pos hi, if_pos (by omega)]
      · by_cases hin : first + 1 ≤ i ∧ i < first + 1 + count
        · rw [if_pos hin, if_pos (by omega)]
        · rw [if_neg hin, if_neg hi, if_neg (by omega)]
    · by_cases hcount : 0 < count
      · have := hsize hcount
        omega
      · omega
    · rw [hbehind n (by omega), Disk.behind_putBlock (by omega)]

variable {l : Layout}

/-- A row of blocks that tells of a volume without a root directory. -/
structure Layout.Blank (l : Layout) (bs : Blocks) : Prop where
  signed : bs superblockBlock = l.superblock.toBlock
  inodes : ∀ i, (l.bitmap bs .inode).get i = decide (i = 0)
  blocks : ∀ b, (l.bitmap bs .block).get b = decide (b < l.firstDataBlock)
  table : ∀ b, l.tableStart ≤ b → b < l.firstDataBlock → bs b = .zero

/-- Three blocks written over zeros, in different places, are all that a blank volume is. -/
theorem Layout.blank_putBlock (l : Layout) {d : Disk} {inodes blocks : Bitmap}
    (hzero : ∀ b, b < l.blockCount → d.block b = .zero)
    (hinodes : inodes.count = l.inodeCount ∧ ∀ i, inodes.get i = decide (i = 0))
    (hblocks : blocks.count = l.blockCount ∧
      ∀ b, blocks.get b = decide (b < l.firstDataBlock)) :
    l.Blank (((d.putBlock superblockBlock l.superblock.toBlock).putBlock
      (Resource.inode.bitmapBlock l) inodes.bits).putBlock
        (Resource.block.bitmapBlock l) blocks.bits).block := by
  have hsuperInode := l.superblock_lt_bitmapBlock .inode
  have hsuperBlock := l.superblock_lt_bitmapBlock .block
  have hne : Resource.inode.bitmapBlock l ≠ Resource.block.bitmapBlock l := fun he =>
    Resource.noConfusion (l.bitmapBlock_injective he)
  constructor
  · rw [Disk.block_putBlock, if_neg (Nat.ne_of_lt hsuperBlock), Disk.block_putBlock,
      if_neg (Nat.ne_of_lt hsuperInode), Disk.block_putBlock, if_pos rfl]
  · intro i
    have hmap : Bitmap.mk inodes.bits l.inodeCount = inodes := by rw [← hinodes.1]
    rw [Layout.bitmap, Disk.block_putBlock, if_neg hne, Disk.block_putBlock, if_pos rfl]
    exact (congrArg (Bitmap.get · i) hmap).trans (hinodes.2 i)
  · intro b
    have hmap : Bitmap.mk blocks.bits l.blockCount = blocks := by rw [← hblocks.1]
    rw [Layout.bitmap, Disk.block_putBlock, if_pos rfl]
    exact (congrArg (Bitmap.get · b) hmap).trans (hblocks.2 b)
  · intro b hge hlt
    have hb1 := l.superblock_lt_tableStart
    have hb2 := l.bitmapBlock_lt_tableStart .inode
    have hb3 := l.bitmapBlock_lt_tableStart .block
    simp only [Disk.block_putBlock]
    rw [if_neg (by omega), if_neg (by omega), if_neg (by omega),
      hzero b (Nat.lt_trans hlt l.firstDataBlock_lt_blockCount)]

/-- The records of a volume without a root directory. -/
structure Records.First (c : Records) (l : Layout) : Prop where
  inode : ∀ i, c.used .inode i = decide (i = 0)
  block : ∀ b, c.used .block b = decide (b < l.firstDataBlock)
  kind : ∀ i, c.kind i = .free

theorem Layout.Blank.first {st : Store l} (h : l.Blank st.block) : st.records.First l := by
  have hused (i : Nat) : st.records.used .inode i = decide (i = 0) := by
    rw [Store.used_records]
    exact h.inodes i
  constructor
  · exact hused
  · intro b
    rw [Store.used_records]
    exact h.blocks b
  · intro i
    by_cases hi : i = 0
    · have hlt : i < l.inodeCount := by
        rw [hi]
        exact Nat.lt_trans (by decide) l.rootInode_lt_inodeCount
      have hrecord : st.records.inode i = l.inode st.block i := if_pos hlt
      rw [Records.kind_of_used ((hused i).trans (decide_eq_true hi)), hrecord]
      exact l.kind_inode_of_zero hlt h.table
    · exact Records.kind_of_not_used ((hused i).trans (decide_eq_false hi))

/-- Everything but the root directory is written.  Whatever was on the disk before, the volume has
the same blocks. -/
theorem does_writeEmpty (l : Layout) : ∃ bs : Blocks, ∀ d : Disk, ∃ d',
    Does l.writeEmpty d (.ok ()) d' ∧ Disk.Overlays bs l.blockCount d d' ∧ l.Blank d'.block := by
  obtain ⟨inodes, hinodes, hcountInodes, hgetInodes⟩ := l.firstInodes_eq
  obtain ⟨blocks, hblocks, hcountBlocks, hgetBlocks⟩ := l.firstBlocks_eq
  have hpos : 0 < l.blockCount :=
    Nat.lt_of_le_of_lt (Nat.zero_le _) l.firstDataBlock_lt_blockCount
  have hlast := l.bitmapBlock_lt_blockCount .inode
  have hsuper := Nat.lt_trans (l.superblock_lt_bitmapBlock .inode) hlast
  refine ⟨Function.update (Function.update (Function.update (fun _ => .zero) superblockBlock
    l.superblock.toBlock) (Resource.inode.bitmapBlock l) inodes.bits)
      (Resource.block.bitmapBlock l) blocks.bits, fun d => ?_⟩
  obtain ⟨d1, hclear, hzero, -, hsize, hbehind⟩ := does_clearBlocks l.blockCount 0 d
  have hcleared (b : Nat) (hb : b < l.blockCount) : d1.block b = .zero := by
    rw [hzero, if_pos (by omega)]
  have hover : Disk.Overlays (fun _ => .zero) l.blockCount d d1 :=
    ⟨by simpa using hsize hpos, hcleared, hbehind _ (by omega)⟩
  refine ⟨_, hclear.bind ((does_device_writeBlock d1 superblockBlock _).bind ?_),
    ((hover.putBlock hsuper _).putBlock hlast _).putBlock (l.bitmapBlock_lt_blockCount .block) _,
    l.blank_putBlock hcleared ⟨hcountInodes, hgetInodes⟩ ⟨hcountBlocks, hgetBlocks⟩⟩
  rw [hinodes, hblocks]
  apply (Does.liftExcept _ _).bind
  rw [Layout.writeBitmap, Layout.writeBlock, if_pos hlast]
  refine (does_device_writeBlock _ _ _).bind ((Does.liftExcept _ _).bind ?_)
  rw [Layout.writeBitmap, Layout.writeBlock, if_pos (l.bitmapBlock_lt_blockCount .block)]
  exact does_device_writeBlock _ _ _

/-! ## The root directory -/

section

variable {s : Scene l}

/-- Nothing is in use but the root. -/
def Scene.OnlyRoot (s : Scene l) : Prop :=
  ∀ i, s.records.kind i = if i = rootInode then .directory else .free

/-- A volume that was just made: its directories are the root alone, which is empty. -/
structure Scene.New (s : Scene l) : Prop where
  good : s.Good
  mounted : s.mounted = true
  kind : ∀ i, s.records.kind i = if i = rootInode then .directory else .free
  tableBlock : s.records.tableBlock rootInode = l.firstDataBlock
  usedBlock : ∀ b, s.records.used .block b = decide (b ≤ l.firstDataBlock)
  empty : NameTree.HoldsNothing (s.records.table rootInode) rootInode rootInode

namespace Records.First

variable {c : Records} (h : c.First l)

include h

theorem lowestFree_inode : c.lowestFree .inode l.inodeCount = some rootInode := by
  refine lowestFree_eq_some_iff.mpr ⟨by decide, l.rootInode_lt_inodeCount, ?_, ?_⟩
  · rw [h.inode]
    rfl
  · intro j hpos hlt
    simp only [rootInode] at hlt
    omega

theorem lowestFree_block : c.lowestFree .block l.blockCount = some l.firstDataBlock := by
  have hstart := l.tableStart_lt_firstDataBlock
  refine lowestFree_eq_some_iff.mpr ⟨by omega, l.firstDataBlock_lt_blockCount, ?_, ?_⟩
  · rw [h.block]
    simp
  · intro j _ hlt
    rw [h.block]
    simpa using hlt

/-- Before there is a root, the bitmaps are exact and nothing is of any kind. -/
theorem exact : c.Exact l where
  blocks := by
    constructor
    · intro b hb
      rw [h.block]
      simpa using hb
    · intro b hb
      rw [h.block]
      apply iff_of_false (by simpa using hb)
      rintro ⟨i, slot, hlive, -⟩
      exact hlive (h.kind i)
    · rintro i slot b ⟨hlive, -⟩
      exact absurd (h.kind i) hlive
    · rintro i slot i' slot' b ⟨hlive, -⟩
      exact absurd (h.kind i) hlive
  inodes := by
    constructor
    · intro i
      rw [h.inode, h.kind]
      simp
    · intro i hi
      rw [h.inode, decide_eq_true_eq] at hi
      rw [hi]
      exact Nat.lt_trans (by decide) l.rootInode_lt_inodeCount
  table := by
    intro d hd
    rw [h.kind] at hd
    cases hd

end Records.First

/-- The scene with a root directory that holds nothing. -/
def Scene.addRoot (s : Scene l) : Scene l :=
  s.addDirectory rootInode l.firstDataBlock (Directory.firstRecord s.clock l.firstDataBlock)
    (Directory.firstEntries rootInode rootInode)

theorem does_addRoot (hm : s.mounted = true) (hfirst : s.records.First l) :
    Does (Directory.make rootInode) s
      (.ok ⟨rootInode, Directory.firstRecord s.clock l.firstDataBlock, l.firstDataBlock,
        Directory.firstEntries rootInode rootInode⟩) s.addRoot :=
  Directory.does_make hm hfirst.exact.reserves (by decide) hfirst.lowestFree_inode
    hfirst.lowestFree_block

/-- The root is made, and nothing else is there. -/
theorem Records.First.new_addRoot (hfirst : s.records.First l) (hm : s.mounted = true)
    (hcwd : s.cwd = rootInode) : s.addRoot.New := by
  have hexact := hfirst.exact
  obtain ⟨-, hlt, hfree, -⟩ := Records.lowestFree_eq_some_iff.mp hfirst.lowestFree_block
  let x := Directory.firstRecord s.clock l.firstDataBlock
  let t := Directory.firstEntries rootInode rootInode
  have hsmall : rootInode < UInt16.size := by decide
  have hx : x.kind = .directory := Directory.kind_firstRecord _ _
  have hp (k : Nat) : x.block? k = if k = 0 then some l.firstDataBlock else none :=
    Directory.block?_firstRecord _ (hexact.ne_zero_of_free hfree)
      (l.small_of_lt (r := .block) hlt) k
  have hrecords : s.addRoot.records = _ :=
    s.records_addDirectory (x := x) (t := t) l.rootInode_lt_inodeCount (Nat.le_refl _) hlt
  have hm' : s.addRoot.mounted = true := hm
  have hcwd' : s.addRoot.cwd = rootInode := hcwd
  generalize s.addRoot = s' at hm' hcwd' hrecords
  have hexact' : s'.records.Exact l := by
    rw [hrecords]
    exact hexact.addDirectory (hfirst.kind _) (by decide) l.rootInode_lt_inodeCount hfree hlt hx hp
  have hkind' (i : Nat) : s'.records.kind i = if i = rootInode then .directory else .free := by
    rw [hrecords, Records.kind_addInode, Records.kind_takeBlock, hfirst.kind, hx]
  have hblock : s'.records.tableBlock rootInode = l.firstDataBlock := by
    rw [hrecords, Records.tableBlock, Records.inode_addInode, if_pos rfl, hp, if_pos rfl]
    rfl
  have hused (b : Nat) : s'.records.used .block b = decide (b ≤ l.firstDataBlock) := by
    rw [hrecords, Records.used_addInode, if_neg (fun he => Resource.noConfusion he.1),
      Records.used_takeBlock, hfirst.block, Bool.eq_iff_iff]
    by_cases hb : b = l.firstDataBlock
    · simp [hb]
    · simp [hb, Nat.le_iff_lt_or_eq]
  have htable : s'.records.table rootInode = t := by
    rw [hrecords]
    exact Records.table_addDirectory_self hx (hp 0)
  have hempty : NameTree.HoldsNothing (s'.records.table rootInode) rootInode rootInode := by
    rw [htable]
    exact Directory.holdsNothing_firstEntries hsmall hsmall
  have hcwd'' : s'.records.kind s'.cwd = .directory := by rw [hcwd', hkind', if_pos rfl]
  exact ⟨⟨⟨hexact', .of_root hkind' hempty⟩, hcwd''⟩, hm', hkind', hblock, hused, hempty⟩

theorem Scene.New.onlyRoot (h : s.New) : s.OnlyRoot := h.kind

/-- The first file or directory beside the root gets the inode two. -/
theorem Scene.OnlyRoot.lowestFree_inode (h : s.OnlyRoot) (hs : s.Good)
    (hcount : 2 < l.inodeCount) : s.records.lowestFree .inode l.inodeCount = some 2 := by
  refine Records.lowestFree_eq_some_iff.mpr ⟨by decide, hcount, ?_, fun j hpos hlt => ?_⟩
  · rw [← Bool.not_eq_true, hs.tidy.inodes.used_iff, h]
    decide
  · have hj : j = rootInode := by
      simp only [rootInode]
      omega
    rw [hj]
    exact Records.used_of_kind_ne (Records.ne_free_of_directory hs.tidy.tree.root)

/-- Where there is nothing but the root, the root is empty. -/
theorem Scene.OnlyRoot.holdsNothing (h : s.OnlyRoot) (hs : s.Good) :
    NameTree.HoldsNothing (s.records.table rootInode) rootInode rootInode := by
  have hroot := hs.tidy.tree.root
  refine ⟨hs.tidy.tree.self _ hroot, ⟨hs.tidy.tree.rootParent, (hs.tidy.tree.up _ hroot).2⟩, ?_⟩
  intro slot hslot
  by_contra hused
  obtain ⟨hlive, hne⟩ := hs.tidy.tree.live rootInode slot _
    ⟨hroot, rfl, hused, hs.tidy.tree.named rootInode slot hroot hslot hused⟩
  exact hlive ((h _).trans (if_neg hne))

theorem Scene.OnlyRoot.cwd_eq (h : s.OnlyRoot) (hs : s.Good) : s.cwd = rootInode := by
  by_contra hne
  cases hs.cwd.symm.trans ((h _).trans (if_neg hne))

/-- A new volume has room for the first file or directory. -/
theorem Scene.New.lowestFree_inode (h : s.New) (hcount : 2 < l.inodeCount) :
    s.records.lowestFree .inode l.inodeCount = some 2 :=
  h.onlyRoot.lowestFree_inode h.good hcount

theorem Scene.New.lowestFree_block (h : s.New) (hcount : l.firstDataBlock + 1 < l.blockCount) :
    s.records.lowestFree .block l.blockCount = some (l.firstDataBlock + 1) := by
  refine Records.lowestFree_eq_some_iff.mpr ⟨Nat.succ_pos _, hcount, ?_, fun j _ hlt => ?_⟩
  · rw [h.usedBlock]
    simp
  · rw [h.usedBlock]
    simpa using Nat.le_of_lt_succ hlt

/-- Where there is no block but that of the root, a new volume is full. -/
theorem Scene.New.lowestFree_block_full (h : s.New)
    (hcount : l.blockCount = l.firstDataBlock + 1) :
    s.records.lowestFree .block l.blockCount = none := by
  refine Records.lowestFree_eq_none_iff.mpr fun b _ hlt => ?_
  rw [h.usedBlock]
  exact decide_eq_true (by omega)

/-- Nothing in a new volume is a file. -/
theorem Scene.New.kind_ne_file (h : s.New) (i : Nat) : s.records.kind i ≠ .file := by
  rw [h.kind]
  split
  · exact Kind.noConfusion
  · exact Kind.noConfusion

end

namespace Volume

/-- An accepted shape gives a volume without a root, and then the root is added.  The blocks of the
former depend on nothing but the shape. -/
theorem format_addRoot {g : Geometry} (hl : Layout.ofGeometry g = .ok l) : ∃ bs : Blocks,
    ∀ (d : Disk) (history : History) (clock : Int), ∃ (st : Store l) (history' : History),
      format g (unmounted ⟨d, .never, history⟩ clock)
          = .ok () (Settled.state (Scene.addRoot ⟨st, clock, true, rootInode⟩) history') ∧
        Disk.Overlays bs l.blockCount d st.disk ∧ l.Blank st.block := by
  obtain ⟨bs, hwritten⟩ := does_writeEmpty l
  refine ⟨bs, fun d history clock => ?_⟩
  obtain ⟨d', hwrite, hover, hblank⟩ := hwritten d
  let st : Store l := ⟨d', hover.covers, by rw [hblank.signed, Superblock.ofBlock_toBlock]⟩
  let s : Scene l := ⟨st, clock, false, rootInode⟩
  let s1 : Scene l := { s with mounted := true, cwd := rootInode }
  have hrest : Does (do
      mount
      let root ← Directory.make rootInode
      unless root.index = rootInode do throw .corruptVolume) s (.ok ()) s1.addRoot := by
    refine does_mount.bind ((does_addRoot (s := s1) rfl hblank.first).bind ?_)
    exact Does.pure _ _
  obtain ⟨h1, hwrite⟩ := hwrite history
  obtain ⟨h2, hrest⟩ := hrest h1
  refine ⟨st, h2, ?_, hover, hblank⟩
  have hdevice : onDevice l.writeEmpty (unmounted ⟨d, .never, history⟩ clock)
      = .ok () (Settled.state s h1) := by
    simp only [Settled.state] at hwrite
    simp only [onDevice, unmounted, hwrite, withState]
    rfl
  rw [format, hl]
  change EStateM.bind (onDevice l.writeEmpty) _ _ = _
  rw [EStateM.bind, hdevice]
  exact hrest

/-- Whatever is on the disk, an accepted shape gives a new volume. -/
theorem format_eq {g : Geometry} (hl : Layout.ofGeometry g = .ok l) (d : Disk) (clock : Int) :
    ∃ (s : Scene l) (h : History),
      format g (unmounted (.reliable d) clock) = .ok () (Settled.state s h) ∧ s.New := by
  obtain ⟨bs, hformat⟩ := format_addRoot hl
  obtain ⟨st, history, hformat, -, hblank⟩ := hformat d ⟨0, 0⟩ clock
  have hfirst : (Scene.mk st clock true rootInode).records.First l := hblank.first
  exact ⟨_, history, hformat, hfirst.new_addRoot rfl rfl⟩

/-- A shape that is not accepted makes nothing. -/
theorem exists_layout_of_format {g : Geometry} {v v' : Volume} (h : format g v = .ok () v') :
    ∃ l, Layout.ofGeometry g = .ok l := by
  match hl : Layout.ofGeometry g with
  | .ok l => exact ⟨l, rfl⟩
  | .error e =>
    rw [format, hl] at h
    cases h

end Volume

end BlockFS
