import BlockFS.Proofs.DiskBlocks
import BlockFS.Proofs.Evaluation
import BlockFS.Proofs.Records

/-!
# Stores

A store is a disk that holds a volume of a given layout: it has all blocks of the volume, and its
superblock is that of the layout.  The records of the volume are read off a store and put into it by
pure functions, and what one of them does to the other records is told by equations.
-/

namespace BlockFS

/-! ## Data laid over a disk -/

namespace Disk

/-- The disk with data laid over block `i` from byte `start` on. -/
@[irreducible]
def writeOver (d : Disk) (i start : Nat) (data : List UInt8) : Disk :=
  let d' := d.putBlock i ((d.block i).write start data)
  let rest := data.drop (blockSize - start)
  if rest.isEmpty then d' else d'.putBlock (i + 1) ((d'.block (i + 1)).write 0 rest)

/-- The disk with another record of an inode of a volume. -/
def putInode (d : Disk) (l : Layout) (i : Nat) (x : Inode) : Disk :=
  d.writeOver (l.tableStart + i * inodeRecordSize / blockSize) (i * inodeRecordSize % blockSize)
    x.encode.toList

theorem block_putBlock_eq_update (d : Disk) (i : Nat) (b : Block) :
    (d.putBlock i b).block = Function.update d.block i b := by
  funext j
  rw [block_putBlock, Function.update_apply]

theorem block_writeOver (d : Disk) (i start : Nat) (data : List UInt8) :
    (d.writeOver i start data).block = Blocks.writeOver d.block i start data := by
  rw [writeOver, Blocks.writeOver]
  split
  · exact d.block_putBlock_eq_update i _
  · rw [block_putBlock_eq_update, block_putBlock_eq_update]

theorem block_putInode (d : Disk) (l : Layout) (i : Nat) (x : Inode) :
    (d.putInode l i x).block = l.putInode d.block i x :=
  d.block_writeOver _ _ _

end Disk

/-! ## Stores and their blocks -/

/-- A disk that holds a volume of a layout. -/
structure Store (l : Layout) where
  disk : Disk
  covers : 2 * l.blockCount ≤ disk.sectors.size
  signed : Superblock.ofBlock (disk.block superblockBlock) = l.superblock

namespace Store

variable {l : Layout}

/-- The blocks of the volume. -/
def block (st : Store l) : Blocks := st.disk.block

/-- The store with another block `i`.  The superblock is never replaced. -/
@[irreducible]
def putBlock (st : Store l) (i : Nat) (b : Block) : Store l :=
  if h : i = superblockBlock then st
  else
    { disk := st.disk.putBlock i b
      covers := by
        rw [Disk.size_sectors_putBlock]
        exact Nat.le_trans st.covers (Nat.le_max_left _ _)
      signed := by
        rw [Disk.block_putBlock, if_neg (Ne.symm h)]
        exact st.signed }

theorem disk_putBlock (st : Store l) {i : Nat} (b : Block) (h : superblockBlock < i) :
    (st.putBlock i b).disk = st.disk.putBlock i b := by
  rw [putBlock, dif_neg (Nat.ne_of_gt h)]

theorem block_putBlock (st : Store l) {i : Nat} (b : Block) (h : superblockBlock < i) :
    (st.putBlock i b).block = Function.update st.block i b := by
  rw [block, st.disk_putBlock b h]
  exact st.disk.block_putBlock_eq_update i b

/-- The records that the store holds. -/
def records (st : Store l) : Records := l.records st.block

theorem used_records (st : Store l) (r : Resource) (i : Nat) :
    st.records.used r i = (l.bitmap st.block r).get i := rfl

/-- The store with an item in use or not. -/
def mark (st : Store l) (r : Resource) (i : Nat) (used : Bool) : Store l :=
  st.putBlock (r.bitmapBlock l) ((l.bitmap st.block r).mark i used).bits

/-- The store with data laid over block `i` from byte `start` on. -/
@[irreducible]
def writeOver (st : Store l) (i start : Nat) (data : List UInt8) : Store l :=
  let st' := st.putBlock i ((st.block i).write start data)
  let rest := data.drop (blockSize - start)
  if rest.isEmpty then st' else st'.putBlock (i + 1) ((st'.block (i + 1)).write 0 rest)

/-- The store with another record of an inode. -/
def putInode (st : Store l) (i : Nat) (x : Inode) : Store l :=
  st.writeOver (l.tableStart + i * inodeRecordSize / blockSize) (i * inodeRecordSize % blockSize)
    x.encode.toList

theorem disk_writeOver (st : Store l) {i : Nat} (start : Nat) (data : List UInt8)
    (h : superblockBlock < i) :
    (st.writeOver i start data).disk = st.disk.writeOver i start data := by
  rw [writeOver, Disk.writeOver]
  split
  · exact st.disk_putBlock _ h
  · simp only [disk_putBlock _ _ (Nat.lt_succ_of_lt h), block, st.disk_putBlock _ h]

theorem disk_putInode (st : Store l) (i : Nat) (x : Inode) :
    (st.putInode i x).disk = st.disk.putInode l i x :=
  st.disk_writeOver _ _ (l.superblock_lt_inodeBlock i)

theorem block_writeOver (st : Store l) {i : Nat} (start : Nat) (data : List UInt8)
    (h : superblockBlock < i) :
    (st.writeOver i start data).block = st.block.writeOver i start data := by
  rw [block, st.disk_writeOver start data h]
  exact st.disk.block_writeOver i start data

theorem records_mark (st : Store l) {r : Resource} {i : Nat} (hi : i < r.count l) (used : Bool) :
    (st.mark r i used).records = st.records.mark r i used := by
  rw [records, mark, st.block_putBlock _ (l.superblock_lt_bitmapBlock r)]
  exact l.records_mark st.block hi used

theorem records_putInode (st : Store l) {i : Nat} (hi : i < l.inodeCount) (x : Inode) :
    (st.putInode i x).records = st.records.putInode i x := by
  rw [records, putInode, st.block_writeOver _ _ (l.superblock_lt_inodeBlock i)]
  exact l.records_putInode st.block hi x

theorem records_putBlock (st : Store l) {i : Nat} (hi : l.firstDataBlock ≤ i)
    (hc : i < l.blockCount) (b : Block) :
    (st.putBlock i b).records = st.records.putBlock i b := by
  have hd : superblockBlock < i :=
    Nat.lt_of_lt_of_le
      (Nat.lt_trans l.superblock_lt_tableStart l.tableStart_lt_firstDataBlock) hi
  rw [records, st.block_putBlock b hd]
  exact l.records_update st.block hi hc b

instance : Settled (Store l) Device where
  state st history := ⟨st.disk, .never, history⟩

end Store

/-! ## Transfers of blocks -/

instance : Settled Disk Device where
  state disk history := ⟨disk, .never, history⟩

theorem does_readSector {d : Disk} {k : Nat} (h : k < d.sectors.size) :
    Does (Device.readSector k) d (.ok (d.sector k)) d := by
  intro history
  refine ⟨{ history with asked := history.asked + 1 }, ?_⟩
  simp only [Settled.state, Device.readSector, FaultPlan.never, Disk.sector?_of_lt h, withState]

theorem does_writeSector (d : Disk) (k : Nat) (s : Sector) :
    Does (Device.writeSector k s) d (.ok ()) (d.writeSector k s) := by
  intro history
  exact ⟨⟨history.asked + 1, history.written + 1⟩, rfl⟩

theorem does_device_readBlock {d : Disk} {i : Nat} (h : 2 * i + 1 < d.sectors.size) :
    Does (Device.readBlock i) d (.ok (d.block i)) d := by
  apply (does_readSector (by omega)).bind
  apply (does_readSector h).bind
  exact Does.pure _ _

theorem does_device_writeBlock (d : Disk) (i : Nat) (b : Block) :
    Does (Device.writeBlock i b) d (.ok ()) (d.putBlock i b) :=
  (does_writeSector d (2 * i) b.lower).bind (does_writeSector _ (2 * i + 1) b.upper)

namespace Layout

variable {l : Layout} {d : Disk} {i : Nat}

theorem does_readBlock (h : i < l.blockCount) (hd : 2 * i + 1 < d.sectors.size) :
    Does (l.readBlock i) d (.ok (d.block i)) d := by
  rw [readBlock, if_pos h]
  exact does_device_readBlock hd

theorem does_writeBlock (d : Disk) (b : Block) (h : i < l.blockCount) :
    Does (l.writeBlock i b) d (.ok ()) (d.putBlock i b) := by
  rw [writeBlock, if_pos h]
  exact does_device_writeBlock d i b

end Layout

namespace Store

variable {l : Layout}

theorem does_readBlock (st : Store l) {i : Nat} (h : i < l.blockCount) :
    Does (l.readBlock i) st (.ok (st.block i)) st := by
  have hsize : 2 * i + 1 < st.disk.sectors.size := by
    have := st.covers
    omega
  exact Layout.does_readBlock h hsize

theorem does_writeBlock (st : Store l) {i : Nat} (b : Block)
    (h : i < l.blockCount) (hi : superblockBlock < i) :
    Does (l.writeBlock i b) st (.ok ()) (st.putBlock i b) := by
  intro history
  obtain ⟨history', hw⟩ := Layout.does_writeBlock st.disk b h history
  refine ⟨history', ?_⟩
  simp only [Settled.state, st.disk_putBlock b hi] at hw ⊢
  exact hw

theorem does_readBitmap (st : Store l) (r : Resource) :
    Does (l.readBitmap r) st (.ok (l.bitmap st.block r)) st := by
  apply (st.does_readBlock (l.bitmapBlock_lt_blockCount r)).bind
  exact Does.pure _ _

end Store

/-! ## Transfers of inode records -/

theorem Layout.inodePlace_eq (l : Layout) {i : Nat} (hi : i < l.inodeCount) :
    l.superblock.inodePlace i =
      .ok (l.tableStart + i * inodeRecordSize / blockSize, i * inodeRecordSize % blockSize) := by
  have hfirst := l.inodeBlock_lt hi
  have hdata : l.firstDataBlock < UInt32.size := l.superblock.firstDataBlock.toNat_lt
  have hword : (l.superblock.tableStart + .ofNat (i * inodeRecordSize / blockSize)).toNat
      = l.tableStart + i * inodeRecordSize / blockSize := by
    rw [UInt32.toNat_add, UInt32.toNat_ofNat']
    have hsmall : i * inodeRecordSize / blockSize < UInt32.size := by omega
    rw [Nat.mod_eq_of_lt hsmall]
    exact Nat.mod_eq_of_lt (Nat.lt_trans hfirst hdata)
  rw [Superblock.inodePlace]
  simp only [hword]
  exact if_pos hi

theorem Layout.inodePlace_of_le {l : Layout} {i : Nat} (h : l.inodeCount ≤ i) :
    l.superblock.inodePlace i = .error .notFound :=
  if_neg (Nat.not_lt_of_le h)

namespace Layout

variable {l : Layout} {d : Disk} {i : Nat} (hd : 2 * l.firstDataBlock ≤ d.sectors.size)
  (hi : i < l.inodeCount)

include hd hi

theorem does_readInode : Does (l.readInode i) d (.ok (l.inode d.block i)) d := by
  have hfirst := l.inodeBlock_lt hi
  have hdata := l.firstDataBlock_lt_blockCount
  have hstart := Nat.mod_lt (i * inodeRecordSize) blockSize_pos
  unfold readInode
  rw [l.inodePlace_eq hi]
  apply (Does.liftExcept _ _).bind
  apply (does_readBlock (by omega) (by omega)).bind
  simp only [Bytes.length_read]
  split
  · next hshort =>
    have hlen : min inodeRecordSize (blockSize - i * inodeRecordSize % blockSize)
        = blockSize - i * inodeRecordSize % blockSize := by omega
    have hnext := l.inodeNext_lt hi (by omega)
    apply (does_readBlock (by omega) (by omega)).bind
    rw [hlen, l.inodeBytes_eq_read_append (by omega)]
    exact Does.pure _ _
  · next hlong =>
    rw [l.inodeBytes_eq_read (by omega)]
    exact Does.pure _ _

theorem does_writeInode (x : Inode) :
    Does (l.writeInode i x) d (.ok ()) (d.putInode l i x) := by
  have hfirst := l.inodeBlock_lt hi
  have hdata := l.firstDataBlock_lt_blockCount
  unfold writeInode
  rw [l.inodePlace_eq hi]
  apply (Does.liftExcept _ _).bind
  apply (does_readBlock (by omega) (by omega)).bind
  apply (does_writeBlock d _ (by omega)).bind
  simp only [Disk.putInode, Disk.writeOver]
  split
  · exact Does.pure _ _
  · next hrest =>
    have hspill : blockSize < i * inodeRecordSize % blockSize + inodeRecordSize := by
      simp at hrest
      omega
    have hnext := l.inodeNext_lt hi hspill
    apply (does_readBlock (by omega) (by rw [Disk.size_sectors_putBlock]; omega)).bind
    exact does_writeBlock _ _ (by omega)

end Layout

namespace Store

variable {l : Layout} {i : Nat}

theorem covers_table (st : Store l) : 2 * l.firstDataBlock ≤ st.disk.sectors.size :=
  Nat.le_trans (Nat.mul_le_mul_left 2 (Nat.le_of_lt l.firstDataBlock_lt_blockCount)) st.covers

theorem does_readInode (st : Store l) (hi : i < l.inodeCount) :
    Does (l.readInode i) st (.ok (l.inode st.block i)) st :=
  Layout.does_readInode st.covers_table hi

theorem does_writeInode (st : Store l) (hi : i < l.inodeCount) (x : Inode) :
    Does (l.writeInode i x) st (.ok ()) (st.putInode i x) := by
  intro history
  obtain ⟨history', hw⟩ := Layout.does_writeInode st.covers_table hi x history
  refine ⟨history', ?_⟩
  simp only [Settled.state, st.disk_putInode] at hw ⊢
  exact hw

end Store

end BlockFS
