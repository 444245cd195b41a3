import BlockFS.Proofs.Machine
import BlockFS.Proofs.MetadataBlocks

/-!
# Records on a machine

Blocks, bitmaps and inode records as a machine finds, reads and writes them.  Nothing is assumed of
what lies on the device: the checks of the superblock, which a layout has passed, keep every place
that is computed from it inside of the volume and of its word.
-/

namespace BlockFS.Machine

variable {ε τ : Type}

/-! ## Transfers -/

/-- Reads sector `k` of a device whose sectors below `bound` belong to the volume. -/
def readSector (bound k : Nat) : Action Error Device Sector := do
  let _ ← word 64 (k * sectorSize)
  if k < bound then plain (Device.readSector k) else crash .outside

/-- Writes sector `k` of a device whose sectors below `bound` belong to the volume. -/
def writeSector (bound k : Nat) (s : Sector) : Action Error Device Unit := do
  let _ ← word 64 (k * sectorSize)
  if k < bound then plain (Device.writeSector k s) else crash .outside

/-- Reads the two sectors of a block. -/
def fetchBlock (bound index : Nat) : Action Error Device Block := do
  let first ← word 64 (index * 2)
  let lower ← readSector bound first
  let second ← word 64 (first + 1)
  let upper ← readSector bound second
  return .ofSectors lower upper

/-- Writes the two sectors of a block. -/
def storeBlock (bound index : Nat) (b : Block) : Action Error Device Unit := do
  let first ← word 64 (index * 2)
  writeSector bound first b.lower
  let second ← word 64 (first + 1)
  writeSector bound second b.upper

section

variable {bound k blocks i : Nat}

theorem readSector_eq (hk : k < bound) (hb : bound ≤ 2 * itemsPerBitmap) :
    readSector bound k = plain (Device.readSector k) := by
  have hword : k * sectorSize < 2 ^ 64 := by
    simp only [itemsPerBitmap, blockSize, sectorSize] at hb ⊢
    omega
  rw [readSector, word_eq hword, pure_bind, if_pos hk]

theorem writeSector_eq (hk : k < bound) (hb : bound ≤ 2 * itemsPerBitmap) (s : Sector) :
    writeSector bound k s = plain (Device.writeSector k s) := by
  have hword : k * sectorSize < 2 ^ 64 := by
    simp only [itemsPerBitmap, blockSize, sectorSize] at hb ⊢
    omega
  rw [writeSector, word_eq hword, pure_bind, if_pos hk]

/-- The sectors of a block have numbers of one word. -/
theorem sectors_lt (hi : i < blocks) (hb : blocks ≤ itemsPerBitmap) :
    i * 2 < 2 ^ 64 ∧ 2 * i + 1 < 2 ^ 64 := by
  simp only [itemsPerBitmap, blockSize] at hb
  omega

theorem fetchBlock_eq (hi : i < blocks) (hb : blocks ≤ itemsPerBitmap) :
    fetchBlock (2 * blocks) i = plain (Device.readBlock i) := by
  obtain ⟨hfirst, hsecond⟩ := sectors_lt hi hb
  have hbound : 2 * blocks ≤ 2 * itemsPerBitmap := Nat.mul_le_mul_left 2 hb
  rw [fetchBlock, word_eq hfirst, pure_bind, Nat.mul_comm i 2, word_eq hsecond]
  simp only [pure_bind, readSector_eq (show 2 * i < 2 * blocks by omega) hbound,
    readSector_eq (show 2 * i + 1 < 2 * blocks by omega) hbound, Device.readBlock, plain_bind,
    plain_pure]

theorem storeBlock_eq (hi : i < blocks) (hb : blocks ≤ itemsPerBitmap) (b : Block) :
    storeBlock (2 * blocks) i b = plain (Device.writeBlock i b) := by
  obtain ⟨hfirst, hsecond⟩ := sectors_lt hi hb
  have hbound : 2 * blocks ≤ 2 * itemsPerBitmap := Nat.mul_le_mul_left 2 hb
  rw [storeBlock, word_eq hfirst, pure_bind, Nat.mul_comm i 2, word_eq hsecond]
  simp only [pure_bind, writeSector_eq (show 2 * i < 2 * blocks by omega) hbound,
    writeSector_eq (show 2 * i + 1 < 2 * blocks by omega) hbound, Device.writeBlock, plain_bind]

end

/-! ## Superblocks -/

/-- Checks a superblock. -/
def validate (s : Superblock) : Action Error τ Unit :=
  if s.magic ≠ signature then fail .corruptVolume
  else if ¬ (superblockBlock < s.inodeBitmapBlock.toNat ∧ s.inodeBitmapBlock < s.blockBitmapBlock
      ∧ s.blockBitmapBlock < s.tableStart ∧ s.tableStart < s.firstDataBlock
      ∧ s.firstDataBlock < s.blockCount) then fail .corruptVolume
  else if itemsPerBitmap < s.blockCount.toNat ∨ itemsPerBitmap < s.inodeCount.toNat then
    fail .corruptVolume
  else if s.inodeCount.toNat ≤ rootInode then fail .corruptVolume
  else do
    let blocks ← difference s.firstDataBlock.toNat s.tableStart.toNat
    let tableBytes ← word 64 (blocks * blockSize)
    let needed ← word 64 (s.inodeCount.toNat * inodeRecordSize)
    if tableBytes < needed then fail .corruptVolume else return ()

/-- The checks of a machine are those that make a superblock valid. -/
theorem validate_eq (s : Superblock) :
    (validate s : Action Error τ Unit) = if s.Valid then pure () else fail .corruptVolume := by
  have hdata := s.firstDataBlock.toNat_lt
  have hinodes := s.inodeCount.toNat_lt
  have hneeded : s.inodeCount.toNat * inodeRecordSize < 2 ^ 64 := by
    simp only [inodeRecordSize]
    omega
  have hbytes : (s.firstDataBlock.toNat - s.tableStart.toNat) * blockSize < 2 ^ 64 := by
    simp only [blockSize]
    omega
  unfold validate
  split
  · next h => exact (if_neg fun hs => h hs.magic).symm
  next hmagic =>
  split
  · next h =>
    exact (if_neg fun hs => h ⟨hs.inodeBitmap, hs.blockBitmap, hs.inodeTable, hs.data,
      hs.inside⟩).symm
  next hordered =>
  rw [not_not] at hordered
  obtain ⟨hbitmap, hbitmaps, htable, hstart, hinside⟩ := hordered
  split
  · next h => exact (if_neg fun hs =>
      h.elim (Nat.not_lt_of_ge hs.blocks) (Nat.not_lt_of_ge hs.inodes)).symm
  next hfits =>
  rw [not_or, Nat.not_lt, Nat.not_lt] at hfits
  split
  · next h => exact (if_neg fun hs => Nat.not_lt_of_ge h hs.root).symm
  next hroot =>
  have hle : s.tableStart.toNat ≤ s.firstDataBlock.toNat :=
    Nat.le_of_lt (UInt32.lt_iff_toNat_lt.mp hstart)
  rw [difference_eq hle, pure_bind, word_eq hbytes, pure_bind, word_eq hneeded, pure_bind]
  split
  · next h => exact (if_neg fun hs => Nat.not_lt_of_ge hs.table h).symm
  · next h =>
    exact (if_pos ⟨not_not.mp hmagic, hbitmap, hbitmaps, htable, hstart, hinside, hfits.1, hfits.2,
      Nat.lt_of_not_ge hroot, Nat.le_of_not_lt h⟩).symm

/-- The layout that a superblock tells, if it passes the checks. -/
def check (s : Superblock) : Action Error τ Layout := do
  validate s
  plain (liftExcept (Layout.check s))

theorem check_eq (s : Superblock) :
    (check s : Action Error τ Layout) = plain (liftExcept (Layout.check s)) := by
  rw [check, validate_eq]
  by_cases hs : s.Valid
  · rw [if_pos hs, pure_bind]
  · rw [if_neg hs, fail_bind, Layout.check, dif_neg hs]
    rfl

/-- Reads and checks the superblock.  Its sectors are transferred before it is known how large the
volume is; that they lie in the volume is seen afterwards. -/
def readLayout : Action Error Device Layout := do
  let b ← fetchBlock (2 * (superblockBlock + 1)) superblockBlock
  let l ← check (.ofBlock b)
  if superblockBlock < l.blockCount then return l else crash .outside

theorem superblock_lt_blockCount (l : Layout) : superblockBlock < l.blockCount :=
  Nat.lt_trans (l.superblock_lt_bitmapBlock .inode) (l.bitmapBlock_lt_blockCount .inode)

theorem readLayout_eq : readLayout = plain Device.readLayout := by
  rw [readLayout, fetchBlock_eq (Nat.lt_succ_self _) (by decide), Device.readLayout, plain_bind]
  refine bind_congr fun b => ?_
  rw [check_eq]
  cases Layout.check (.ofBlock b) with
  | ok l =>
    change (if superblockBlock < l.blockCount then pure l else crash .outside) = _
    rw [if_pos (superblock_lt_blockCount l)]
    rfl
  | error e => rfl

/-! ## Blocks -/

/-- Reads a block of the volume. -/
def readBlock (l : Layout) (index : Nat) : Action Error Device Block :=
  if index < l.blockCount then fetchBlock (2 * l.blockCount) index else fail .corruptVolume

/-- Writes a block of the volume. -/
def writeBlock (l : Layout) (index : Nat) (b : Block) : Action Error Device Unit :=
  if index < l.blockCount then storeBlock (2 * l.blockCount) index b else fail .corruptVolume

@[simp]
theorem readBlock_eq (l : Layout) (i : Nat) : readBlock l i = plain (l.readBlock i) := by
  rw [readBlock, Layout.readBlock, plain_ite, plain_throw]
  split
  · next hi => exact fetchBlock_eq hi l.valid.blocks
  · rfl

@[simp]
theorem writeBlock_eq (l : Layout) (i : Nat) (b : Block) :
    writeBlock l i b = plain (l.writeBlock i b) := by
  rw [writeBlock, Layout.writeBlock, plain_ite, plain_throw]
  split
  · next hi => exact storeBlock_eq hi l.valid.blocks b
  · rfl

/-- Copies data over the bytes from `start` to `stop`, of which there must be as many. -/
def copyOver {n : Nat} (v : Bytes n) (start stop : Nat) (data : List UInt8) :
    Action ε τ (Bytes n) := do
  let length ← range start stop n
  if data.length = length then return v.write start data else crash .range

theorem copyOver_eq {n start stop : Nat} {v : Bytes n} {data : List UInt8}
    (h : start + data.length = stop) (h' : stop ≤ n) :
    (copyOver v start stop data : Action ε τ (Bytes n)) = pure (v.write start data) := by
  rw [copyOver, range_eq (by omega) h', pure_bind, if_pos (by omega)]

/-- Reads bytes of a block into a buffer of some length, as far as both go. -/
def readBytes (b : Block) (position length : Nat) : Action ε τ (List UInt8) := do
  let room ← difference blockSize position
  let count := min length room
  let _ ← range 0 count length
  let stop ← word 64 (position + count)
  cut b.toList position stop

/-- Writes data into a block as far as it fits, and tells what is left of it. -/
def writeBytes (b : Block) (position : Nat) (data : List UInt8) :
    Action ε τ (Block × List UInt8) := do
  let room ← difference blockSize position
  let count := min data.length room
  let head ← cut data 0 count
  let rest ← cut data count data.length
  let stop ← word 64 (position + count)
  let written ← copyOver b position stop head
  return (written, rest)

/-- Reading that reaches past the end of the bytes is cut there. -/
theorem read_min {n : Nat} (v : Bytes n) (start count : Nat) :
    v.read start (min count (n - start)) = v.read start count := by
  rw [Bytes.read, Bytes.read]
  refine List.take_eq_take_iff.mpr ?_
  rw [List.length_drop, Vector.length_toList, Nat.min_assoc, Nat.min_self]

theorem readBytes_eq {position : Nat} (h : position ≤ blockSize) (b : Block) (length : Nat) :
    (readBytes b position length : Action ε τ (List UInt8)) = pure (b.read position length) := by
  have hlength : b.toList.length = blockSize := b.length_toList
  have hword : position + min length (blockSize - position) < 2 ^ 64 := by
    simp only [blockSize] at h ⊢
    omega
  rw [readBytes, difference_eq h, pure_bind]
  dsimp only
  rw [range_eq (Nat.zero_le _) (Nat.min_le_left _ _), pure_bind, word_eq hword, pure_bind,
    cut_eq (Nat.le_add_right _ _) (by omega), Nat.add_sub_cancel_left, ← Bytes.read, read_min]

/-- Data that reaches past the end of the bytes is cut there. -/
theorem write_take {n : Nat} (v : Bytes n) {start : Nat} (data : List UInt8) :
    v.write start (data.take (min data.length (n - start))) = v.write start data := by
  refine Vector.ext fun i hi => ?_
  rw [Bytes.getElem_write, Bytes.getElem_write, List.getElem?_take]
  by_cases hdata : i - start < min data.length (n - start)
  · rw [if_pos hdata]
  · rw [if_neg hdata]
    split
    · rw [List.getElem?_eq_none (by omega)]
    · rfl

theorem writeBytes_eq {position : Nat} (h : position ≤ blockSize) (b : Block) (data : List UInt8) :
    (writeBytes b position data : Action ε τ (Block × List UInt8))
      = pure (b.write position data, data.drop (blockSize - position)) := by
  have hword : position + min data.length (blockSize - position) < 2 ^ 64 := by
    simp only [blockSize] at h ⊢
    omega
  have hhead : (data.take (min data.length (blockSize - position))).length
      = min data.length (blockSize - position) := by
    rw [List.length_take]
    omega
  have hrest : data.drop (min data.length (blockSize - position))
      = data.drop (blockSize - position) := by
    rcases Nat.le_total data.length (blockSize - position) with hle | hle
    · rw [Nat.min_eq_left hle, List.drop_eq_nil_of_le (Nat.le_refl _), List.drop_eq_nil_of_le hle]
    · rw [Nat.min_eq_right hle]
  rw [writeBytes, difference_eq h, pure_bind]
  dsimp only
  rw [cut_eq (Nat.zero_le _) (Nat.min_le_left _ _), pure_bind,
    cut_eq (Nat.min_le_left _ _) (Nat.le_refl _), pure_bind, word_eq hword, pure_bind,
    List.drop_zero, Nat.sub_zero, copyOver_eq (by rw [hhead]) (by omega), pure_bind, write_take,
    List.take_of_length_le (Nat.le_of_eq List.length_drop), hrest]

/-! ## Bitmaps -/

/-- Whether an item is in use; there is none past the end. -/
def isUsed (b : Bitmap) (i : Nat) : Action ε τ Bool :=
  if b.count ≤ i then return false
  else do
    let byte ← item b.bits (i / 8)
    -- a byte cannot be shifted by more than seven bits
    let column ← word 3 (i % 8)
    return Bitmap.bit byte column

/-- Sets or clears the bit of an item. -/
def mark (b : Bitmap) (i : Nat) (used : Bool) : Action Error τ Bitmap :=
  if b.count ≤ i then fail .notFound
  else do
    let byte ← item b.bits (i / 8)
    let column ← word 3 (i % 8)
    return { b with bits := b.bits.setIfInBounds (i / 8) (Bitmap.setBit byte column used) }

/-- The first free item from `start` on; there are none if the bitmap ends before. -/
def firstFree (b : Bitmap) (start : Nat) : Action ε τ (Option Nat) :=
  (List.range' start (b.count - start)).findM? fun i => do return !(← isUsed b i)

/-- The number of items in use. -/
def usedCount (b : Bitmap) : Action ε τ Nat := do
  let items ← (List.range b.count).mapM (isUsed b)
  narrow 32 (items.count true)

/-- The number of free items. -/
def freeCount (b : Bitmap) : Action ε τ Nat := do
  difference b.count (← usedCount b)

section

variable {b : Bitmap} {i : Nat}

/-- A byte tells of eight items. -/
theorem column_lt (i : Nat) : i % 8 < 2 ^ 3 := Nat.mod_lt _ (by decide)

/-- The byte that tells of an item lies in the block. -/
theorem item_bits (h : b.count ≤ itemsPerBitmap) (hi : ¬ b.count ≤ i) :
    (item b.bits (i / 8) : Action ε τ UInt8) = pure (b.byte i) := by
  have hrow : i / 8 < blockSize := by
    simp only [itemsPerBitmap, blockSize] at h ⊢
    omega
  rw [item_eq hrow, Bitmap.byte, Vector.getElem?_eq_getElem hrow, Option.getD_some]

theorem isUsed_eq (h : b.count ≤ itemsPerBitmap) (i : Nat) :
    (isUsed b i : Action ε τ Bool) = pure (b.get i) := by
  rw [isUsed, Bitmap.get]
  split
  · next hi => rw [decide_eq_false (Nat.not_lt.mpr hi), Bool.false_and]
  · next hi =>
    rw [item_bits h hi, pure_bind, word_eq (column_lt i), pure_bind,
      decide_eq_true (Nat.lt_of_not_ge hi), Bool.true_and]

theorem mark_eq (h : b.count ≤ itemsPerBitmap) (i : Nat) (used : Bool) :
    (mark b i used : Action Error τ Bitmap) = plain (liftExcept (b.set i used)) := by
  rw [mark, Bitmap.set]
  split
  · next hi =>
    rw [if_neg (Nat.not_lt.mpr hi)]
    rfl
  · next hi =>
    rw [item_bits h hi, pure_bind, word_eq (column_lt i), pure_bind,
      if_pos (Nat.lt_of_not_ge hi)]
    rfl

theorem firstFree_eq (h : b.count ≤ itemsPerBitmap) (start : Nat) :
    (firstFree b start : Action ε τ (Option Nat)) = pure (b.firstFree start) := by
  simp only [firstFree, isUsed_eq h, pure_bind]
  exact List.findM?_pure _ _

theorem usedCount_le (b : Bitmap) : b.usedCount ≤ b.count :=
  Nat.le_trans List.countP_le_length (Nat.le_of_eq List.length_range)

theorem usedCount_eq (h : b.count ≤ itemsPerBitmap) :
    (usedCount b : Action ε τ Nat) = pure b.usedCount := by
  have hcount : ((List.range b.count).map b.get).count true = b.usedCount := by
    rw [List.count, List.countP_map, Bitmap.usedCount]
    refine List.countP_congr fun i _ => ?_
    simp
  have hnarrow : b.usedCount < 2 ^ 32 := by
    have := usedCount_le b
    simp only [itemsPerBitmap, blockSize] at h
    omega
  have hitems : (List.range b.count).mapM (isUsed b)
      = (pure ((List.range b.count).map b.get) : Action ε τ (List Bool)) := by
    rw [funext (isUsed_eq h)]
    exact List.mapM_pure
  rw [usedCount, hitems, pure_bind, hcount, narrow_eq hnarrow]

theorem freeCount_eq (h : b.count ≤ itemsPerBitmap) :
    (freeCount b : Action ε τ Nat) = pure b.freeCount := by
  rw [freeCount, usedCount_eq h, pure_bind, difference_eq (usedCount_le b), Bitmap.freeCount]

end

/-- Reads a bitmap. -/
def readBitmap (l : Layout) (r : Resource) : Action Error Device Bitmap := do
  return ⟨← readBlock l (r.bitmapBlock l), r.count l⟩

/-- Writes a bitmap. -/
def writeBitmap (l : Layout) (r : Resource) (b : Bitmap) : Action Error Device Unit :=
  writeBlock l (r.bitmapBlock l) b.bits

@[simp]
theorem readBitmap_eq (l : Layout) (r : Resource) : readBitmap l r = plain (l.readBitmap r) := by
  simp only [readBitmap, Layout.readBitmap, readBlock_eq, plain_bind, plain_pure]

@[simp]
theorem writeBitmap_eq (l : Layout) (r : Resource) (b : Bitmap) :
    writeBitmap l r b = plain (l.writeBitmap r b) := writeBlock_eq ..

/-! ## Inode records -/

/-- The block in which the record of an inode begins, and the byte of the block at which it does. -/
def inodePlace (s : Superblock) (index : Nat) : Action Error τ (Nat × Nat) :=
  if s.inodeCount.toNat ≤ index then fail .notFound
  else do
    let byte ← word 64 (index * inodeRecordSize)
    let behind ← narrow 32 (byte / blockSize)
    let block ← word 32 (s.tableStart.toNat + behind)
    return (block, byte % blockSize)

/-- Reads the record of an inode: what its first block holds of it and, if that is not all, the rest
from the next block. -/
def readInode (l : Layout) (index : Nat) : Action Error Device Inode := do
  let (block, byte) ← inodePlace l.superblock index
  let head ← readBytes (← readBlock l block) byte inodeRecordSize
  if head.length < inodeRecordSize then
    let next ← word 32 (block + 1)
    let room ← range head.length inodeRecordSize inodeRecordSize
    let rest ← readBytes (← readBlock l next) 0 room
    return .decode (.ofList inodeRecordSize (head ++ rest))
  else return .decode (.ofList inodeRecordSize head)

/-- Writes the record of an inode: as much as its first block takes and, if something is left of it,
that into the next block. -/
def writeInode (l : Layout) (index : Nat) (r : Inode) : Action Error Device Unit := do
  let (block, byte) ← inodePlace l.superblock index
  let (first, rest) ← writeBytes (← readBlock l block) byte r.encode.toList
  writeBlock l block first
  if rest.isEmpty then return ()
  else
    let next ← word 32 (block + 1)
    let (second, _) ← writeBytes (← readBlock l next) 0 rest
    writeBlock l next second

theorem inodePlace_of_lt (l : Layout) {i : Nat} (hi : i < l.inodeCount) :
    (inodePlace l.superblock i : Action Error τ (Nat × Nat))
      = pure (l.tableStart + i * inodeRecordSize / blockSize,
          i * inodeRecordSize % blockSize) := by
  have hplace := l.inodeBlock_lt hi
  have hdata : l.firstDataBlock < 2 ^ 32 := l.superblock.firstDataBlock.toNat_lt
  have hcount : l.inodeCount ≤ itemsPerBitmap := l.valid.inodes
  have hbyte : i * inodeRecordSize < 2 ^ 64 := by
    simp only [itemsPerBitmap, blockSize, inodeRecordSize] at hcount ⊢
    omega
  rw [inodePlace, if_neg (show ¬ l.superblock.inodeCount.toNat ≤ i from Nat.not_le.mpr hi),
    word_eq hbyte, pure_bind, narrow_eq (by omega),
    pure_bind]
  exact congrArg (· >>= _) (word_eq (Nat.lt_trans hplace hdata))

theorem inodePlace_of_le (l : Layout) {i : Nat} (hi : l.inodeCount ≤ i) :
    (inodePlace l.superblock i : Action Error τ (Nat × Nat)) = fail .notFound := if_pos hi

theorem readInode_eq (l : Layout) (i : Nat) : readInode l i = plain (l.readInode i) := by
  rw [readInode, Layout.readInode]
  rcases Nat.lt_or_ge i l.inodeCount with hi | hi
  · have hblock := l.inodeBlock_lt hi
    have hdata : l.firstDataBlock < 2 ^ 32 := l.superblock.firstDataBlock.toNat_lt
    have hbyte : i * inodeRecordSize % blockSize ≤ blockSize :=
      Nat.le_of_lt (Nat.mod_lt _ blockSize_pos)
    rw [inodePlace_of_lt l hi, pure_bind, l.inodePlace_eq hi, plain_bind]
    change _ = pure _ >>= _
    rw [pure_bind]
    simp only [readBlock_eq, plain_bind, plain_ite, plain_pure]
    refine bind_congr fun b => ?_
    rw [readBytes_eq hbyte, pure_bind]
    split
    · next hshort =>
      rw [word_eq (by omega), pure_bind, range_eq (Nat.le_of_lt hshort) (Nat.le_refl _), pure_bind]
      refine bind_congr fun next => ?_
      rw [readBytes_eq (Nat.zero_le _), pure_bind]
    · rfl
  · rw [inodePlace_of_le l hi, l.inodePlace_of_le hi]
    rfl

theorem writeInode_eq (l : Layout) (i : Nat) (r : Inode) :
    writeInode l i r = plain (l.writeInode i r) := by
  rw [writeInode, Layout.writeInode]
  rcases Nat.lt_or_ge i l.inodeCount with hi | hi
  · have hblock := l.inodeBlock_lt hi
    have hdata : l.firstDataBlock < 2 ^ 32 := l.superblock.firstDataBlock.toNat_lt
    have hbyte : i * inodeRecordSize % blockSize ≤ blockSize :=
      Nat.le_of_lt (Nat.mod_lt _ blockSize_pos)
    rw [inodePlace_of_lt l hi, pure_bind, l.inodePlace_eq hi, plain_bind]
    change _ = pure _ >>= _
    rw [pure_bind]
    simp only [readBlock_eq, writeBlock_eq, plain_bind, plain_ite, plain_pure]
    refine bind_congr fun b => ?_
    rw [writeBytes_eq hbyte, pure_bind]
    refine bind_congr fun _ => ?_
    split
    · rfl
    · rw [word_eq (by omega), pure_bind]
      refine bind_congr fun next => ?_
      rw [writeBytes_eq (Nat.zero_le _), pure_bind]
  · rw [inodePlace_of_le l hi, l.inodePlace_of_le hi]
    rfl

/-! ## Records of a mounted volume -/

/-- Reads the superblock and starts in the root directory. -/
def mount : Action Error Volume Unit := do
  plain (Volume.setLayout none)
  let layout ← onDevice readLayout
  plain (Volume.setLayout (some layout))
  plain (Volume.setCwd rootInode)

/-- Reads a bitmap. -/
def loadBitmap (r : Resource) : Action Error Volume Bitmap := do
  onDevice (readBitmap (← plain Volume.getLayout) r)

/-- Reads a block. -/
def loadBlock (index : Nat) : Action Error Volume Block := do
  onDevice (readBlock (← plain Volume.getLayout) index)

/-- Writes a block. -/
def saveBlock (index : Nat) (b : Block) : Action Error Volume Unit := do
  onDevice (writeBlock (← plain Volume.getLayout) index b)

/-- Reads the record of an inode; one that is not allocated is not found. -/
def loadInode (index : Nat) : Action Error Volume Inode := do
  if ← isUsed (← loadBitmap .inode) index then
    onDevice (readInode (← plain Volume.getLayout) index)
  else fail .notFound

/-- Writes the record of an inode, allocated or not. -/
def saveInode (index : Nat) (r : Inode) : Action Error Volume Unit := do
  onDevice (writeInode (← plain Volume.getLayout) index r)

/-- The size of a file or directory. -/
def fileSize (index : Nat) : Action Error Volume Nat := do
  return (← loadInode index).size.toNat

@[simp]
theorem mount_eq : mount = plain Volume.mount := by
  simp only [mount, Volume.mount, readLayout_eq, plain_bind, plain_onDevice]

@[simp]
theorem loadBitmap_eq (r : Resource) : loadBitmap r = plain (Volume.readBitmap r) := by
  simp only [loadBitmap, Volume.readBitmap, readBitmap_eq, plain_bind, plain_onDevice]

@[simp]
theorem loadBlock_eq (i : Nat) : loadBlock i = plain (Volume.readBlock i) := by
  simp only [loadBlock, Volume.readBlock, readBlock_eq, plain_bind, plain_onDevice]

@[simp]
theorem saveBlock_eq (i : Nat) (b : Block) : saveBlock i b = plain (Volume.writeBlock i b) := by
  simp only [saveBlock, Volume.writeBlock, writeBlock_eq, plain_bind, plain_onDevice]

@[simp]
theorem saveInode_eq (i : Nat) (r : Inode) : saveInode i r = plain (Volume.writeInode i r) := by
  simp only [saveInode, Volume.writeInode, writeInode_eq, plain_bind, plain_onDevice]

/-- A bitmap tells of the items of the volume. -/
theorem yields_onDevice_readBitmap (l : Layout) (r : Resource) :
    Yields (fun _ => True) (BlockFS.onDevice (l.readBitmap r)) fun b =>
      b.count = r.count l := by
  have hcount : Yields (fun _ => True) (l.readBitmap r) fun b => b.count = r.count l :=
    Yields.bind (yields_true _) fun _ _ => .pure rfl
  exact hcount.onDevice

/-- A bitmap tells of no more items than one block has bits. -/
theorem yields_readBitmap (r : Resource) :
    Yields (fun _ => True) (Volume.readBitmap r) fun b => b.count ≤ itemsPerBitmap :=
  Yields.bind (yields_true _) fun l _ =>
    (yields_onDevice_readBitmap l r).mono fun _ hb => hb ▸ l.count_le r

@[simp]
theorem loadInode_eq (i : Nat) : loadInode i = plain (Volume.readInode i) := by
  rw [loadInode, Volume.readInode, loadBitmap_eq, plain_bind]
  refine bind_congr_of_yields (yields_readBitmap .inode) fun b hb => ?_
  simp only [isUsed_eq hb, pure_bind, readInode_eq, plain_ite, plain_bind, plain_onDevice,
    plain_throw]

@[simp]
theorem fileSize_eq (i : Nat) : fileSize i = plain (Volume.fileSize i) := by
  simp only [fileSize, Volume.fileSize, loadInode_eq, plain_bind, plain_pure]

/-! ## Allocation -/

/-- Does `x`; if it fails, does `undo` and fails for the same cause, or for that of `undo`. -/
def orUndo {α : Type} (x : Action Error Volume α) (undo : Action Error Volume Unit) :
    Action Error Volume α :=
  recover x fun e => do
    undo
    fail e

/-- Hands out the lowest free item. -/
def allocate (r : Resource) : Action Error Volume Nat := do
  let layout ← plain Volume.getLayout
  let bitmap ← onDevice (readBitmap layout r)
  match ← firstFree bitmap 1 with
  | none => fail .noSpace
  | some index =>
    let taken ← mark bitmap index true
    onDevice (writeBitmap layout r taken)
    return index

/-- Takes an item back. -/
def deallocate (r : Resource) (index : Nat) : Action Error Volume Unit := do
  let layout ← plain Volume.getLayout
  let bitmap ← onDevice (readBitmap layout r)
  let freed ← mark bitmap index false
  onDevice (writeBitmap layout r freed)

/-- Hands out the lowest free block, filled with zeros. -/
def allocateBlock : Action Error Volume Nat := do
  let index ← allocate .block
  orUndo (saveBlock index .zero) (deallocate .block index)
  return index

/-- Takes back the blocks that an inode points to, then the inode. -/
def discardInode (index : Nat) (r : Inode) : Action Error Volume Unit := do
  r.blocks.forM (deallocate .block)
  deallocate .inode index

@[simp]
theorem plain_orUndo {α : Type} (x : VolumeM α) (undo : VolumeM Unit) :
    plain (Volume.orUndo x undo) = orUndo (plain x) (plain undo) := by
  simp only [Volume.orUndo, orUndo, plain_tryCatch, plain_bind, plain_throw]

@[simp]
theorem allocate_eq (r : Resource) : allocate r = plain (Volume.allocate r) := by
  simp only [allocate, Volume.allocate, readBitmap_eq, writeBitmap_eq, plain_bind, plain_onDevice]
  refine bind_congr fun l => ?_
  rw [← plain_onDevice]
  refine bind_congr_of_yields (yields_onDevice_readBitmap l r) fun b hb => ?_
  have hfits : b.count ≤ itemsPerBitmap := hb ▸ l.count_le r
  rw [firstFree_eq hfits, pure_bind]
  cases b.firstFree 1 with
  | none => rfl
  | some i => simp only [mark_eq hfits, plain_bind, plain_onDevice, plain_pure]

@[simp]
theorem deallocate_eq (r : Resource) (i : Nat) :
    deallocate r i = plain (Volume.deallocate r i) := by
  simp only [deallocate, Volume.deallocate, readBitmap_eq, writeBitmap_eq, plain_bind,
    plain_onDevice]
  refine bind_congr fun l => ?_
  rw [← plain_onDevice]
  refine bind_congr_of_yields (yields_onDevice_readBitmap l r) fun b hb => ?_
  rw [mark_eq (hb ▸ l.count_le r)]

@[simp]
theorem allocateBlock_eq : allocateBlock = plain Volume.allocateBlock := by
  simp only [allocateBlock, Volume.allocateBlock, allocate_eq, saveBlock_eq, deallocate_eq,
    plain_bind, plain_orUndo, plain_pure]

@[simp]
theorem discardInode_eq (i : Nat) (r : Inode) :
    discardInode i r = plain (Volume.discardInode i r) := by
  have hblocks : deallocate .block = fun i => plain (Volume.deallocate .block i) :=
    funext (deallocate_eq .block)
  simp only [discardInode, Volume.discardInode, hblocks, deallocate_eq, plain_bind, plain_forM]

/-- What is handed out is an item of a bitmap, so that its number has 16 bits. -/
theorem yields_allocate (r : Resource) :
    Yields (fun _ => True) (Volume.allocate r) (· < UInt16.size) := by
  refine Yields.bind (yields_true _) fun l _ => ?_
  refine (yields_onDevice_readBitmap l r).bind fun b hb => ?_
  split
  · exact .throw
  · next i hi =>
    have hmem := List.mem_of_find?_eq_some hi
    rw [List.mem_range'_1, hb] at hmem
    have hsmall : i < UInt16.size := l.small_of_lt (r := r) (by omega)
    exact Yields.bind (yields_true _) fun _ _ => Yields.bind (yields_true _) fun _ _ => .pure hsmall

theorem yields_allocateBlock : Yields (fun _ => True) Volume.allocateBlock (· < UInt16.size) :=
  (yields_allocate .block).bind fun _ hi => Yields.bind (yields_true _) fun _ _ => .pure hi

end BlockFS.Machine
