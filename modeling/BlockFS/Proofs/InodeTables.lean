import BlockFS.Proofs.DiskContents
import BlockFS.Proofs.StoreLaws

/-!
# The inode table is an array of records

Records are shorter than a block and no divisor of it, so that they begin anywhere in a block and may
go on in the next one.  In the row of all bytes of the disk there is no such border: the record of an
inode is the bytes from one place on.  Writing a record replaces these bytes and no other, reading it
gives what they mean, and both stay inside the blocks of the table.  Nothing is asked of the disk but
that it reaches to the end of the table.
-/

namespace BlockFS

variable {l : Layout} {d : Disk} {i : Nat}

/-! ## The stored form of a record -/

/-- The `count` bytes of a number, the least significant first. -/
def littleEndian : Nat → Nat → List UInt8
  | 0, _ => []
  | count + 1, n => .ofNat n :: littleEndian count (n / 0x100)

/-- The bytes of a record: the kind in two bytes, the size and the time in four each, and the pointers
in two each, in slot order. -/
def Inode.stored (x : Inode) : List UInt8 :=
  littleEndian 2 x.mode.toNat ++ littleEndian 4 x.size.toNat ++ littleEndian 4 x.mtime.toNat
    ++ x.pointers.toList.flatMap fun pointer => littleEndian 2 pointer.toNat

theorem Bytes.toList_ofUInt16 (n : UInt16) : (ofUInt16 n).toList = littleEndian 2 n.toNat := rfl

theorem Bytes.toList_ofUInt32 (n : UInt32) : (ofUInt32 n).toList = littleEndian 4 n.toNat := by
  simp only [littleEndian, Nat.div_div_eq_div_mul]
  rfl

theorem Bytes.toList_flatten {m n : Nat} (parts : Vector (Bytes n) m) :
    parts.flatten.toList = parts.toList.flatMap Vector.toList := by
  simp only [Vector.flatten, Vector.toList, List.flatMap_def, Array.toList_flatten,
    Array.toList_map, List.map_map]
  rfl

theorem Inode.toList_encode (x : Inode) : x.encode.toList = x.stored := by
  have hpointers : (x.pointers.map Bytes.ofUInt16).flatten.toList
      = x.pointers.toList.flatMap fun pointer => littleEndian 2 pointer.toNat := by
    rw [Bytes.toList_flatten, Vector.toList_map, List.flatMap_map]
    rfl
  rw [encode, Vector.toList_append, Vector.toList_append, Vector.toList_append, hpointers,
    Bytes.toList_ofUInt16, Bytes.toList_ofUInt32, Bytes.toList_ofUInt32, stored, List.append_assoc,
    List.append_assoc]

example : (Inode.stored { (Inode.new .file 7).setPointer 0 13 with size := 0x01020304 }).take 12
    = [1, 0, 4, 3, 2, 1, 7, 0, 0, 0, 13, 0] := by decide

theorem Inode.length_stored (x : Inode) : x.stored.length = inodeRecordSize := by
  rw [← toList_encode, Vector.length_toList]

/-! ## The places of records -/

namespace Layout

/-- Where the record of an inode begins among the bytes of the disk. -/
def recordStart (l : Layout) (i : Nat) : Nat := blockSize * l.tableStart + inodeRecordSize * i

theorem tableStart_le_recordStart (l : Layout) (i : Nat) :
    blockSize * l.tableStart ≤ l.recordStart i := Nat.le_add_right _ _

/-- The last record ends in the last block of the table, however tight the table is. -/
theorem recordStart_add_le (hi : i < l.inodeCount) :
    l.recordStart i + inodeRecordSize ≤ blockSize * l.firstDataBlock := by
  have htable : l.inodeCount * inodeRecordSize ≤ (l.firstDataBlock - l.tableStart) * blockSize :=
    l.valid.table
  have hstart := l.tableStart_lt_firstDataBlock
  simp only [recordStart, inodeRecordSize, blockSize] at htable ⊢
  omega

theorem recordStart_eq (l : Layout) (i : Nat) :
    blockSize * (l.tableStart + i * inodeRecordSize / blockSize) + i * inodeRecordSize % blockSize
      = l.recordStart i := by
  rw [Nat.mul_add, Nat.add_assoc, Nat.div_add_mod, recordStart, Nat.mul_comm i]

theorem getElem_inodeBytes (bs : Blocks) (i : Nat) {k : Nat} (hk : k < inodeRecordSize) :
    (l.inodeBytes bs i)[k] = bs.byte (l.recordStart i + k) := by
  rw [inodeBytes, Vector.getElem_ofFn, tableByte_eq_byte, recordStart, Nat.mul_comm i, Nat.add_assoc]

theorem byte_putInode (bs : Blocks) (i : Nat) (x : Inode) (p : Nat) :
    (l.putInode bs i x).byte p =
      if l.recordStart i ≤ p then x.stored[p - l.recordStart i]?.getD (bs.byte p)
      else bs.byte p := by
  have hlen : x.encode.toList.length ≤ blockSize := by
    rw [Vector.length_toList]
    decide
  rw [putInode, Blocks.byte_writeOver bs _ (Nat.mod_lt _ blockSize_pos) hlen, recordStart_eq,
    Inode.toList_encode]

/-- Putting back the record of an inode changes nothing. -/
theorem putInode_inode (l : Layout) (bs : Blocks) (i : Nat) : l.putInode bs i (l.inode bs i) = bs := by
  apply Blocks.eq_of_byte_eq
  intro p
  rw [byte_putInode, ← Inode.toList_encode, inode, Inode.encode_decode]
  split
  · next hle =>
    rw [Vector.getElem?_toList]
    rcases Nat.lt_or_ge (p - l.recordStart i) inodeRecordSize with hin | hout
    · rw [Vector.getElem?_eq_getElem hin, Option.getD_some, getElem_inodeBytes,
        Nat.add_sub_cancel' hle]
    · rw [Vector.getElem?_eq_none hout, Option.getD_none]
  · rfl

end Layout

/-! ## Records among the bytes of a disk -/

section

variable (hd : 2 * l.firstDataBlock ≤ d.sectors.size) (hi : i < l.inodeCount)

include hd hi

/-- Putting a record replaces its bytes and no other. -/
theorem Disk.contents_putInode (x : Inode) :
    (d.putInode l i x).contents = d.contents.take (l.recordStart i) ++ x.stored
      ++ d.contents.drop (l.recordStart i + inodeRecordSize) := by
  have hplace := l.recordStart_eq i
  have hend := Layout.recordStart_add_le hi
  have hlen : x.encode.toList.length = inodeRecordSize := Vector.length_toList
  rw [putInode, contents_writeOver hd (Nat.mod_lt _ blockSize_pos) (by rw [hlen]; decide)
    (by rwa [hplace, hlen]) (l.inodeBlock_lt hi), hplace, hlen, Inode.toList_encode]

theorem Disk.sameShape_putInode (x : Inode) : d.SameShape (d.putInode l i x) := by
  have hfirst := l.inodeBlock_lt hi
  refine sameShape_writeOver (by omega) fun hspill => ?_
  rw [Vector.length_toList] at hspill
  have hnext := l.inodeNext_lt hi hspill
  omega

/-- Putting back the record of an inode changes no byte of the disk. -/
theorem Disk.putInode_inode : d.putInode l i (l.inode d.block i) = d := by
  refine ((sameShape_putInode hd hi _).eq_of_block_eq ?_).symm
  rw [block_putInode]
  exact (l.putInode_inode d.block i).symm

/-- The record of an inode is what the bytes in its place mean. -/
theorem Layout.stored_inode :
    (l.inode d.block i).stored = (d.contents.drop (l.recordStart i)).take inodeRecordSize := by
  have hself := Disk.contents_putInode hd hi (l.inode d.block i)
  rw [Disk.putInode_inode hd hi] at hself
  have hlen := (l.inode d.block i).length_stored
  have hstart : (d.contents.take (l.recordStart i)).length = l.recordStart i := by
    have hlength := congrArg List.length hself
    simp only [List.length_append, List.length_take, List.length_drop, hlen] at hlength ⊢
    simp only [inodeRecordSize] at hlength
    omega
  rw [hself, List.append_assoc, List.drop_left' hstart, List.take_left' hlen]

end

/-! ## The table as an array -/

namespace Layout

/-- The disk `d'` is `d` with another record of an inode: the record is found, every other record is
read as before, and no byte outside the place of the record has changed. -/
structure Replaces (l : Layout) (i : Nat) (x : Inode) (d d' : Disk) : Prop where
  found : Does (l.readInode i) d' (.ok x) d'
  others : ∀ j < l.inodeCount, j ≠ i →
    ∃ y, Does (l.readInode j) d (.ok y) d ∧ Does (l.readInode j) d' (.ok y) d'
  bytes : d'.contents = d.contents.take (l.recordStart i) ++ x.stored
    ++ d.contents.drop (l.recordStart i + inodeRecordSize)

/-- The inode table on a disk behaves as an array of records.  The place of each record lies in the
blocks of the table; writing a record replaces it; a record is read as its bytes say, and writing
it back changes nothing; and there is no record of an inode that the volume does not have, whatever
the device. -/
structure TableIsArray (l : Layout) (d : Disk) : Prop where
  inside : ∀ i < l.inodeCount, blockSize * l.tableStart ≤ l.recordStart i ∧
    l.recordStart i + inodeRecordSize ≤ blockSize * l.firstDataBlock
  replaces : ∀ i < l.inodeCount, ∀ x, ∃ d', Does (l.writeInode i x) d (.ok ()) d' ∧
    l.Replaces i x d d'
  restores : ∀ i < l.inodeCount, ∃ x, Does (l.readInode i) d (.ok x) d ∧
    x.stored = (d.contents.drop (l.recordStart i)).take inodeRecordSize ∧
    Does (l.writeInode i x) d (.ok ()) d
  absent : ∀ i, l.inodeCount ≤ i → ∀ v : Device, l.readInode i v = .error .notFound v ∧
    ∀ x, l.writeInode i x v = .error .notFound v

theorem replaces_putInode (hd : 2 * l.firstDataBlock ≤ d.sectors.size) (hi : i < l.inodeCount)
    (x : Inode) : l.Replaces i x d (d.putInode l i x) := by
  have hd' : 2 * l.firstDataBlock ≤ (d.putInode l i x).sectors.size := by
    rw [(Disk.sameShape_putInode hd hi x).size]
    exact hd
  have hinode (j : Nat) : l.inode (d.putInode l i x).block j =
      if j = i then x else l.inode d.block j := by
    rw [Disk.block_putInode, l.inode_putInode]
  refine ⟨?_, fun j hj hne => ⟨l.inode d.block j, does_readInode hd hj, ?_⟩,
    Disk.contents_putInode hd hi x⟩
  · have hread := does_readInode hd' hi
    rwa [hinode, if_pos rfl] at hread
  · have hread := does_readInode hd' hj
    rwa [hinode, if_neg hne] at hread

theorem readInode_of_ge (h : l.inodeCount ≤ i) (v : Device) :
    l.readInode i v = .error .notFound v := by
  unfold readInode
  rw [inodePlace_of_le h]
  rfl

theorem writeInode_of_ge (h : l.inodeCount ≤ i) (x : Inode) (v : Device) :
    l.writeInode i x v = .error .notFound v := by
  unfold writeInode
  rw [inodePlace_of_le h]
  rfl

/-- On every disk that reaches to the end of the inode table, the table is an array of records. -/
theorem table_isArray (hd : 2 * l.firstDataBlock ≤ d.sectors.size) : l.TableIsArray d where
  inside i hi := ⟨l.tableStart_le_recordStart i, recordStart_add_le hi⟩
  replaces i hi x := ⟨d.putInode l i x, does_writeInode hd hi x, replaces_putInode hd hi x⟩
  restores i hi := by
    have hwrite := does_writeInode hd hi (l.inode d.block i)
    rw [Disk.putInode_inode hd hi] at hwrite
    exact ⟨l.inode d.block i, does_readInode hd hi, stored_inode hd hi, hwrite⟩
  absent i hi v := ⟨readInode_of_ge hi v, fun x => writeInode_of_ge hi x v⟩

/-- The records of 512 inodes fill 15 blocks to the last byte, and the disk ends there. -/
theorem table_isArray_tightest : ∃ l : Layout, Layout.ofGeometry ⟨20, 512, 15⟩ = .ok l ∧
    l.recordStart 511 + inodeRecordSize = blockSize * l.firstDataBlock ∧
    2 * l.firstDataBlock ≤ (Disk.zeros 19456).sectors.size ∧ l.TableIsArray (Disk.zeros 19456) := by
  have hsize : (Disk.zeros 19456).sectors.size = 38 := by
    simp only [Disk.zeros, Disk.ofSectors, Array.size_ofFn, sectorSize]
  have hcovers : 38 ≤ (Disk.zeros 19456).sectors.size := Nat.le_of_eq hsize.symm
  exact ⟨⟨.ofGeometry ⟨20, 512, 15⟩, by decide⟩, rfl, rfl, hcovers, table_isArray hcovers⟩

end Layout

end BlockFS
