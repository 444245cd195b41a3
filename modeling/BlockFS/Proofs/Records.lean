import BlockFS.Proofs.Regions
import Mathlib.Logic.Function.Basic

/-!
# The records of a volume

A row of blocks is read as the records of a volume: which items are in use, the inodes, and the data
blocks.  Each way of changing a row changes one of these records and no other.
-/

namespace BlockFS

/-- A row of blocks. -/
abbrev Blocks := Nat → Block

/-- What a volume holds: the items in use, the inode records, and the data blocks. -/
@[ext]
structure Records where
  used : Resource → Nat → Bool
  inode : Nat → Inode
  block : Nat → Block

namespace Records

/-- The records with an item in use or not. -/
def mark (c : Records) (r : Resource) (i : Nat) (used : Bool) : Records :=
  { c with used := fun r' j => if r' = r ∧ j = i then used else c.used r' j }

/-- The records with another record of an inode. -/
def putInode (c : Records) (i : Nat) (x : Inode) : Records :=
  { c with inode := Function.update c.inode i x }

/-- The records with another data block. -/
def putBlock (c : Records) (i : Nat) (b : Block) : Records :=
  { c with block := Function.update c.block i b }

end Records

/-- Data laid over block `block` from byte `start` on.  What does not fit goes to the start of the next
block. -/
def Blocks.writeOver (bs : Blocks) (block start : Nat) (data : List UInt8) : Blocks :=
  let bs' := Function.update bs block ((bs block).write start data)
  let rest := data.drop (blockSize - start)
  if rest.isEmpty then bs'
  else Function.update bs' (block + 1) ((bs' (block + 1)).write 0 rest)

theorem Blocks.getElem_writeOver (bs : Blocks) (block start : Nat) (data : List UInt8)
    (j t : Nat) (ht : t < blockSize) :
    (bs.writeOver block start data j)[t] =
      if j = block then (if start ≤ t then data[t - start]?.getD (bs j)[t] else (bs j)[t])
      else if j = block + 1 then data[blockSize - start + t]?.getD (bs j)[t]
      else (bs j)[t] := by
  have hnext : block + 1 ≠ block := by omega
  rw [writeOver]
  by_cases hj : j = block
  · subst hj
    rw [if_pos rfl]
    split
    · simp only [Function.update_self, Bytes.getElem_write]
    · simp only [Function.update_of_ne (Ne.symm hnext), Function.update_self, Bytes.getElem_write]
  · rw [if_neg hj]
    by_cases hj1 : j = block + 1
    · subst hj1
      rw [if_pos rfl]
      split
      · next hrest =>
        have hnone : data[blockSize - start + t]? = none := by
          rw [← List.getElem?_drop, List.isEmpty_iff.mp hrest, List.getElem?_nil]
        simp only [Function.update_of_ne hj, hnone, Option.getD_none]
      · simp only [Function.update_self, Bytes.getElem_write, Function.update_of_ne hnext,
          List.getElem?_drop, Nat.zero_le, if_true, Nat.sub_zero]
    · rw [if_neg hj1]
      split
      · simp only [Function.update_of_ne hj]
      · simp only [Function.update_of_ne hj1, Function.update_of_ne hj]

/-- Byte `p` of a row of blocks. -/
def Blocks.byte (bs : Blocks) (p : Nat) : UInt8 :=
  have := Nat.mod_lt p blockSize_pos
  (bs (p / blockSize))[p % blockSize]

/-- Data laid over a row of blocks is found where it was laid, and all else is as it was. -/
theorem Blocks.byte_writeOver (bs : Blocks) (block : Nat) {start : Nat} {data : List UInt8}
    (hstart : start < blockSize) (hlen : data.length ≤ blockSize) (p : Nat) :
    (bs.writeOver block start data).byte p =
      if blockSize * block + start ≤ p then
        data[p - (blockSize * block + start)]?.getD (bs.byte p)
      else bs.byte p := by
  rw [byte, Blocks.getElem_writeOver]
  by_cases hfirst : p / blockSize = block
  · have hle : start ≤ p % blockSize ↔ blockSize * block + start ≤ p := by
      simp only [blockSize] at hfirst ⊢
      omega
    have hsub : p % blockSize - start = p - (blockSize * block + start) := by
      simp only [blockSize] at hfirst ⊢
      omega
    simp only [if_pos hfirst, hle, hsub]
    rfl
  rw [if_neg hfirst]
  by_cases hnext : p / blockSize = block + 1
  · have hle : blockSize * block + start ≤ p := by
      simp only [blockSize] at hnext hstart ⊢
      omega
    have hsub : blockSize - start + p % blockSize = p - (blockSize * block + start) := by
      simp only [blockSize] at hnext hstart ⊢
      omega
    rw [if_pos hnext, if_pos hle, hsub]
    rfl
  · rw [if_neg hnext]
    split
    · next hle =>
      have hout : data.length ≤ p - (blockSize * block + start) := by
        simp only [blockSize] at hstart hlen hfirst hnext hle ⊢
        omega
      rw [List.getElem?_eq_none hout, Option.getD_none]
      rfl
    · rfl

theorem Blocks.byte_of_lt (bs : Blocks) (i : Nat) {t : Nat} (ht : t < blockSize) :
    bs.byte (blockSize * i + t) = (bs i)[t] := by
  simp only [byte, Nat.mul_add_div blockSize_pos, Nat.mul_add_mod, Nat.div_eq_of_lt ht,
    Nat.mod_eq_of_lt ht, Nat.add_zero]

/-- Rows of blocks are told apart by their bytes. -/
theorem Blocks.eq_of_byte_eq {bs bs' : Blocks} (h : ∀ p, bs.byte p = bs'.byte p) : bs = bs' := by
  funext i
  apply Vector.ext
  intro t ht
  rw [← bs.byte_of_lt i ht, ← bs'.byte_of_lt i ht, h]

namespace Bitmap

/-- The bitmap with an item in use or not. -/
def mark (b : Bitmap) (i : Nat) (used : Bool) : Bitmap :=
  { b with bits := b.bits.setIfInBounds (i / 8) (setBit (b.byte i) (i % 8) used) }

theorem set_eq_mark {b : Bitmap} {i : Nat} (h : i < b.count) (used : Bool) :
    b.set i used = .ok (b.mark i used) := by
  rw [set, if_pos h]
  rfl

theorem get_mark {b : Bitmap} {i : Nat} (h : i < b.count) (fits : b.count ≤ 8 * blockSize)
    (used : Bool) (j : Nat) :
    (b.mark i used).get j = if j = i then used else b.get j :=
  get_of_set (set_eq_mark h used) fits j

theorem lt_count_of_get {b : Bitmap} {i : Nat} (h : b.get i = true) : i < b.count := by
  simp only [get, Bool.and_eq_true, decide_eq_true_eq] at h
  exact h.1

end Bitmap

namespace Layout

variable (l : Layout)

/-! ## Bitmaps in a row of blocks -/

/-- The bitmap that a row of blocks holds. -/
def bitmap (bs : Blocks) (r : Resource) : Bitmap := ⟨bs (r.bitmapBlock l), r.count l⟩

/-- The row of blocks with an item in use or not. -/
def mark (bs : Blocks) (r : Resource) (i : Nat) (used : Bool) : Blocks :=
  Function.update bs (r.bitmapBlock l) ((l.bitmap bs r).mark i used).bits

theorem get_bitmap_update {bs : Blocks} {r : Resource} {i : Nat} (b : Block)
    (h : i ≠ r.bitmapBlock l) (j : Nat) :
    (l.bitmap (Function.update bs i b) r).get j = (l.bitmap bs r).get j := by
  rw [bitmap, bitmap, Function.update_of_ne (Ne.symm h)]

theorem get_bitmap_mark (bs : Blocks) {r : Resource} {i : Nat} (h : i < r.count l)
    (used : Bool) (r' : Resource) (j : Nat) :
    (l.bitmap (l.mark bs r i used) r').get j =
      if r' = r ∧ j = i then used else (l.bitmap bs r').get j := by
  by_cases hr : r' = r
  · subst hr
    have hmark : l.bitmap (l.mark bs r' i used) r' = (l.bitmap bs r').mark i used := by
      simp only [bitmap, mark, Function.update_self]
      rfl
    rw [hmark, Bitmap.get_mark h (l.count_le r')]
    simp
  · have hne : r.bitmapBlock l ≠ r'.bitmapBlock l := fun e => hr (l.bitmapBlock_injective e).symm
    rw [mark, l.get_bitmap_update _ hne]
    simp [hr]

/-! ## Inode records in a row of blocks -/

/-- Byte `k` of the inode table. -/
def tableByte (bs : Blocks) (k : Nat) : UInt8 :=
  have := Nat.mod_lt k blockSize_pos
  (bs (l.tableStart + k / blockSize))[k % blockSize]

/-- The stored form of the record of an inode. -/
def inodeBytes (bs : Blocks) (i : Nat) : Bytes inodeRecordSize :=
  Vector.ofFn fun j => l.tableByte bs (i * inodeRecordSize + j.val)

/-- The record of an inode. -/
def inode (bs : Blocks) (i : Nat) : Inode := .decode (l.inodeBytes bs i)

theorem tableByte_congr {bs bs' : Blocks} {k : Nat}
    (h : bs (l.tableStart + k / blockSize) = bs' (l.tableStart + k / blockSize)) :
    l.tableByte bs k = l.tableByte bs' k := by
  simp only [tableByte, h]

theorem tableByte_eq_byte (bs : Blocks) (k : Nat) :
    l.tableByte bs k = bs.byte (blockSize * l.tableStart + k) := by
  simp only [tableByte, Blocks.byte, Nat.mul_add_mod, Nat.mul_add_div blockSize_pos]

/-- Data laid over the inode table from byte `byte` on is found there, and nowhere else. -/
theorem tableByte_writeOver (bs : Blocks) (byte : Nat) (data : List UInt8)
    (hlen : data.length ≤ blockSize) (k : Nat) :
    l.tableByte (bs.writeOver (l.tableStart + byte / blockSize) (byte % blockSize) data) k =
      if byte ≤ k then data[k - byte]?.getD (l.tableByte bs k) else l.tableByte bs k := by
  have hplace : blockSize * (l.tableStart + byte / blockSize) + byte % blockSize
      = blockSize * l.tableStart + byte := by
    rw [Nat.mul_add, Nat.add_assoc, Nat.div_add_mod]
  simp only [tableByte_eq_byte, Blocks.byte_writeOver bs _ (Nat.mod_lt byte blockSize_pos) hlen,
    hplace, Nat.add_le_add_iff_left, Nat.add_sub_add_left]

/-- The row of blocks with another record of an inode. -/
def putInode (bs : Blocks) (i : Nat) (x : Inode) : Blocks :=
  bs.writeOver (l.tableStart + i * inodeRecordSize / blockSize) (i * inodeRecordSize % blockSize)
    x.encode.toList

/-- A record that ends in its block is read from it alone. -/
theorem inodeBytes_eq_read {bs : Blocks} {i : Nat}
    (h : i * inodeRecordSize % blockSize + inodeRecordSize ≤ blockSize) :
    Bytes.ofList inodeRecordSize
      ((bs (l.tableStart + i * inodeRecordSize / blockSize)).read
        (i * inodeRecordSize % blockSize) inodeRecordSize) = l.inodeBytes bs i := by
  apply Vector.ext
  intro t ht
  have hdiv : (i * inodeRecordSize + t) / blockSize = i * inodeRecordSize / blockSize := by
    simp only [blockSize, inodeRecordSize] at *
    omega
  have hmod : (i * inodeRecordSize + t) % blockSize = i * inodeRecordSize % blockSize + t := by
    simp only [blockSize, inodeRecordSize] at *
    omega
  have hin : i * inodeRecordSize % blockSize + t < blockSize := by omega
  simp only [Bytes.getElem_ofList, Bytes.getElem?_read, if_pos ht, inodeBytes,
    Vector.getElem_ofFn, tableByte, hdiv, hmod, Vector.getElem?_eq_getElem hin, Option.getD_some]

/-- A record that goes on in the next block is read from both. -/
theorem inodeBytes_eq_read_append {bs : Blocks} {i : Nat}
    (h : blockSize < i * inodeRecordSize % blockSize + inodeRecordSize) :
    Bytes.ofList inodeRecordSize
      ((bs (l.tableStart + i * inodeRecordSize / blockSize)).read
          (i * inodeRecordSize % blockSize) inodeRecordSize
        ++ (bs (l.tableStart + i * inodeRecordSize / blockSize + 1)).read 0
          (inodeRecordSize - (blockSize - i * inodeRecordSize % blockSize)))
      = l.inodeBytes bs i := by
  apply Vector.ext
  intro t ht
  have hstart := Nat.mod_lt (i * inodeRecordSize) blockSize_pos
  have hlen : min inodeRecordSize (blockSize - i * inodeRecordSize % blockSize)
      = blockSize - i * inodeRecordSize % blockSize := by omega
  rw [Bytes.getElem_ofList, List.getElem?_append, Bytes.length_read, hlen]
  simp only [inodeBytes, Vector.getElem_ofFn, tableByte]
  split
  · next hhead =>
    have hdiv : (i * inodeRecordSize + t) / blockSize = i * inodeRecordSize / blockSize := by
      simp only [blockSize, inodeRecordSize] at *
      omega
    have hmod : (i * inodeRecordSize + t) % blockSize = i * inodeRecordSize % blockSize + t := by
      simp only [blockSize, inodeRecordSize] at *
      omega
    have hin : i * inodeRecordSize % blockSize + t < blockSize := by omega
    simp only [Bytes.getElem?_read, if_pos ht, hdiv, hmod, Vector.getElem?_eq_getElem hin,
      Option.getD_some]
  · next hnext =>
    have hdiv : (i * inodeRecordSize + t) / blockSize
        = i * inodeRecordSize / blockSize + 1 := by
      simp only [blockSize, inodeRecordSize] at *
      omega
    have hmod : (i * inodeRecordSize + t) % blockSize
        = t - (blockSize - i * inodeRecordSize % blockSize) := by
      simp only [blockSize, inodeRecordSize] at *
      omega
    have hin : t - (blockSize - i * inodeRecordSize % blockSize) < blockSize := by
      simp only [blockSize, inodeRecordSize] at *
      omega
    have hcut : t - (blockSize - i * inodeRecordSize % blockSize)
        < inodeRecordSize - (blockSize - i * inodeRecordSize % blockSize) := by omega
    simp only [Bytes.getElem?_read, if_pos hcut, Nat.zero_add, hdiv, hmod,
      Vector.getElem?_eq_getElem hin, Option.getD_some, Nat.add_assoc]

theorem inode_putInode (bs : Blocks) (i : Nat) (x : Inode) (j : Nat) :
    l.inode (l.putInode bs i x) j = if j = i then x else l.inode bs j := by
  have hlen : x.encode.toList.length = inodeRecordSize := Vector.length_toList
  have hbytes : l.inodeBytes (l.putInode bs i x) j = if j = i then x.encode else l.inodeBytes bs j := by
    apply Vector.ext
    intro t ht
    rw [inodeBytes, Vector.getElem_ofFn, putInode,
      l.tableByte_writeOver bs _ _ (by rw [hlen]; decide)]
    rcases Nat.lt_trichotomy j i with hji | hji | hji
    · have hlt : ¬ i * inodeRecordSize ≤ j * inodeRecordSize + t := by
        simp only [inodeRecordSize] at ht ⊢
        omega
      simp only [if_neg hlt, if_neg (Nat.ne_of_lt hji), inodeBytes, Vector.getElem_ofFn]
    · subst hji
      have ht' : t < x.encode.toList.length := by rw [hlen]; exact ht
      rw [if_pos (Nat.le_add_right _ _), if_pos rfl, Nat.add_sub_cancel_left,
        List.getElem?_eq_getElem ht', Option.getD_some, Vector.getElem_toList]
    · have hle : i * inodeRecordSize ≤ j * inodeRecordSize + t := by
        simp only [inodeRecordSize] at ht ⊢
        omega
      have hout : x.encode.toList.length ≤ j * inodeRecordSize + t - i * inodeRecordSize := by
        rw [hlen]
        simp only [inodeRecordSize] at ht ⊢
        omega
      simp only [if_pos hle, if_neg (Nat.ne_of_gt hji), List.getElem?_eq_none hout,
        Option.getD_none, inodeBytes, Vector.getElem_ofFn]
  rw [inode, hbytes]
  split
  · exact Inode.decode_encode x
  · rfl

/-- Putting an inode changes no block outside the inode table. -/
theorem putInode_of_outside (bs : Blocks) {i j : Nat} (x : Inode) (hi : i < l.inodeCount)
    (hj : j < l.tableStart ∨ l.firstDataBlock ≤ j) : l.putInode bs i x j = bs j := by
  have hfirst := l.inodeBlock_lt hi
  have hstart := Nat.le_add_right l.tableStart (i * inodeRecordSize / blockSize)
  have hne : j ≠ l.tableStart + i * inodeRecordSize / blockSize := by omega
  rw [putInode, Blocks.writeOver]
  split
  · rw [Function.update_of_ne hne]
  · next hrest =>
    have hspill : blockSize < i * inodeRecordSize % blockSize + inodeRecordSize := by
      simp at hrest
      omega
    have hnext := l.inodeNext_lt hi hspill
    have hne1 : j ≠ l.tableStart + i * inodeRecordSize / blockSize + 1 := by omega
    rw [Function.update_of_ne hne1, Function.update_of_ne hne]

/-! ## All records in a row of blocks -/

/-- The records that a row of blocks holds. -/
def records (bs : Blocks) : Records where
  used r i := (l.bitmap bs r).get i
  inode i := if i < l.inodeCount then l.inode bs i else Inode.new .free 0
  block i := if l.firstDataBlock ≤ i ∧ i < l.blockCount then bs i else .zero

theorem inode_congr {bs bs' : Blocks} {i : Nat} (hi : i < l.inodeCount)
    (h : ∀ j, l.tableStart ≤ j → j < l.firstDataBlock → bs j = bs' j) :
    l.inode bs i = l.inode bs' i := by
  have hbytes : l.inodeBytes bs i = l.inodeBytes bs' i := by
    apply Vector.ext
    intro t ht
    rw [inodeBytes, inodeBytes, Vector.getElem_ofFn, Vector.getElem_ofFn]
    exact l.tableByte_congr (h _ (Nat.le_add_right _ _)
      (l.tableStart_add_div_lt hi (Nat.add_lt_add_left ht _)))
  rw [inode, inode, hbytes]

theorem records_mark (bs : Blocks) {r : Resource} {i : Nat} (hi : i < r.count l) (used : Bool) :
    l.records (l.mark bs r i used) = (l.records bs).mark r i used := by
  have hb := l.bitmapBlock_lt_tableStart r
  have hd := l.tableStart_lt_firstDataBlock
  apply Records.ext
  · funext r' j
    exact l.get_bitmap_mark bs hi used r' j
  · funext j
    by_cases hj : j < l.inodeCount
    · have hsame : l.inode (l.mark bs r i used) j = l.inode bs j := by
        apply l.inode_congr hj
        intro k hk _
        exact Function.update_of_ne (by omega) _ _
      simp only [records, Records.mark, if_pos hj, hsame]
    · simp only [records, Records.mark, if_neg hj]
  · funext j
    by_cases hj : l.firstDataBlock ≤ j ∧ j < l.blockCount
    · have hne : j ≠ r.bitmapBlock l := by omega
      simp only [records, Records.mark, if_pos hj, mark, Function.update_of_ne hne]
    · simp only [records, Records.mark, if_neg hj]

theorem records_putInode (bs : Blocks) {i : Nat} (hi : i < l.inodeCount) (x : Inode) :
    l.records (l.putInode bs i x) = (l.records bs).putInode i x := by
  apply Records.ext
  · funext r j
    have hsame : l.bitmap (l.putInode bs i x) r = l.bitmap bs r := by
      rw [bitmap, bitmap, l.putInode_of_outside bs x hi (.inl (l.bitmapBlock_lt_tableStart r))]
    simp only [records, Records.putInode, hsame]
  · funext j
    by_cases hji : j = i
    · subst hji
      simp only [records, Records.putInode, Function.update_self, if_pos hi, inode_putInode,
        if_true]
    · simp only [records, Records.putInode, Function.update_of_ne hji, inode_putInode,
        if_neg hji]
  · funext j
    by_cases hj : l.firstDataBlock ≤ j ∧ j < l.blockCount
    · simp only [records, Records.putInode, if_pos hj, l.putInode_of_outside bs x hi (.inr hj.1)]
    · simp only [records, Records.putInode, if_neg hj]

theorem records_update (bs : Blocks) {i : Nat} (hi : l.firstDataBlock ≤ i)
    (hc : i < l.blockCount) (b : Block) :
    l.records (Function.update bs i b) = (l.records bs).putBlock i b := by
  have hd := l.tableStart_lt_firstDataBlock
  apply Records.ext
  · funext r j
    have hb := l.bitmapBlock_lt_tableStart r
    exact l.get_bitmap_update b (by omega) j
  · funext j
    by_cases hj : j < l.inodeCount
    · have hsame : l.inode (Function.update bs i b) j = l.inode bs j := by
        apply l.inode_congr hj
        intro k _ hk
        exact Function.update_of_ne (by omega) _ _
      simp only [records, Records.putBlock, if_pos hj, hsame]
    · simp only [records, Records.putBlock, if_neg hj]
  · funext j
    by_cases hji : j = i
    · subst hji
      simp only [records, Records.putBlock, Function.update_self, if_pos (And.intro hi hc)]
    · simp only [records, Records.putBlock, Function.update_of_ne hji]

end Layout

end BlockFS
