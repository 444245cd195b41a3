import BlockFS.Block
import BlockFS.Error

/-!
# Bitmaps

A bitmap tells for each of a number of items whether it is in use.  It lies in one block: item `i` is
bit `i % 8` of byte `i / 8`, the least significant bit being bit 0.
-/

namespace BlockFS

/-- The bits of a bitmap and the number of items that they tell of. -/
structure Bitmap where
  bits : Block
  count : Nat

namespace Bitmap

/-- The bitmap that has every item free. -/
def allFree (count : Nat) : Bitmap := ⟨Block.zero, count⟩

/-- Bit `k` of a byte. -/
def bit (byte : UInt8) (k : Nat) : Bool := byte.toBitVec.getLsbD k

/-- The byte with bit `k` set or cleared. -/
def setBit (byte : UInt8) (k : Nat) (used : Bool) : UInt8 :=
  let one := UInt8.ofBitVec (BitVec.twoPow 8 k)
  if used then byte ||| one else byte &&& ~~~one

/-- The byte that tells of item `i`. -/
def byte (b : Bitmap) (i : Nat) : UInt8 := b.bits[i / 8]?.getD 0

/-- Whether an item is in use; there is none past the end. -/
def get (b : Bitmap) (i : Nat) : Bool := i < b.count && bit (b.byte i) (i % 8)

/-- Sets or clears the bit of an item. -/
def set (b : Bitmap) (i : Nat) (used : Bool) : Except Error Bitmap :=
  if i < b.count then
    .ok { b with bits := b.bits.setIfInBounds (i / 8) (setBit (b.byte i) (i % 8) used) }
  else .error .notFound

/-- The first free item from `start` on. -/
def firstFree (b : Bitmap) (start : Nat) : Option Nat :=
  (List.range' start (b.count - start)).find? fun i => !b.get i

/-- The number of items in use. -/
def usedCount (b : Bitmap) : Nat := (List.range b.count).countP b.get

/-- The number of free items. -/
def freeCount (b : Bitmap) : Nat := b.count - b.usedCount

/-! ## Laws -/

theorem bit_zero (k : Nat) : bit 0 k = false := by simp [bit]

/-- Only the bit that is set or cleared changes. -/
theorem bit_setBit (old : UInt8) (k j : Nat) (used : Bool) (hk : k < 8) :
    bit (setBit old k used) j = if j = k then used else bit old j := by
  rcases Nat.lt_or_ge j 8 with hj | hj
  · by_cases h : j = k
    · subst h
      cases used <;> simp [bit, setBit, hj]
    · cases used <;> simp [bit, setBit, hj, h]
  · have h : ¬ j = k := by omega
    simp [bit, h, BitVec.getLsbD_of_ge _ _ hj]

theorem get_allFree (count i : Nat) : (allFree count).get i = false := by
  have h : (allFree count).byte i = 0 := by
    simp [allFree, byte, Block.zero, Bytes.zero, Vector.getElem?_replicate]
    split <;> rfl
  simp [get, h, bit_zero]

/-- Only the item that is set or cleared changes. -/
theorem get_of_set {b b' : Bitmap} {i : Nat} {used : Bool} (h : b.set i used = .ok b')
    (fits : b.count ≤ 8 * blockSize) (j : Nat) :
    b'.get j = if j = i then used else b.get j := by
  unfold set at h
  split at h
  · next hi =>
    have hi8 : i / 8 < blockSize := by omega
    have hm : i % 8 < 8 := Nat.mod_lt i (by decide)
    injection h with h
    subst h
    by_cases hq : i / 8 = j / 8
    · have hb : b.byte i = b.byte j := by simp only [byte, hq]
      have hb' : (⟨b.bits.setIfInBounds (i / 8) (setBit (b.byte i) (i % 8) used), b.count⟩ :
          Bitmap).byte j = setBit (b.byte i) (i % 8) used := by
        have hj8 : j / 8 < blockSize := by omega
        simp [byte, hq, hj8]
      rw [get, hb', bit_setBit _ _ _ _ hm, get, hb]
      by_cases hij : j = i
      · subst hij
        simp [hi]
      · have : ¬ j % 8 = i % 8 := by omega
        simp [this, hij]
    · have hij : ¬ j = i := fun e => hq (by rw [e])
      have hb' : (⟨b.bits.setIfInBounds (i / 8) (setBit (b.byte i) (i % 8) used), b.count⟩ :
          Bitmap).byte j = b.byte j := by
        simp [byte, hq]
      rw [get, hb', if_neg hij, get]
  · cases h

end Bitmap

end BlockFS
