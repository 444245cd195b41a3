import BlockFS.Proofs.Runs
import Mathlib.Data.Set.Insert
import Mathlib.Order.Bounds.Basic

/-!
# First-fit allocation

On a mounted volume of any layout, whatever its bitmaps hold, the lowest free item is handed out and
nothing but its bit changes; and taking an item back clears nothing but its bit.  From what one step
does follows what a row of steps does: no item is handed out while it is held, nor one that was in use
before, and as many items can be handed out as the statistics say.  The same holds of blocks that are
handed out full of zeros, where the blocks before the data are in use: otherwise one of the two bitmaps
could be filled with zeros itself.
-/

namespace BlockFS

open Volume

variable {l : Layout}

/-! ## Bits of a bitmap block -/

namespace Bitmap

/-- Two blocks with the same bits are the same. -/
theorem bits_eq_of_get_eq {b b' : Block}
    (h : ∀ k, Bitmap.get ⟨b, itemsPerBitmap⟩ k = Bitmap.get ⟨b', itemsPerBitmap⟩ k) : b = b' := by
  apply Vector.ext
  intro t ht
  apply UInt8.toBitVec_inj.mp
  apply BitVec.eq_of_getLsbD_eq
  intro k hk
  have hin : 8 * t + k < itemsPerBitmap := by
    simp only [itemsPerBitmap]
    omega
  have hdiv : (8 * t + k) / 8 = t := by omega
  have hmod : (8 * t + k) % 8 = k := by omega
  have hbit := h (8 * t + k)
  simpa only [get, decide_eq_true hin, Bool.true_and, byte, hdiv, hmod, bit,
    Vector.getElem?_eq_getElem ht, Option.getD_some] using hbit

end Bitmap

namespace Mounted

variable {m m' m'' : Mounted l} {r : Resource} {i : Nat} {used : Bool} {cleared : Option Nat}

/-- Bit `k` of the block of a bitmap, also where the bitmap tells of no item `k`. -/
def bit (m : Mounted l) (r : Resource) (k : Nat) : Bool :=
  Bitmap.get ⟨m.disk.block (r.bitmapBlock l), itemsPerBitmap⟩ k

theorem used_eq_bit (hi : i < r.count l) : m.records.used r i = m.bit r i := by
  have hin : i < itemsPerBitmap := Nat.lt_of_lt_of_le hi (l.count_le r)
  change Bitmap.get ⟨m.disk.block (r.bitmapBlock l), r.count l⟩ i = _
  simp only [bit, Bitmap.get, decide_eq_true hi, decide_eq_true hin]
  rfl

theorem lt_count_of_used (h : m.records.used r i = true) : i < r.count l :=
  Bitmap.lt_count_of_get (b := l.bitmap m.disk.block r) h

/-! ## One bit is turned -/

/-- The volume `m'` is `m` with the bit of an item set or cleared, and with zeros in the block
`cleared`, if there is one.  No other bit of any block differs, and the disk has only become longer if it
did not reach to that block. -/
structure Turns (m : Mounted l) (r : Resource) (i : Nat) (used : Bool) (cleared : Option Nat)
    (m' : Mounted l) : Prop where
  bit : ∀ k, m'.bit r k = if k = i then used else m.bit r k
  block : ∀ b, b ≠ r.bitmapBlock l →
    m'.disk.block b = if cleared = some b then .zero else m.disk.block b
  zeroed : ∀ b, cleared = some b →
    l.firstDataBlock ≤ b ∧ Does (readBlock b) m' (.ok .zero) m'
  shape : (∀ b, cleared = some b → 2 * b + 1 < m.disk.sectors.size) → m.disk.SameShape m'.disk
  grows : m.disk.sectors.size ≤ m'.disk.sectors.size
  clock : m'.clock = m.clock
  cwd : m'.cwd = m.cwd

theorem turns_mark (hc : m.Covers r) (hi : i < r.count l) (used : Bool) :
    m.Turns r i used none (m.mark r i used) where
  bit k := by
    have hin : i < itemsPerBitmap := Nat.lt_of_lt_of_le hi (l.count_le r)
    have hget := Bitmap.get_mark (b := ⟨m.disk.block (r.bitmapBlock l), itemsPerBitmap⟩) hin
      (Nat.le_refl _) used k
    rw [bit, mark, putBlock, Disk.block_putBlock, if_pos rfl]
    exact hget
  block b hb := by
    rw [mark, putBlock, Disk.block_putBlock, if_neg hb]
    rfl
  zeroed b hb := by cases hb
  shape _ := Disk.sameShape_putBlock hc _
  grows := Nat.le_of_eq (Disk.sameShape_putBlock hc _).size.symm
  clock := rfl
  cwd := rfl

theorem turns_putBlock_zero (h : m.Turns .block i used none m') (hi : l.firstDataBlock ≤ i)
    (hlt : i < l.blockCount) : m.Turns .block i used (some i) (m'.putBlock i .zero) where
  bit k := by
    have hne : Resource.block.bitmapBlock l ≠ i :=
      Nat.ne_of_lt (Nat.lt_of_lt_of_le
        (Nat.lt_trans (l.bitmapBlock_lt_tableStart .block) l.tableStart_lt_firstDataBlock) hi)
    rw [← h.bit k, bit, putBlock, Disk.block_putBlock, if_neg hne]
    rfl
  block b hb := by
    have hblock := h.block b hb
    rw [if_neg (by simp)] at hblock
    rw [putBlock, Disk.block_putBlock, hblock]
    simp only [Option.some_inj, eq_comm]
  zeroed b hb := by
    obtain rfl := Option.some_inj.mp hb
    have hsize : 2 * i + 1 < (m'.putBlock i .zero).disk.sectors.size := by
      rw [putBlock, Disk.size_sectors_putBlock]
      omega
    have hread := does_readBlock (m := m'.putBlock i .zero) hlt hsize
    have hzero : (m'.putBlock i .zero).disk.block i = .zero := by
      rw [putBlock, Disk.block_putBlock, if_pos rfl]
    rw [hzero] at hread
    exact ⟨hi, hread⟩
  shape hcovers := by
    have hshape := h.shape fun b hb => by cases hb
    exact hshape.trans (Disk.sameShape_putBlock (by rw [hshape.size]; exact hcovers i rfl) _)
  grows := by
    rw [putBlock, Disk.size_sectors_putBlock]
    exact Nat.le_trans h.grows (Nat.le_max_left _ _)
  clock := h.clock
  cwd := h.cwd

namespace Turns

/-- Of all items only the one that was turned differs. -/
theorem used_eq (h : m.Turns r i used cleared m') (hi : i < r.count l) (r' : Resource) (j : Nat) :
    m'.records.used r' j = if r' = r ∧ j = i then used else m.records.used r' j := by
  by_cases hr : r' = r
  · subst hr
    by_cases hj : j < r'.count l
    · rw [used_eq_bit hj, used_eq_bit hj, h.bit]
      simp
    · have hne : ¬ (r' = r' ∧ j = i) := fun hsame => hj (hsame.2 ▸ hi)
      have hfree (m : Mounted l) : m.records.used r' j = false :=
        Bool.eq_false_iff.mpr fun hu => hj (lt_count_of_used hu)
      rw [if_neg hne, hfree, hfree]
  · have hne : r'.bitmapBlock l ≠ r.bitmapBlock l := fun he => hr (l.bitmapBlock_injective he)
    have hclear : cleared ≠ some (r'.bitmapBlock l) := by
      intro he
      have hdata := (h.zeroed _ he).1
      have htable := l.bitmapBlock_lt_tableStart r'
      have := l.tableStart_lt_firstDataBlock
      omega
    have hblock := h.block _ hne
    rw [if_neg hclear] at hblock
    rw [if_neg fun hsame => hr hsame.1]
    change (l.bitmap m'.disk.block r').get j = (l.bitmap m.disk.block r').get j
    rw [Layout.bitmap, Layout.bitmap, hblock]

/-- What was in use is in use where a bit is set. -/
theorem used_mono (h : m.Turns r i true cleared m') (hi : i < r.count l) {r' : Resource} {j : Nat}
    (hj : m.records.used r' j = true) : m'.records.used r' j = true := by
  rw [h.used_eq hi, hj, ite_self]

/-- Setting a clear bit and clearing it again gives back the block of the bitmap. -/
theorem restores (h : m.Turns r i true cleared m') (h' : m'.Turns r i false none m'')
    (hi : i < r.count l) (hfree : m.records.used r i = false) :
    m''.disk.block (r.bitmapBlock l) = m.disk.block (r.bitmapBlock l) := by
  apply Bitmap.bits_eq_of_get_eq
  intro k
  change m''.bit r k = m.bit r k
  rw [h'.bit, h.bit]
  split
  · next hk => rw [hk, ← used_eq_bit hi, hfree]
  · rfl

end Turns

/-! ## The items that are left -/

/-- The free items that may be handed out, in ascending order. -/
def clear (m : Mounted l) (r : Resource) : List Nat :=
  (List.range' 1 (r.count l - 1)).filter fun i => !m.records.used r i

theorem head?_clear (m : Mounted l) (r : Resource) :
    (m.clear r).head? = m.records.lowestFree r (r.count l) :=
  List.head?_filter

/-- Where item zero is in use, the free items are as many as the statistics say. -/
theorem length_clear (h : m.records.used r 0 = true) :
    (m.clear r).length = (l.bitmap m.disk.block r).freeCount := by
  have hcount : 0 < r.count l := lt_count_of_used h
  have hrange : List.range (r.count l) = 0 :: List.range' 1 (r.count l - 1) := by
    obtain ⟨n, hn⟩ := Nat.exists_eq_succ_of_ne_zero (Nat.ne_of_gt hcount)
    rw [hn, List.range_eq_range', List.range'_succ]
    rfl
  have husedCount : (l.bitmap m.disk.block r).usedCount
      = (List.range' 1 (r.count l - 1)).countP (m.records.used r) + 1 := by
    change (List.range (r.count l)).countP (m.records.used r) = _
    rw [hrange, List.countP_cons_of_pos h]
  have hnot : (fun i => decide ¬ m.records.used r i = true) = fun i => !m.records.used r i :=
    funext fun i => by simp
  have htotal := List.length_eq_countP_add_countP (m.records.used r)
    (l := List.range' 1 (r.count l - 1))
  rw [List.length_range', hnot] at htotal
  rw [Bitmap.freeCount, husedCount, clear, ← List.countP_eq_length_filter]
  change _ = r.count l - _
  omega

/-- Once the lowest free item is in use, the others are left. -/
theorem Turns.clear_eq {is : List Nat} (h : m.Turns r i true cleared m') (hi : i < r.count l)
    (hclear : m.clear r = i :: is) : m'.clear r = is := by
  have hnodup : (i :: is).Nodup := hclear ▸ List.Pairwise.filter _ List.nodup_range'
  have hused (j : Nat) : (!m'.records.used r j) = (decide (j ≠ i) && !m.records.used r j) := by
    rw [h.used_eq hi]
    by_cases hj : j = i
    · simp [hj]
    · simp [hj]
  rw [clear, List.filter_congr fun j _ => hused j, ← List.filter_filter]
  change (m.clear r).filter _ = is
  rw [hclear, List.filter_cons_of_neg (by simp), List.filter_eq_self]
  intro j hj
  have hne : j ≠ i := fun he => (List.nodup_cons.mp hnodup).1 (he ▸ hj)
  exact decide_eq_true hne

end Mounted

/-! ## Allocators -/

/-- A way to hand out items, and the block that it fills with zeros for each. -/
structure Allocator where
  acquire : Resource → VolumeM Nat
  cleared : Resource → Nat → Option Nat

/-- Items are handed out by their bitmaps alone. -/
def Allocator.plain : Allocator where
  acquire := allocate
  cleared _ _ := none

/-- Inodes are handed out by their bitmap, and blocks full of zeros. -/
def Allocator.zeroing : Allocator where
  acquire
    | .inode => allocate .inode
    | .block => allocateBlock
  cleared
    | .inode, _ => none
    | .block, i => some i

namespace Mounted

/-- Some items are handed out one after another. -/
inductive Draws (x : VolumeM Nat) : Mounted l → List Nat → Mounted l → Prop
  | nil (m : Mounted l) : Draws x m [] m
  | cons {m m' m'' : Mounted l} {i : Nat} {is : List Nat} :
      Does x m (.ok i) m' → Draws x m' is m'' → Draws x m (i :: is) m''

/-- From the volume `m` on, items were handed out and taken back in any order, whether there was one
left or not.  Only items that are held are taken back. -/
inductive Deals (a : Allocator) (m : Mounted l) : Set (Resource × Nat) → Mounted l → Prop
  | start : Deals a m ∅ m
  | acquired {held m' m'' r i} : Deals a m held m' → Does (a.acquire r) m' (.ok i) m'' →
      Deals a m (insert (r, i) held) m''
  | refused {held m' m'' r e} : Deals a m held m' → Does (a.acquire r) m' (.error e) m'' →
      Deals a m held m''
  | released {held m' m'' r i res} : Deals a m held m' → (r, i) ∈ held →
      Does (deallocate r i) m' res m'' → Deals a m (held \ {(r, i)}) m''

/-- What one step of an allocator does.  The lowest free item is handed out, or there is none; any item
can be taken back, and none that there is not; taking back what was handed out gives back the bitmap; the
free items can be handed out down to the last one, and the statistics tell how many there are. -/
structure Serves (a : Allocator) (m : Mounted l) : Prop where
  grants : ∀ r i, IsLeast {j | 1 ≤ j ∧ j < r.count l ∧ m.records.used r j = false} i →
    ∃ m', Does (a.acquire r) m (.ok i) m' ∧ m.Turns r i true (a.cleared r i) m' ∧
      ∃ m'', Does (deallocate r i) m' (.ok ()) m'' ∧
        m''.disk.block (r.bitmapBlock l) = m.disk.block (r.bitmapBlock l)
  refuses : ∀ r, Does (a.acquire r) m (.error .noSpace) m ↔
    ∀ j, 1 ≤ j → j < r.count l → m.records.used r j = true
  releases : ∀ r, ∀ i < r.count l,
    ∃ m', Does (deallocate r i) m (.ok ()) m' ∧ m.Turns r i false none m'
  missing : ∀ r i, r.count l ≤ i → Does (deallocate r i) m (.error .notFound) m
  exhausts : ∀ r, ∃ m', m.Draws (a.acquire r) (m.clear r) m' ∧
    Does (a.acquire r) m' (.error .noSpace) m'
  remaining : ∀ r, m.records.used r 0 = true →
    (m.clear r).length = (l.bitmap m.disk.block r).freeCount
  reports : ∀ owner group history, ∃ history',
    Kernel.answer .statistics ⟨Settled.state m history, owner, group⟩ =
      .ok (.statistics ⟨l.blockCount, (l.bitmap m.disk.block .block).freeCount,
        l.inodeCount, (l.bitmap m.disk.block .inode).freeCount⟩)
        ⟨Settled.state m history', owner, group⟩

/-- An allocator hands out the lowest free item, at every point of every row of steps: in use is what
was in use at first and what is held, and what is handed out was neither. -/
structure FirstFit (a : Allocator) (m : Mounted l) : Prop where
  serves : ∀ held m', m.Deals a held m' → m'.Serves a
  used_iff : ∀ held m', m.Deals a held m' → ∀ r i,
    m'.records.used r i = true ↔ m.records.used r i = true ∨ (r, i) ∈ held
  fresh : ∀ held m', m.Deals a held m' → ∀ r i m'', Does (a.acquire r) m' (.ok i) m'' →
    m.records.used r i = false ∧ (r, i) ∉ held

/-! ## From one step to every row of steps -/

theorem isLeast_free_iff {m : Mounted l} {r : Resource} {i : Nat} :
    IsLeast {j | 1 ≤ j ∧ j < r.count l ∧ m.records.used r j = false} i ↔
      m.records.lowestFree r (r.count l) = some i := by
  rw [Records.lowestFree_eq_some_iff]
  constructor
  · rintro ⟨⟨hpos, hlt, hfree⟩, hleast⟩
    refine ⟨hpos, hlt, hfree, fun j hj hji => ?_⟩
    by_contra hunused
    have hle := hleast ⟨hj, Nat.lt_trans hji hlt, Bool.not_eq_true _ ▸ hunused⟩
    exact Nat.not_lt_of_le hle hji
  · rintro ⟨hpos, hlt, hfree, hbelow⟩
    refine ⟨⟨hpos, hlt, hfree⟩, fun j ⟨hj, _, hjfree⟩ => Nat.le_of_not_lt fun hji => ?_⟩
    rw [hbelow j hj hji] at hjfree
    cases hjfree

/-- On volumes with a property an allocator hands out the lowest free item, and a volume keeps the
property while its disk gets no shorter and nothing that was in use is free. -/
structure Obeys (a : Allocator) (P : Mounted l → Prop) : Prop where
  covers : ∀ {m}, P m → ∀ r, m.Covers r
  lasts : ∀ {m m'}, P m → (∀ r i, m.records.used r i = true → m'.records.used r i = true) →
    m.disk.sectors.size ≤ m'.disk.sectors.size → P m'
  grants : ∀ {m r i}, P m → m.records.lowestFree r (r.count l) = some i →
    ∃ m', Does (a.acquire r) m (.ok i) m' ∧ m.Turns r i true (a.cleared r i) m'
  refuses : ∀ {m r}, P m → m.records.lowestFree r (r.count l) = none →
    Does (a.acquire r) m (.error .noSpace) m

namespace Obeys

variable {a : Allocator} {P : Mounted l → Prop} {m m' m'' : Mounted l} {r : Resource} {i : Nat}
  {held : Set (Resource × Nat)} (ha : Obeys a P)

include ha

theorem of_turns {cleared : Option Nat} (hm : P m) (hi : i < r.count l)
    (h : m.Turns r i true cleared m') : P m' :=
  ha.lasts hm (fun _ _ hused => h.used_mono hi hused) h.grows

theorem exhausts (hm : P m) (r : Resource) :
    ∃ m', m.Draws (a.acquire r) (m.clear r) m' ∧ Does (a.acquire r) m' (.error .noSpace) m' := by
  generalize hclear : m.clear r = is
  induction is generalizing m with
  | nil =>
    have hnone : m.records.lowestFree r (r.count l) = none := by
      rw [← m.head?_clear, hclear]
      rfl
    exact ⟨m, .nil m, ha.refuses hm hnone⟩
  | cons i is ih =>
    have hsome : m.records.lowestFree r (r.count l) = some i := by
      rw [← m.head?_clear, hclear]
      rfl
    have hi := (Records.lowestFree_eq_some_iff.mp hsome).2.1
    obtain ⟨m₁, hdoes, hturns⟩ := ha.grants hm hsome
    obtain ⟨m', hdraws, hfull⟩ := ih (ha.of_turns hm hi hturns) (hturns.clear_eq hi hclear)
    exact ⟨m', .cons hdoes hdraws, hfull⟩

/-- What an allocator did to a volume: it handed out the lowest free item, or there was none. -/
theorem acquire_cases {res : Except Error Nat} (hm : P m) (h : Does (a.acquire r) m res m') :
    (∃ i, res = .ok i ∧ i < r.count l ∧ m.records.used r i = false ∧
        m.Turns r i true (a.cleared r i) m') ∨
      (res = .error .noSpace ∧ m' = m ∧
        ∀ j, 1 ≤ j → j < r.count l → m.records.used r j = true) := by
  cases hfree : m.records.lowestFree r (r.count l) with
  | some i =>
    obtain ⟨-, hi, hunused, -⟩ := Records.lowestFree_eq_some_iff.mp hfree
    obtain ⟨m₁, hdoes, hturns⟩ := ha.grants hm hfree
    obtain ⟨rfl, rfl⟩ := does_unique h hdoes
    exact .inl ⟨i, rfl, hi, hunused, hturns⟩
  | none =>
    obtain ⟨rfl, rfl⟩ := does_unique h (ha.refuses hm hfree)
    exact .inr ⟨rfl, rfl, Records.lowestFree_eq_none_iff.mp hfree⟩

theorem releases (hm : P m) (hi : i < r.count l) :
    ∃ m', Does (deallocate r i) m (.ok ()) m' ∧ m.Turns r i false none m' :=
  ⟨_, does_deallocate (ha.covers hm r) hi, turns_mark (ha.covers hm r) hi false⟩

theorem reports (hm : P m) (owner group : Nat) (history : History) : ∃ history',
    Kernel.answer .statistics ⟨Settled.state m history, owner, group⟩ =
      .ok (.statistics ⟨l.blockCount, (l.bitmap m.disk.block .block).freeCount,
        l.inodeCount, (l.bitmap m.disk.block .inode).freeCount⟩)
        ⟨Settled.state m history', owner, group⟩ := by
  obtain ⟨history₁, hblocks⟩ := does_readBitmap (ha.covers hm .block) history
  obtain ⟨history₂, hinodes⟩ := does_readBitmap (ha.covers hm .inode) history₁
  have honVolume {r : Resource} {h h' : History}
      (hread : readBitmap r (Settled.state m h)
        = withState (.ok (l.bitmap m.disk.block r)) (Settled.state m h')) :
      Kernel.onVolume (readBitmap r) ⟨Settled.state m h, owner, group⟩
        = .ok (l.bitmap m.disk.block r) ⟨Settled.state m h', owner, group⟩ := by
    simp only [Kernel.onVolume, hread, withState]
  refine ⟨history₂, ?_⟩
  exact (bind_of_ok (honVolume hblocks)).trans (bind_of_ok (honVolume hinodes))

theorem serves (hm : P m) : m.Serves a where
  grants r i hleast := by
    have hfree := isLeast_free_iff.mp hleast
    obtain ⟨-, hi, hunused, -⟩ := Records.lowestFree_eq_some_iff.mp hfree
    obtain ⟨m', hdoes, hturns⟩ := ha.grants hm hfree
    obtain ⟨m'', hback, hturns'⟩ := ha.releases (ha.of_turns hm hi hturns) hi
    exact ⟨m', hdoes, hturns, m'', hback, hturns.restores hturns' hi hunused⟩
  refuses r := by
    constructor
    · intro h
      obtain ⟨i, hres, -⟩ | ⟨-, -, hused⟩ := ha.acquire_cases hm h
      · cases hres
      · exact hused
    · exact fun hused => ha.refuses hm (Records.lowestFree_eq_none_iff.mpr hused)
  releases r i hi := ha.releases hm hi
  missing r i hi := does_deallocate_missing (ha.covers hm r) hi
  exhausts := ha.exhausts hm
  remaining r h := length_clear h
  reports := ha.reports hm

/-- What every row of steps keeps, by induction on the row: in use is what was in use at first and what
is held, and nothing is both. -/
theorem deals (hm : P m) (h : m.Deals a held m') :
    (∀ r i, m'.records.used r i = true ↔ m.records.used r i = true ∨ (r, i) ∈ held) ∧
      (∀ r i, (r, i) ∈ held → m.records.used r i = false) ∧ P m' := by
  suffices hkept : (∀ r i, m'.records.used r i = true ↔ m.records.used r i = true ∨ (r, i) ∈ held) ∧
      (∀ r i, (r, i) ∈ held → m.records.used r i = false) ∧
      m.disk.sectors.size ≤ m'.disk.sectors.size from
    ⟨hkept.1, hkept.2.1, ha.lasts hm (fun r i hused => (hkept.1 r i).mpr (.inl hused)) hkept.2.2⟩
  induction h with
  | start => exact ⟨fun r i => by simp, fun r i hmem => by simp at hmem, Nat.le_refl _⟩
  | @acquired held m₁ m₂ r i _ hdoes ih =>
    obtain ⟨hused, hapart, hsize⟩ := ih
    have hm₁ := ha.lasts hm (fun r i h => (hused r i).mpr (.inl h)) hsize
    obtain ⟨j, hres, hi, hunused, hturns⟩ | ⟨hres, -⟩ := ha.acquire_cases hm₁ hdoes
    · injection hres with hij
      subst hij
      refine ⟨fun r' j => ?_, fun r' j hmem => ?_, Nat.le_trans hsize hturns.grows⟩
      · rw [hturns.used_eq hi, Set.mem_insert_iff, Prod.mk.injEq, or_left_comm, ← hused]
        split
        · next hsame => simp [hsame]
        · next hother => simp [hother]
      · rcases Set.mem_insert_iff.mp hmem with hnew | hold
        · obtain ⟨rfl, rfl⟩ := Prod.mk.inj hnew
          refine Bool.eq_false_iff.mpr fun hwas => ?_
          rw [(hused _ _).mpr (.inl hwas)] at hunused
          cases hunused
        · exact hapart r' j hold
    · cases hres
  | @refused held m₁ m₂ r e _ hdoes ih =>
    obtain ⟨hused, hapart, hsize⟩ := ih
    have hm₁ := ha.lasts hm (fun r i h => (hused r i).mpr (.inl h)) hsize
    obtain ⟨j, hres, -⟩ | ⟨-, rfl, -⟩ := ha.acquire_cases hm₁ hdoes
    · cases hres
    · exact ⟨hused, hapart, hsize⟩
  | @released held m₁ m₂ r i res _ hmem hdoes ih =>
    obtain ⟨hused, hapart, hsize⟩ := ih
    have hm₁ := ha.lasts hm (fun r i h => (hused r i).mpr (.inl h)) hsize
    have hi : i < r.count l := lt_count_of_used ((hused r i).mpr (.inr hmem))
    obtain ⟨m₃, hback, hturns⟩ := ha.releases hm₁ hi
    obtain ⟨-, rfl⟩ := does_unique hdoes hback
    refine ⟨fun r' j => ?_, fun r' j hin => hapart r' j hin.1, Nat.le_trans hsize hturns.grows⟩
    rw [hturns.used_eq hi, Set.mem_sdiff, Set.mem_singleton_iff, Prod.mk.injEq]
    split
    · next hsame =>
      obtain ⟨rfl, rfl⟩ := hsame
      simp [hapart _ _ hmem]
    · next hother => simp [hother, hused]

theorem firstFit (hm : P m) : m.FirstFit a where
  serves _ _ h := ha.serves (ha.deals hm h).2.2
  used_iff _ _ h := (ha.deals hm h).1
  fresh held m' h r i m'' hdoes := by
    obtain ⟨hused, -, hm'⟩ := ha.deals hm h
    obtain ⟨j, hres, -, hunused, -⟩ | ⟨hres, -⟩ := ha.acquire_cases hm' hdoes
    · injection hres with hij
      subst hij
      have hneither := (not_congr (hused r i)).mp (Bool.eq_false_iff.mp hunused)
      exact ⟨Bool.eq_false_iff.mpr fun h => hneither (.inl h), fun h => hneither (.inr h)⟩
    · cases hres

end Obeys

/-! ## The two allocators -/

theorem obeys_plain : Obeys (l := l) .plain fun m => ∀ r, m.Covers r where
  covers h := h
  lasts h _ hsize r := Nat.lt_of_lt_of_le (h r) hsize
  grants h hfree :=
    ⟨_, does_allocate (h _) hfree, turns_mark (h _) (Records.lowestFree_eq_some_iff.mp hfree).2.1 true⟩
  refuses h hfull := does_allocate_full (h _) hfull

theorem obeys_zeroing :
    Obeys (l := l) .zeroing fun m => (∀ r, m.Covers r) ∧ m.records.Reserves l where
  covers h := h.1
  lasts h hused hsize :=
    ⟨fun r => Nat.lt_of_lt_of_le (h.1 r) hsize, fun b hb => hused .block b (h.2 b hb)⟩
  grants {m r i} h hfree := by
    obtain ⟨-, hi, hunused, -⟩ := Records.lowestFree_eq_some_iff.mp hfree
    have hturns := turns_mark (h.1 r) hi true
    cases r with
    | inode => exact ⟨_, does_allocate (h.1 .inode) hfree, hturns⟩
    | block =>
      exact ⟨_, does_allocateBlock (h.1 .block) hfree,
        turns_putBlock_zero hturns (h.2.le_of_free hunused) hi⟩
  refuses {m r} h hfull := by
    cases r with
    | inode => exact does_allocate_full (h.1 .inode) hfull
    | block => exact does_allocateBlock_full (h.1 .block) hfull

/-- Inodes and blocks are handed out lowest first, whatever the bitmaps hold.  Where the blocks before
the data are in use, so are blocks that are filled with zeros. -/
theorem allocation_firstFit {m : Mounted l} (h : ∀ r, m.Covers r) :
    m.FirstFit .plain ∧ (m.records.Reserves l → m.FirstFit .zeroing) :=
  ⟨obeys_plain.firstFit h, fun hreserves => obeys_zeroing.firstFit ⟨h, hreserves⟩⟩

/-- On a new floppy disk the blocks before the data are in use. -/
theorem allocation_firstFit_floppy : ∃ (m : Mounted .floppy) (history : History),
    Service.floppy.volume = Settled.state m history ∧ (∀ r, m.Covers r) ∧
      m.records.Reserves .floppy ∧ m.FirstFit .plain ∧ m.FirstFit .zeroing := by
  obtain ⟨s, history, heq, hnew⟩ := Service.floppy_eq
  have hvolume : Service.floppy.volume = Settled.state s.onDisk history := by
    rw [Scene.state_onDisk hnew.mounted, heq]
    rfl
  have hreserves : s.onDisk.records.Reserves .floppy := fun b hb =>
    (hnew.usedBlock b).trans (decide_eq_true (Nat.le_of_lt hb))
  have hfits := allocation_firstFit s.covers_onDisk
  exact ⟨s.onDisk, history, hvolume, s.covers_onDisk, hreserves, hfits.1, hfits.2 hreserves⟩

end Mounted

end BlockFS
