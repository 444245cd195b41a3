import BlockFS.Proofs.NameTree
import BlockFS.Proofs.Scene.Allocation

/-!
# Ownership of blocks

An inode in use owns the blocks that its record points to.  The bitmaps are exact if they tell of these
blocks and inodes and of nothing else.  Which change of the bitmaps belongs to which change of the
owners is said here without regard to where either is stored.
-/

namespace BlockFS

/-! ## Pointers of a record -/

namespace Inode

variable {x : Inode} {slot k b : Nat}

theorem block?_eq_some_iff :
    x.block? slot = some b ↔ ∃ p : UInt16, x.pointers[slot]? = some p ∧ p ≠ 0 ∧ p.toNat = b := by
  rw [block?, pointer?, Option.bind_eq_some_iff]
  refine exists_congr fun p => and_congr_right fun _ => ?_
  split
  · next hp => simp [hp]
  · next hp => simp [hp]

theorem block?_eq_none_of_le (h : pointerCount ≤ slot) : x.block? slot = none := by
  rw [block?, pointer?, Vector.getElem?_eq_none h, Option.bind_none]

theorem mem_blocks_iff : b ∈ x.blocks ↔ ∃ slot, x.block? slot = some b := by
  simp only [blocks, List.mem_map, List.mem_filter, block?_eq_some_iff, decide_eq_true_eq]
  constructor
  · rintro ⟨p, ⟨hmem, hne⟩, rfl⟩
    obtain ⟨slot, hslot, rfl⟩ := Vector.getElem_of_mem (Vector.mem_toList_iff.mp hmem)
    exact ⟨slot, _, Vector.getElem?_eq_getElem hslot, hne, rfl⟩
  · rintro ⟨slot, p, hp, hne, rfl⟩
    exact ⟨p, ⟨Vector.mem_toList_iff.mpr (Vector.mem_of_getElem? hp), hne⟩, rfl⟩

theorem block?_new (kind : Kind) (seconds : Int) : (Inode.new kind seconds).block? slot = none := by
  rw [Option.eq_none_iff_forall_not_mem]
  intro b hb
  obtain ⟨p, hp, hne, -⟩ := block?_eq_some_iff.mp hb
  simp only [new, Vector.getElem?_replicate] at hp
  split at hp
  · cases hp
    exact hne rfl
  · cases hp

theorem blocks_new (kind : Kind) (seconds : Int) : (Inode.new kind seconds).blocks = [] := by
  apply List.eq_nil_iff_forall_not_mem.mpr
  intro b hb
  obtain ⟨slot, hslot⟩ := mem_blocks_iff.mp hb
  rw [block?_new] at hslot
  cases hslot

theorem kind_new (kind : Kind) (seconds : Int) : (Inode.new kind seconds).kind = kind := by
  cases kind <;> rfl

/-- The stored form of a block that may be handed out is no hole. -/
theorem ofNat_ne_zero (hb : b ≠ 0) (hlt : b < UInt16.size) : UInt16.ofNat b ≠ 0 := by
  intro h
  have hword := UInt16.toNat_ofNat_of_lt' hlt
  rw [h] at hword
  exact hb hword.symm

/-- A slot points to the block that is put there, and the others stay as they are. -/
theorem block?_setPointer (hslot : slot < pointerCount) (hb : b ≠ 0) (hlt : b < UInt16.size) :
    (x.setPointer slot b).block? k = if k = slot then some b else x.block? k := by
  have hword := UInt16.toNat_ofNat_of_lt' hlt
  have hne := ofNat_ne_zero hb hlt
  simp only [block?, pointer?, setPointer, Vector.getElem?_setIfInBounds]
  by_cases hk : k = slot
  · subst hk
    simp only [if_true, if_pos hslot, Option.bind_some, if_neg hne, hword]
  · simp only [if_neg hk, if_neg (Ne.symm hk)]

theorem kind_setPointer (slot b : Nat) : (x.setPointer slot b).kind = x.kind := rfl

theorem size_setPointer (slot b : Nat) : (x.setPointer slot b).size = x.size := rfl

end Inode

/-! ## Exact bitmaps -/

/-- The blocks in use are those before the data and those that an owner has in one slot, and no block
has two owners. -/
structure BlocksExact (l : Layout) (used : Nat → Bool) (owns : Nat → Nat → Nat → Prop) :
    Prop where
  reserved : ∀ b, b < l.firstDataBlock → used b = true
  used_iff : ∀ b, l.firstDataBlock ≤ b → (used b = true ↔ ∃ i slot, owns i slot b)
  range : ∀ i slot b, owns i slot b → l.firstDataBlock ≤ b ∧ b < l.blockCount
  once : ∀ i slot i' slot' b, owns i slot b → owns i' slot' b → i = i' ∧ slot = slot'

/-- The inodes in use are the inode zero and those of some kind. -/
structure InodesExact (l : Layout) (used : Nat → Bool) (kind : Nat → Kind) : Prop where
  used_iff : ∀ i, used i = true ↔ i = 0 ∨ kind i ≠ .free
  range : ∀ i, used i = true → i < l.inodeCount

section

variable {l : Layout} {used used' : Nat → Bool} {owns owns' : Nat → Nat → Nat → Prop}
  {kind kind' : Nat → Kind} {i slot b : Nat}

namespace BlocksExact

variable (h : BlocksExact l used owns)

include h

theorem congr (hused : ∀ x, used' x = used x)
    (howns : ∀ j s x, owns' j s x ↔ owns j s x) : BlocksExact l used' owns' := by
  have hused : used' = used := funext hused
  have howns : owns' = owns := by
    funext j s x
    exact propext (howns j s x)
  rw [hused, howns]
  exact h

theorem used_of_owns (ho : owns i slot b) : used b = true :=
  (h.used_iff b (h.range i slot b ho).1).mpr ⟨i, slot, ho⟩

theorem not_owns_of_free (hfree : used b = false) : ¬ owns i slot b := by
  intro ho
  rw [h.used_of_owns ho] at hfree
  cases hfree

theorem ge_of_free (hfree : used b = false) : l.firstDataBlock ≤ b := by
  rcases Nat.lt_or_ge b l.firstDataBlock with hlt | hge
  · rw [h.reserved b hlt] at hfree
    cases hfree
  · exact hge

/-- A free block gets an owner. -/
theorem give (i slot : Nat) (hfree : used b = false) (hlt : b < l.blockCount)
    (hused : ∀ x, used' x = if x = b then true else used x)
    (howns : ∀ j s x, owns' j s x ↔ owns j s x ∨ (j = i ∧ s = slot ∧ x = b)) :
    BlocksExact l used' owns' := by
  have hge := h.ge_of_free hfree
  constructor
  · intro x hx
    rw [hused]
    split
    · rfl
    · exact h.reserved x hx
  · intro x hx
    rw [hused]
    by_cases hxb : x = b
    · rw [if_pos hxb]
      exact iff_of_true rfl ⟨i, slot, (howns i slot x).mpr (.inr ⟨rfl, rfl, hxb⟩)⟩
    · rw [if_neg hxb, h.used_iff x hx]
      constructor
      · rintro ⟨j, s, ho⟩
        exact ⟨j, s, (howns j s x).mpr (.inl ho)⟩
      · rintro ⟨j, s, ho⟩
        rcases (howns j s x).mp ho with ho | ⟨-, -, he⟩
        · exact ⟨j, s, ho⟩
        · exact absurd he hxb
  · intro j s x ho
    rcases (howns j s x).mp ho with ho | ⟨-, -, rfl⟩
    · exact h.range j s x ho
    · exact ⟨hge, hlt⟩
  · intro j s j' s' x ho ho'
    rcases (howns j s x).mp ho with ho | ⟨rfl, rfl, rfl⟩
    · rcases (howns j' s' x).mp ho' with ho' | ⟨rfl, rfl, rfl⟩
      · exact h.once j s j' s' x ho ho'
      · exact absurd ho (h.not_owns_of_free hfree)
    · rcases (howns j' s' x).mp ho' with ho' | ⟨rfl, rfl, -⟩
      · exact absurd ho' (h.not_owns_of_free hfree)
      · exact ⟨rfl, rfl⟩

/-- An owner goes, and its blocks become free. -/
theorem release
    (hfreed : ∀ x, (∃ s, owns i s x) → used' x = false)
    (hkept : ∀ x, ¬ (∃ s, owns i s x) → used' x = used x)
    (howns : ∀ j s x, owns' j s x ↔ owns j s x ∧ j ≠ i) : BlocksExact l used' owns' := by
  constructor
  · intro x hx
    rw [hkept]
    · exact h.reserved x hx
    · rintro ⟨s, ho⟩
      exact absurd (h.range i s x ho).1 (Nat.not_le_of_lt hx)
  · intro x hx
    by_cases hi : ∃ s, owns i s x
    · rw [hfreed x hi]
      apply iff_of_false Bool.noConfusion
      rintro ⟨j, s, ho⟩
      obtain ⟨hold, hji⟩ := (howns j s x).mp ho
      obtain ⟨s', ho'⟩ := hi
      exact hji (h.once j s i s' x hold ho').1
    · rw [hkept x hi, h.used_iff x hx]
      constructor
      · rintro ⟨j, s, ho⟩
        refine ⟨j, s, (howns j s x).mpr ⟨ho, ?_⟩⟩
        rintro rfl
        exact hi ⟨s, ho⟩
      · rintro ⟨j, s, ho⟩
        exact ⟨j, s, ((howns j s x).mp ho).1⟩
  · intro j s x ho
    exact h.range j s x ((howns j s x).mp ho).1
  · intro j s j' s' x ho ho'
    exact h.once j s j' s' x ((howns j s x).mp ho).1 ((howns j' s' x).mp ho').1

end BlocksExact

namespace InodesExact

variable (h : InodesExact l used kind)

include h

theorem congr (hused : ∀ x, used' x = used x) (hkind : ∀ x, kind' x = kind x) :
    InodesExact l used' kind' := by
  rw [show used' = used from funext hused, show kind' = kind from funext hkind]
  exact h

/-- An inode comes into use, or goes out of use. -/
theorem update (hi : i ≠ 0) (hlt : i < l.inodeCount) {k : Kind}
    (hused : ∀ x, used' x = if x = i then decide (k ≠ .free) else used x)
    (hkind : ∀ x, kind' x = if x = i then k else kind x) : InodesExact l used' kind' := by
  constructor
  · intro x
    rw [hused, hkind]
    by_cases hx : x = i
    · simp only [if_pos hx, decide_eq_true_eq]
      constructor
      · exact .inr
      · rintro (rfl | hk)
        · exact absurd hx.symm hi
        · exact hk
    · simp only [if_neg hx]
      exact h.used_iff x
  · intro x hx
    rw [hused] at hx
    by_cases hxi : x = i
    · rw [hxi]
      exact hlt
    · rw [if_neg hxi] at hx
      exact h.range x hx

end InodesExact

end

end BlockFS
