import BlockFS.Proofs.Cells

/-!
# Logs of writes

The writes into a file, from the first to the last, tell what the file holds: each byte is what the
last write put there that covers it, and the size is the end of the write that reached farthest.
-/

namespace BlockFS

/-- A write into a file: where it began, and the bytes that it put there. -/
structure Write where
  offset : Nat
  data : List UInt8

/-- The byte that a write put at a place, if it covers the place. -/
def Write.byte? (w : Write) (k : Nat) : Option UInt8 :=
  if w.offset ≤ k then w.data[k - w.offset]? else none

/-- The writes into a file, from the first to the last. -/
abbrev WriteLog := List Write

namespace WriteLog

/-- The byte that the last write put at a place of those that cover it. -/
def lastByte? (log : WriteLog) (k : Nat) : Option UInt8 := log.reverse.findSome? (·.byte? k)

/-- The end of the write that reached farthest, of those that put something. -/
def size (log : WriteLog) : Nat :=
  ((log.filter fun w => !w.data.isEmpty).map fun w => w.offset + w.data.length).foldl max 0

/-- Some write put a byte into a block. -/
def Touches (log : WriteLog) (slot : Nat) : Prop :=
  ∃ w ∈ log, ∃ k, k / blockSize = slot ∧ w.byte? k ≠ none

variable {log : WriteLog} {w : Write} {k slot : Nat}

theorem lastByte?_nil : lastByte? [] = Cells.blank := rfl

theorem lastByte?_append (log : WriteLog) (w : Write) :
    lastByte? (log ++ [w]) = Cells.lay (lastByte? log) w.offset w.data := by
  funext k
  rw [lastByte?, List.reverse_append, List.reverse_singleton, List.singleton_append,
    List.findSome?_cons, Cells.lay, Write.byte?]
  split
  · next h =>
    split at h
    · next hle => rw [if_pos hle, h, Option.some_or]
    · cases h
  · next h =>
    split at h
    · next hle =>
      rw [if_pos hle, h, Option.none_or]
      rfl
    · next hle =>
      rw [if_neg hle]
      rfl

theorem size_append (log : WriteLog) (w : Write) :
    size (log ++ [w])
      = if w.data = [] then size log else max (size log) (w.offset + w.data.length) := by
  rw [size, List.filter_append, List.map_append, List.foldl_append]
  by_cases hw : w.data = []
  · simp only [hw, if_true, List.filter_cons, List.isEmpty_nil, Bool.not_true, Bool.false_eq_true,
      if_false, List.filter_nil, List.map_nil, List.foldl_nil]
    rfl
  · have hne : (!w.data.isEmpty) = true := by
      rw [Bool.not_eq_true', List.isEmpty_eq_false_iff]
      exact hw
    simp only [if_neg hw, List.filter_cons, hne, if_true, List.filter_nil, List.map_cons,
      List.map_nil, List.foldl_cons, List.foldl_nil]
    rfl

theorem lastByte?_eq_none_iff : log.lastByte? k = none ↔ ∀ w ∈ log, w.byte? k = none := by
  rw [lastByte?, List.findSome?_eq_none_iff]
  simp only [List.mem_reverse]

/-- The blocks that some write put a byte into are those whose cells were written. -/
theorem touches_iff : Cells.Touches log.lastByte? slot ↔ log.Touches slot := by
  constructor
  · rintro ⟨j, hj, hne⟩
    rw [Ne, lastByte?_eq_none_iff] at hne
    simp only [not_forall] at hne
    obtain ⟨w, hw, hbyte⟩ := hne
    refine ⟨w, hw, _, ?_, hbyte⟩
    simp only [blockSize] at hj ⊢
    omega
  · rintro ⟨w, hw, k, rfl, hbyte⟩
    refine ⟨k % blockSize, Nat.mod_lt _ blockSize_pos, ?_⟩
    rw [Nat.div_add_mod']
    exact fun hnone => hbyte (lastByte?_eq_none_iff.mp hnone w hw)

end WriteLog

end BlockFS
