import BlockFS.Bitmap

/-!
# Summaries of a bitmap

A bitmap is reported by the number of items in use and by the ranges that they form.
-/

namespace BlockFS.Bitmap

/-- The last item of the range that item `i` belongs to. -/
def lastFrom (b : Bitmap) (i : Nat) : Nat :=
  if i + 1 < b.count ∧ b.get (i + 1) then b.lastFrom (i + 1) else i
termination_by b.count - i

theorem le_lastFrom (b : Bitmap) (i : Nat) : i ≤ b.lastFrom i := by
  fun_induction lastFrom b i with
  | case1 i _ ih => exact Nat.le_of_succ_le ih
  | case2 i _ => exact Nat.le_refl i

/-- The ranges that the items in use form from item `i` on, each by its first and last item, in
ascending order. -/
def rangesFrom (b : Bitmap) (i : Nat) : List (Nat × Nat) :=
  if i < b.count then
    if b.get i then (i, b.lastFrom i) :: b.rangesFrom (b.lastFrom i + 1)
    else b.rangesFrom (i + 1)
  else []
termination_by b.count - i
decreasing_by
  · have hle := b.le_lastFrom i
    omega
  · omega

/-- The ranges that the items in use form. -/
def ranges (b : Bitmap) : List (Nat × Nat) := b.rangesFrom 0

/-- A range as it is reported: a single item without a dash. -/
def renderRange : Nat × Nat → String
  | (first, last) => if first = last then s!" {first}" else s!" {first}-{last}"

/-- The report of a bitmap over items that are called `label`. -/
def render (label : String) (b : Bitmap) : String :=
  s!"{label} {b.usedCount}/{b.count} used:" ++ String.join (b.ranges.map renderRange)

end BlockFS.Bitmap
