import BlockFS.Bitmap.Summary
import BlockFS.Volume.Records
import Mathlib.Algebra.Ring.Nat

/-!
# What the report of a bitmap tells

The report of a bitmap is a line of text.  Read back, its ranges are the runs of items in use, from the
first to the last, each as long as it can be, and the number in front of them is the sum of their
lengths.  `Bitmap.Runs` says what the runs of a bitmap are, without the search that finds them, and
`Report.ofText?` reads a report, without the functions that write it.
-/

namespace BlockFS

/-! ## Runs of items in use -/

namespace Bitmap

variable {b : Bitmap} {low first i : Nat} {p : Nat × Nat} {runs : List (Nat × Nat)}

/-- The items from the first to the last are in use, and neither neighbour is. -/
structure IsRun (b : Bitmap) (p : Nat × Nat) : Prop where
  le : p.1 ≤ p.2
  used : ∀ i, p.1 ≤ i → i ≤ p.2 → b.get i = true
  before : ∀ i, i + 1 = p.1 → b.get i = false
  behind : b.get (p.2 + 1) = false

/-- All runs from an item on, one after another, with nothing in use between them. -/
inductive Runs (b : Bitmap) : Nat → List (Nat × Nat) → Prop where
  | done {low : Nat} (free : ∀ i, low ≤ i → b.get i = false) : Runs b low []
  | run {low : Nat} {p : Nat × Nat} {runs : List (Nat × Nat)} (le : low ≤ p.1)
      (free : ∀ i, low ≤ i → i < p.1 → b.get i = false) (isRun : b.IsRun p)
      (rest : Runs b (p.2 + 2) runs) : Runs b low (p :: runs)

/-- The number of items in a range. -/
def rangeSize (p : Nat × Nat) : Nat := p.2 + 1 - p.1

namespace Runs

/-- What is free in front of runs may be passed over with them. -/
theorem of_succ (h : b.Runs (low + 1) runs) (hfree : b.get low = false) : b.Runs low runs := by
  have hpass (i : Nat) (hi : low ≤ i) (hrest : low + 1 ≤ i → b.get i = false) :
      b.get i = false := by
    rcases Nat.eq_or_lt_of_le hi with rfl | hlt
    · exact hfree
    · exact hrest hlt
  cases h with
  | done free => exact .done fun i hi => hpass i hi (free i)
  | run le free isRun rest =>
    exact .run (Nat.le_of_succ_le le) (fun i hi hlt => hpass i hi fun hi' => free i hi' hlt) isRun
      rest

theorem isRun (h : b.Runs low runs) : ∀ p ∈ runs, b.IsRun p := by
  induction h with
  | done _ =>
    intro p hp
    cases hp
  | run _ _ isRun _ ih =>
    rw [List.forall_mem_cons]
    exact ⟨isRun, ih⟩

theorem le_first (h : b.Runs low runs) : ∀ p ∈ runs, low ≤ p.1 := by
  induction h with
  | done _ =>
    intro p hp
    cases hp
  | run le _ isRun _ ih =>
    rw [List.forall_mem_cons]
    refine ⟨le, fun q hq => ?_⟩
    have hlast := isRun.le
    have hnext := ih q hq
    omega

/-- The runs ascend, and do not touch. -/
theorem ascending (h : b.Runs low runs) : runs.Pairwise fun p q => p.2 + 1 < q.1 := by
  induction h with
  | done _ => exact .nil
  | run _ _ _ rest ih => exact .cons (fun q hq => rest.le_first q hq) ih

/-- The runs hold just the items in use. -/
theorem covers (h : b.Runs low runs) (hi : low ≤ i) :
    (∃ p ∈ runs, p.1 ≤ i ∧ i ≤ p.2) ↔ b.get i = true := by
  constructor
  · rintro ⟨p, hp, hfirst, hlast⟩
    exact (h.isRun p hp).used i hfirst hlast
  · intro hused
    induction h with
    | done free =>
      rw [free i hi] at hused
      cases hused
    | @run low p runs _ free isRun _ ih =>
      by_cases hbefore : i < p.1
      · rw [free i hi hbefore] at hused
        cases hused
      · by_cases hin : i ≤ p.2
        · exact ⟨p, List.mem_cons_self .., Nat.le_of_not_lt hbefore, hin⟩
        · have hne : i ≠ p.2 + 1 := by
            rintro rfl
            rw [isRun.behind] at hused
            cases hused
          obtain ⟨q, hq, hmem⟩ := ih (by omega)
          exact ⟨q, List.mem_cons_of_mem _ hq, hmem⟩

end Runs

/-! ## How many items are in use -/

/-- The number of items in use from one item on and before another. -/
def usedBetween (b : Bitmap) (low high : Nat) : Nat :=
  (List.range' low (high - low)).countP b.get

theorem usedBetween_add {mid high : Nat} (hlow : low ≤ mid) (hhigh : mid ≤ high) :
    b.usedBetween low mid + b.usedBetween mid high = b.usedBetween low high := by
  have hsplit : List.range' low (mid - low) ++ List.range' mid (high - mid)
      = List.range' low (high - low) := by
    obtain ⟨gap, rfl⟩ := Nat.exists_eq_add_of_le hlow
    rw [Nat.add_sub_cancel_left, List.range'_append_1]
    congr 1
    omega
  rw [usedBetween, usedBetween, ← List.countP_append, hsplit, usedBetween]

theorem usedBetween_of_free {high : Nat} (h : ∀ i, low ≤ i → i < high → b.get i = false) :
    b.usedBetween low high = 0 := by
  rw [usedBetween, List.countP_eq_zero]
  intro i hi
  obtain ⟨hge, hlt⟩ := List.mem_range'_1.mp hi
  rw [h i hge (by omega)]
  exact Bool.false_ne_true

theorem IsRun.usedBetween (h : b.IsRun p) : b.usedBetween p.1 (p.2 + 1) = rangeSize p := by
  have hall : ∀ i ∈ List.range' p.1 (p.2 + 1 - p.1), b.get i = true := by
    intro i hi
    obtain ⟨hge, hlt⟩ := List.mem_range'_1.mp hi
    exact h.used i hge (by omega)
  rw [Bitmap.usedBetween, List.countP_eq_length.mpr hall, List.length_range', rangeSize]

theorem get_of_count_le (h : b.count ≤ i) : b.get i = false := by
  rw [get, decide_eq_false (Nat.not_lt.mpr h), Bool.false_and]

theorem IsRun.lt_count (h : b.IsRun p) : p.2 < b.count := by
  rcases Nat.lt_or_ge p.2 b.count with hlt | hge
  · exact hlt
  · have hused := h.used p.2 h.le (Nat.le_refl _)
    rw [get_of_count_le hge] at hused
    cases hused

/-- The lengths of the runs add up to the number of items in use, of which there are none from the
count on. -/
theorem Runs.sum_rangeSize (h : b.Runs low runs) {high : Nat} (hhigh : b.count < high) :
    (runs.map rangeSize).sum = b.usedBetween low high := by
  induction h with
  | done free => exact (usedBetween_of_free fun i hi _ => free i hi).symm
  | @run low p runs le free isRun _ ih =>
    have hlast := isRun.lt_count
    have hle := isRun.le
    have hbehind : b.usedBetween (p.2 + 1) (p.2 + 2) = 0 := by
      apply usedBetween_of_free
      intro i hi hlt
      rw [Nat.le_antisymm (Nat.le_of_lt_succ hlt) hi]
      exact isRun.behind
    calc (List.map rangeSize (p :: runs)).sum
        = rangeSize p + b.usedBetween (p.2 + 2) high := by rw [List.map_cons, List.sum_cons, ih]
      _ = b.usedBetween p.1 (p.2 + 1) + b.usedBetween (p.2 + 1) high := by
          rw [isRun.usedBetween, ← usedBetween_add (Nat.le_succ (p.2 + 1)) (by omega), hbehind,
            Nat.zero_add]
      _ = b.usedBetween low p.1 + b.usedBetween p.1 high := by
          rw [usedBetween_add (by omega) (by omega), usedBetween_of_free free, Nat.zero_add]
      _ = b.usedBetween low high := usedBetween_add le (by omega)

theorem usedBetween_all : b.usedBetween 0 (b.count + 1) = b.usedCount := by
  rw [← usedBetween_add (Nat.zero_le b.count) (Nat.le_succ _), usedCount, List.range_eq_range',
    usedBetween_of_free fun i hi _ => get_of_count_le hi]
  rfl

/-! ## The search finds the runs -/

theorem used_lastFrom (hused : b.get i = true) :
    ∀ j, i ≤ j → j ≤ b.lastFrom i → b.get j = true := by
  fun_induction lastFrom b i with
  | case1 i hnext ih =>
    intro j hj hlast
    rcases Nat.eq_or_lt_of_le hj with rfl | hlt
    · exact hused
    · exact ih hnext.2 j hlt hlast
  | case2 i _ =>
    intro j hj hlast
    rw [Nat.le_antisymm hlast hj]
    exact hused

theorem get_lastFrom_succ (b : Bitmap) (i : Nat) : b.get (b.lastFrom i + 1) = false := by
  fun_induction lastFrom b i with
  | case1 _ _ ih => exact ih
  | case2 i hend =>
    rcases Nat.lt_or_ge (i + 1) b.count with hlt | hge
    · exact Bool.eq_false_iff.mpr fun hused => hend ⟨hlt, hused⟩
    · exact get_of_count_le hge

/-- The inner loop runs to the end of a run from its first item. -/
theorem isRun_lastFrom (hused : b.get i = true) (hbefore : ∀ j, j + 1 = i → b.get j = false) :
    b.IsRun (i, b.lastFrom i) where
  le := b.le_lastFrom i
  used := used_lastFrom hused
  before := hbefore
  behind := b.get_lastFrom_succ i

/-- The outer loop goes on from item `i`, either behind an item that is free or at one. -/
theorem runs_rangesFrom (b : Bitmap) (i : Nat) :
    ((∀ j, j + 1 = i → b.get j = false) → b.Runs i (b.rangesFrom i)) ∧
      (b.get i = false → b.Runs (i + 1) (b.rangesFrom i)) := by
  fun_induction rangesFrom b i with
  | case1 i _ hused ih =>
    constructor
    · intro hbefore
      exact .run (Nat.le_refl i) (fun j hj hlt => absurd hlt (Nat.not_lt.mpr hj))
        (isRun_lastFrom hused hbefore) (ih.2 (b.get_lastFrom_succ i))
    · intro hfree
      rw [hused] at hfree
      cases hfree
  | case2 i _ hfree ih =>
    have hfree : b.get i = false := Bool.eq_false_iff.mpr hfree
    have hrest : b.Runs (i + 1) (b.rangesFrom (i + 1)) := by
      apply ih.1
      intro j hj
      rw [Nat.succ.inj hj]
      exact hfree
    exact ⟨fun _ => hrest.of_succ hfree, fun _ => hrest⟩
  | case3 i hend =>
    have hfree (j : Nat) (hj : i ≤ j) : b.get j = false :=
      get_of_count_le (Nat.le_trans (Nat.le_of_not_lt hend) hj)
    exact ⟨fun _ => .done hfree, fun _ => .done fun j hj => hfree j (Nat.le_of_succ_le hj)⟩

theorem runs_ranges (b : Bitmap) : b.Runs 0 b.ranges :=
  (b.runs_rangesFrom 0).1 fun _ hj => Nat.noConfusion hj

end Bitmap

/-! ## Reading a report -/

/-- What a report tells: how the items are called, how many are in use, how many there are, and the
ranges that those in use form, each by its first and last item. -/
structure Report where
  label : String
  used : Nat
  count : Nat
  ranges : List (Nat × Nat)

namespace Report

/-- Reads a decimal number. -/
def number? (digits : List Char) : Option Nat :=
  if !digits.isEmpty && digits.all Char.isDigit then some (Nat.ofDigitChars 10 digits 0) else none

/-- Reads a range: one number stands for itself alone, and of two with a dash between them the first
must be the smaller one. -/
def range? (word : List Char) : Option (Nat × Nat) :=
  match word.splitOn '-' with
  | [single] => do
    let n ← number? single
    return (n, n)
  | [first, last] => do
    let first ← number? first
    let last ← number? last
    if first < last then return (first, last) else none
  | _ => none

/-- The words of a text, of which each two have one blank between them. -/
def words (text : String) : List (List Char) := text.toList.splitOn ' '

/-- Reads a report: the label, the two numbers with a slash between them, the word `used:`, and the
ranges. -/
def ofText? (text : String) : Option Report :=
  match words text with
  | label :: usage :: mark :: ranges =>
    match usage.splitOn '/' with
    | [used, count] => do
      if mark = "used:".toList then
        return ⟨.ofList label, ← number? used, ← number? count, ← ranges.mapM range?⟩
      else none
    | _ => none
  | _ => none

/-! ### What was written is read back -/

/-- The decimal digits of a number. -/
def digits (n : Nat) : List Char := Nat.toDigits 10 n

theorem not_mem_digits {c : Char} (hc : c.isDigit = false) (n : Nat) : c ∉ digits n := by
  intro hmem
  have hdigit := Nat.isDigit_of_mem_toDigits (by decide) (by decide) hmem
  rw [hc] at hdigit
  cases hdigit

theorem number?_digits (n : Nat) : number? (digits n) = some n := by
  have hsome : (digits n).isEmpty = false := List.isEmpty_eq_false_iff.mpr Nat.toDigits_ne_nil
  have hall : (digits n).all Char.isDigit = true := by
    rw [List.all_eq_true]
    exact fun c hc => Nat.isDigit_of_mem_toDigits (by decide) (by decide) hc
  rw [number?, hsome, hall]
  exact congrArg some (Nat.ofDigitChars_toDigits (by decide) (by decide))

/-- Two words with one mark between them, which neither holds, are told apart. -/
theorem splitOn_pair {c : Char} {xs ys : List Char} (hxs : c ∉ xs) (hys : c ∉ ys) :
    (xs ++ c :: ys).splitOn c = [xs, ys] := by
  have hsplit : ([c].intercalate [xs, ys]).splitOn c = [xs, ys] := by
    apply List.splitOn_intercalate
    · simp only [List.mem_cons, List.not_mem_nil, or_false]
      rintro word (rfl | rfl)
      · exact hxs
      · exact hys
    · exact List.cons_ne_nil _ _
  simpa [List.intercalate] using hsplit

/-- A range as a word. -/
def rangeWord (p : Nat × Nat) : List Char :=
  if p.1 = p.2 then digits p.1 else digits p.1 ++ '-' :: digits p.2

theorem mem_rangeWord_iff {p : Nat × Nat} : '-' ∈ rangeWord p ↔ p.1 ≠ p.2 := by
  have hdash := not_mem_digits (c := '-') (by decide)
  rw [rangeWord]
  split
  · next hsame => exact iff_of_false (hdash _) (not_not_intro hsame)
  · next hne => exact iff_of_true (List.mem_append_right _ (List.mem_cons_self ..)) hne

theorem not_mem_rangeWord (p : Nat × Nat) : ' ' ∉ rangeWord p := by
  have hblank := not_mem_digits (c := ' ') (by decide)
  rw [rangeWord]
  split
  · exact hblank _
  · rw [List.mem_append, List.mem_cons]
    rintro (hfirst | heq | hlast)
    · exact hblank _ hfirst
    · exact absurd heq (by decide)
    · exact hblank _ hlast

theorem range?_rangeWord {p : Nat × Nat} (hp : p.1 ≤ p.2) : range? (rangeWord p) = some p := by
  obtain ⟨first, last⟩ := p
  have hdash := not_mem_digits (c := '-') (by decide)
  rw [rangeWord]
  split
  · next hsame =>
    obtain rfl : first = last := hsame
    rw [range?, List.splitOn_eq_singleton (hdash first)]
    simp only [number?_digits]
    rfl
  · next hne =>
    have hlt : first < last := Nat.lt_of_le_of_ne hp hne
    rw [range?, splitOn_pair (hdash first) (hdash last)]
    simp only [number?_digits, Option.bind_eq_bind, Option.bind_some, if_pos hlt]
    rfl

theorem mapM_range?_rangeWord {ranges : List (Nat × Nat)} (h : ∀ p ∈ ranges, p.1 ≤ p.2) :
    (ranges.map rangeWord).mapM range? = some ranges := by
  induction ranges with
  | nil => rfl
  | cons p ranges ih =>
    obtain ⟨hp, hranges⟩ := List.forall_mem_cons.mp h
    rw [List.map_cons, List.mapM_cons, range?_rangeWord hp, ih hranges]
    rfl

theorem toList_renderRange (p : Nat × Nat) :
    (Bitmap.renderRange p).toList = ' ' :: rangeWord p := by
  obtain ⟨first, last⟩ := p
  have hblank : (toString " ").toList = [' '] := rfl
  have hdash : (toString "-").toList = ['-'] := rfl
  rw [Bitmap.renderRange, rangeWord]
  split
  · simp [digits, hblank]
  · simp [digits, hblank, hdash]

/-- Words with a blank in front of each but the first. -/
theorem intercalate_cons (word : List Char) (rest : List (List Char)) :
    [' '].intercalate (word :: rest) = word ++ rest.flatMap (' ' :: ·) := by
  induction rest generalizing word with
  | nil => simp [List.intercalate]
  | cons next rest ih =>
    rw [List.intercalate_cons_cons, ih, List.flatMap_cons, List.append_assoc]
    rfl

/-- How many of how many, as a word. -/
def usageWord (used count : Nat) : List Char := digits used ++ '/' :: digits count

theorem toList_render (b : Bitmap) (label : String) :
    (b.render label).toList = [' '].intercalate (label.toList :: usageWord b.usedCount b.count
      :: "used:".toList :: b.ranges.map rangeWord) := by
  have hranges : b.ranges.flatMap (fun p => (Bitmap.renderRange p).toList)
      = b.ranges.flatMap (fun p => ' ' :: rangeWord p) := by
    simp only [toList_renderRange]
  have hblank : (toString " ").toList = [' '] := rfl
  have hslash : (toString "/").toList = ['/'] := rfl
  have hmark : (toString " used:").toList = ' ' :: "used:".toList := rfl
  have hlabel : (toString label).toList = label.toList := rfl
  rw [intercalate_cons, Bitmap.render]
  simp [usageWord, digits, hblank, hslash, hmark, hlabel, List.flatMap_map, hranges]

/-- The words of the report of a bitmap. -/
theorem words_render (b : Bitmap) {label : String} (hlabel : ' ' ∉ label.toList) :
    words (b.render label) = label.toList :: usageWord b.usedCount b.count
      :: "used:".toList :: b.ranges.map rangeWord := by
  have hblank := not_mem_digits (c := ' ') (by decide)
  rw [words, toList_render, List.splitOn_intercalate]
  · intro word hword
    simp only [List.mem_cons, List.mem_map] at hword
    rcases hword with rfl | rfl | rfl | ⟨p, -, rfl⟩
    · exact hlabel
    · simp [usageWord, hblank]
    · decide
    · exact not_mem_rangeWord p
  · exact List.cons_ne_nil _ _

theorem ofText?_render (b : Bitmap) {label : String} (hlabel : ' ' ∉ label.toList) :
    ofText? (b.render label) = some ⟨label, b.usedCount, b.count, b.ranges⟩ := by
  have hslash := not_mem_digits (c := '/') (by decide)
  have hranges : (b.ranges.map rangeWord).mapM range? = some b.ranges :=
    mapM_range?_rangeWord fun p hp => (b.runs_ranges.isRun p hp).le
  rw [ofText?, words_render b hlabel]
  simp only [usageWord, splitOn_pair (hslash _) (hslash _), number?_digits, hranges,
    String.ofList_toList]
  rfl

example : ofText? "blocks 3/16 used: 0 7-8" = some ⟨"blocks", 3, 16, [(0, 0), (7, 8)]⟩ := by rfl

end Report

/-! ## The report is exact -/

theorem Resource.not_mem_label (r : Resource) : ' ' ∉ r.label.toList := by
  cases r <;> decide

/-- A report of the inodes or of the blocks, read back, tells the items in use: its ranges hold just
them, ascend, and stop at items that are not in use, the number of used items is the sum of their
lengths, and a dash stands in a word just where it tells more than one item. -/
theorem Bitmap.report_exact (b : Bitmap) (r : Resource) : ∃ ranges,
    Report.ofText? (b.render r.label)
      = some ⟨r.label, (ranges.map rangeSize).sum, b.count, ranges⟩ ∧
    (∀ i, (∃ p ∈ ranges, p.1 ≤ i ∧ i ≤ p.2) ↔ b.get i = true) ∧
    (ranges.Pairwise fun p q => p.2 < q.1) ∧
    (∀ p ∈ ranges, p.1 ≤ p.2 ∧ b.get (p.2 + 1) = false ∧
      ∀ i, i + 1 = p.1 → b.get i = false) ∧
    ∀ word ∈ (Report.words (b.render r.label)).drop 3,
      ∃ p ∈ ranges, Report.range? word = some p ∧ ('-' ∈ word ↔ p.1 ≠ p.2) := by
  have hruns := b.runs_ranges
  refine ⟨b.ranges, ?_, fun i => hruns.covers (Nat.zero_le i), ?_, ?_, ?_⟩
  · rw [Report.ofText?_render b r.not_mem_label, hruns.sum_rangeSize (Nat.lt_succ_self b.count),
      usedBetween_all]
  · exact hruns.ascending.imp fun h => Nat.lt_of_succ_lt h
  · intro p hp
    have hrun := hruns.isRun p hp
    exact ⟨hrun.le, hrun.behind, hrun.before⟩
  · intro word hword
    rw [Report.words_render b r.not_mem_label] at hword
    obtain ⟨p, hp, rfl⟩ := List.mem_map.mp hword
    exact ⟨p, hp, Report.range?_rangeWord (hruns.isRun p hp).le, Report.mem_rangeWord_iff⟩

end BlockFS
