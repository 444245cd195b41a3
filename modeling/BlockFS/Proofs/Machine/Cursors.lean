import BlockFS.Proofs.Evaluation
import BlockFS.Proofs.Machine.Files
import Mathlib.Data.List.DropRight
import Mathlib.Data.List.Induction

/-!
# A cursor divides with remainder

A cursor keeps a place in a file as a block and a byte inside of it.  An advance does not divide the
place anew: it goes on inside the block where there is room, and else fills the block up and divides
only what is left.  Here a cursor is followed through any row of calls.  The place that it tells
after a call is the one that the last set or reset led to and the sum of all advances since, and the
block and the byte are the quotient and the remainder of this place.  As long as the places fit words
of 64 bits, so does every number on the way to them.
-/

namespace BlockFS

/-! ## Calls on a position -/

namespace Position

/-- A call on a position that is kept. -/
inductive Move where
  | advance (bytes : Nat)
  | set (place : Nat)
  | reset
  deriving DecidableEq, Repr

/-- The position after a call. -/
def move (p : Position) : Move → Position
  | .advance bytes => p.advance bytes
  | .set place => .ofNat place
  | .reset => .start

/-- What is read off a position after a call: what the call returned, the position as a number, its
block and its byte. -/
structure Reading where
  returned : Option Nat
  place : Nat
  block : Nat
  byte : Nat
  deriving DecidableEq, Repr

/-- What is read off a position to which a call led.  All calls but a reset return the position. -/
def reading (p : Position) (m : Move) : Reading where
  returned := if m = .reset then none else some p.word.toNat
  place := p.word.toNat
  block := p.block
  byte := p.byte

/-- What is read off a position after each of some calls. -/
def readings : Position → List Move → List Reading
  | _, [] => []
  | p, m :: moves => (p.move m).reading m :: readings (p.move m) moves

theorem getElem?_readings (p : Position) (moves : List Move) (k : Nat) :
    (readings p moves)[k]? =
      moves[k]?.map fun m => ((moves.take (k + 1)).foldl move p).reading m := by
  induction moves generalizing p k with
  | nil => rfl
  | cons m moves ih =>
    cases k with
    | zero => rfl
    | succ k => exact ih (p.move m) k

/-! ## Where calls lead -/

/-- Where a call leads from every place, if it is no advance. -/
def Move.base? : Move → Option Nat
  | .advance _ => none
  | .set place => some place
  | .reset => some 0

/-- The bytes of an advance. -/
def Move.bytes : Move → Nat
  | .advance bytes => bytes
  | .set _ => 0
  | .reset => 0

/-- Where the last set or reset led; a position that was never set is at the start. -/
def base (moves : List Move) : Nat := (moves.filterMap Move.base?).getLast?.getD 0

/-- The sum of the advances since the last set or reset. -/
def advanced (moves : List Move) : Nat :=
  ((moves.rtakeWhile fun m => m.base?.isNone).map Move.bytes).sum

/-- Where calls lead from the start. -/
def placeAfter (moves : List Move) : Nat := base moves + advanced moves

theorem placeAfter_advance (moves : List Move) (bytes : Nat) :
    placeAfter (moves ++ [.advance bytes]) = placeAfter moves + bytes := by
  have hbase : base (moves ++ [.advance bytes]) = base moves := by
    rw [base, List.filterMap_append, List.filterMap_cons_none rfl, List.filterMap_nil,
      List.append_nil, base]
  have hadvanced : advanced (moves ++ [.advance bytes]) = advanced moves + bytes := by
    rw [advanced, List.rtakeWhile_concat_pos _ _ _ rfl, List.map_append, List.sum_append, advanced]
    rfl
  rw [placeAfter, hbase, hadvanced, placeAfter, Nat.add_assoc]

theorem placeAfter_of_base {m : Move} {place : Nat} (h : m.base? = some place)
    (moves : List Move) : placeAfter (moves ++ [m]) = place := by
  have hbase : base (moves ++ [m]) = place := by
    rw [base, List.filterMap_append, List.filterMap_cons_some h, List.filterMap_nil,
      List.getLast?_concat, Option.getD_some]
  have hadvanced : advanced (moves ++ [m]) = 0 := by
    rw [advanced, List.rtakeWhile_concat_neg _ _ _ (by simp [h])]
    rfl
  rw [placeAfter, hbase, hadvanced, Nat.add_zero]

/-- Calls lead where the last set or reset and the advances since say. -/
theorem toNat_foldl_move (moves : List Move) :
    (moves.foldl move start).toNat = placeAfter moves := by
  induction moves using List.reverseRecOn with
  | nil => rfl
  | append_singleton moves m ih =>
    rw [List.foldl_concat]
    cases m with
    | advance bytes => rw [placeAfter_advance, ← ih, move, toNat_advance]
    | set place => rw [placeAfter_of_base rfl, move, toNat_ofNat]
    | reset =>
      rw [placeAfter_of_base rfl, move]
      rfl

/-! ## Quotient and remainder -/

theorem toNat_mod (p : Position) : p.toNat % blockSize = p.byte := by
  have hbyte := p.byte_lt
  simp only [toNat, blockSize] at hbyte ⊢
  omega

theorem toNat_word {p : Position} (h : p.toNat < 2 ^ 64) : p.word.toNat = p.toNat :=
  UInt64.toNat_ofNat_of_lt' h

/-- What is read after a call divides the place with remainder. -/
structure Reading.Divides (r : Reading) (m : Move) (place : Nat) : Prop where
  place_eq : r.place = place
  block_eq : r.block = place / blockSize
  byte_eq : r.byte = place % blockSize
  byte_lt : r.byte < blockSize
  returned : r.returned = if m = .reset then none else some r.place

theorem divides_reading {p : Position} (h : p.toNat < 2 ^ 64) (m : Move) :
    (p.reading m).Divides m p.toNat where
  place_eq := toNat_word h
  block_eq := p.toNat_div.symm
  byte_eq := p.toNat_mod.symm
  byte_lt := p.byte_lt
  returned := rfl

end Position

/-! ## Calls on a cursor of a machine -/

namespace Machine.Cursor

open Position (Move Reading placeAfter)

variable {ε : Type}

/-- Advances the cursor that is kept, and tells its place. -/
def step (bytes : Nat) : Action ε Cursor Nat := do
  let c ← (← get).advance bytes
  set c
  c.place

/-- What a call does to the cursor that is kept, and what it returns.  Setting is an advance from the
start. -/
def call : Move → Action ε Cursor (Option Nat)
  | .advance bytes => do
    return some (← step bytes)
  | .set place => do
    set (Cursor.mk 0 0)
    return some (← step place)
  | .reset => do
    set (Cursor.mk 0 0)
    return none

/-- Makes a call on the cursor that is kept, and reads the cursor. -/
def read (m : Move) : Action ε Cursor Reading := do
  let returned ← call m
  let c ← get
  return ⟨returned, ← c.place, c.block, c.byte⟩

theorem step_ofPosition {p : Position} {bytes : Nat} (h : p.toNat + bytes < 2 ^ 64) :
    (step bytes : Action ε Cursor Nat) (ofPosition p)
      = .ok (p.advance bytes).toNat (ofPosition (p.advance bytes)) := by
  have hplace : (p.advance bytes).toNat < 2 ^ 64 := by rwa [Position.toNat_advance]
  rw [step, get_bind_apply, advance_ofPosition h, pure_bind]
  exact congrFun (place_ofPosition hplace) _

theorem call_ofPosition {p : Position} {m : Move} (h : (p.move m).toNat < 2 ^ 64) :
    (call m : Action ε Cursor (Option Nat)) (ofPosition p)
      = .ok (if m = .reset then none else some (p.move m).toNat) (ofPosition (p.move m)) := by
  cases m with
  | advance bytes =>
    rw [Position.move, Position.toNat_advance] at h
    exact bind_of_ok (step_ofPosition h)
  | set place =>
    rw [Position.move, Position.ofNat, Position.toNat_advance] at h
    exact bind_of_ok (step_ofPosition h)
  | reset => rfl

/-- A call does to a cursor what it does to the position, and no number leaves its word. -/
theorem read_ofPosition {p : Position} {m : Move} (h : (p.move m).toNat < 2 ^ 64) :
    (read m : Action ε Cursor Reading) (ofPosition p)
      = .ok ((p.move m).reading m) (ofPosition (p.move m)) := by
  rw [read, bind_of_ok (call_ofPosition h), get_bind_apply, place_ofPosition h, pure_bind,
    Position.reading, Position.toNat_word h]
  rfl

/-- Calls, one after another, do to a cursor what they do to the position. -/
theorem mapM_read_ofPosition {moves : List Move} {p : Position}
    (h : ∀ k < moves.length, ((moves.take (k + 1)).foldl Position.move p).toNat < 2 ^ 64) :
    (moves.mapM read : Action ε Cursor (List Reading)) (ofPosition p)
      = .ok (p.readings moves) (ofPosition (moves.foldl Position.move p)) := by
  induction moves generalizing p with
  | nil => rfl
  | cons m moves ih =>
    have hfirst : (p.move m).toNat < 2 ^ 64 := h 0 (Nat.zero_lt_succ _)
    have hrest := ih (p := p.move m) fun k hk => h (k + 1) (Nat.succ_lt_succ hk)
    rw [List.mapM_cons, bind_of_ok (read_ofPosition hfirst), bind_of_ok hrest]
    rfl

/-- Through some calls a cursor divides with remainder.  The calls are made on a cursor at the start,
and no number leaves its word.  All that is read after a call is read off the position that the calls
led to, and it divides the place where the last set or reset led, with all advances since added. -/
structure DividesThroughout (calls : List Move) : Prop where
  run : ∀ ε, (calls.mapM read : Action ε Cursor (List Reading)) ⟨0, 0⟩
    = .ok (Position.start.readings calls) (ofPosition (calls.foldl Position.move .start))
  divides : ∀ (k : Nat) (m : Move), calls[k]? = some m →
    ∃ r : Reading, (Position.start.readings calls)[k]? = some r ∧
      r.Divides m (placeAfter (calls.take (k + 1)))

/-- A cursor divides with remainder, whatever calls are made on it.  A new cursor is one that is set
to its start, and any moves may follow, as long as the place stays a word of 64 bits. -/
theorem dividesThroughout_moves {start : Nat} {moves : List Move}
    (h : ∀ k ≤ moves.length, placeAfter (.set start :: moves.take k) < 2 ^ 64) :
    DividesThroughout (.set start :: moves) := by
  have hplaces : ∀ k < (Move.set start :: moves).length,
      (((Move.set start :: moves).take (k + 1)).foldl Position.move .start).toNat < 2 ^ 64 := by
    intro k hk
    rw [Position.toNat_foldl_move]
    exact h k (Nat.le_of_lt_succ hk)
  refine ⟨fun _ => mapM_read_ofPosition hplaces, fun k m hm => ?_⟩
  have hk := (List.getElem?_eq_some_iff.mp hm).1
  refine ⟨_, by rw [Position.getElem?_readings, hm, Option.map_some], ?_⟩
  rw [← Position.toNat_foldl_move]
  exact Position.divides_reading (hplaces k hk) m

/-- A cursor is moved to the border of a block, over three whole blocks, to the last byte that a word
can tell, and back to the start. -/
theorem dividesThroughout_moves_borders :
    let moves : List Move :=
      [.advance 1, .advance 3072, .set (2 ^ 64 - 1025), .advance 1024, .reset, .advance 400]
    (∀ k ≤ moves.length, placeAfter (.set 1023 :: moves.take k) < 2 ^ 64) ∧
      DividesThroughout (.set 1023 :: moves) := by
  intro moves
  have h : ∀ k ≤ moves.length, placeAfter (.set 1023 :: moves.take k) < 2 ^ 64 := by decide
  exact ⟨h, dividesThroughout_moves h⟩

end Machine.Cursor

end BlockFS
