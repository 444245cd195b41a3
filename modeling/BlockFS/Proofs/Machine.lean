import Mathlib.Algebra.Ring.Nat
import BlockFS.Proofs.Keeping

/-!
# Machines

The numbers of a machine have a fixed number of bits, and a row of bytes has an end.  Here the
actions on a volume are written as a machine does them: a sum, a product or a difference has to fit
its word, a number that is made smaller must not lose bits, an index or a range must lie in what it
is taken from, each turn of a loop must come closer to its end, and a transfer must stay inside of
the volume.  Where one of these does not hold, the machine crashes.

A crash is no failure: nothing catches it, and no call answers it.  An action that is written over
unbounded numbers never crashes on a machine; `plain` is that action there.  To show that an action
of the machine is the plain one of the volume is to show both that it cannot crash and that it does
the same.

Sizes and places in memory are words of 64 bits.
-/

namespace BlockFS.Machine

/-- What a machine cannot do. -/
inductive Crash where
  /-- An index or a range reaches past the end of what it is taken from. -/
  | range
  /-- A number does not fit its word, or a difference is negative. -/
  | overflow
  /-- A number loses bits where it is made smaller. -/
  | lostBits
  /-- A turn of a loop does not come closer to its end. -/
  | stuck
  /-- A transfer lies outside of the volume. -/
  | outside
  deriving DecidableEq, Repr

/-- Why an action ends early. -/
inductive Stop (ε : Type) where
  | failed (e : ε)
  | crashed (c : Crash)

/-- An action of a machine, which may fail and may crash. -/
abbrev Action (ε τ : Type) := EStateM (Stop ε) τ

variable {ε ε' σ τ α β : Type}

/-- Fails for a cause. -/
def fail (e : ε) : Action ε τ α := throw (.failed e)

/-- Crashes. -/
def crash (c : Crash) : Action ε τ α := throw (.crashed c)

/-- Does something else after a failure; a crash stays a crash. -/
def recover (x : Action ε τ α) (handler : ε → Action ε τ α) : Action ε τ α :=
  tryCatch x fun stop =>
    match stop with
    | .failed e => handler e
    | .crashed c => crash c

/-- Acts on a part of the state, and fails for the cause that its failure is turned into. -/
def within (part : σ → τ) (put : σ → τ → σ) (cause : ε → ε') (x : Action ε τ α) :
    Action ε' σ α := fun s =>
  match x (part s) with
  | .ok a t => .ok a (put s t)
  | .error (.failed e) t => .error (.failed (cause e)) (put s t)
  | .error (.crashed c) t => .error (.crashed c) (put s t)

/-! ## Words and rows -/

/-- A sum or a product in a word of `w` bits. -/
def word (w n : Nat) : Action ε τ Nat := if n < 2 ^ w then pure n else crash .overflow

/-- A difference of words. -/
def difference (m n : Nat) : Action ε τ Nat := if n ≤ m then pure (m - n) else crash .overflow

/-- A number as a word of `w` bits. -/
def narrow (w n : Nat) : Action ε τ Nat := if n < 2 ^ w then pure n else crash .lostBits

/-- The length of the range from `start` to `stop` in a row of `length` items. -/
def range (start stop length : Nat) : Action ε τ Nat :=
  if start ≤ stop ∧ stop ≤ length then pure (stop - start) else crash .range

/-- An item of a row. -/
def item {n : Nat} (v : Vector α n) (i : Nat) : Action ε τ α :=
  if h : i < n then pure v[i] else crash .range

/-- The items of a list from `start` to `stop`. -/
def cut (xs : List α) (start stop : Nat) : Action ε τ (List α) := do
  let length ← range start stop xs.length
  return (xs.drop start).take length

theorem word_eq {w n : Nat} (h : n < 2 ^ w) : (word w n : Action ε τ Nat) = pure n := if_pos h

theorem difference_eq {m n : Nat} (h : n ≤ m) :
    (difference m n : Action ε τ Nat) = pure (m - n) := if_pos h

theorem narrow_eq {w n : Nat} (h : n < 2 ^ w) : (narrow w n : Action ε τ Nat) = pure n := if_pos h

theorem range_eq {start stop length : Nat} (h : start ≤ stop) (h' : stop ≤ length) :
    (range start stop length : Action ε τ Nat) = pure (stop - start) := if_pos ⟨h, h'⟩

theorem item_eq {n : Nat} {v : Vector α n} {i : Nat} (h : i < n) :
    (item v i : Action ε τ α) = pure v[i] := dif_pos h

theorem cut_eq {xs : List α} {start stop : Nat} (h : start ≤ stop) (h' : stop ≤ xs.length) :
    (cut xs start stop : Action ε τ (List α)) = pure ((xs.drop start).take (stop - start)) := by
  rw [cut, range_eq h h', pure_bind]

/-! ## Plain actions -/

/-- An action that does not crash, on a machine. -/
def plain (x : EStateM ε τ α) : Action ε τ α := fun s =>
  match x s with
  | .ok a s => .ok a s
  | .error e s => .error (.failed e) s

section

variable {x : EStateM ε τ α}

@[simp]
theorem plain_pure (a : α) : plain (pure a : EStateM ε τ α) = pure a := rfl

@[simp]
theorem plain_throw (e : ε) : plain (throw e : EStateM ε τ α) = fail e := rfl

@[simp]
theorem plain_get : plain (get : EStateM ε τ τ) = get := rfl

@[simp]
theorem plain_modify (f : τ → τ) : plain (modify f : EStateM ε τ Unit) = modify f := rfl

@[simp]
theorem plain_ite (c : Prop) [Decidable c] (x y : EStateM ε τ α) :
    plain (if c then x else y) = if c then plain x else plain y := apply_ite plain c x y

@[simp]
theorem plain_bind (x : EStateM ε τ α) (f : α → EStateM ε τ β) :
    plain (x >>= f) = plain x >>= fun a => plain (f a) := by
  funext s
  change plain (EStateM.bind x f) s = EStateM.bind (plain x) _ s
  simp only [plain, EStateM.bind]
  cases x s <;> rfl

@[simp]
theorem plain_map (f : α → β) (x : EStateM ε τ α) : plain (f <$> x) = f <$> plain x := by
  funext s
  change plain (EStateM.map f x) s = EStateM.map f (plain x) s
  simp only [plain, EStateM.map]
  cases x s <;> rfl

@[simp]
theorem plain_tryCatch (x : EStateM ε τ α) (handler : ε → EStateM ε τ α) :
    plain (tryCatch x handler) = recover (plain x) fun e => plain (handler e) := by
  funext s
  change plain (EStateM.tryCatch x handler) s = EStateM.tryCatch (plain x) _ s
  delta plain EStateM.tryCatch
  simp only []
  cases x s <;> rfl

/-- A machine does the same after a failure if it does for each cause. -/
theorem recover_eq {handler : ε → Action ε τ α} {handler' : ε → EStateM ε τ α}
    (h : ∀ e, handler e = plain (handler' e)) :
    recover (plain x) handler = plain (tryCatch x handler') := by
  rw [plain_tryCatch, funext h]

@[simp]
theorem fail_bind (e : ε) (f : α → Action ε τ β) : fail e >>= f = fail e := rfl

/-- Of some actions nothing needs to be known. -/
theorem yields_true (x : EStateM ε τ α) : Yields (fun _ => True) x fun _ => True := by
  rintro s -
  cases hx : x s with
  | ok a s' => exact .inl ⟨a, s', rfl, trivial, trivial⟩
  | error e s' => exact .inr ⟨e, s', rfl, trivial⟩

/-- A property that all states have tells nothing. -/
theorem yields_of_forall {P P' : τ → Prop} {Q : α → Prop} (hx : Yields P x Q) (h : ∀ s, P s)
    (h' : ∀ s, P' s) : Yields P' x Q := by
  rintro s -
  rcases hx s (h s) with ⟨a, s', hx, -, hq⟩ | ⟨e, s', hx, -⟩
  · exact .inl ⟨a, s', hx, h' s', hq⟩
  · exact .inr ⟨e, s', hx, h' s'⟩

/-- What follows an action needs to be right only for what that one answers and in the states that
it leads to. -/
theorem bind_congr_at {P : τ → Prop} {Q : α → Prop} (hx : Yields P x Q)
    {f g : α → Action ε τ β} (h : ∀ a, Q a → ∀ s, P s → f a s = g a s) {s : τ} (hs : P s) :
    (plain x >>= f) s = (plain x >>= g) s := by
  change EStateM.bind (plain x) f s = EStateM.bind (plain x) g s
  rcases hx s hs with ⟨a, s', hx, hs', hq⟩ | ⟨e, s', hx, -⟩
  · simp only [EStateM.bind, plain, hx]
    exact h a hq s' hs'
  · simp only [EStateM.bind, plain, hx]

theorem bind_congr_of_yields {Q : α → Prop} (hx : Yields (fun _ => True) x Q)
    {f g : α → Action ε τ β} (h : ∀ a, Q a → f a = g a) : plain x >>= f = plain x >>= g :=
  funext fun _ => bind_congr_at hx (fun a hq s _ => congrFun (h a hq) s) trivial

theorem plain_forM (f : α → EStateM ε τ PUnit) (as : List α) :
    plain (as.forM f) = as.forM fun a => plain (f a) := by
  induction as with
  | nil => rfl
  | cons a as ih =>
    change plain (f a >>= fun _ => as.forM f)
      = plain (f a) >>= fun _ => as.forM fun a => plain (f a)
    rw [plain_bind, ih]

theorem plain_mapM (f : α → EStateM ε τ β) (as : List α) :
    plain (as.mapM f) = as.mapM fun a => plain (f a) := by
  induction as with
  | nil => rfl
  | cons a as ih => simp only [List.mapM_cons, plain_bind, ih, plain_pure]

end

/-! ## Parts of the state -/

/-- Acts on the device of a volume. -/
def onDevice (x : Action Error Device α) : Action Error Volume α :=
  within Volume.device (fun v device => { v with device := device }) id x

/-- Acts on the volume that a view is of. -/
def ofVolume {View : Type} (x : Action Error Volume α) : Action Error (Held View) α :=
  within Held.volume (fun held volume => { held with volume := volume }) id x

/-- Acts through a view that is not needed afterwards. -/
def through {View : Type} (view : View) (x : Action Error (Held View) α) : Action Error Volume α :=
  within (Held.mk view) (fun _ held => held.volume) id x

/-- Acts on the volume of a session. -/
def inSession (x : Action Error Volume α) : Action Error Session α :=
  within Session.volume (fun s volume => { s with volume := volume }) id x

/-- Acts on the volume of a server; a failure is reported by its number. -/
def inServer (x : Action Error Volume α) : Action Int Kernel.Server α :=
  within Kernel.Server.volume (fun s volume => { s with volume := volume }) Error.errno x

@[simp]
theorem plain_onDevice (x : DeviceM α) : plain (BlockFS.onDevice x) = onDevice (plain x) := by
  funext ⟨device, clock, layout, cwd⟩
  simp only [plain, BlockFS.onDevice, onDevice, within]
  cases x device <;> rfl

@[simp]
theorem plain_ofVolume {View : Type} (x : VolumeM α) :
    plain (ViewM.onVolume x : ViewM View α) = ofVolume (plain x) := by
  funext ⟨view, volume⟩
  simp only [plain, ViewM.onVolume, ofVolume, within]
  cases x volume <;> rfl

@[simp]
theorem plain_through {View : Type} (view : View) (x : ViewM View α) :
    plain (ViewM.through view x) = through view (plain x) := by
  funext volume
  simp only [plain, ViewM.through, through, within]
  cases x ⟨view, volume⟩ <;> rfl

@[simp]
theorem plain_inSession (x : VolumeM α) :
    plain (Session.onVolume x) = inSession (plain x) := by
  funext ⟨volume, files⟩
  simp only [plain, Session.onVolume, inSession, within]
  cases x volume <;> rfl

@[simp]
theorem plain_inServer (x : VolumeM α) :
    plain (Kernel.onVolume x) = inServer (plain x) := by
  funext ⟨volume, owner, group⟩
  simp only [plain, Kernel.onVolume, inServer, within]
  cases x volume <;> rfl

/-! ## The state that is left -/

/-- The state that an action leaves behind, unless it crashes. -/
def leaves (x : Action ε τ α) (s : τ) : Except Crash τ :=
  match x s with
  | .ok _ s' => .ok s'
  | .error (.failed _) s' => .ok s'
  | .error (.crashed c) _ => .error c

theorem leaves_plain (x : EStateM ε τ α) (s : τ) : leaves (plain x) s = .ok (leftBy x s) := by
  simp only [leaves, plain, leftBy]
  cases x s <;> rfl

end BlockFS.Machine
