import BlockFS.Session
import BlockFS.Kernel.Server

/-!
# Evaluation where no transfer fails

On a device that fails no transfer, the history of transfers has no influence on anything.  A state
without its history, here called settled, then determines what an action does, up to the history
that it leaves behind.  `Does x s r s'` says that `x` takes the settled state `s` to `s'` with the
result `r`.  The rules follow the ways in which actions are put together.
-/

namespace BlockFS

/-- Settled states of type `S` stand for states of type `τ` whose device fails no transfer, up to the
history of transfers. -/
class Settled (S : Type) (τ : outParam Type) where
  state : S → History → τ

variable {S τ ε α β : Type}

section

variable {x : EStateM ε τ α} {f : α → EStateM ε τ β} {t t' : τ}

theorem bind_of_ok {a : α} (h : x t = .ok a t') : (x >>= f) t = f a t' := by
  change EStateM.bind x f t = _
  simp only [EStateM.bind, h]

theorem bind_of_error {e : ε} (h : x t = .error e t') : (x >>= f) t = .error e t' := by
  change EStateM.bind x f t = _
  simp only [EStateM.bind, h]

theorem tryCatch_of_ok {a : α} {handler : ε → EStateM ε τ α} (h : x t = .ok a t') :
    tryCatch x handler t = .ok a t' := by
  change EStateM.tryCatch x handler t = _
  delta EStateM.tryCatch
  simp only [h]

theorem tryCatch_of_error {e : ε} {handler : ε → EStateM ε τ α} (h : x t = .error e t') :
    tryCatch x handler t = handler e t' := by
  change EStateM.tryCatch x handler t = _
  delta EStateM.tryCatch
  simp only [h]
  rfl

theorem get_bind_apply (f : τ → EStateM ε τ β) (t : τ) : (get >>= f) t = f t t := rfl

end

/-- A result together with the state that it leaves behind. -/
def withState (r : Except ε α) (t : τ) : EStateM.Result ε τ α :=
  match r with
  | .ok a => .ok a t
  | .error e => .error e t

/-- An action takes a settled state to another one with a result, whatever went before. -/
def Does [Settled S τ] (x : EStateM ε τ α) (s : S) (r : Except ε α) (s' : S) : Prop :=
  ∀ h, ∃ h', x (Settled.state s h) = withState r (Settled.state s' h')

namespace Does

variable [Settled S τ] {s s' s'' : S} {x : EStateM ε τ α} {a : α} {e : ε} {r : Except ε β}

theorem pure (a : α) (s : S) : Does (Pure.pure a : EStateM ε τ α) s (.ok a) s := by
  intro h
  exact ⟨h, rfl⟩

theorem throw (e : ε) (s : S) :
    Does (MonadExcept.throw e : EStateM ε τ α) s (.error e) s := by
  intro h
  exact ⟨h, rfl⟩

theorem bind {f : α → EStateM ε τ β}
    (hx : Does x s (.ok a) s') (hf : Does (f a) s' r s'') : Does (x >>= f) s r s'' := by
  intro h
  obtain ⟨h', hx⟩ := hx h
  obtain ⟨h'', hf⟩ := hf h'
  refine ⟨h'', ?_⟩
  change EStateM.bind x f _ = _
  simp only [EStateM.bind, hx, withState]
  exact hf

theorem bind_error {f : α → EStateM ε τ β}
    (hx : Does x s (.error e) s') : Does (x >>= f) s (.error e) s' := by
  intro h
  obtain ⟨h', hx⟩ := hx h
  refine ⟨h', ?_⟩
  change EStateM.bind x f _ = _
  simp only [EStateM.bind, hx, withState]

theorem map {g : α → β} (hx : Does x s (.ok a) s') : Does (g <$> x) s (.ok (g a)) s' := by
  intro h
  obtain ⟨h', hx⟩ := hx h
  refine ⟨h', ?_⟩
  change EStateM.map g x _ = _
  simp only [EStateM.map, hx, withState]

theorem map_error {g : α → β} (hx : Does x s (.error e) s') :
    Does (g <$> x) s (.error e) s' := by
  intro h
  obtain ⟨h', hx⟩ := hx h
  refine ⟨h', ?_⟩
  change EStateM.map g x _ = _
  simp only [EStateM.map, hx, withState]

theorem tryCatch_ok {handler : ε → EStateM ε τ α}
    (hx : Does x s (.ok a) s') : Does (tryCatch x handler) s (.ok a) s' := by
  intro h
  obtain ⟨h', hx⟩ := hx h
  exact ⟨h', tryCatch_of_ok hx⟩

theorem tryCatch_error {handler : ε → EStateM ε τ α} {r : Except ε α}
    (hx : Does x s (.error e) s') (hh : Does (handler e) s' r s'') :
    Does (tryCatch x handler) s r s'' := by
  intro h
  obtain ⟨h', hx⟩ := hx h
  obtain ⟨h'', hh⟩ := hh h'
  exact ⟨h'', (tryCatch_of_error hx).trans hh⟩

theorem liftExcept (r : Except ε α) (s : S) :
    Does (liftExcept r : EStateM ε τ α) s r s := by
  intro h
  cases r with
  | ok a => exact ⟨h, rfl⟩
  | error e => exact ⟨h, rfl⟩

/-- What is read of the whole state may depend on its history, but not what follows. -/
theorem get_bind {f : τ → EStateM ε τ β} (hf : ∀ h, Does (f (Settled.state s h)) s r s') :
    Does (get >>= f) s r s' := by
  intro h
  obtain ⟨h', hf⟩ := hf h h
  exact ⟨h', hf⟩

theorem modify {f : τ → τ} (hf : ∀ h, ∃ h', f (Settled.state s h) = Settled.state s' h') :
    Does (modify f : EStateM ε τ Unit) s (.ok ()) s' := by
  intro h
  obtain ⟨h', hf⟩ := hf h
  refine ⟨h', ?_⟩
  change EStateM.Result.ok () (f (Settled.state s h)) = _
  rw [hf]
  rfl

/-- An action does at most one thing to a settled state. -/
theorem result_unique {α : Type} {x : EStateM ε τ α} {r r' : Except ε α} {t t' : S}
    (hx : Does x s r t) (hx' : Does x s r' t') (history : History) :
    r = r' ∧ ∃ h h', Settled.state t h = Settled.state t' h' := by
  obtain ⟨h, hx⟩ := hx history
  obtain ⟨h', hx'⟩ := hx' history
  rw [hx] at hx'
  cases r with
  | ok a =>
    cases r' with
    | ok a' =>
      injection hx' with ha ht
      exact ⟨by rw [ha], h, h', ht⟩
    | error e' => cases hx'
  | error e =>
    cases r' with
    | ok a' => cases hx'
    | error e' =>
      injection hx' with he ht
      exact ⟨by rw [he], h, h', ht⟩

/-- What is returned is what an action does. -/
theorem eq_ok {α : Type} {x : EStateM ε τ α} {r : Except ε α} {t : S} {history : History} {a : α}
    {u : τ} (hx : Does x s r t) (h : x (Settled.state s history) = .ok a u) : r = .ok a := by
  obtain ⟨history', heq⟩ := hx history
  rw [h] at heq
  cases r with
  | ok b =>
    injection heq with hb _
    rw [hb]
  | error e => cases heq

theorem exists_ok {α : Type} {x : EStateM ε τ α} {t : S} {a : α} (hx : Does x s (.ok a) t)
    (history : History) : ∃ u, x (Settled.state s history) = .ok a u := by
  obtain ⟨history', heq⟩ := hx history
  exact ⟨_, heq⟩

theorem exists_error {α : Type} {x : EStateM ε τ α} {t : S} {e : ε} (hx : Does x s (.error e) t)
    (history : History) : ∃ u, x (Settled.state s history) = .error e u := by
  obtain ⟨history', heq⟩ := hx history
  exact ⟨_, heq⟩

end Does

/-! ## Actions that only look -/

/-- An action may fail or not, and leaves a settled state as it was. -/
def Quiet [Settled S τ] (x : EStateM ε τ α) (s : S) : Prop := ∃ r, Does x s r s

namespace Quiet

variable [Settled S τ] {s : S} {x : EStateM ε τ α}

theorem pure (a : α) (s : S) : Quiet (Pure.pure a : EStateM ε τ α) s := ⟨.ok a, Does.pure a s⟩

theorem throw (e : ε) (s : S) : Quiet (MonadExcept.throw e : EStateM ε τ α) s :=
  ⟨.error e, Does.throw e s⟩

theorem liftExcept (r : Except ε α) (s : S) : Quiet (liftExcept r : EStateM ε τ α) s :=
  ⟨r, Does.liftExcept r s⟩

theorem bind {f : α → EStateM ε τ β} (hx : Quiet x s) (hf : ∀ a, Quiet (f a) s) :
    Quiet (x >>= f) s := by
  obtain ⟨r, hx⟩ := hx
  cases r with
  | ok a =>
    obtain ⟨r', hf⟩ := hf a
    exact ⟨r', hx.bind hf⟩
  | error e => exact ⟨.error e, hx.bind_error⟩

theorem map {g : α → β} (hx : Quiet x s) : Quiet (g <$> x) s := by
  obtain ⟨r, hx⟩ := hx
  cases r with
  | ok a => exact ⟨.ok (g a), hx.map⟩
  | error e => exact ⟨.error e, hx.map_error⟩

theorem tryCatch {handler : ε → EStateM ε τ α} (hx : Quiet x s)
    (hh : ∀ e, Quiet (handler e) s) : Quiet (tryCatch x handler) s := by
  obtain ⟨r, hx⟩ := hx
  cases r with
  | ok a => exact ⟨.ok a, hx.tryCatch_ok⟩
  | error e =>
    obtain ⟨r', hh⟩ := hh e
    exact ⟨r', hx.tryCatch_error hh⟩

end Quiet

end BlockFS
