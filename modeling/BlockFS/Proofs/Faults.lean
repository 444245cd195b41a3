import BlockFS.Proofs.Evaluation

/-!
# Evaluation where transfers may fail

Under a plan of failures an action may end in many ways, depending on which transfers went before.
`Ends plan x s Q E` says of all of them that `x` either answers as `Q` tells or fails as `E` tells.
The rules follow the ways in which actions are put together.  What a failure says about the plan is
kept apart: a plan strikes transfers of some kind if it lets one of them fail.
-/

namespace BlockFS

/-! ## Plans -/

namespace FaultPlan

/-- The plan lets a transfer of some kind fail, and that is the error. -/
def Strikes (plan : FaultPlan) (kind : Transfer → Prop) (e : Error) : Prop :=
  ∃ transfer history cause, kind transfer ∧ plan history transfer = some cause ∧ e = .device cause

/-- The plan lets a transfer pass at some time. -/
def Admits (plan : FaultPlan) (transfer : Transfer) : Prop :=
  ∃ history, plan history transfer = none

/-- The plan under which the writes to some sectors fail. -/
def refusing (sectors : List Nat) : FaultPlan :=
  FaultRules.plan ⟨false, [], sectors, none, .told "sector transfer failed"⟩

variable {plan : FaultPlan} {kind kind' : Transfer → Prop} {e : Error} {sectors : List Nat}

theorem Strikes.mono (h : plan.Strikes kind e) (himp : ∀ t, kind t → kind' t) :
    plan.Strikes kind' e := by
  obtain ⟨transfer, history, cause, hkind, hplan, he⟩ := h
  exact ⟨transfer, history, cause, himp transfer hkind, hplan, he⟩

theorem not_strikes_never : ¬ FaultPlan.never.Strikes kind e := by
  rintro ⟨_, _, _, -, hplan, -⟩
  cases hplan

theorem refusing_eq_some_iff {history : History} {t : Transfer} {cause : IoError} :
    refusing sectors history t = some cause ↔
      (∃ k ∈ sectors, t = .write k) ∧ cause = .told "sector transfer failed" := by
  cases t with
  | read k => simp [refusing, FaultRules.plan, FaultRules.hits]
  | write k => simp [refusing, FaultRules.plan, FaultRules.hits, eq_comm]

theorem Strikes.exists_refused (h : (refusing sectors).Strikes kind e) :
    ∃ k ∈ sectors, kind (.write k) := by
  obtain ⟨transfer, history, cause, hkind, hplan, -⟩ := h
  obtain ⟨⟨k, hk, rfl⟩, -⟩ := refusing_eq_some_iff.mp hplan
  exact ⟨k, hk, hkind⟩

theorem Admits.not_refused {k : Nat} (h : (refusing sectors).Admits (.write k)) :
    k ∉ sectors := by
  obtain ⟨history, hplan⟩ := h
  intro hk
  have hsome : refusing sectors history (.write k) = some (.told "sector transfer failed") :=
    refusing_eq_some_iff.mpr ⟨⟨k, hk, rfl⟩, rfl⟩
  rw [hplan] at hsome
  cases hsome

end FaultPlan

namespace Transfer

/-- The transfer reads a half of a block. -/
def ReadsOf (block : Nat) (t : Transfer) : Prop :=
  t = .read (2 * block) ∨ t = .read (2 * block + 1)

/-- The transfer writes a half of a block. -/
def WritesTo (block : Nat) (t : Transfer) : Prop :=
  t = .write (2 * block) ∨ t = .write (2 * block + 1)

/-- The transfer reads or writes a half of a block. -/
def Touches (block : Nat) (t : Transfer) : Prop := t.ReadsOf block ∨ t.WritesTo block

end Transfer

/-! ## How actions end -/

/-- States of type `S` stand for states of type `τ` whose device follows a plan of failures, up to the
history of transfers. -/
class Exposed (S : Type) (τ : outParam Type) where
  under : FaultPlan → S → History → τ

variable {S τ ε α β : Type}

/-- Under a plan of failures an action ends in an answer with `Q` or in a failure with `E`, whatever
went before. -/
def Ends [Exposed S τ] (plan : FaultPlan) (x : EStateM ε τ α) (s : S) (Q : α → S → Prop)
    (E : ε → S → Prop) : Prop :=
  ∀ h, (∃ a s' h', x (Exposed.under plan s h) = .ok a (Exposed.under plan s' h') ∧ Q a s') ∨
    (∃ e s' h', x (Exposed.under plan s h) = .error e (Exposed.under plan s' h') ∧ E e s')

namespace Ends

variable [Exposed S τ] {plan : FaultPlan} {s : S} {x : EStateM ε τ α} {Q Q' : α → S → Prop}
  {E E' : ε → S → Prop} {R : β → S → Prop}

theorem mono (hx : Ends plan x s Q E) (hQ : ∀ a s', Q a s' → Q' a s')
    (hE : ∀ e s', E e s' → E' e s') : Ends plan x s Q' E' := by
  intro h
  rcases hx h with ⟨a, s', h', hx, hq⟩ | ⟨e, s', h', hx, he⟩
  · exact .inl ⟨a, s', h', hx, hQ a s' hq⟩
  · exact .inr ⟨e, s', h', hx, hE e s' he⟩

/-- What is known of every failure may be said less precisely. -/
theorem weaken (hx : Ends plan x s Q E) (hE : ∀ e s', E e s' → E' e s') :
    Ends plan x s Q E' :=
  hx.mono (fun _ _ hq => hq) hE

/-- What is answered may not matter. -/
theorem ignore (hx : Ends plan x s Q E) : Ends plan x s (fun _ _ => True) E :=
  hx.mono (fun _ _ _ => trivial) fun _ _ he => he

theorem pure {a : α} (hq : Q a s) : Ends plan (Pure.pure a : EStateM ε τ α) s Q E := by
  intro h
  exact .inl ⟨a, s, h, rfl, hq⟩

theorem throw {e : ε} (he : E e s) :
    Ends plan (MonadExcept.throw e : EStateM ε τ α) s Q E := by
  intro h
  exact .inr ⟨e, s, h, rfl, he⟩

theorem bind {f : α → EStateM ε τ β} (hx : Ends plan x s Q E)
    (hf : ∀ a s', Q a s' → Ends plan (f a) s' R E) : Ends plan (x >>= f) s R E := by
  intro h
  change (∃ b s' h', EStateM.bind x f _ = _ ∧ _) ∨ (∃ e s' h', EStateM.bind x f _ = _ ∧ _)
  rcases hx h with ⟨a, s', h', hx, hq⟩ | ⟨e, s', h', hx, he⟩
  · simp only [EStateM.bind, hx]
    exact hf a s' hq h'
  · simp only [EStateM.bind, hx]
    exact .inr ⟨e, s', h', rfl, he⟩

/-- What follows a failure is not done. -/
theorem throw_bind {e : ε} {f : α → EStateM ε τ β} (he : E e s) :
    Ends plan (MonadExcept.throw e >>= f) s R E := by
  intro h
  exact .inr ⟨e, s, h, rfl, he⟩

theorem map {g : α → β} (hx : Ends plan x s (fun a s' => R (g a) s') E) :
    Ends plan (g <$> x) s R E := by
  intro h
  change (∃ b s' h', EStateM.map g x _ = _ ∧ _) ∨ (∃ e s' h', EStateM.map g x _ = _ ∧ _)
  rcases hx h with ⟨a, s', h', hx, hq⟩ | ⟨e, s', h', hx, he⟩
  · simp only [EStateM.map, hx]
    exact .inl ⟨g a, s', h', rfl, hq⟩
  · simp only [EStateM.map, hx]
    exact .inr ⟨e, s', h', rfl, he⟩

theorem tryCatch {handler : ε → EStateM ε τ α} (hx : Ends plan x s Q E)
    (hh : ∀ e s', E e s' → Ends plan (handler e) s' Q E') :
    Ends plan (tryCatch x handler) s Q E' := by
  intro h
  rcases hx h with ⟨a, s', h', hx, hq⟩ | ⟨e, s', h', hx, he⟩
  · exact .inl ⟨a, s', h', tryCatch_of_ok hx, hq⟩
  · rw [tryCatch_of_error hx]
    exact hh e s' he h'

theorem ok_bind {a : α} {f : α → EStateM ε τ β} (hf : Ends plan (f a) s R E) :
    Ends plan ((liftExcept (.ok a : Except ε α) : EStateM ε τ α) >>= f) s R E := hf

theorem error_bind {e : ε} {f : α → EStateM ε τ β} (he : E e s) :
    Ends plan ((liftExcept (.error e : Except ε α) : EStateM ε τ α) >>= f) s R E := throw he

/-- What is read of the whole state may depend on its history, but not what follows. -/
theorem get_bind {f : τ → EStateM ε τ β}
    (hf : ∀ h, Ends plan (f (Exposed.under plan s h)) s R E) :
    Ends plan (get >>= f) s R E := by
  intro h
  exact hf h h

theorem modify {f : τ → τ} {s' : S} {Q : Unit → S → Prop}
    (hf : ∀ h, ∃ h', f (Exposed.under plan s h) = Exposed.under plan s' h') (hq : Q () s') :
    Ends plan (modify f : EStateM ε τ Unit) s Q E := by
  intro h
  obtain ⟨h', hf⟩ := hf h
  refine .inl ⟨(), s', h', ?_, hq⟩
  change EStateM.Result.ok () (f (Exposed.under plan s h)) = _
  rw [hf]

/-- What is told of an action in two ways holds at once, if states that stand for the same are the
same. -/
theorem and (hsame : ∀ {s₁ s₂ : S} {h₁ h₂ : History},
      Exposed.under plan s₁ h₁ = Exposed.under plan s₂ h₂ → s₁ = s₂)
    (hx : Ends plan x s Q E) (hx' : Ends plan x s Q' E') :
    Ends plan x s (fun a s' => Q a s' ∧ Q' a s') (fun e s' => E e s' ∧ E' e s') := by
  intro h
  rcases hx h with ⟨a, s₁, h₁, hrun, hq⟩ | ⟨e, s₁, h₁, hrun, he⟩
  · rcases hx' h with ⟨a', s₂, h₂, hrun', hq'⟩ | ⟨e', s₂, h₂, hrun', -⟩
    · rw [hrun] at hrun'
      injection hrun' with ha hs
      obtain rfl := hsame hs
      exact .inl ⟨a, s₁, h₁, hrun, hq, ha ▸ hq'⟩
    · rw [hrun] at hrun'
      cases hrun'
  · rcases hx' h with ⟨a', s₂, h₂, hrun', -⟩ | ⟨e', s₂, h₂, hrun', he'⟩
    · rw [hrun] at hrun'
      cases hrun'
    · rw [hrun] at hrun'
      injection hrun' with herror hs
      obtain rfl := hsame hs
      exact .inr ⟨e, s₁, h₁, hrun, he, herror ▸ he'⟩

/-- An action that failed did so in one of the ways that it may. -/
theorem of_error {e : ε} {t : τ} {h : History} (hx : Ends plan x s Q E)
    (he : x (Exposed.under plan s h) = .error e t) :
    ∃ s' h', t = Exposed.under plan s' h' ∧ E e s' := by
  rcases hx h with ⟨a, s', h', hx, -⟩ | ⟨e', s', h', hx, hE⟩
  · rw [hx] at he
    cases he
  · rw [hx] at he
    cases he
    exact ⟨s', h', rfl, hE⟩

/-- An action that cannot answer fails. -/
theorem exists_error (hx : Ends plan x s (fun _ _ => False) E) (h : History) :
    ∃ e s' h', x (Exposed.under plan s h) = .error e (Exposed.under plan s' h') ∧ E e s' := by
  rcases hx h with ⟨a, s', h', -, hq⟩ | hfail
  · exact hq.elim
  · exact hfail

end Ends

/-! ## Actions that only look -/

/-- Under a plan of failures an action that only looks leaves the state as it was, and fails for one
of some reasons or because the plan struck. -/
def Views [Exposed S τ] (plan : FaultPlan) (x : EStateM ε τ α) (s : S) (Q : α → Prop)
    (E : ε → Prop) : Prop :=
  Ends plan x s (fun a s' => s' = s ∧ Q a) (fun e s' => s' = s ∧ E e)

namespace Views

variable [Exposed S τ] {plan : FaultPlan} {s : S} {x : EStateM ε τ α} {Q : α → Prop}
  {E E' : ε → Prop} {R : β → Prop}

theorem pure {a : α} (hq : Q a) : Views plan (Pure.pure a : EStateM ε τ α) s Q E :=
  Ends.pure ⟨rfl, hq⟩

theorem throw {e : ε} (he : E e) : Views plan (MonadExcept.throw e : EStateM ε τ α) s Q E :=
  Ends.throw ⟨rfl, he⟩

theorem bind {f : α → EStateM ε τ β} (hx : Views plan x s Q E)
    (hf : ∀ a, Q a → Views plan (f a) s R E) : Views plan (x >>= f) s R E := by
  refine Ends.bind hx fun a s' hq => ?_
  obtain ⟨rfl, hq⟩ := hq
  exact hf a hq

theorem weaken (hx : Views plan x s Q E) (hE : ∀ e, E e → E' e) : Views plan x s Q E' :=
  Ends.weaken hx fun e _ he => ⟨he.1, hE e he.2⟩

/-- What follows an action that only looks. -/
theorem bind_ends {f : α → EStateM ε τ β} {Q' : β → S → Prop} {E' : ε → S → Prop}
    (hx : Views plan x s Q E) (hE : ∀ e, E e → E' e s)
    (hf : ∀ a, Q a → Ends plan (f a) s Q' E') : Ends plan (x >>= f) s Q' E' := by
  have hx' : Ends plan x s (fun a s' => s' = s ∧ Q a) E' := by
    refine Ends.weaken hx fun e s' he => ?_
    obtain ⟨rfl, he⟩ := he
    exact hE e he
  refine hx'.bind fun a s' hq => ?_
  obtain ⟨rfl, hq⟩ := hq
  exact hf a hq

end Views

end BlockFS
