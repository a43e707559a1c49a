import CrossChain.Operation
import CrossChain.Proofs.Basic

/-!
# Operations that check first and write last

What an operation did before it failed is not undone, so whether a failure leaves a trace depends on
the order of its steps. A check changes nothing, a write does not fail. An operation that checks
first and writes last is therefore atomic: it happens as a whole or not at all.

## Main statements

* `Checks.bind_atomic`, `Atomic.bind_succeeds`: checks in front of an atomic operation, writes
  behind it.
* `Atomic.within`: an atomic operation on a part of the state.
* `foldlM_applied`: operations one after the other, of which nothing is kept if one fails.
-/

namespace CrossChain

variable {ε δ σ ρ α β : Type} {s t : σ} {x : EStateM ε σ α} {f : α → EStateM ε σ β} {b : β}

/-! ## §1 Steps that succeed -/

theorem run_get_bind {f : σ → EStateM ε σ β} : (get >>= f) s = f s s := rfl

theorem run_modify_bind {change : σ → σ} {f : PUnit → EStateM ε σ β} :
    (modify change >>= f) s = f ⟨⟩ (change s) := rfl

/-- Doing nothing. -/
theorem run_pure_eq_ok {u : Unit} : (pure () : EStateM ε σ Unit) s = .ok u t ↔ t = s := by
  rw [run_pure, EStateM.Result.ok.injEq]
  exact ⟨fun h => h.2.symm, fun h => ⟨rfl, h.symm⟩⟩

theorem run_modify_eq_ok {change : σ → σ} {u : PUnit} :
    (modify change : EStateM ε σ PUnit) s = .ok u t ↔ t = change s := by
  rw [run_modify, EStateM.Result.ok.injEq]
  exact ⟨fun h => h.2.symm, fun h => ⟨rfl, h.symm⟩⟩

theorem run_require_bind {y : Except ε α} :
    (require y >>= f) s = .ok b t ↔ ∃ a, y = .ok a ∧ f a s = .ok b t := by
  cases y with
  | error e => simp [require, run_bind, run_throw]
  | ok a => simp [require, run_bind, run_pure]

theorem run_require_bind_error {y : Except ε α} {e : ε} :
    (require y >>= f) s = .error e t ↔
      y = .error e ∧ t = s ∨ ∃ a, y = .ok a ∧ f a s = .error e t := by
  cases y with
  | error e' => simp [require, run_bind, run_throw, eq_comm]
  | ok a => simp [require, run_bind, run_pure]

theorem run_refuseIf_bind {c : Prop} [Decidable c] {e : ε} {f : Unit → EStateM ε σ β} :
    (refuseIf c e >>= f) s = .ok b t ↔ ¬ c ∧ f () s = .ok b t := by
  by_cases h : c
  · simp [refuseIf, h, run_bind, run_throw]
  · simp [refuseIf, h, run_bind, run_pure]

theorem run_bind_eq_ok :
    (x >>= f) s = .ok b t ↔ ∃ a u, x s = .ok a u ∧ f a u = .ok b t := by
  rw [run_bind]
  cases x s <;> simp

theorem run_bind_eq_error {e : ε} :
    (x >>= f) s = .error e t ↔ x s = .error e t ∨ ∃ a u, x s = .ok a u ∧ f a u = .error e t := by
  rw [run_bind]
  cases x s <;> simp

/-- An answer that nobody needs. -/
theorem discard_eq_bind (x : EStateM ε σ α) : discard x = x >>= fun _ => pure () := rfl

theorem run_discard : discard x s = .ok () t ↔ ∃ a, x s = .ok a t := by
  rw [discard_eq_bind, run_bind]
  cases x s <;> simp [run_pure]

theorem run_within {part : σ → ρ} {put : ρ → σ → σ} {wrap : δ → ε} {operation : EStateM δ ρ α}
    {a : α} :
    within part put wrap operation s = .ok a t ↔
      ∃ left, operation (part s) = .ok a left ∧ put left s = t := by
  rw [within]
  cases operation (part s) <;> simp

theorem applied_eq_ok {x : EStateM ε σ Unit} : applied x s = .ok t ↔ x s = .ok () t := by
  rw [applied]
  cases x s <;> simp

/-- **Operations one after the other**, of which nothing is kept if one fails. -/
theorem foldlM_applied (step : α → EStateM ε σ PUnit) (entries : List α) (s : σ) :
    applied (entries.forM step) s = entries.foldlM (fun s entry => applied (step entry) s) s := by
  induction entries generalizing s with
  | nil => rfl
  | cons entry rest ih =>
    have hrest : applied ((entry :: rest).forM step) s =
        applied (step entry >>= fun _ => rest.forM step) s := rfl
    rw [hrest, List.foldlM_cons, applied, run_bind, applied]
    cases step entry s with
    | error e left => rfl
    | ok _ after => exact ih after

/-! ## §2 Steps that fail -/

/-- An operation that fails leaves the state as it was. -/
def Atomic (x : EStateM ε σ α) : Prop :=
  ∀ s e t, x s = .error e t → t = s

-- What is written before a failure stays, so not every operation is atomic.
example : (modify Nat.succ >>= fun _ => throw () : EStateM Unit Nat Unit) 0 = .error () 1 := rfl

/-- An operation that looks at the state without changing it, and may fail. -/
def Checks (x : EStateM ε σ α) : Prop :=
  ∀ s, (∃ a, x s = .ok a s) ∨ ∃ e, x s = .error e s

/-- An operation that does not fail. -/
def Succeeds (x : EStateM ε σ α) : Prop :=
  ∀ s, ∃ a t, x s = .ok a t

theorem checks_get : Checks (get : EStateM ε σ σ) :=
  fun s => .inl ⟨s, rfl⟩

theorem checks_throw (e : ε) : Checks (throw e : EStateM ε σ α) :=
  fun _ => .inr ⟨e, rfl⟩

theorem checks_require (y : Except ε α) : Checks (require y : EStateM ε σ α) := by
  intro s
  cases y with
  | error e => exact .inr ⟨e, rfl⟩
  | ok a => exact .inl ⟨a, rfl⟩

theorem checks_refuseIf (c : Prop) [Decidable c] (e : ε) :
    Checks (refuseIf c e : EStateM ε σ Unit) := by
  intro s
  unfold refuseIf
  split
  next => exact .inr ⟨e, rfl⟩
  next => exact .inl ⟨(), rfl⟩

theorem Checks.atomic (hx : Checks x) : Atomic x := by
  intro s e t h
  rcases hx s with ⟨a, ha⟩ | ⟨e', he⟩
  · cases ha.symm.trans h
  · cases he.symm.trans h
    rfl

theorem Checks.bind (hx : Checks x) (hf : ∀ a, Checks (f a)) : Checks (x >>= f) := by
  intro s
  rw [run_bind]
  rcases hx s with ⟨a, ha⟩ | ⟨e, he⟩
  · rw [ha]
    exact hf a s
  · rw [he]
    exact .inr ⟨e, rfl⟩

/-- **Checks come first.** -/
theorem Checks.bind_atomic (hx : Checks x) (hf : ∀ a, Atomic (f a)) : Atomic (x >>= f) := by
  intro s e t h
  rcases run_bind_eq_error.mp h with h | ⟨a, u, ha, h⟩
  · exact hx.atomic s e t h
  · rcases hx s with ⟨a', ha'⟩ | ⟨e', he'⟩
    · cases ha.symm.trans ha'
      exact hf a s e t h
    · cases ha.symm.trans he'

theorem succeeds_modify (change : σ → σ) : Succeeds (modify change : EStateM ε σ PUnit) :=
  fun s => ⟨_, change s, rfl⟩

theorem succeeds_pure (a : α) : Succeeds (pure a : EStateM ε σ α) :=
  fun s => ⟨a, s, rfl⟩

theorem Succeeds.bind (hx : Succeeds x) (hf : ∀ a, Succeeds (f a)) : Succeeds (x >>= f) := by
  intro s
  obtain ⟨a, u, ha⟩ := hx s
  obtain ⟨b, t, hb⟩ := hf a u
  exact ⟨b, t, by rw [run_bind, ha]; exact hb⟩

theorem Succeeds.not_error (hx : Succeeds x) {e : ε} : x s ≠ .error e t := by
  intro h
  obtain ⟨a, u, ha⟩ := hx s
  cases ha.symm.trans h

theorem Succeeds.atomic (hx : Succeeds x) : Atomic x :=
  fun _ _ _ h => (hx.not_error h).elim

/-- **Writes come last.** -/
theorem Atomic.bind_succeeds (hx : Atomic x) (hf : ∀ a, Succeeds (f a)) : Atomic (x >>= f) := by
  intro s e t h
  rcases run_bind_eq_error.mp h with h | ⟨a, u, _, h⟩
  · exact hx s e t h
  · exact ((hf a).not_error h).elim

theorem Atomic.discard (hx : Atomic x) : Atomic (discard x) :=
  hx.bind_succeeds fun _ => succeeds_pure ()

/-- **A part of the state** that is put back as it was leaves the whole as it was. -/
theorem Atomic.within {operation : EStateM δ ρ α} (h : Atomic operation) {part : σ → ρ}
    {put : ρ → σ → σ} {wrap : δ → ε} (s : σ) (hput : put (part s) s = s) {e : ε} {t : σ}
    (hfails : within part put wrap operation s = .error e t) : t = s := by
  rw [CrossChain.within] at hfails
  cases hresult : operation (part s) with
  | ok a left =>
    rw [hresult] at hfails
    cases hfails
  | error e' left =>
    rw [hresult] at hfails
    cases hfails
    rw [h _ _ _ hresult, hput]

end CrossChain
