import CrossChain.Word
import Mathlib.Tactic

/-!
# Checks and operations in sequence, and exact arithmetic on words

Three kinds of small facts that everything else rests on.

- **Checks**: a `do` block in `Except` succeeds exactly when each of its steps does. The lemmas
  take such a block apart into the conjunction of its guards, one step at a time.
- **Operations**: a `do` block that changes a state, carried out on a given state.
- **Words**: each checked or saturating operation on words as an equation between numbers.
-/

namespace CrossChain

/-! ## §1 Checks -/

section Checks

variable {ε α β : Type}

theorem bind_eq_ok {x : Except ε α} {f : α → Except ε β} {b : β} :
    x >>= f = .ok b ↔ ∃ a, x = .ok a ∧ f a = .ok b := by
  cases x <;> simp [bind, Except.bind]

theorem ok_bind {a : α} {f : α → Except ε β} : (Except.ok a >>= f) = f a := rfl

theorem map_ok {a : α} {f : α → β} : f <$> (Except.ok a : Except ε α) = .ok (f a) := rfl

theorem map_error {e : ε} {f : α → β} : f <$> (Except.error e : Except ε α) = .error e := rfl

theorem throw_bind {e : ε} {f : α → Except ε β} :
    (throw e : Except ε α) >>= f = .error e := rfl

theorem throw_eq_error {e : ε} : (throw e : Except ε α) = .error e := rfl

theorem pure_eq_ok {a b : α} : (pure a : Except ε α) = .ok b ↔ a = b := by
  simp [pure, Except.pure]

theorem bind_eq_error {x : Except ε α} {f : α → Except ε β} {e : ε} :
    x >>= f = .error e ↔ x = .error e ∨ ∃ a, x = .ok a ∧ f a = .error e := by
  cases x <;> simp [bind, Except.bind]

theorem guard_eq_error {c : Prop} [Decidable c] {e e' : ε} {x : Except ε α} :
    (if c then .error e else x) = .error e' ↔ c ∧ e = e' ∨ ¬ c ∧ x = .error e' := by
  by_cases h : c <;> simp [h]

theorem guard_eq_ok {c : Prop} [Decidable c] {e : ε} {x : Except ε α} {b : α} :
    (if c then .error e else x) = .ok b ↔ ¬ c ∧ x = .ok b := by
  by_cases h : c <;> simp [h]

theorem mapError_eq_ok {γ : Type} {x : Except ε α} {f : ε → γ} {a : α} :
    x.mapError f = .ok a ↔ x = .ok a := by
  cases x <;> simp [Except.mapError]

theorem map_eq_ok {x : Except ε α} {f : α → β} {b : β} :
    f <$> x = .ok b ↔ ∃ a, x = .ok a ∧ f a = b := by
  cases x <;> simp [Functor.map, Except.map]

theorem discard_eq_ok {x : Except ε α} {u : Unit} : discard x = .ok u ↔ ∃ a, x = .ok a := by
  cases x <;> simp [discard, Functor.mapConst, Except.map]

end Checks

/-! ## §2 Operations

A `do` block in `EStateM`, run step by step on a state. -/

section Operations

variable {ε σ α β : Type} {s : σ}

theorem run_bind {x : EStateM ε σ α} {f : α → EStateM ε σ β} :
    (x >>= f) s = match x s with
      | .ok a s' => f a s'
      | .error e s' => .error e s' := rfl

theorem run_pure {a : α} : (pure a : EStateM ε σ α) s = .ok a s := rfl

theorem run_get : (get : EStateM ε σ σ) s = .ok s s := rfl

theorem run_modify {f : σ → σ} : (modify f : EStateM ε σ PUnit) s = .ok ⟨⟩ (f s) := rfl

theorem run_throw {e : ε} : (throw e : EStateM ε σ α) s = .error e s := rfl

end Operations

/-! ## §3 Words -/

namespace Word

/-- A number that is no greater than a word is one. -/
theorem toNat_ofNat_of_le {n : ℕ} {a : UInt64} (h : n ≤ a.toNat) : (UInt64.ofNat n).toNat = n :=
  UInt64.toNat_ofNat_of_lt' (lt_of_le_of_lt h a.toNat_lt)

theorem add?_eq_some {a b c : UInt64} : add? a b = some c ↔ c.toNat = a.toNat + b.toNat := by
  have hc : c.toNat < UInt64.size := c.toNat_lt
  unfold add?
  split
  next fits =>
    rw [Option.some_inj, ← UInt64.toNat_inj, UInt64.toNat_ofNat_of_lt' fits]
    exact eq_comm
  next large => simp only [reduceCtorEq, false_iff]; omega

theorem sub?_eq_some {a b c : UInt64} : sub? a b = some c ↔ c.toNat + b.toNat = a.toNat := by
  have ha : a.toNat < UInt64.size := a.toNat_lt
  unfold sub?
  split
  next covered =>
    rw [Option.some_inj, ← UInt64.toNat_inj, UInt64.toNat_ofNat_of_lt' (by omega)]
    omega
  next short => simp only [reduceCtorEq, false_iff]; omega

theorem mul?_eq_some {a b c : UInt64} : mul? a b = some c ↔ c.toNat = a.toNat * b.toNat := by
  have hc : c.toNat < UInt64.size := c.toNat_lt
  unfold mul?
  split
  next fits =>
    rw [Option.some_inj, ← UInt64.toNat_inj, UInt64.toNat_ofNat_of_lt' fits]
    exact eq_comm
  next large => simp only [reduceCtorEq, false_iff]; omega

theorem toNat_subSat (a b : UInt64) : (subSat a b).toNat = a.toNat - b.toNat := by
  have ha : a.toNat < UInt64.size := a.toNat_lt
  exact UInt64.toNat_ofNat_of_lt' (by omega)

end Word

end CrossChain
