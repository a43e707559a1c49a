/-!
# Operations in place

An operation acts on a state. It returns an answer or fails, and what it did before it failed is not
undone: an operation that has to leave everything as it was must check first and write last.
-/

namespace CrossChain

variable {ε δ σ ρ α : Type}

/-- The answer of a check, or its failure. -/
def require : Except ε α → EStateM ε σ α
  | .ok value => pure value
  | .error e => throw e

/-- Fails if a condition holds. -/
def refuseIf (condition : Prop) [Decidable condition] (e : ε) : EStateM ε σ Unit :=
  if condition then throw e else pure ()

/-- Carries out an operation on a part of a state. What it leaves of the part stays, whether it
fails or not. -/
def within (part : σ → ρ) (put : ρ → σ → σ) (wrap : δ → ε) (operation : EStateM δ ρ α) :
    EStateM ε σ α := fun s =>
  match operation (part s) with
  | .ok value left => .ok value (put left s)
  | .error e left => .error (wrap e) (put left s)

/-- What an operation makes of a state of which nothing is kept if it fails. -/
def applied (operation : EStateM ε σ α) (s : σ) : Except ε σ :=
  match operation s with
  | .ok _ after => .ok after
  | .error e _ => .error e

end CrossChain
