import CrossChain.Inbox
import CrossChain.Proofs.Basic

/-!
# Passing a gate

All that can come of an attempt to move a transfer on, and the two steps that an inbound
transfer takes before its gate: a vote, and the approval.

## Main statements

* `Gate.Passes`, `Gate.passes_of_pass`: the four outcomes of an attempt, with what each says
  about the time and the limits.
* `InboxItem.attest_eq_ok`, `InboxItem.tryApprove_cases`: a vote, and the approval.
-/

namespace CrossChain

namespace Gate

/-- The limit that a transfer takes its amount from was asked and answered. A transfer that
waits asks only when its time has come. -/
def Asks (gate : Gate) (amount : TrimmedAmount) (now : Timestamp)
    (answer : Verdict × RateLimit) : Prop :=
  (gate.status = .initiated ∧ gate.consumed.consume amount now = .ok answer) ∨
    ∃ time, gate.status = .queued time ∧ ¬ now < time ∧
      gate.consumed.consumeQueued amount now = .ok answer

/-- The amount that passed was given back to the opposite direction, if there is one. -/
def GivesBack (amount : TrimmedAmount) (now : Timestamp) :
    Option RateLimit → Option RateLimit → Prop
  | none, after => after = none
  | some limit, after => ∃ raised, limit.refill amount now = .ok raised ∧ after = some raised

/-- What comes of an attempt to move a transfer on. -/
inductive Passes (gate : Gate) (amount : TrimmedAmount) (now : Timestamp) (mayQueue : Bool) :
    Advance → Gate → Prop where
  /-- It had passed before. -/
  | already (h : gate.status = .released) : Passes gate amount now mayQueue .alreadyReleased gate
  /-- Its time has not come. -/
  | early {time : Timestamp} (h : gate.status = .queued time) (hnow : now < time) :
      Passes gate amount now mayQueue (.queued time) gate
  /-- The limit has no room for it. -/
  | delayed {time : Timestamp} {limit : RateLimit}
      (h : gate.Asks amount now (.delayed time, limit))
      (hqueue : gate.status = .initiated → mayQueue = true) :
      Passes gate amount now mayQueue (.queued time) { gate with status := .queued time }
  /-- It passes. -/
  | passed {time : Timestamp} {spent : RateLimit} {backflow : Option RateLimit}
      (h : gate.Asks amount now (.consumed time, spent))
      (hback : GivesBack amount now gate.backflow backflow) :
      Passes gate amount now mayQueue .released ⟨.released, spent, backflow⟩

variable {gate gate' : Gate} {amount : TrimmedAmount} {now : Timestamp} {mayQueue : Bool}
  {result : Advance}

/-- Helper: what a limit's answer comes to, for a transfer that asked it. -/
private theorem passes_of_settle {answer : Except AmountError (Verdict × RateLimit)}
    (hask : ∀ a, answer = .ok a → gate.Asks amount now a)
    {leave : Bool} (hleave : leave = true → gate.status = .initiated → mayQueue = true)
    (h : settle amount now leave answer gate = .ok result gate') :
    gate.Passes amount now mayQueue result gate' := by
  rcases answer with e | ⟨time | time, limit⟩
  · cases h
  · have hconsumed := hask _ rfl
    simp only [settle, giveBack, run_bind, run_modify, run_get] at h
    cases hb : gate.backflow with
    | none =>
      simp only [hb, run_pure] at h
      cases h
      exact .passed hconsumed (by rw [hb]; rfl)
    | some opposite =>
      simp only [hb] at h
      cases hr : opposite.refill amount now with
      | error e => simp [hr, run_throw] at h
      | ok raised =>
        simp only [hr, run_modify, run_pure] at h
        cases h
        exact .passed hconsumed (by rw [hb]; exact ⟨raised, hr, rfl⟩)
  · have hdelayed := hask _ rfl
    simp only [settle] at h
    split at h
    next hl =>
      simp only [run_bind, run_modify, run_pure] at h
      cases h
      exact .delayed hdelayed (hleave hl)
    next => cases h

/-- **Passing a gate** comes to one of the four outcomes. -/
theorem passes_of_pass (h : gate.pass amount now mayQueue = .ok (result, gate')) :
    gate.Passes amount now mayQueue result gate' := by
  have hadvance : advance amount now mayQueue gate = .ok result gate' := by
    unfold pass at h
    split at h <;> cases h
    assumption
  simp only [advance, run_bind, run_get] at hadvance
  cases hs : gate.status with
  | notApproved => simp [hs, run_throw] at hadvance
  | released =>
    simp only [hs, run_pure] at hadvance
    cases hadvance
    exact .already hs
  | queued time =>
    simp only [hs] at hadvance
    split at hadvance
    next hnow =>
      simp only [run_pure] at hadvance
      cases hadvance
      exact .early hs hnow
    next hnow =>
      -- A transfer that waits may always wait on.
      exact passes_of_settle (fun a ha => .inr ⟨time, hs, hnow, ha⟩)
        (fun _ hi => by rw [hs] at hi; cases hi) hadvance
  | initiated =>
    simp only [hs] at hadvance
    exact passes_of_settle (fun a ha => .inl ⟨hs, ha⟩) (fun hl _ => hl) hadvance

/-- A transfer that just passed is released, and was not before. -/
theorem Passes.released (h : gate.Passes amount now mayQueue .released gate') :
    gate'.status = .released ∧ gate.status ≠ .released := by
  cases h with
  | passed h _ =>
    refine ⟨rfl, fun hr => ?_⟩
    rcases h with ⟨hs, _⟩ | ⟨_, hs, _, _⟩ <;> rw [hr] at hs <;> cases hs

/-- A transfer that is released after an attempt has just passed or had passed before. -/
theorem Passes.eq_released (h : gate.Passes amount now mayQueue result gate')
    (hnot : gate.status ≠ .released) : gate'.status = .released ↔ result = .released := by
  cases h with
  | already h => exact absurd h hnot
  | early h _ => simp [h]
  | delayed _ _ => simp
  | passed _ _ => simp

end Gate

/-! ## Votes and approval -/

namespace InboxItem

variable {item item' : InboxItem} {id threshold : UInt8} {enabled : Bitmap}

/-- **A vote** adds a transceiver that had not voted, and changes nothing else. -/
theorem attest_eq_ok (h : item.attest id = .ok item') :
    item.votes.get? id = some false ∧
      ∃ votes, item.votes.set? id true = some votes ∧ item' = { item with votes } := by
  unfold attest at h
  split at h
  next => cases h
  next votes hget hset =>
    cases h
    exact ⟨hget, votes, hset, rfl⟩
  next => cases h

/-- **The approval** either changes nothing, or the votes of enabled transceivers reach a
threshold that is not zero. -/
theorem tryApprove_cases (item : InboxItem) (threshold : UInt8) (enabled : Bitmap) :
    item.tryApprove threshold enabled = item ∨
      (item.approved = false ∧ 1 ≤ threshold.toNat ∧
        threshold.toNat ≤ item.votes.countCommon enabled ∧
        item.tryApprove threshold enabled =
          { item with approved := true, status := .initiated }) := by
  unfold tryApprove
  split
  next h =>
    simp only [Bool.and_eq_true, Bool.not_eq_true', decide_eq_true_eq] at h
    obtain ⟨⟨hnot, hpos⟩, hreached⟩ := h
    exact .inr ⟨hnot, UInt8.lt_iff_toNat_lt.mp hpos, hreached, rfl⟩
  next => exact .inl rfl

/-- The approval leaves alone what identifies a transfer, and its votes. -/
theorem tryApprove_frame (item : InboxItem) (threshold : UInt8) (enabled : Bitmap) :
    (item.tryApprove threshold enabled).sourceChain = item.sourceChain ∧
      (item.tryApprove threshold enabled).amount = item.amount ∧
      (item.tryApprove threshold enabled).recipient = item.recipient ∧
      (item.tryApprove threshold enabled).votes = item.votes := by
  rcases item.tryApprove_cases threshold enabled with h | ⟨_, _, _, h⟩ <;> rw [h] <;>
    exact ⟨rfl, rfl, rfl, rfl⟩

/-- The approval releases nothing. -/
theorem tryApprove_ne_released (h : item.status ≠ .released) :
    (item.tryApprove threshold enabled).status ≠ .released := by
  rcases item.tryApprove_cases threshold enabled with heq | ⟨_, _, _, heq⟩ <;> rw [heq]
  · exact h
  · simp

end InboxItem

end CrossChain
