import CrossChain.Proofs.Transition

/-!
# Calls that fail change nothing

A call does not undo what it did before it failed. It still leaves everything as it was. The calls
that move value work on copies and write last: the gate of a transfer, which is not so careful, is
always a copy, and so is the manager that an endpoint stages a pick-up in. The calls that change the
configuration write in place, but not before the last check that can fail. A failed call therefore
does not count at all, and a run is determined by the calls that succeed.

## Main statements

* `failed_call_unchanged`: a call that fails leaves the manager, the token and the messages that
  governance has consumed as they were.
* `Book.run_succeeded`: the failed calls of a run can be left out.
* `Gate.advance_error`: what a step through a gate leaves when it fails.
-/

namespace CrossChain

variable {now : Timestamp}

/-! ## §1 One call -/

theorem Transition.eq_of_error {b after : Book} {action : Action} {failure : Failure}
    (h : Transition b now action (.error failure) after) : after = b := by
  -- Every kind of step but one has an answer.
  cases h with
  | refused => rfl

/-- **A call that fails changes nothing**: whoever calls, with whatever arguments, at whatever
time and in whatever state, the manager and the token are as before. So are the messages that
governance has consumed and the manager that it governs. -/
theorem failed_call_unchanged :
    (∀ (now : Timestamp) (b after : Book) (action : Action) (failure : Failure),
      perform now b action = (.error failure, after) → after = b) ∧
    ∀ (now : Timestamp) (post : SignedPost) (s after : Governed) (e : GovernanceError),
      Governance.execute now post s = .error e after → after = s := by
  refine ⟨fun now b after action failure h => ?_, fun now post s after e h => ?_⟩
  · have htransition := perform_transition now b action
    rw [h] at htransition
    exact htransition.eq_of_error
  · exact Governance.execute_atomic now post s e after h

namespace Sample

/-- A governance contract that does not own the manager on the first chain. -/
def bystander : Governance := .new (address 40) ⟨1⟩

/-- The contract is asked to pause the manager. -/
def pauseRequest : GovernanceMessage where
  moduleTag := GovernanceMessage.generalModule
  action := GovernanceMessage.contractCall
  chain := ⟨1⟩
  governanceContract := address 40
  governedContract := address 11
  callData := [2, 1]

def pausePost : SignedPost where
  emitterChain := ⟨1⟩
  emitter := Governance.standardEmitter
  sequence := 0
  payload := ((GovernanceMessage.wire.write pauseRequest).toOption).get (by decide)

/-- An account without tokens cannot send any, after the limits were asked; and a request that the
manager refuses may be delivered again. -/
theorem refusals_unchanged :
    (perform 1 (home.run (homeEvents.take 2))
      (.transfer (address 21) ⟨123456789, ⟨2⟩, address 22, false, []⟩)).2 =
        home.run (homeEvents.take 2) ∧
    ∃ after, Governance.execute 1 pausePost ⟨bystander, home.manager⟩ =
        .error (.dispatch .invalidOwner) after ∧ after = ⟨bystander, home.manager⟩ :=
  ⟨failed_call_unchanged.1 1 _ _ _ (.call (.token (.insufficientFunds 0 123456700)))
      (Prod.ext (by decide +kernel) rfl),
    _, rfl, failed_call_unchanged.2 1 pausePost ⟨bystander, home.manager⟩ _
      (.dispatch .invalidOwner) rfl⟩

end Sample

/-! ## §2 What the calls rely on -/

namespace Gate

variable {gate left : Gate} {amount : TrimmedAmount} {mayQueue : Bool} {e : CallError}

/-- Helper: acting on the answer of a limit fails before anything changes, or after the amount
was spent. -/
private theorem settle_error {answer : Except AmountError (Verdict × RateLimit)}
    (h : settle amount now mayQueue answer gate = .error e left) :
    left = gate ∨ ∃ time spent limit failure, answer = .ok (.consumed time, spent) ∧
      gate.backflow = some limit ∧ limit.refill amount now = .error failure ∧
      e = .amount failure ∧ left = { gate with consumed := spent } := by
  rcases answer with failure | ⟨time | time, limit⟩
  · cases h
    exact .inl rfl
  · simp only [settle, giveBack, run_bind, run_modify, run_get] at h
    cases hback : gate.backflow with
    | none => simp [hback, run_pure] at h
    | some opposite =>
      simp only [hback] at h
      cases hrefill : opposite.refill amount now with
      | ok raised => simp [hrefill, run_modify, run_pure] at h
      | error failure =>
        simp only [hrefill, run_throw, EStateM.Result.error.injEq] at h
        obtain ⟨rfl, rfl⟩ := h
        exact .inr ⟨time, limit, opposite, failure, rfl, rfl, hrefill, rfl, rfl⟩
  · simp only [settle] at h
    split at h
    next => cases h
    next =>
      cases h
      exact .inl rfl

/-- **A step through a gate** is not undone when it fails: the amount stays spent if the opposite
limit cannot take it back. This is why a call never moves a transfer through a gate in place. -/
theorem advance_error (h : advance amount now mayQueue gate = .error e left) :
    left = gate ∨ ∃ time spent limit failure, gate.Asks amount now (.consumed time, spent) ∧
      gate.backflow = some limit ∧ limit.refill amount now = .error failure ∧
      e = .amount failure ∧ left = { gate with consumed := spent } := by
  obtain ⟨status, consumed, backflow⟩ := gate
  simp only [advance, run_bind, run_get] at h
  cases status with
  | notApproved =>
    cases h
    exact .inl rfl
  | released => cases h
  | queued time =>
    by_cases hnow : now < time
    · simp [hnow, run_pure] at h
    · simp only [hnow, if_false] at h
      rcases settle_error h with hleft | ⟨_, _, _, _, hask, hrest⟩
      · exact .inl hleft
      · exact .inr ⟨_, _, _, _, .inr ⟨time, rfl, hnow, hask⟩, hrest⟩
  | initiated =>
    rcases settle_error h with hleft | ⟨_, _, _, _, hask, hrest⟩
    · exact .inl hleft
    · exact .inr ⟨_, _, _, _, .inl ⟨rfl, hask⟩, hrest⟩

-- The opposite limit counts in so many decimals that the amount cannot be expressed in them.
example : ∃ spent, Gate.advance ⟨1, 0⟩ 0 true
      ⟨.initiated, .full ⟨1, 0⟩ 0 1, some (.full ⟨0, 20⟩ 0 1)⟩ =
      .error (.amount .exponentOverflow) ⟨.initiated, spent, some (.full ⟨0, 20⟩ 0 1)⟩ ∧
    spent ≠ .full ⟨1, 0⟩ 0 1 :=
  ⟨_, rfl, by decide⟩

end Gate

/-! ## §3 Runs -/

/-- Whether a step did what it was asked for. -/
def Step.succeeded (s : Step) : Bool :=
  s.outcome.toBool

theorem Book.after_of_failed {b : Book} {event : Event} (h : (b.step event).succeeded = false) :
    (b.step event).after = b := by
  have htransition := b.step_transition event
  cases hresult : (b.step event).outcome with
  | ok answer =>
    rw [Step.succeeded, hresult] at h
    cases h
  | error failure =>
    rw [hresult] at htransition
    exact htransition.eq_of_error

/-- **Failed calls do not count**: a run leads to the same book without them. -/
theorem Book.run_succeeded (b : Book) (events : List Event) :
    b.run (((b.trace events).filter Step.succeeded).map Step.event) = b.run events := by
  induction events generalizing b with
  | nil => rfl
  | cons event rest ih =>
    rw [trace]
    cases h : (b.step event).succeeded with
    | true =>
      rw [List.filter_cons_of_pos h, List.map_cons, step_event]
      exact ih (b.step event).after
    | false =>
      rw [List.filter_cons_of_neg (by simp [h]), run, after_of_failed h]
      exact ih b

end CrossChain
