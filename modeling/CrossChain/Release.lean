import CrossChain.RateLimit

/-!
# Releasing a transfer

A transfer, inbound or outbound, moves from one status to the next and never back. Nothing
runs by itself: whoever makes the next call for the transfer moves it on as far as the time
and the rate limit allow.

The amount that passes is taken from the limit of its own direction and given back to the
limit of the opposite direction.
-/

namespace CrossChain

/-- How far a transfer has come. -/
inductive ReleaseStatus where
  /-- Inbound only: too few transceivers vouch for it. -/
  | notApproved
  /-- It may go, but the rate limit has not been asked. -/
  | initiated
  /-- It has to wait until the given time. Nothing is reserved for it. -/
  | queued (time : Timestamp)
  /-- It has passed. -/
  | released
deriving DecidableEq, Inhabited

/-- What moving a transfer on has achieved. -/
inductive Advance where
  /-- It has just passed. -/
  | released
  /-- It has to wait until the given time. -/
  | queued (time : Timestamp)
  /-- It had passed before. -/
  | alreadyReleased
deriving DecidableEq, Inhabited

/-- A transfer in front of the limits that it touches. -/
structure Gate where
  /-- How far the transfer has come. -/
  status : ReleaseStatus
  /-- The limit that the amount is taken from. -/
  consumed : RateLimit
  /-- The limit of the opposite direction, if there is one. -/
  backflow : Option RateLimit
deriving DecidableEq, Inhabited

namespace Gate

/-- A step of a transfer through its gate; what it did before a failure stays done. -/
abbrev Step := EStateM CallError Gate

/-- Gives the amount that passed back to the opposite direction. -/
def giveBack (amount : TrimmedAmount) (now : Timestamp) : Step Unit := do
  match (← get).backflow with
  | none => return
  | some limit =>
    match limit.refill amount now with
    | .error e => throw (.amount e)
    | .ok raised => modify ({ · with backflow := some raised })

/-- Acts on what the limit said: lets the transfer pass, queues it, or refuses it if it may
not be queued. -/
def settle (amount : TrimmedAmount) (now : Timestamp) (mayQueue : Bool) :
    Except AmountError (Verdict × RateLimit) → Step Advance
  | .error e => throw (.amount e)
  | .ok (.consumed _, spent) => do
    -- The amount is spent even if it cannot be given back on the other side.
    modify ({ · with consumed := spent })
    giveBack amount now
    modify ({ · with status := .released })
    return .released
  | .ok (.delayed time, _) =>
    if mayQueue then do
      modify ({ · with status := .queued time })
      return .queued time
    else throw .transferExceedsRateLimit

/-- Moves a transfer on as far as the time and the limit allow. Without leave to queue, a
new transfer that does not fit is refused; one that is already queued stays so. -/
def advance (amount : TrimmedAmount) (now : Timestamp) (mayQueue : Bool) : Step Advance := do
  let gate ← get
  match gate.status with
  | .notApproved => throw .transferNotApproved
  | .released => return .alreadyReleased
  | .queued time =>
    -- Before its time the limit is not asked.
    if now < time then return .queued time
    else settle amount now true (gate.consumed.consumeQueued amount now)
  | .initiated => settle amount now mayQueue (gate.consumed.consume amount now)

/-- Moves a transfer through its gate, with nothing left of a step that failed. -/
def pass (gate : Gate) (amount : TrimmedAmount) (now : Timestamp) (mayQueue : Bool) :
    Except CallError (Advance × Gate) :=
  match advance amount now mayQueue gate with
  | .ok advance gate => .ok (advance, gate)
  | .error e _ => .error e

end Gate

end CrossChain
