import CrossChain.Amount
import CrossChain.Manager.Error
import CrossChain.Operation
import CrossChain.Word

/-!
# Rate limits

A rate limit lets at most a given amount pass at once. What has passed is given back evenly
over time, so that an empty limit is full again after its duration. A transfer that does not
fit is delayed, not refused.

The remaining capacity is stored as it was at the last change and brought forward when it is
asked for:

  `capacity now = min limit (stored + limit * (now - updatedAt) / duration)`

A clock that went backwards gives nothing back.
-/

namespace CrossChain

/-- A limit on the amount that passes over time. -/
structure RateLimit where
  /-- The greatest capacity. -/
  limit : TrimmedAmount
  /-- The capacity at the last change. -/
  stored : TrimmedAmount
  /-- When the capacity last changed. -/
  updatedAt : Timestamp
  /-- The seconds it takes to fill an empty limit; also how long a transfer is delayed. -/
  duration : Timestamp
deriving DecidableEq, Inhabited

/-- What a rate limit says to a transfer. -/
inductive Verdict where
  /-- The transfer passed at the given time. -/
  | consumed (time : Timestamp)
  /-- The transfer has to wait until the given time. -/
  | delayed (time : Timestamp)
deriving DecidableEq, Inhabited

namespace RateLimit

/-- A day. -/
def standardDuration : Timestamp := 86400

/-- A full limit. -/
def full (limit : TrimmedAmount) (now duration : Timestamp) : RateLimit :=
  ⟨limit, limit, now, duration⟩

/-- The seconds since the last change, none if the clock went backwards. -/
def elapsed (r : RateLimit) (now : Timestamp) : Nat :=
  (Timestamp.subSat now r.updatedAt).toInt.toNat

/-- The capacity at a time, before it is cut off at the limit. A product too large for 128
bits means that the limit has long been full. -/
def refilled (r : RateLimit) (now : Timestamp) : Nat :=
  if 0 < r.duration.toInt then
    -- Multiplying before dividing loses less than one unit.
    match Word.mulWide? (r.elapsed now) r.limit.amount.toNat with
    | some product =>
      Word.addWideSat r.stored.amount.toNat (product / r.duration.toInt.toNat)
    | none => r.limit.amount.toNat
  else r.limit.amount.toNat

/-- The capacity at a time. -/
def capacityAt (r : RateLimit) (now : Timestamp) : TrimmedAmount :=
  ⟨UInt64.ofNat (min (r.refilled now) r.limit.amount.toNat), r.stored.decimals⟩

/-- The limit with a new capacity. -/
def withCapacity (r : RateLimit) (capacity : TrimmedAmount) (now : Timestamp) : RateLimit :=
  { r with stored := capacity, updatedAt := now }

/-- Until when a transfer is delayed. -/
def delayFrom (r : RateLimit) (now : Timestamp) : Timestamp :=
  Timestamp.addSat now r.duration

/-- Lets an amount pass if it fits the capacity. -/
def consume (r : RateLimit) (amount : TrimmedAmount) (now : Timestamp) :
    Except AmountError (Verdict × RateLimit) := do
  match ← (r.capacityAt now).sub? amount with
  | some remaining => return (.consumed now, r.withCapacity remaining now)
  -- A transfer that does not fit leaves the stored capacity and its time alone.
  | none => return (.delayed (r.delayFrom now), r)

/-- Lets an amount that has waited pass if it fits the capacity or the limit is full, so that
an amount above the limit is not stuck for ever. -/
def consumeQueued (r : RateLimit) (amount : TrimmedAmount) (now : Timestamp) :
    Except AmountError (Verdict × RateLimit) := do
  let capacity := r.capacityAt now
  -- The amount is rescaled first: one that cannot be is an error even at a full limit.
  let fits := (← capacity.sub? amount).isSome
  if !fits && capacity.amount == r.limit.amount then
    return (.consumed now, r.withCapacity ⟨0, capacity.decimals⟩ now)
  else r.consume amount now

/-- Gives an amount back, up to the limit. -/
def refill (r : RateLimit) (amount : TrimmedAmount) (now : Timestamp) :
    Except AmountError RateLimit := do
  let capacity := r.capacityAt now
  let amount ← amount.changeDecimals capacity.decimals
  let raised := min (Word.addSat capacity.amount amount.amount) r.limit.amount
  return r.withCapacity ⟨raised, capacity.decimals⟩ now

/-- Changes the limit in place, cutting the capacity off at the new one. -/
def relimit (limit : TrimmedAmount) (now : Timestamp) : EStateM AmountError RateLimit Unit := do
  -- What was given back up to now counts at the old limit.
  let capacity ← require (((← get).capacityAt now).changeDecimals limit.decimals)
  modify ({ · with limit })
  modify (·.withCapacity ⟨min capacity.amount limit.amount, limit.decimals⟩ now)

/-- A limit after it was changed. -/
def setLimit (r : RateLimit) (limit : TrimmedAmount) (now : Timestamp) :
    Except AmountError RateLimit :=
  applied (relimit limit now) r

/-- Changes how fast the limit fills. -/
def setDuration (r : RateLimit) (duration now : Timestamp) : Except CallError RateLimit :=
  if duration ≤ 0 then .error .invalidRateLimitDuration
  else .ok { r.withCapacity (r.capacityAt now) now with duration }

end RateLimit

end CrossChain
