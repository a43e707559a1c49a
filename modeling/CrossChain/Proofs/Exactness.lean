import CrossChain.Proofs.Bucket
import CrossChain.Proofs.Queue

/-!
# The capacity of a limit that was changed

A limit is asked and changed by calls at any times, some of which fail. Whatever they were, what is
stored stays within the limit and in its decimals, and the capacity at any time, however far from
the last change, is the formula in exact integers. The words that it is computed with stop at the
ends of their ranges, and nothing of that is ever seen: the product and the sum fit, and a span of
time that does not is longer than any duration.

## Main statements

* `RateLimit.Balanced`, `RateLimit.Balanced.operate`: what an operation keeps.
* `RateLimit.refilled_eq`: no step of the computation stops or falls back.
* `RateLimit.capacity_exact`: any number of operations on a limit that starts full.
-/

namespace CrossChain

namespace RateLimit

/-! ## §1 Operations -/

/-- Whatever a limit is asked to do. -/
inductive Operation where
  /-- To let an amount pass, or to take it back. -/
  | ask (request : Request)
  | setLimit (limit : TrimmedAmount)
  | setDuration (duration : Timestamp)
deriving DecidableEq

/-- An operation and when it is carried out. -/
structure Occasion where
  now : Timestamp
  operation : Operation
deriving DecidableEq

/-- The limit after an operation; one that fails leaves it as it was. -/
def operate (r : RateLimit) (occasion : Occasion) : RateLimit :=
  match occasion.operation with
  | .ask request => r.after ⟨occasion.now, request⟩
  | .setLimit limit => (r.setLimit limit occasion.now).toOption.getD r
  | .setDuration duration => (r.setDuration duration occasion.now).toOption.getD r

/-- The limit after some operations. -/
def operateAll (r : RateLimit) (occasions : List Occasion) : RateLimit :=
  occasions.foldl operate r

variable {r : RateLimit} {now duration : Timestamp}

/-- Helper: what holds of a limit and of what a call makes of it holds whether or not the call
fails. -/
private theorem getD_toOption {ε : Type} {x : Except ε RateLimit} {P : RateLimit → Prop} (h : P r)
    (hok : ∀ r', x = .ok r' → P r') : P (x.toOption.getD r) := by
  cases x with
  | error e => exact h
  | ok r' => exact hok r' rfl

/-! ## §2 What operations keep -/

/-- A limit that stores a capacity within it, in its decimals, and fills in some time. -/
structure Balanced (r : RateLimit) : Prop where
  decimals : r.stored.decimals = r.limit.decimals
  le : r.stored.amount ≤ r.limit.amount
  duration : 0 < r.duration.toInt

namespace Balanced

theorem of_regular {precision : ℕ} (h : r.Regular precision duration)
    (hduration : 0 < duration.toInt) : r.Balanced where
  decimals := UInt8.toNat_inj.mp (h.stored.trans h.limit.symm)
  le := h.le
  duration := h.duration ▸ hduration

theorem regular (h : r.Balanced) : r.Regular r.limit.decimals.toNat r.duration :=
  ⟨rfl, congrArg UInt8.toNat h.decimals, h.le, rfl⟩

theorem full (limit : TrimmedAmount) (start : Timestamp) (hduration : 0 < duration.toInt) :
    (RateLimit.full limit start duration).Balanced :=
  of_regular (regular_full limit start duration) hduration

/-- A call that lets an amount pass or takes it back. -/
theorem after (h : r.Balanced) (use : Use) : (r.after use).Balanced := by
  rcases after_cases h.duration use with ⟨hsame, _⟩ | ⟨capacity, hle, hdecimals, hstored, _⟩
  · exact hsame.symm ▸ h
  · rw [hstored]
    exact ⟨hdecimals.trans h.decimals, hle, h.duration⟩

theorem setLimit {limit : TrimmedAmount} {r' : RateLimit} (h : r.Balanced)
    (hset : r.setLimit limit now = .ok r') : r'.Balanced :=
  of_regular (h.regular.setLimit hset) h.duration

/-- A change of the duration stores the capacity of the moment, which is within the limit. -/
theorem setDuration {r' : RateLimit} (h : r.Balanced)
    (hset : r.setDuration duration now = .ok r') : r'.Balanced := by
  rw [RateLimit.setDuration, guard_eq_ok, Except.ok.injEq] at hset
  obtain ⟨hpositive, rfl⟩ := hset
  exact ⟨h.decimals, r.capacityAt_le_limit now,
    Int64.lt_iff_toInt_lt.mp (Int64.not_le.mp hpositive)⟩

/-- **An operation** keeps a limit balanced, whether it fails or not. -/
theorem operate (h : r.Balanced) (occasion : Occasion) : (r.operate occasion).Balanced := by
  obtain ⟨now, operation⟩ := occasion
  cases operation with
  | ask request => exact h.after ⟨now, request⟩
  | setLimit limit => exact getD_toOption h fun _ => h.setLimit
  | setDuration duration => exact getD_toOption h fun _ => h.setDuration

/-- **Any number of operations** keeps a limit balanced. -/
theorem operateAll (h : r.Balanced) (occasions : List Occasion) :
    (r.operateAll occasions).Balanced := by
  induction occasions generalizing r with
  | nil => exact h
  | cons occasion rest ih => exact ih (h.operate occasion)

end Balanced

/-! ## §3 The computation -/

/-- **No step stops or falls back**: the product fits, and the sum of what is stored and what was
given back fits too. -/
theorem refilled_eq (hduration : 0 < r.duration.toInt) (now : Timestamp) :
    r.refilled now = r.stored.amount.toNat +
      r.elapsed now * r.limit.amount.toNat / r.duration.toInt.toNat := by
  have hproduct : Word.mulWide? (r.elapsed now) r.limit.amount.toNat =
      some (r.elapsed now * r.limit.amount.toNat) := if_pos (r.product_fits now)
  have helapsed : r.elapsed now ≤ 2 ^ 63 - 1 := by
    have h := r.elapsed_eq now
    omega
  -- Half of the range is left to what is stored.
  have hhalf : r.elapsed now * r.limit.amount.toNat ≤ (2 ^ 63 - 1) * (2 ^ 64 - 1) :=
    Nat.mul_le_mul helapsed (Nat.le_sub_one_of_lt r.limit.amount.toNat_lt)
  have hquotient : r.elapsed now * r.limit.amount.toNat / r.duration.toInt.toNat ≤
      (2 ^ 63 - 1) * (2 ^ 64 - 1) := (Nat.div_le_self _ _).trans hhalf
  have hstored : r.stored.amount.toNat < 2 ^ 64 := r.stored.amount.toNat_lt
  have hsize : Word.wideSize = 2 ^ 128 := by decide
  simp only [refilled, hduration, if_true, hproduct, Word.addWideSat, hsize]
  omega

/-- What has been given back grows with time. -/
theorem regained_mono (hduration : 0 < r.duration.toInt) {now later : Timestamp}
    (hle : now ≤ later) : r.regained now ≤ r.regained later := by
  have htime := Int64.le_iff_toInt_le.mp hle
  apply Int.ediv_le_ediv hduration
  exact mul_le_mul_of_nonneg_left (max_le_max_left 0 (by omega)) (Int.natCast_nonneg _)

/-- **The capacity grows with time.** -/
theorem capacityAt_mono (hduration : 0 < r.duration.toInt) {now later : Timestamp}
    (hle : now ≤ later) : (r.capacityAt now).amount ≤ (r.capacityAt later).amount := by
  have hgrows := regained_mono hduration hle
  have hbefore := toNat_capacityAt hduration now
  have hafter := toNat_capacityAt hduration later
  rw [UInt64.le_iff_toNat_le]
  omega

/-! ## §4 Any operations -/

/-- **The exact formula.** After any operations on a limit that starts full and fills in some time,
at any times and whether they fail or not,

* what is stored is within the limit and in its decimals;
* the capacity at any time is what is stored and what was given back since the last change, evenly
  over the duration and rounded down, up to the limit, all in exact integers;
* nothing that the capacity is computed with stops at the end of its range or falls back;
* the capacity never falls as time goes on, is never above the limit, and is the limit once its
  duration has passed. -/
theorem capacity_exact (limit : TrimmedAmount) (start duration : Timestamp)
    (hduration : 0 < duration) (occasions : List Occasion) :
    let r := (full limit start duration).operateAll occasions
    (r.stored.amount ≤ r.limit.amount ∧ r.stored.decimals = r.limit.decimals ∧
      0 < r.duration.toInt) ∧
    (∀ now, (r.capacityAt now).decimals = r.limit.decimals ∧
      ((r.capacityAt now).amount.toNat : ℤ) =
        min (r.limit.amount.toNat : ℤ) (r.stored.amount.toNat +
          r.limit.amount.toNat * max 0 (now.toInt - r.updatedAt.toInt) / r.duration.toInt)) ∧
    (∀ now, r.refilled now = r.stored.amount.toNat +
      r.elapsed now * r.limit.amount.toNat / r.duration.toInt.toNat) ∧
    (∀ now later, now ≤ later → (r.capacityAt now).amount ≤ (r.capacityAt later).amount) ∧
    (∀ now, (r.capacityAt now).amount ≤ r.limit.amount) ∧
    ∀ now, r.updatedAt.toInt + r.duration.toInt ≤ now.toInt → r.capacityAt now = r.limit := by
  intro r
  have h : r.Balanced :=
    (Balanced.full limit start (Int64.lt_iff_toInt_lt.mp hduration)).operateAll occasions
  refine ⟨⟨h.le, h.decimals, h.duration⟩, fun now => ⟨h.decimals, ?_⟩, refilled_eq h.duration,
    fun now later => capacityAt_mono h.duration, r.capacityAt_le_limit,
    fun now hrested => ?_⟩
  · rw [min_comm]
    exact toNat_capacityAt h.duration now
  · exact congrArg₂ TrimmedAmount.mk (Rested.capacityAt_eq hrested h.duration) h.decimals

end RateLimit

namespace Sample

/-- A limit that starts at the greatest amount is emptied, set to another precision, made to fill
more slowly and given something back, by calls at the ends of time. Two of the calls fail. -/
def adjustments : List RateLimit.Occasion :=
  [⟨-9223372036854775808, .ask (.consume ⟨18446744073709551615, 8⟩)⟩,
   ⟨0, .ask (.consumeQueued ⟨18446744073709551615, 6⟩)⟩,
   ⟨-9223372036854775808, .setLimit ⟨1000, 6⟩⟩,
   ⟨5, .setDuration 0⟩,
   ⟨-9223372036854775808, .setDuration 9223372036854775807⟩,
   ⟨-9223372036854775808, .ask (.refill ⟨12345, 8⟩)⟩]

/-- Of the 1,000 units that it can hold in the end, 123 were given back. Short of half of its
duration later there are 622 of them, and at the end of time, which is further away than a word can
tell, all. -/
theorem adjusted_exact :
    let r := (RateLimit.full ⟨18446744073709551615, 8⟩ 7 100).operateAll adjustments
    r.limit = ⟨1000, 6⟩ ∧ r.stored.amount = 123 ∧ r.stored.decimals = r.limit.decimals ∧
      (r.capacityAt (-4611686018427387905)).amount = 622 ∧
      r.capacityAt 9223372036854775807 = r.limit := by
  intro r
  obtain ⟨⟨_, hdecimals, _⟩, _, _, _, _, hrested⟩ := RateLimit.capacity_exact
    ⟨18446744073709551615, 8⟩ 7 100 (by decide) adjustments
  exact ⟨by decide +kernel, by decide +kernel, hdecimals, by decide +kernel,
    hrested _ (by decide +kernel)⟩

end Sample

end CrossChain
