import CrossChain.Proofs.Basic
import CrossChain.RateLimit

/-!
# The capacity of a rate limit in numbers

A limit is written with words that saturate, checked products and a fallback. None of this shows:
the capacity is what the formula says in exact integers, for every time and every stored capacity.
Nor does asking a limit spoil it: what is stored keeps its precision and stays within the limit.

## Main statements

* `RateLimit.toNat_capacityAt`: the capacity as a formula in integers.
* `RateLimit.consume_eq`, `RateLimit.consumeQueued_eq`, `RateLimit.refill_eq`: what a limit answers,
  as a function of the amount in its own decimals; `RateLimit.relimit_eq`: how it is changed.
* `RateLimit.Regular`: what every operation on a limit keeps.
* `RateLimit.terms_consume`, `RateLimit.terms_consumeQueued`, `RateLimit.terms_refill`: no transfer
  resets a limit.
-/

namespace CrossChain

namespace Word

theorem toNat_addSat (a b : UInt64) :
    (addSat a b).toNat = min (a.toNat + b.toNat) (UInt64.size - 1) := by
  have hpos : 0 < UInt64.size := by decide
  exact UInt64.toNat_ofNat_of_lt' (by omega)

theorem toNat_min (a b : UInt64) : (min a b).toNat = min a.toNat b.toNat := by
  show (if a ≤ b then a else b).toNat = _
  simp only [UInt64.le_iff_toNat_le]
  split <;> omega

/-- Taking off an amount leaves no more than there was. -/
theorem sub_le_self {a b : UInt64} (h : b ≤ a) : a - b ≤ a := by
  rw [UInt64.le_iff_toNat_le, UInt64.toNat_sub_of_le _ _ h]
  omega

end Word

namespace Timestamp

theorem toInt_clamp (z : ℤ) : (clamp z).toInt = max (-2 ^ 63) (min z (2 ^ 63 - 1)) := by
  have hmin : Int64.minValue.toInt = -2 ^ 63 := by decide
  have hmax : Int64.maxValue.toInt = 2 ^ 63 - 1 := by decide
  rw [clamp, hmin, hmax]
  apply Int64.toInt_ofInt_of_le
  · exact le_max_left _ _
  · omega

end Timestamp

namespace RateLimit

variable {r r' : RateLimit} {amount : TrimmedAmount} {now : Timestamp} {verdict : Verdict}

/-! ## §1 The capacity -/

/-- What a limit has given back since its last change. -/
def regained (r : RateLimit) (now : Timestamp) : ℤ :=
  r.limit.amount.toNat * max 0 (now.toInt - r.updatedAt.toInt) / r.duration.toInt

theorem elapsed_eq (r : RateLimit) (now : Timestamp) :
    (r.elapsed now : ℤ) = min (max 0 (now.toInt - r.updatedAt.toInt)) (2 ^ 63 - 1) := by
  rw [elapsed, Timestamp.subSat, Timestamp.toInt_clamp]
  omega

/-- The product that the capacity is computed from fits 128 bits. -/
theorem product_fits (r : RateLimit) (now : Timestamp) :
    r.elapsed now * r.limit.amount.toNat < Word.wideSize := by
  have helapsed : r.elapsed now < UInt64.size := by
    have h := r.elapsed_eq now
    simp only [UInt64.size]
    omega
  exact Nat.mul_lt_mul'' helapsed r.limit.amount.toNat_lt

/-- Helper: the capacity in terms of the time as it is computed. -/
private theorem toNat_capacityAt_elapsed (hduration : 0 < r.duration.toInt) (now : Timestamp) :
    ((r.capacityAt now).amount.toNat : ℤ) =
      min (r.stored.amount.toNat + r.limit.amount.toNat * r.elapsed now / r.duration.toInt)
        r.limit.amount.toNat := by
  have hlimit : r.limit.amount.toNat < UInt64.size := r.limit.amount.toNat_lt
  have hsize : UInt64.size ≤ Word.wideSize := Nat.le_mul_self _
  have hsmall : min (r.refilled now) r.limit.amount.toNat < UInt64.size := by omega
  have hword : (r.capacityAt now).amount.toNat = min (r.refilled now) r.limit.amount.toNat :=
    UInt64.toNat_ofNat_of_lt' hsmall
  have hproduct : Word.mulWide? (r.elapsed now) r.limit.amount.toNat =
      some (r.elapsed now * r.limit.amount.toNat) := if_pos (r.product_fits now)
  have hnat : (r.duration.toInt.toNat : ℤ) = r.duration.toInt := Int.toNat_of_nonneg hduration.le
  -- The sum stops at 128 bits, which is beyond the limit.
  have hsum : min (r.refilled now) r.limit.amount.toNat =
      min (r.stored.amount.toNat + r.elapsed now * r.limit.amount.toNat / r.duration.toInt.toNat)
        r.limit.amount.toNat := by
    simp only [refilled, hduration, if_true, hproduct, Word.addWideSat]
    omega
  have hquotient : ((r.elapsed now * r.limit.amount.toNat / r.duration.toInt.toNat : ℕ) : ℤ) =
      r.limit.amount.toNat * r.elapsed now / r.duration.toInt := by
    rw [Int.natCast_div, hnat, Nat.cast_mul, mul_comm]
  rw [hword, hsum]
  omega

/-- **The capacity** is what the formula says in exact integers. A difference of times that does
not fit a word is longer than any duration, so that the limit is full either way. -/
theorem toNat_capacityAt (hduration : 0 < r.duration.toInt) (now : Timestamp) :
    ((r.capacityAt now).amount.toNat : ℤ) =
      min (r.stored.amount.toNat + r.regained now) r.limit.amount.toNat := by
  rw [toNat_capacityAt_elapsed hduration, elapsed_eq, regained]
  rcases le_or_gt (max 0 (now.toInt - r.updatedAt.toInt)) (2 ^ 63 - 1) with hfits | hlong
  · rw [min_eq_left hfits]
  · have hfull (time : ℤ) (htime : r.duration.toInt ≤ time) :
        (r.limit.amount.toNat : ℤ) ≤ r.limit.amount.toNat * time / r.duration.toInt := by
      rw [Int.le_ediv_iff_mul_le hduration]
      exact mul_le_mul_of_nonneg_left htime (Int.natCast_nonneg _)
    have hword : r.duration.toInt ≤ 2 ^ 63 - 1 := by
      have h := r.duration.toInt_lt
      omega
    have hleft := hfull _ hword
    have hright := hfull _ (hword.trans hlong.le)
    rw [min_eq_right hlong.le]
    omega

theorem capacityAt_le_limit (r : RateLimit) (now : Timestamp) :
    (r.capacityAt now).amount ≤ r.limit.amount := by
  rw [UInt64.le_iff_toNat_le]
  have hlimit : r.limit.amount.toNat < UInt64.size := r.limit.amount.toNat_lt
  have hword : (r.capacityAt now).amount.toNat = min (r.refilled now) r.limit.amount.toNat :=
    UInt64.toNat_ofNat_of_lt' (by omega)
  omega

@[simp]
theorem capacityAt_decimals (r : RateLimit) (now : Timestamp) :
    (r.capacityAt now).decimals = r.stored.decimals := rfl

/-- At the time of a change the capacity is the one that was stored. -/
theorem capacityAt_withCapacity {left : UInt64} (hduration : 0 < r.duration.toInt)
    (hle : left ≤ r.limit.amount) (decimals : UInt8) (now : Timestamp) :
    (r.withCapacity ⟨left, decimals⟩ now).capacityAt now = ⟨left, decimals⟩ := by
  have hamount : ((r.withCapacity ⟨left, decimals⟩ now).capacityAt now).amount = left := by
    have h := toNat_capacityAt (r := r.withCapacity ⟨left, decimals⟩ now) hduration now
    have hnone : (r.withCapacity ⟨left, decimals⟩ now).regained now = 0 := by
      simp [regained, withCapacity]
    rw [hnone] at h
    rw [UInt64.le_iff_toNat_le] at hle
    rw [← UInt64.toNat_inj]
    simp only [withCapacity] at h ⊢
    omega
  show TrimmedAmount.mk ((r.withCapacity ⟨left, decimals⟩ now).capacityAt now).amount decimals = _
  rw [hamount]

/-! ## §2 Answers -/

theorem sub?_eq (a b : TrimmedAmount) : a.sub? b =
    (fun c => if c.amount ≤ a.amount then some ⟨a.amount - c.amount, a.decimals⟩ else none) <$>
      b.changeDecimals a.decimals := by
  have hword (x y : UInt64) : Word.sub? x y = if y ≤ x then some (x - y) else none := by
    rw [Word.sub?]
    simp only [← UInt64.le_iff_toNat_le]
    split
    next h =>
      have hle := UInt64.le_iff_toNat_le.mp h
      rw [← UInt64.toNat_sub_of_le _ _ h, UInt64.ofNat_toNat]
    next => rfl
  rw [TrimmedAmount.sub?]
  cases b.changeDecimals a.decimals with
  | error e => rfl
  | ok c =>
    show Except.ok ((Word.sub? a.amount c.amount).map fun x => TrimmedAmount.mk x a.decimals) =
      Except.ok (if c.amount ≤ a.amount then some ⟨a.amount - c.amount, a.decimals⟩ else none)
    rw [hword]
    split <;> rfl

/-- **A new transfer** passes if its amount fits the capacity, and is delayed otherwise. -/
theorem consume_eq (r : RateLimit) (amount : TrimmedAmount) (now : Timestamp) :
    r.consume amount now =
      (fun rescaled =>
        if rescaled.amount ≤ (r.capacityAt now).amount then
          (.consumed now, r.withCapacity
            ⟨(r.capacityAt now).amount - rescaled.amount, r.stored.decimals⟩ now)
        else (.delayed (r.delayFrom now), r)) <$> amount.changeDecimals r.stored.decimals := by
  rw [consume, sub?_eq, capacityAt_decimals]
  cases amount.changeDecimals r.stored.decimals with
  | error e => rfl
  | ok rescaled =>
    simp only [Functor.map, Except.map, bind, Except.bind]
    split <;> simp_all [pure, Except.pure]

/-- **A transfer that waited** passes also if the limit is full, and then drains it. -/
theorem consumeQueued_eq (r : RateLimit) (amount : TrimmedAmount) (now : Timestamp) :
    r.consumeQueued amount now =
      (fun rescaled =>
        if rescaled.amount ≤ (r.capacityAt now).amount then
          (.consumed now, r.withCapacity
            ⟨(r.capacityAt now).amount - rescaled.amount, r.stored.decimals⟩ now)
        else if (r.capacityAt now).amount = r.limit.amount then
          (.consumed now, r.withCapacity ⟨0, r.stored.decimals⟩ now)
        else (.delayed (r.delayFrom now), r)) <$> amount.changeDecimals r.stored.decimals := by
  rw [consumeQueued, sub?_eq, consume_eq, capacityAt_decimals]
  cases amount.changeDecimals r.stored.decimals with
  | error e => rfl
  | ok rescaled =>
    simp only [Functor.map, Except.map, bind, Except.bind]
    split <;> simp_all [pure, Except.pure]
    split <;> rfl

/-- **Giving an amount back** raises the capacity, up to the limit. -/
theorem refill_eq (r : RateLimit) (amount : TrimmedAmount) (now : Timestamp) :
    r.refill amount now =
      (fun rescaled => r.withCapacity
        ⟨UInt64.ofNat (min ((r.capacityAt now).amount.toNat + rescaled.amount.toNat)
          r.limit.amount.toNat), r.stored.decimals⟩ now) <$>
        amount.changeDecimals r.stored.decimals := by
  have hlimit : r.limit.amount.toNat < UInt64.size := r.limit.amount.toNat_lt
  -- The sum stops at the greatest word, which no limit exceeds.
  have hraised (x : UInt64) : min (Word.addSat (r.capacityAt now).amount x) r.limit.amount =
      UInt64.ofNat (min ((r.capacityAt now).amount.toNat + x.toNat) r.limit.amount.toNat) := by
    rw [← UInt64.toNat_inj, Word.toNat_min, Word.toNat_addSat,
      UInt64.toNat_ofNat_of_lt' (by omega)]
    omega
  rw [refill, capacityAt_decimals]
  cases amount.changeDecimals r.stored.decimals with
  | error e => rfl
  | ok rescaled =>
    show Except.ok (r.withCapacity
      ⟨min (Word.addSat (r.capacityAt now).amount rescaled.amount) r.limit.amount, _⟩ now) = _
    rw [hraised]
    rfl

/-- **Changing the limit** leaves it alone if the capacity cannot be expressed in the new decimals,
so it may be done in place or on a copy. -/
theorem relimit_eq (r : RateLimit) (limit : TrimmedAmount) (now : Timestamp) :
    relimit limit now r =
      match (r.capacityAt now).changeDecimals limit.decimals with
      | .error e => .error e r
      | .ok capacity => .ok () <|
        { r with limit }.withCapacity ⟨min capacity.amount limit.amount, limit.decimals⟩ now := by
  simp only [relimit, run_bind, run_get]
  cases (r.capacityAt now).changeDecimals limit.decimals <;> rfl

theorem setLimit_eq (r : RateLimit) (limit : TrimmedAmount) (now : Timestamp) :
    r.setLimit limit now =
      (fun capacity : TrimmedAmount => { r with limit }.withCapacity
        ⟨min capacity.amount limit.amount, limit.decimals⟩ now) <$>
        (r.capacityAt now).changeDecimals limit.decimals := by
  rw [setLimit, applied, relimit_eq]
  cases (r.capacityAt now).changeDecimals limit.decimals <;> rfl

/-- In the decimals of the capacity nothing is rounded. -/
theorem setLimit_of_decimals {limit : TrimmedAmount} (h : r.stored.decimals = limit.decimals)
    (now : Timestamp) :
    r.setLimit limit now = .ok ({ r with limit }.withCapacity
      ⟨min (r.capacityAt now).amount limit.amount, limit.decimals⟩ now) := by
  have hsame : limit.decimals = (r.capacityAt now).decimals := h.symm
  rw [setLimit_eq, TrimmedAmount.changeDecimals, if_pos hsame]
  rfl

/-! ## §3 Limits in one precision -/

/-- A limit of a precision and a duration: its amounts have this precision, and what is stored is
within the limit. -/
structure Regular (r : RateLimit) (precision : ℕ) (duration : Timestamp) : Prop where
  limit : r.limit.decimals.toNat = precision
  stored : r.stored.decimals.toNat = precision
  le : r.stored.amount ≤ r.limit.amount
  duration : r.duration = duration

theorem regular_full (limit : TrimmedAmount) (now duration : Timestamp) :
    (full limit now duration).Regular limit.decimals.toNat duration :=
  ⟨rfl, rfl, UInt64.le_refl _, rfl⟩

namespace Regular

variable {precision : ℕ} {duration : Timestamp}

/-- A limit stays regular when a capacity within it is stored. -/
theorem withCapacity {left : UInt64} (h : r.Regular precision duration)
    (hle : left ≤ r.limit.amount) :
    (r.withCapacity ⟨left, r.stored.decimals⟩ now).Regular precision duration :=
  ⟨h.limit, h.stored, hle, h.duration⟩

theorem consume (h : r.Regular precision duration)
    (hconsume : r.consume amount now = .ok (verdict, r')) : r'.Regular precision duration := by
  rw [consume_eq, map_eq_ok] at hconsume
  obtain ⟨rescaled, _, hconsume⟩ := hconsume
  split at hconsume
  next hfits =>
    cases hconsume
    apply h.withCapacity
    exact UInt64.le_trans (Word.sub_le_self hfits) (r.capacityAt_le_limit now)
  next =>
    cases hconsume
    exact h

theorem consumeQueued (h : r.Regular precision duration)
    (hconsume : r.consumeQueued amount now = .ok (verdict, r')) :
    r'.Regular precision duration := by
  rw [consumeQueued_eq, map_eq_ok] at hconsume
  obtain ⟨rescaled, _, hconsume⟩ := hconsume
  split at hconsume
  next hfits =>
    cases hconsume
    apply h.withCapacity
    exact UInt64.le_trans (Word.sub_le_self hfits) (r.capacityAt_le_limit now)
  next =>
    split at hconsume
    next =>
      cases hconsume
      exact h.withCapacity UInt64.zero_le
    next =>
      cases hconsume
      exact h

theorem refill (h : r.Regular precision duration) (hrefill : r.refill amount now = .ok r') :
    r'.Regular precision duration := by
  have hlimit : r.limit.amount.toNat < UInt64.size := r.limit.amount.toNat_lt
  rw [refill_eq, map_eq_ok] at hrefill
  obtain ⟨rescaled, _, rfl⟩ := hrefill
  apply h.withCapacity
  rw [UInt64.le_iff_toNat_le, UInt64.toNat_ofNat_of_lt' (by omega)]
  exact Nat.min_le_right _ _

/-- **A change of the limit** makes it regular in the precision of the new limit, whatever the
capacity was before. -/
theorem setLimit {limit : TrimmedAmount} (h : r.Regular precision duration)
    (hset : r.setLimit limit now = .ok r') : r'.Regular limit.decimals.toNat duration := by
  rw [setLimit_eq, map_eq_ok] at hset
  obtain ⟨capacity, _, rfl⟩ := hset
  refine ⟨rfl, rfl, ?_, h.duration⟩
  show min capacity.amount limit.amount ≤ limit.amount
  rw [UInt64.le_iff_toNat_le, Word.toNat_min]
  exact Nat.min_le_right _ _

end Regular

/-! ## §4 What passing changes -/

/-- How much may pass at once, and how long an empty limit takes to fill. -/
def terms (r : RateLimit) : TrimmedAmount × Timestamp := (r.limit, r.duration)

/-- An amount passes: it is taken from one limit and given back to the opposite one, once each. -/
structure Exchange (amount : TrimmedAmount) (now : Timestamp)
    (spent spent' opposite opposite' : RateLimit) : Prop where
  taken : ∃ time, spent.consume amount now = .ok (.consumed time, spent') ∨
    spent.consumeQueued amount now = .ok (.consumed time, spent')
  given : opposite.refill amount now = .ok opposite'

/-- The two limits of a transfer that was moved on: an amount that passes is exchanged, and
otherwise nothing is. -/
structure Charged (amount : TrimmedAmount) (now : Timestamp) (passes : Prop)
    (spent spent' opposite opposite' : RateLimit) : Prop where
  passed : passes → Exchange amount now spent spent' opposite opposite'
  waits : ¬ passes → spent' = spent ∧ opposite' = opposite

theorem terms_consume (h : r.consume amount now = .ok (verdict, r')) : r'.terms = r.terms := by
  rw [consume_eq, map_eq_ok] at h
  obtain ⟨rescaled, _, h⟩ := h
  split at h <;> cases h <;> rfl

theorem terms_consumeQueued (h : r.consumeQueued amount now = .ok (verdict, r')) :
    r'.terms = r.terms := by
  rw [consumeQueued_eq, map_eq_ok] at h
  obtain ⟨rescaled, _, h⟩ := h
  split at h
  next =>
    cases h
    rfl
  next => split at h <;> cases h <;> rfl

theorem terms_refill (h : r.refill amount now = .ok r') : r'.terms = r.terms := by
  rw [refill_eq, map_eq_ok] at h
  obtain ⟨rescaled, _, rfl⟩ := h
  rfl

/-- **Whatever passes**, a limit is set to what it was set to. -/
theorem Charged.terms {passes : Prop} {spent spent' opposite opposite' : RateLimit}
    (h : Charged amount now passes spent spent' opposite opposite') :
    spent'.terms = spent.terms ∧ opposite'.terms = opposite.terms := by
  by_cases hpasses : passes
  · obtain ⟨⟨time, htaken⟩, hgiven⟩ := h.passed hpasses
    exact ⟨htaken.elim terms_consume terms_consumeQueued, terms_refill hgiven⟩
  · obtain ⟨hspent, hopposite⟩ := h.waits hpasses
    rw [hspent, hopposite]
    exact ⟨rfl, rfl⟩

/-- Setting a limit does not change how long it takes to fill. -/
theorem duration_setLimit {limit : TrimmedAmount} (h : r.setLimit limit now = .ok r') :
    r'.duration = r.duration := by
  rw [setLimit_eq, map_eq_ok] at h
  obtain ⟨capacity, _, rfl⟩ := h
  rfl

end RateLimit

end CrossChain
