import CrossChain.Proofs.Bucket

/-!
# What a transfer takes from a limit

A transfer that passes a limit takes its amount from the capacity. One that has waited may be above
the limit; it passes when the limit is full, and takes all there is.

## Oversized transfers

A limit that was drained is full no more, so nothing else passes it at the same time. This is all
that bounds what comes out of the queue at one moment, and it rests on the limit being more than
zero: a limit of zero is full as soon as it is drained, and lets every transfer pass that has
waited.

## Clocks that go back

A transfer also sets the time from which the limit gives back. Later capacities fall, as long as
the clock does not go back. Otherwise the time between the two calls is counted twice.

## Main statements

* `RateLimit.LetsPass.leaves`: what is left of the capacity.
* `RateLimit.delayed_of_drained`: what passes a limit that was drained.
* `RateLimit.capacityAt_later_le`: the capacity at a later time.
* `Sample.closed_admits_twice`, `Sample.rewound_refills`: a limit of zero, and a clock that goes
  back.
-/

namespace CrossChain

namespace RateLimit

variable {r r' : RateLimit} {amount rescaled : TrimmedAmount} {now later time : Timestamp}

/-! ## §1 Passing -/

/-- An amount passes a limit, as a new transfer or as one that has waited. -/
def LetsPass (r : RateLimit) (amount : TrimmedAmount) (now : Timestamp) (r' : RateLimit) : Prop :=
  ∃ time, r.consume amount now = .ok (.consumed time, r') ∨
    r.consumeQueued amount now = .ok (.consumed time, r')

/-- **What an amount that passes leaves** of the capacity: what is above it, and nothing if it is
above the capacity. Only a full limit lets such an amount pass. -/
theorem LetsPass.leaves (h : r.LetsPass amount now r') :
    ∃ rescaled left, amount.changeDecimals r.stored.decimals = .ok rescaled ∧
      left.toNat = (r.capacityAt now).amount.toNat - rescaled.amount.toNat ∧
      r' = r.withCapacity ⟨left, r.stored.decimals⟩ now ∧
      (rescaled.amount ≤ (r.capacityAt now).amount ∨
        (r.capacityAt now).amount = r.limit.amount) := by
  obtain ⟨time, hconsume | hconsume⟩ := h
  · rw [consume_eq, map_eq_ok] at hconsume
    obtain ⟨rescaled, hrescaled, hconsume⟩ := hconsume
    split at hconsume <;> cases hconsume
    next hfits =>
      exact ⟨rescaled, _, hrescaled, UInt64.toNat_sub_of_le _ _ hfits, rfl, .inl hfits⟩
  · rw [consumeQueued_eq, map_eq_ok] at hconsume
    obtain ⟨rescaled, hrescaled, hconsume⟩ := hconsume
    split at hconsume
    next hfits =>
      cases hconsume
      exact ⟨rescaled, _, hrescaled, UInt64.toNat_sub_of_le _ _ hfits, rfl, .inl hfits⟩
    next habove =>
      split at hconsume <;> cases hconsume
      next hfull =>
        -- The amount is above the capacity, so the difference stops at zero.
        rw [UInt64.le_iff_toNat_le] at habove
        have hnothing : (0 : UInt64).toNat =
            (r.capacityAt now).amount.toNat - rescaled.amount.toNat := by
          rw [UInt64.toNat_zero]
          omega
        exact ⟨rescaled, 0, hrescaled, hnothing, rfl, .inr hfull⟩

/-- **The capacity at the time itself** falls by the amount, though not below zero. -/
theorem LetsPass.capacityAt (h : r.LetsPass amount now r') (hduration : 0 < r.duration.toInt) :
    ∃ rescaled, amount.changeDecimals r.stored.decimals = .ok rescaled ∧
      (r'.capacityAt now).amount.toNat =
        (r.capacityAt now).amount.toNat - rescaled.amount.toNat ∧
      (rescaled.amount ≤ (r.capacityAt now).amount ∨
        (r.capacityAt now).amount = r.limit.amount) := by
  obtain ⟨rescaled, left, hrescaled, hleft, rfl, hfits⟩ := h.leaves
  refine ⟨rescaled, hrescaled, ?_, hfits⟩
  have hle : left ≤ r.limit.amount := by
    have hcapacity := UInt64.le_iff_toNat_le.mp (r.capacityAt_le_limit now)
    rw [UInt64.le_iff_toNat_le]
    omega
  rw [capacityAt_withCapacity hduration hle]
  exact hleft

/-- An amount that is given back raises the capacity at the time itself, up to the limit. -/
theorem capacityAt_refill (hduration : 0 < r.duration.toInt) (h : r.refill amount now = .ok r') :
    ∃ rescaled, amount.changeDecimals r.stored.decimals = .ok rescaled ∧
      (r'.capacityAt now).amount.toNat =
        min ((r.capacityAt now).amount.toNat + rescaled.amount.toNat) r.limit.amount.toNat := by
  have hlimit : r.limit.amount.toNat < UInt64.size := r.limit.amount.toNat_lt
  rw [refill_eq, map_eq_ok] at h
  obtain ⟨rescaled, hrescaled, rfl⟩ := h
  refine ⟨rescaled, hrescaled, ?_⟩
  have hraised : (UInt64.ofNat (min ((r.capacityAt now).amount.toNat + rescaled.amount.toNat)
      r.limit.amount.toNat)).toNat =
        min ((r.capacityAt now).amount.toNat + rescaled.amount.toNat) r.limit.amount.toNat :=
    UInt64.toNat_ofNat_of_lt' (by omega)
  rw [capacityAt_withCapacity hduration]
  · exact hraised
  · rw [UInt64.le_iff_toNat_le, hraised]
    exact Nat.min_le_right _ _

/-! ## §2 Oversized transfers -/

section Empty

variable (hempty : (r.capacityAt now).amount = 0)
  (hrescaled : amount.changeDecimals r.stored.decimals = .ok rescaled)
  (hnonzero : rescaled.amount ≠ 0)

include hempty hrescaled hnonzero

/-- An empty limit delays every new transfer. -/
theorem consume_of_empty : r.consume amount now = .ok (.delayed (r.delayFrom now), r) := by
  have habove : ¬ rescaled.amount ≤ 0 := by simpa using hnonzero
  rw [consume_eq, hrescaled, map_ok, hempty, if_neg habove]

/-- An empty limit delays every transfer that has waited, unless it is full at the same time. -/
theorem consumeQueued_of_empty :
    r.consumeQueued amount now =
      .ok (if r.limit.amount = 0 then (.consumed now, r.withCapacity ⟨0, r.stored.decimals⟩ now)
        else (.delayed (r.delayFrom now), r)) := by
  have habove : ¬ rescaled.amount ≤ 0 := by simpa using hnonzero
  have hfull : (0 = r.limit.amount) ↔ (r.limit.amount = 0) := eq_comm
  rw [consumeQueued_eq, hrescaled, map_ok, hempty, if_neg habove]
  simp only [hfull]

end Empty

/-- **A limit that was drained** by an amount above its capacity delays whatever it is asked for at
the same time, unless it is a limit of zero: that is still full, and lets every transfer pass that
has waited. The limit stays as it is in either case. -/
theorem delayed_of_drained {further more : TrimmedAmount} (hduration : 0 < r.duration)
    (hrescaled : amount.changeDecimals r.stored.decimals = .ok rescaled)
    (habove : (r.capacityAt now).amount < rescaled.amount)
    (hpassed : r.consumeQueued amount now = .ok (.consumed time, r'))
    (hmore : further.changeDecimals r.stored.decimals = .ok more) (hnonzero : more.amount ≠ 0) :
    r'.consume further now = .ok (.delayed (r.delayFrom now), r') ∧
      r'.consumeQueued further now =
        .ok (if r.limit.amount = 0 then .consumed now else .delayed (r.delayFrom now), r') := by
  have hpositive : 0 < r.duration.toInt := Int64.lt_iff_toInt_lt.mp hduration
  obtain ⟨rescaled', left, hrescaled', hleft, rfl, _⟩ := LetsPass.leaves ⟨time, .inr hpassed⟩
  cases hrescaled.symm.trans hrescaled'
  -- The amount takes all there is.
  obtain rfl : left = 0 := by
    rw [UInt64.lt_iff_toNat_lt] at habove
    rw [← UInt64.toNat_inj, hleft, UInt64.toNat_zero]
    omega
  have hempty : ((r.withCapacity ⟨0, r.stored.decimals⟩ now).capacityAt now).amount = 0 := by
    rw [capacityAt_withCapacity hpositive UInt64.zero_le]
  refine ⟨consume_of_empty hempty hmore hnonzero, ?_⟩
  rw [consumeQueued_of_empty hempty hmore hnonzero]
  show Except.ok (if r.limit.amount = 0 then _ else _) = _
  split <;> rfl

/-! ## §3 Clocks -/

/-- Two periods that are rounded down one by one give at most one unit less than both together. -/
theorem ediv_add_le {a b d : ℤ} (hd : 0 < d) : (a + b) / d ≤ a / d + b / d + 1 := by
  apply Int.le_of_lt_add_one
  rw [Int.ediv_lt_iff_lt_mul hd]
  have ha := Int.lt_ediv_add_one_mul_self a hd
  have hb := Int.lt_ediv_add_one_mul_self b hd
  calc a + b < (a / d + 1) * d + (b / d + 1) * d := add_lt_add ha hb
    _ = (a / d + b / d + 1 + 1) * d := by ring

/-- What a limit gives back in some time, if it is not cut off. -/
def givenBack (r : RateLimit) (seconds : ℤ) : ℤ :=
  r.limit.amount.toNat * seconds / r.duration.toInt

theorem givenBack_nonneg (hduration : 0 < r.duration.toInt) {seconds : ℤ} (h : 0 ≤ seconds) :
    0 ≤ r.givenBack seconds :=
  Int.ediv_nonneg (Int.mul_nonneg (Int.natCast_nonneg _) h) hduration.le

/-- A limit that is set at a time gives back from then on. -/
theorem regained_withCapacity (r : RateLimit) (capacity : TrimmedAmount) (hlater : now ≤ later) :
    (r.withCapacity capacity now).regained later = r.givenBack (later.toInt - now.toInt) := by
  have hle : now.toInt ≤ later.toInt := Int64.le_iff_toInt_le.mp hlater
  show (r.limit.amount.toNat : ℤ) * max 0 (later.toInt - now.toInt) / r.duration.toInt = _
  rw [max_eq_right (by omega), givenBack]

/-- **A clock that goes on**: what is given back up to now and from now on is rounded down twice. -/
theorem regained_add_le (hduration : 0 < r.duration.toInt) (hlater : now ≤ later)
    (hclock : r.updatedAt ≤ now) :
    r.regained now + r.givenBack (later.toInt - now.toInt) ≤ r.regained later := by
  rw [Int64.le_iff_toInt_le] at hlater hclock
  rw [regained, regained, givenBack, max_eq_right (by omega), max_eq_right (by omega)]
  apply (ediv_add_ediv_le hduration).trans (le_of_eq _)
  congr 1
  ring

/-- **A clock that goes back**: the time up to the last change is counted twice. -/
theorem regained_add_le_of_lt (hduration : 0 < r.duration.toInt) (hclock : now < r.updatedAt)
    (later : Timestamp) :
    r.regained now + r.givenBack (later.toInt - now.toInt) ≤
      r.regained later + r.givenBack (r.updatedAt.toInt - now.toInt) + 1 := by
  rw [Int64.lt_iff_toInt_lt] at hclock
  have hnone : r.regained now = 0 := by
    rw [regained, max_eq_left (by omega), mul_zero, Int.zero_ediv]
  have htimes : (later.toInt - now.toInt) ≤
      max 0 (later.toInt - r.updatedAt.toInt) + (r.updatedAt.toInt - now.toInt) := by omega
  rw [hnone, zero_add]
  calc r.givenBack (later.toInt - now.toInt)
      ≤ (r.limit.amount.toNat * max 0 (later.toInt - r.updatedAt.toInt) +
          r.limit.amount.toNat * (r.updatedAt.toInt - now.toInt)) / r.duration.toInt := by
        apply Int.ediv_le_ediv hduration
        rw [← mul_add]
        exact mul_le_mul_of_nonneg_left htimes (Int.natCast_nonneg _)
    _ ≤ r.regained later + r.givenBack (r.updatedAt.toInt - now.toInt) + 1 := ediv_add_le hduration

/-- **The capacity at a later time** is not raised by an amount that passes, as long as the clock
does not go back. If it does, the capacity is raised by at most one unit more than what the limit
gives back from the time of this call to that of the last one. The capacity at the time of the call
itself is never raised. -/
theorem capacityAt_later_le (hduration : 0 < r.duration) (hpassed : r.LetsPass amount now r')
    (hlater : now ≤ later) :
    (r.updatedAt ≤ now → (r'.capacityAt later).amount ≤ (r.capacityAt later).amount) ∧
      (now < r.updatedAt → ((r'.capacityAt later).amount.toNat : ℤ) ≤
        (r.capacityAt later).amount.toNat + r.givenBack (r.updatedAt.toInt - now.toInt) + 1) ∧
      (r'.capacityAt now).amount ≤ (r.capacityAt now).amount := by
  have hpositive : 0 < r.duration.toInt := Int64.lt_iff_toInt_lt.mp hduration
  obtain ⟨rescaled, left, _, hleft, rfl, _⟩ := hpassed.leaves
  have hnow := toNat_capacityAt hpositive now
  have hbefore := toNat_capacityAt hpositive later
  have hafter :=
    toNat_capacityAt (r := r.withCapacity ⟨left, r.stored.decimals⟩ now) hpositive later
  rw [regained_withCapacity r _ hlater] at hafter
  have hstored : (r.withCapacity ⟨left, r.stored.decimals⟩ now).stored.amount = left := rfl
  have hlimit : (r.withCapacity ⟨left, r.stored.decimals⟩ now).limit = r.limit := rfl
  rw [hstored, hlimit] at hafter
  refine ⟨fun hclock => ?_, fun hclock => ?_, ?_⟩
  · have hregained := regained_add_le hpositive hlater hclock
    rw [UInt64.le_iff_toNat_le]
    omega
  · have hregained := regained_add_le_of_lt hpositive hclock later
    have hback : 0 ≤ r.givenBack (r.updatedAt.toInt - now.toInt) := by
      rw [Int64.lt_iff_toInt_lt] at hclock
      exact givenBack_nonneg hpositive (by omega)
    omega
  · have hle : left ≤ (r.capacityAt now).amount := by
      rw [UInt64.le_iff_toNat_le]
      omega
    rw [capacityAt_withCapacity hpositive (UInt64.le_trans hle (r.capacityAt_le_limit now))]
    exact hle

end RateLimit

namespace Sample

/-! ## §4 Two limits to look at -/

/-- A full limit of 1,000 units lets 5,000 pass that have waited, and then not even one. -/
theorem drained_delays :
    (0 : Timestamp) < bucket.duration ∧
      (⟨5000, 8⟩ : TrimmedAmount).changeDecimals bucket.stored.decimals = .ok ⟨5000, 8⟩ ∧
      (bucket.capacityAt 7).amount < 5000 ∧
      bucket.consumeQueued ⟨5000, 8⟩ 7 = .ok (.consumed 7, ⟨⟨1000, 8⟩, ⟨0, 8⟩, 7, 100⟩) ∧
      (⟨1, 7⟩ : TrimmedAmount).changeDecimals bucket.stored.decimals = .ok ⟨10, 8⟩ ∧
      RateLimit.consume ⟨⟨1000, 8⟩, ⟨0, 8⟩, 7, 100⟩ ⟨1, 7⟩ 7 =
        .ok (.delayed 107, ⟨⟨1000, 8⟩, ⟨0, 8⟩, 7, 100⟩) ∧
      RateLimit.consumeQueued ⟨⟨1000, 8⟩, ⟨0, 8⟩, 7, 100⟩ ⟨1, 7⟩ 7 =
        .ok (.delayed 107, ⟨⟨1000, 8⟩, ⟨0, 8⟩, 7, 100⟩) := by
  have hduration : (0 : Timestamp) < bucket.duration := by decide
  have hrescaled : (⟨5000, 8⟩ : TrimmedAmount).changeDecimals bucket.stored.decimals =
      .ok ⟨5000, 8⟩ := by decide +kernel
  have habove : (bucket.capacityAt 7).amount < 5000 := by decide +kernel
  have hpassed : bucket.consumeQueued ⟨5000, 8⟩ 7 =
      .ok (.consumed 7, ⟨⟨1000, 8⟩, ⟨0, 8⟩, 7, 100⟩) := by decide +kernel
  have hmore : (⟨1, 7⟩ : TrimmedAmount).changeDecimals bucket.stored.decimals = .ok ⟨10, 8⟩ := by
    decide +kernel
  exact ⟨hduration, hrescaled, habove, hpassed, hmore,
    RateLimit.delayed_of_drained hduration hrescaled habove hpassed hmore (by decide)⟩

/-- A limit of zero, as an amount below the trimmed precision leaves it. -/
def closed : RateLimit := .full ⟨0, 8⟩ 0 100

/-- **A limit of zero lets everything pass that has waited**: an amount above the capacity passes,
and at the same time another one. -/
theorem closed_admits_twice :
    TrimmedAmount.trim 5 9 9 = .ok ⟨0, 8⟩ ∧ 0 < closed.duration ∧
      (closed.capacityAt 0).amount < 5 ∧
      closed.consumeQueued ⟨5, 8⟩ 0 = .ok (.consumed 0, closed) ∧
      closed.consumeQueued ⟨7, 8⟩ 0 = .ok (.consumed 0, closed) ∧
      ¬ ∃ time, closed.consumeQueued ⟨7, 8⟩ 0 = .ok (.delayed time, closed) := by
  have hpassed : closed.consumeQueued ⟨7, 8⟩ 0 = .ok (.consumed 0, closed) := by decide +kernel
  refine ⟨by decide +kernel, by decide, by decide +kernel, by decide +kernel, hpassed, ?_⟩
  rintro ⟨time, hdelayed⟩
  cases hpassed.symm.trans hdelayed

/-- A limit of 1,000 units that fills in 100 seconds, and has ten left at the time 100. -/
def rewound : RateLimit := ⟨⟨1000, 8⟩, ⟨10, 8⟩, 100, 100⟩

/-- What passes ten seconds after the last change lowers the capacity of later; at the time zero it
may raise it by 1,001 units. -/
theorem rewound_bounded :
    (0 : Timestamp) < rewound.duration ∧
      rewound.LetsPass ⟨60, 8⟩ 110 ⟨⟨1000, 8⟩, ⟨50, 8⟩, 110, 100⟩ ∧ rewound.updatedAt ≤ 110 ∧
      (RateLimit.capacityAt ⟨⟨1000, 8⟩, ⟨50, 8⟩, 110, 100⟩ 150).amount ≤
        (rewound.capacityAt 150).amount ∧
      rewound.LetsPass ⟨1, 8⟩ 0 ⟨⟨1000, 8⟩, ⟨9, 8⟩, 0, 100⟩ ∧ 0 < rewound.updatedAt ∧
      ((RateLimit.capacityAt ⟨⟨1000, 8⟩, ⟨9, 8⟩, 0, 100⟩ 50).amount.toNat : ℤ) ≤
        (rewound.capacityAt 50).amount.toNat + rewound.givenBack (100 - 0) + 1 := by
  have hduration : (0 : Timestamp) < rewound.duration := by decide
  have hlater : rewound.LetsPass ⟨60, 8⟩ 110 ⟨⟨1000, 8⟩, ⟨50, 8⟩, 110, 100⟩ :=
    ⟨110, .inl (by decide +kernel)⟩
  have hearlier : rewound.LetsPass ⟨1, 8⟩ 0 ⟨⟨1000, 8⟩, ⟨9, 8⟩, 0, 100⟩ :=
    ⟨0, .inl (by decide +kernel)⟩
  have hforward : (110 : Timestamp) ≤ 150 := by decide
  have hbackward : (0 : Timestamp) ≤ 50 := by decide
  obtain ⟨hfalls, _, _⟩ := RateLimit.capacityAt_later_le hduration hlater hforward
  obtain ⟨_, hrises, _⟩ := RateLimit.capacityAt_later_le hduration hearlier hbackward
  exact ⟨hduration, hlater, by decide, hfalls (by decide), hearlier, by decide,
    hrises (by decide)⟩

/-- **A clock that goes back refills**: one unit that passes at the time zero raises the capacity at
the time 50 from ten units to 509. -/
theorem rewound_refills :
    0 < rewound.duration ∧ rewound.stored.amount ≤ rewound.limit.amount ∧
      rewound.LetsPass ⟨1, 8⟩ 0 ⟨⟨1000, 8⟩, ⟨9, 8⟩, 0, 100⟩ ∧ (0 : Timestamp) ≤ 50 ∧
      (rewound.capacityAt 50).amount = 10 ∧
      (RateLimit.capacityAt ⟨⟨1000, 8⟩, ⟨9, 8⟩, 0, 100⟩ 50).amount = 509 ∧
      ¬ (RateLimit.capacityAt ⟨⟨1000, 8⟩, ⟨9, 8⟩, 0, 100⟩ 50).amount ≤
        (rewound.capacityAt 50).amount :=
  ⟨by decide, by decide, ⟨0, .inl (by decide +kernel)⟩, by decide, by decide +kernel,
    by decide +kernel, by decide +kernel⟩

end Sample

end CrossChain
