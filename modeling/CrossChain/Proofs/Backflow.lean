import CrossChain.Proofs.Consumption
import CrossChain.Proofs.Gate

/-!
# What a transfer gives back

A transfer that passes is taken from the limit of its own direction and given back to the limit of
the opposite one, so that tokens that go back and forth use up neither. A transfer that fits is
taken in full, and the opposite limit gains no more than that.

One that has waited may be above the limit that it passes. It takes all there is, but gives its
whole amount back, of which the opposite limit takes as much as it has room for. Where there is
more room than was taken, both directions together have more capacity than before.

## Main statements

* `Gate.Passes.of_initiated`, `Gate.Passes.exchanged`: what a new transfer comes to, and what
  becomes of both limits when a transfer passes.
* `Gate.gain_of_advance`: what the one limit loses and the other one gains.
* `Sample.oversized_creates_capacity`: a transfer that gives back more than it takes.
-/

namespace CrossChain

namespace Gate

variable {gate after : Gate} {opposite : RateLimit} {amount : TrimmedAmount} {now : Timestamp}
  {mayQueue : Bool}

/-! ## §1 New transfers -/

/-- **A new transfer** asks whether it fits the capacity. -/
theorem Asks.of_initiated {answer : Verdict × RateLimit} (h : gate.Asks amount now answer)
    (hinitiated : gate.status = .initiated) :
    ∃ rescaled, amount.changeDecimals gate.consumed.stored.decimals = .ok rescaled ∧
      answer =
        if rescaled.amount ≤ (gate.consumed.capacityAt now).amount then
          (.consumed now, gate.consumed.withCapacity
            ⟨(gate.consumed.capacityAt now).amount - rescaled.amount,
              gate.consumed.stored.decimals⟩ now)
        else (.delayed (gate.consumed.delayFrom now), gate.consumed) := by
  rcases h with ⟨_, hconsume⟩ | ⟨_, hqueued, _⟩
  · rw [RateLimit.consume_eq, map_eq_ok] at hconsume
    obtain ⟨rescaled, hrescaled, hanswer⟩ := hconsume
    exact ⟨rescaled, hrescaled, hanswer.symm⟩
  · cases hinitiated.symm.trans hqueued

/-- A transfer that passes at its first attempt fits the capacity and is taken off it. -/
theorem Passes.spent_of_initiated (h : gate.Passes amount now mayQueue .released after)
    (hinitiated : gate.status = .initiated) :
    ∃ rescaled, amount.changeDecimals gate.consumed.stored.decimals = .ok rescaled ∧
      rescaled.amount ≤ (gate.consumed.capacityAt now).amount ∧
      after.consumed = gate.consumed.withCapacity
        ⟨(gate.consumed.capacityAt now).amount - rescaled.amount, gate.consumed.stored.decimals⟩
        now := by
  cases h with
  | passed hask _ =>
    obtain ⟨rescaled, hrescaled, hanswer⟩ := hask.of_initiated hinitiated
    split at hanswer <;> cases hanswer
    next hfits => exact ⟨rescaled, hrescaled, hfits, rfl⟩

/-- **What comes of a new transfer**: it passes exactly when it fits the capacity. Otherwise it may
wait, and does so for the duration of the limit; the limits stay as they are. -/
theorem Passes.of_initiated {result : Advance} (h : gate.Passes amount now mayQueue result after)
    (hinitiated : gate.status = .initiated) :
    ∃ rescaled, amount.changeDecimals gate.consumed.stored.decimals = .ok rescaled ∧
      (result = .released ↔ rescaled.amount ≤ (gate.consumed.capacityAt now).amount) ∧
      (result ≠ .released → mayQueue = true ∧ result = .queued (gate.consumed.delayFrom now) ∧
        after.consumed = gate.consumed ∧ after.backflow = gate.backflow) := by
  cases h with
  | already hreleased => cases hinitiated.symm.trans hreleased
  | early hqueued _ => cases hinitiated.symm.trans hqueued
  | delayed hask hqueue =>
    obtain ⟨rescaled, hrescaled, hanswer⟩ := hask.of_initiated hinitiated
    split at hanswer <;> cases hanswer
    next habove =>
      exact ⟨rescaled, hrescaled, by simpa using habove,
        fun _ => ⟨hqueue hinitiated, rfl, rfl, rfl⟩⟩
  | passed hask _ =>
    obtain ⟨rescaled, hrescaled, hanswer⟩ := hask.of_initiated hinitiated
    split at hanswer <;> cases hanswer
    next hfits => exact ⟨rescaled, hrescaled, by simpa using hfits, fun hnot => absurd rfl hnot⟩

/-! ## §2 Both limits -/

/-- The capacity of the opposite direction. -/
def backflowCapacity (gate : Gate) (now : Timestamp) : ℕ :=
  gate.backflow.elim 0 fun limit => (limit.capacityAt now).amount.toNat

/-- What the limit that an amount is taken from loses at a time. -/
def loss (before after : Gate) (now : Timestamp) : ℤ :=
  (before.consumed.capacityAt now).amount.toNat - (after.consumed.capacityAt now).amount.toNat

/-- What the limit of the opposite direction gains at a time. -/
def gain (before after : Gate) (now : Timestamp) : ℤ :=
  after.backflowCapacity now - before.backflowCapacity now

/-- The limit that was asked and agreed has let the amount pass. -/
theorem Asks.letsPass {time : Timestamp} {spent : RateLimit}
    (h : gate.Asks amount now (.consumed time, spent)) :
    gate.consumed.LetsPass amount now spent := by
  rcases h with ⟨_, hconsume⟩ | ⟨_, _, _, hconsume⟩
  · exact ⟨time, .inl hconsume⟩
  · exact ⟨time, .inr hconsume⟩

/-- **Both limits when a transfer passes**: the amount is taken off the one capacity, as far as
there is any, and added to the other one, up to its limit. -/
theorem Passes.exchanged (h : gate.Passes amount now mayQueue .released after)
    (hconsumed : 0 < gate.consumed.duration.toInt) (hback : gate.backflow = some opposite)
    (hopposite : 0 < opposite.duration.toInt)
    (hdecimals : opposite.stored.decimals = gate.consumed.stored.decimals) :
    ∃ rescaled raised, amount.changeDecimals gate.consumed.stored.decimals = .ok rescaled ∧
      after.backflow = some raised ∧
      (after.consumed.capacityAt now).amount.toNat =
        (gate.consumed.capacityAt now).amount.toNat - rescaled.amount.toNat ∧
      (raised.capacityAt now).amount.toNat =
        min ((opposite.capacityAt now).amount.toNat + rescaled.amount.toNat)
          opposite.limit.amount.toNat ∧
      (rescaled.amount ≤ (gate.consumed.capacityAt now).amount ∨
        (gate.consumed.capacityAt now).amount = gate.consumed.limit.amount) := by
  cases h with
  | passed hask hgiven =>
    rw [hback] at hgiven
    obtain ⟨raised, hrefill, rfl⟩ := hgiven
    obtain ⟨rescaled, hrescaled, hspent, hadmitted⟩ := hask.letsPass.capacityAt hconsumed
    -- Both limits count in one precision, so what is given back is what was asked for.
    obtain ⟨rescaled', hrescaled', hraised⟩ := RateLimit.capacityAt_refill hopposite hrefill
    rw [hdecimals, hrescaled] at hrescaled'
    cases hrescaled'
    exact ⟨rescaled, raised, hrescaled, rfl, hspent, hraised, hadmitted⟩

/-- **What a transfer that passes takes and gives back**: the one limit loses the amount or all it
has, the other one gains the amount or all it has room for. No more is gained than is lost, unless
the transfer has waited, is above the limit that it passes, and the opposite limit is the greater
one. -/
theorem gain_of_advance (hconsumed : 0 < gate.consumed.duration)
    (hback : gate.backflow = some opposite) (hopposite : 0 < opposite.duration)
    (hdecimals : opposite.stored.decimals = gate.consumed.stored.decimals)
    (h : advance amount now mayQueue gate = .ok .released after) :
    ∃ rescaled, amount.changeDecimals gate.consumed.stored.decimals = .ok rescaled ∧
      gate.loss after now =
        min rescaled.amount.toNat (gate.consumed.capacityAt now).amount.toNat ∧
      gate.gain after now =
        min rescaled.amount.toNat
          (opposite.limit.amount.toNat - (opposite.capacityAt now).amount.toNat) ∧
      (gate.status = .initiated ∨ rescaled.amount ≤ gate.consumed.limit.amount ∨
          opposite.limit.amount ≤ gate.consumed.limit.amount →
        gate.gain after now ≤ gate.loss after now) := by
  rw [Int64.lt_iff_toInt_lt] at hconsumed hopposite
  have hpasses : gate.Passes amount now mayQueue .released after :=
    passes_of_pass (by rw [pass, h])
  obtain ⟨rescaled, raised, hrescaled, hafter, hspent, hraised, hadmitted⟩ :=
    hpasses.exchanged hconsumed hback hopposite hdecimals
  have hlimit := UInt64.le_iff_toNat_le.mp (gate.consumed.capacityAt_le_limit now)
  have hroom := UInt64.le_iff_toNat_le.mp (opposite.capacityAt_le_limit now)
  simp only [UInt64.le_iff_toNat_le, ← UInt64.toNat_inj] at hadmitted
  simp only [loss, gain, backflowCapacity, hback, hafter, Option.elim_some, UInt64.le_iff_toNat_le]
  refine ⟨rescaled, hrescaled, by omega, by omega, ?_⟩
  -- A new transfer fits the capacity, and so the limit.
  have hnew : gate.status = .initiated →
      rescaled.amount.toNat ≤ gate.consumed.limit.amount.toNat := by
    intro hinitiated
    obtain ⟨rescaled', hrescaled', hfits, _⟩ := hpasses.spent_of_initiated hinitiated
    cases hrescaled.symm.trans hrescaled'
    exact (UInt64.le_iff_toNat_le.mp hfits).trans hlimit
  rcases hadmitted with hfits | hfull
  · omega
  · -- Of a full limit the loss is the amount or the whole limit.
    rintro (hinitiated | hsmall | hnarrow)
    · have hsmall := hnew hinitiated
      omega
    · omega
    · omega

end Gate

namespace Sample

/-- An amount of 5,000 that has waited, in front of a full limit of 1,000, with an empty limit of
10,000 in the opposite direction. -/
def oversized : Gate :=
  ⟨.queued 0, .full ⟨1000, 8⟩ 0 100, some ⟨⟨10000, 8⟩, ⟨0, 8⟩, 0, 100⟩⟩

/-- The same limits when an amount of 700 has passed instead. -/
def fittingAfter : Gate :=
  ⟨.released, ⟨⟨1000, 8⟩, ⟨300, 8⟩, 0, 100⟩, some ⟨⟨10000, 8⟩, ⟨700, 8⟩, 0, 100⟩⟩

/-- The same limits when the amount has passed. -/
def oversizedAfter : Gate :=
  ⟨.released, ⟨⟨1000, 8⟩, ⟨0, 8⟩, 0, 100⟩, some ⟨⟨10000, 8⟩, ⟨5000, 8⟩, 0, 100⟩⟩

/-- What an amount of 700 takes from one of these limits it gives to the other one. -/
theorem fitting_exchanged :
    (0 : Timestamp) < oversized.consumed.duration ∧
      Gate.advance ⟨700, 8⟩ 0 false oversized = .ok .released fittingAfter ∧
      oversized.loss fittingAfter 0 = 700 ∧ oversized.gain fittingAfter 0 = 700 ∧
      oversized.gain fittingAfter 0 ≤ oversized.loss fittingAfter 0 := by
  have hduration : (0 : Timestamp) < oversized.consumed.duration := by decide
  have hpass : Gate.advance ⟨700, 8⟩ 0 false oversized = .ok .released fittingAfter := rfl
  obtain ⟨rescaled, hrescaled, _, _, hgain⟩ :=
    Gate.gain_of_advance hduration rfl (by decide) rfl hpass
  have hamount : (⟨700, 8⟩ : TrimmedAmount).changeDecimals oversized.consumed.stored.decimals =
      .ok ⟨700, 8⟩ := by decide +kernel
  cases hamount.symm.trans hrescaled
  exact ⟨hduration, hpass, by decide +kernel, by decide +kernel, hgain (.inr (.inl (by decide)))⟩

/-- **A transfer that gives back more than it takes**: the limit that it passes loses 1,000 and the
opposite one gains 5,000. -/
theorem oversized_creates_capacity :
    0 < oversized.consumed.duration ∧
      (∃ opposite, oversized.backflow = some opposite ∧ 0 < opposite.duration ∧
        opposite.stored.decimals = oversized.consumed.stored.decimals) ∧
      Gate.advance ⟨5000, 8⟩ 0 false oversized = .ok .released oversizedAfter ∧
      oversized.loss oversizedAfter 0 = 1000 ∧ oversized.gain oversizedAfter 0 = 5000 ∧
      ¬ oversized.gain oversizedAfter 0 ≤ oversized.loss oversizedAfter 0 :=
  ⟨by decide, ⟨_, rfl, by decide, rfl⟩, rfl, by decide +kernel, by decide +kernel,
    by decide +kernel⟩

end Sample

end CrossChain
