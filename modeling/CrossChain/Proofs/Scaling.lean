import CrossChain.Manager.Transfer
import CrossChain.Proofs.Basic

/-!
# Scaling amounts between precisions

Trimming, untrimming and removing dust as equations between numbers: lowering the precision
divides by a power of ten and floors, raising it multiplies, and either fails when the power or
the product does not fit a word.

## Main statements

* `rescale_eq_ok`: what rescaling returns, and when.
* `trimOutbound_eq_ok`: what a sender pays is what the trimmed amount is worth.
* `untrim_mul_le`, `untrim_mul_eq`: one trimmed amount, expressed in two precisions.
-/

namespace CrossChain

namespace TrimmedAmount

/-! ## §1 Rescaling -/

theorem ten_pow_lt_iff {n : ℕ} : 10 ^ n < UInt64.size ↔ n < 20 := by
  constructor
  · intro h
    exact (Nat.pow_lt_pow_iff_right (by norm_num)).mp (h.trans (by decide : UInt64.size < 10 ^ 20))
  · intro h
    exact lt_of_le_of_lt (Nat.pow_le_pow_right (by norm_num) (Nat.le_of_lt_succ h))
      (by decide : 10 ^ 19 < UInt64.size)

theorem powerOfTen?_eq_some {n : ℕ} {p : UInt64} :
    powerOfTen? n = some p ↔ n < 20 ∧ p.toNat = 10 ^ n := by
  show (if 10 ^ n < UInt64.size then some (UInt64.ofNat (10 ^ n)) else none) = some p ↔ _
  split
  next h =>
    rw [Option.some_inj, ← UInt64.toNat_inj, UInt64.toNat_ofNat_of_lt' h]
    simp only [ten_pow_lt_iff.mp h, true_and, eq_comm]
  next h => simp [ten_pow_lt_iff.not.mp h]

theorem powerOfTen?_eq_none {n : ℕ} : powerOfTen? n = none ↔ 20 ≤ n := by
  show (if 10 ^ n < UInt64.size then some (UInt64.ofNat (10 ^ n)) else none) = none ↔ _
  split
  next h => simpa using ten_pow_lt_iff.mp h
  next h => simpa using ten_pow_lt_iff.not.mp h

/-- **Rescaling** floors on the way down and is exact on the way up. -/
theorem rescale_eq_ok {amount x : UInt64} {source target : UInt8} :
    rescale amount source target = .ok x ↔
      (target.toNat ≤ source.toNat ∧ source.toNat - target.toNat < 20 ∧
        x.toNat = amount.toNat / 10 ^ (source.toNat - target.toNat)) ∨
      (source.toNat < target.toNat ∧ target.toNat - source.toNat < 20 ∧
        x.toNat = amount.toNat * 10 ^ (target.toNat - source.toNat)) := by
  rcases Nat.lt_or_ge source.toNat target.toNat with hup | hdown
  · -- Up: the power has to fit a word, and so does the product.
    have hdist : max source.toNat target.toNat - min source.toNat target.toNat =
        target.toNat - source.toNat := by omega
    have hle : ¬ target ≤ source := by simpa [UInt8.le_iff_toNat_le] using hup
    simp only [rescale, hdist, hle, if_false, hup, Nat.not_le.mpr hup, false_and, false_or,
      true_and]
    cases hp : powerOfTen? (target.toNat - source.toNat) with
    | none => simp [powerOfTen?_eq_none.mp hp]
    | some factor =>
      obtain ⟨hnear, hfactor⟩ := powerOfTen?_eq_some.mp hp
      simp only [hnear, true_and, ← hfactor, ← Word.mul?_eq_some]
      cases Word.mul? amount factor <;> simp
  · -- Down: only the power has to fit.
    have hdist : max source.toNat target.toNat - min source.toNat target.toNat =
        source.toNat - target.toNat := by omega
    have hle : target ≤ source := UInt8.le_iff_toNat_le.mpr hdown
    simp only [rescale, hdist, hle, if_true, hdown, Nat.not_lt.mpr hdown, false_and, or_false,
      true_and]
    cases hp : powerOfTen? (source.toNat - target.toNat) with
    | none => simp [powerOfTen?_eq_none.mp hp]
    | some factor =>
      obtain ⟨hnear, hfactor⟩ := powerOfTen?_eq_some.mp hp
      simp only [hnear, true_and, ← hfactor, Except.ok.injEq, ← UInt64.toNat_inj,
        UInt64.toNat_div]
      exact eq_comm

/-! ## §2 Trimming -/

theorem toNat_commonDecimals (source target : UInt8) :
    (commonDecimals source target).toNat = min (min 8 source.toNat) target.toNat := by
  have hmin (a b : UInt8) : (min a b).toNat = min a.toNat b.toNat := by
    show (if a ≤ b then a else b).toNat = _
    split
    next h => exact (Nat.min_eq_left (UInt8.le_iff_toNat_le.mp h)).symm
    next h => exact (Nat.min_eq_right (by simp only [UInt8.le_iff_toNat_le] at h; omega)).symm
  rw [commonDecimals, hmin, hmin]
  rfl

theorem trim_eq_ok {amount : UInt64} {source target : UInt8} {value : TrimmedAmount} :
    trim amount source target = .ok value ↔
      value.decimals = commonDecimals source target ∧
        rescale amount source (commonDecimals source target) = .ok value.amount := by
  simp only [trim, bind_eq_ok, pure_eq_ok]
  constructor
  · rintro ⟨amount', h, rfl⟩
    exact ⟨rfl, h⟩
  · rintro ⟨hdecimals, h⟩
    exact ⟨value.amount, h, by rw [← hdecimals]⟩

theorem removeDust_eq_ok {amount kept : UInt64} {source target : UInt8} {value : TrimmedAmount} :
    removeDust amount source target = .ok (value, kept) ↔
      trim amount source target = .ok value ∧ value.untrim source = .ok kept := by
  simp only [removeDust, bind_eq_ok, pure_eq_ok, Prod.mk.injEq]
  constructor
  · rintro ⟨_, htrim, _, huntrim, rfl, rfl⟩
    exact ⟨htrim, huntrim⟩
  · rintro ⟨htrim, huntrim⟩
    exact ⟨_, htrim, _, huntrim, rfl, rfl⟩

theorem trimExact_eq_ok {amount : UInt64} {source target : UInt8} {value : TrimmedAmount} :
    trimExact amount source target = .ok value ↔
      removeDust amount source target = .ok (value, amount) := by
  simp only [trimExact, bind_eq_ok, Prod.exists]
  constructor
  · rintro ⟨trimmed, kept, h, hkept⟩
    split at hkept
    next heq =>
      rw [pure_eq_ok] at hkept
      rw [h, heq, hkept]
    next => cases hkept
  · intro h
    exact ⟨value, amount, h, by simp [pure, Except.pure]⟩

end TrimmedAmount

/-- **What a sender pays** is what the trimmed amount is worth in the sender's token, whatever
the policy on dust. -/
theorem trimOutbound_eq_ok {policy : DustPolicy} {amount debited : UInt64}
    {decimals peerDecimals : UInt8} {trimmed : TrimmedAmount}
    (h : trimOutbound policy amount decimals peerDecimals = .ok (trimmed, debited)) :
    trimmed.decimals = TrimmedAmount.commonDecimals decimals peerDecimals ∧
      trimmed.untrim decimals = .ok debited := by
  have hremoved : ∃ paid, TrimmedAmount.removeDust amount decimals peerDecimals =
      .ok (trimmed, paid) ∧ paid = debited := by
    cases policy with
    | reject =>
      simp only [trimOutbound] at h
      split at h
      next value hexact =>
        simp only [Except.ok.injEq, Prod.mk.injEq] at h
        obtain ⟨rfl, rfl⟩ := h
        exact ⟨amount, TrimmedAmount.trimExact_eq_ok.mp hexact, rfl⟩
      next => cases h
      next => cases h
    | truncate => exact ⟨debited, mapError_eq_ok.mp h, rfl⟩
  obtain ⟨_, hremoved, rfl⟩ := hremoved
  obtain ⟨htrim, huntrim⟩ := TrimmedAmount.removeDust_eq_ok.mp hremoved
  exact ⟨(TrimmedAmount.trim_eq_ok.mp htrim).1, huntrim⟩

/-! ## §3 One amount in two precisions -/

namespace TrimmedAmount

variable {value : TrimmedAmount} {source target : UInt8} {debited credited : UInt64}

/-- Raising the precision of an amount is exact. -/
theorem toNat_untrim_of_le (h : value.untrim source = .ok debited)
    (hle : value.decimals.toNat ≤ source.toNat) :
    debited.toNat = value.amount.toNat * 10 ^ (source.toNat - value.decimals.toNat) := by
  rcases rescale_eq_ok.mp h with ⟨hge, _, hx⟩ | ⟨_, _, hx⟩
  · have heq : source.toNat = value.decimals.toNat := by omega
    simpa [heq] using hx
  · exact hx

/-- **Nothing is created on the way**: an amount that is exact in one precision is worth at
least what it comes to in another. -/
theorem untrim_mul_le (hs : value.untrim source = .ok debited)
    (ht : value.untrim target = .ok credited) (hle : value.decimals.toNat ≤ source.toNat) :
    credited.toNat * 10 ^ source.toNat ≤ debited.toNat * 10 ^ target.toNat := by
  have hpow : 10 ^ source.toNat =
      10 ^ (source.toNat - value.decimals.toNat) * 10 ^ value.decimals.toNat := by
    rw [← pow_add, Nat.sub_add_cancel hle]
  rw [toNat_untrim_of_le hs hle, hpow]
  rcases rescale_eq_ok.mp ht with ⟨hdown, _, hx⟩ | ⟨hup, _, hx⟩
  · -- On the way down to the target the quotient is floored.
    have hsplit : 10 ^ value.decimals.toNat =
        10 ^ (value.decimals.toNat - target.toNat) * 10 ^ target.toNat := by
      rw [← pow_add, Nat.sub_add_cancel hdown]
    have hfloor : credited.toNat * 10 ^ (value.decimals.toNat - target.toNat) ≤
        value.amount.toNat := by
      rw [hx]; exact Nat.div_mul_le_self _ _
    calc credited.toNat * (10 ^ (source.toNat - value.decimals.toNat) * 10 ^ value.decimals.toNat)
        = credited.toNat * 10 ^ (value.decimals.toNat - target.toNat) *
            (10 ^ (source.toNat - value.decimals.toNat) * 10 ^ target.toNat) := by
          rw [hsplit]; ring
      _ ≤ value.amount.toNat *
            (10 ^ (source.toNat - value.decimals.toNat) * 10 ^ target.toNat) :=
          Nat.mul_le_mul_right _ hfloor
      _ = value.amount.toNat * 10 ^ (source.toNat - value.decimals.toNat) * 10 ^ target.toNat := by
          ring
  · -- On the way up both sides are the same product.
    have hsplit : 10 ^ target.toNat =
        10 ^ (target.toNat - value.decimals.toNat) * 10 ^ value.decimals.toNat := by
      rw [← pow_add, Nat.sub_add_cancel hup.le]
    rw [hx, hsplit]
    exact le_of_eq (by ring)

/-- Where the other precision is no lower than that of the amount, nothing is lost either. -/
theorem untrim_mul_eq (hs : value.untrim source = .ok debited)
    (ht : value.untrim target = .ok credited) (hle : value.decimals.toNat ≤ source.toNat)
    (hle' : value.decimals.toNat ≤ target.toNat) :
    credited.toNat * 10 ^ source.toNat = debited.toNat * 10 ^ target.toNat :=
  le_antisymm (untrim_mul_le hs ht hle) (untrim_mul_le ht hs hle')

end TrimmedAmount

end CrossChain
