import CrossChain.Proofs.Scaling

/-!
# What trimming does to an amount

An amount is trimmed before it travels: some of its decimals are cut off, as many as the token has
beyond those that the amount can travel with. All that happens is told by their number. The power of
ten either fits a word or does not, whatever the amount is; if it does, the amount is divided by it,
the quotient is what travels, and the remainder is the dust.

## Main statements

* `TrimmedAmount.trim_eq`, `TrimmedAmount.removeDust_eq`, `TrimmedAmount.trimExact_eq`: what each
  operation returns.
* `trimOutbound_eq`, `toNat_of_trimOutbound`: what a sender pays, under either policy on dust.
* `TrimmedAmount.raised_untrim`: a trimmed amount in a finer precision.
* `TrimmedAmount.trimming_laws`: quotient and remainder say everything, for every amount and every
  two precisions.
-/

namespace CrossChain

namespace TrimmedAmount

variable {amount : UInt64} {source target : UInt8}

/-- How many decimals an amount loses before it travels to a token of another precision. -/
def cut (source target : UInt8) : ℕ :=
  source.toNat - (commonDecimals source target).toNat

theorem commonDecimals_le (source target : UInt8) :
    (commonDecimals source target).toNat ≤ source.toNat := by
  rw [toNat_commonDecimals]
  omega

/-- **Lowering the precision** floors, unless the power of ten does not fit a word. -/
theorem rescale_of_le (amount : UInt64) (hle : target.toNat ≤ source.toNat) :
    rescale amount source target =
      if 20 ≤ source.toNat - target.toNat then .error .exponentOverflow
      else .ok (.ofNat (amount.toNat / 10 ^ (source.toNat - target.toNat))) := by
  have hdistance : max source.toNat target.toNat - min source.toNat target.toNat =
      source.toNat - target.toNat := by omega
  split
  next hfar => simp only [rescale, hdistance, powerOfTen?_eq_none.mpr hfar]
  next hnear =>
    exact rescale_eq_ok.mpr
      (.inl ⟨hle, Nat.not_le.mp hnear, Word.toNat_ofNat_of_le (Nat.div_le_self _ _)⟩)

/-- **Raising the precision** multiplies, unless the power of ten or the product does not fit a
word. -/
theorem rescale_of_ge (amount : UInt64) (hge : source.toNat ≤ target.toNat) :
    rescale amount source target =
      if 20 ≤ target.toNat - source.toNat then .error .exponentOverflow
      else if UInt64.size ≤ amount.toNat * 10 ^ (target.toNat - source.toNat) then
        .error .amountOverflow
      else .ok (.ofNat (amount.toNat * 10 ^ (target.toNat - source.toNat))) := by
  rcases Nat.eq_or_lt_of_le hge with hsame | hup
  · -- Between equal precisions there is nothing to multiply.
    have hfits := Nat.not_le.mpr amount.toNat_lt
    simp [rescale_of_le amount hsame.symm.le, hsame, hfits, UInt64.size]
  have hdistance : max source.toNat target.toNat - min source.toNat target.toNat =
      target.toNat - source.toNat := by omega
  have hle : ¬ target ≤ source := by simpa [UInt8.le_iff_toNat_le] using hup
  cases hpower : powerOfTen? (target.toNat - source.toNat) with
  | none =>
    have hfar := powerOfTen?_eq_none.mp hpower
    simp only [rescale, hdistance, hpower, if_pos hfar]
  | some factor =>
    obtain ⟨hnear, hfactor⟩ := powerOfTen?_eq_some.mp hpower
    simp only [rescale, hdistance, hpower, hle, if_false, if_neg (Nat.not_le.mpr hnear),
      Word.mul?, hfactor]
    by_cases hfits : amount.toNat * 10 ^ (target.toNat - source.toNat) < UInt64.size
    · simp [hfits, Nat.not_le.mpr hfits]
    · simp [hfits, Nat.not_lt.mp hfits]

/-- **Trimming** divides by the power of ten. -/
theorem trim_eq (amount : UInt64) (source target : UInt8) :
    trim amount source target =
      if 20 ≤ cut source target then .error .exponentOverflow
      else .ok ⟨.ofNat (amount.toNat / 10 ^ cut source target), commonDecimals source target⟩ := by
  rw [trim, rescale_of_le amount (commonDecimals_le source target), cut]
  split <;> rfl

/-- What was trimmed can be expressed in the precision that it comes from. -/
theorem untrim_quotient (amount : UInt64) (h : cut source target < 20) :
    untrim ⟨.ofNat (amount.toNat / 10 ^ cut source target), commonDecimals source target⟩ source =
      .ok (.ofNat (amount.toNat / 10 ^ cut source target * 10 ^ cut source target)) := by
  rw [untrim, rescale_eq_ok, Word.toNat_ofNat_of_le (Nat.div_le_self _ _),
    Word.toNat_ofNat_of_le (Nat.div_mul_le_self _ _)]
  rcases Nat.eq_or_lt_of_le (commonDecimals_le source target) with hsame | hlower
  · -- Nothing was cut off.
    have hnone : cut source target = 0 := by rw [cut, hsame, Nat.sub_self]
    refine .inl ⟨hsame.symm.le, ?_, ?_⟩ <;> simp [hnone, hsame]
  · exact .inr ⟨hlower, h, rfl⟩

/-- **Removing the dust** keeps the quotient, in both precisions. -/
theorem removeDust_eq (amount : UInt64) (source target : UInt8) :
    removeDust amount source target =
      if 20 ≤ cut source target then .error .exponentOverflow
      else .ok (⟨.ofNat (amount.toNat / 10 ^ cut source target), commonDecimals source target⟩,
        .ofNat (amount.toNat / 10 ^ cut source target * 10 ^ cut source target)) := by
  rw [removeDust, trim_eq]
  split
  next => rfl
  next hnear =>
    rw [ok_bind, untrim_quotient amount (Nat.not_le.mp hnear)]
    rfl

/-- **Refusing dust** refuses the remainder, and says what it is. -/
theorem trimExact_eq (amount : UInt64) (source target : UInt8) :
    trimExact amount source target =
      if 20 ≤ cut source target then .error .exponentOverflow
      else if amount.toNat % 10 ^ cut source target = 0 then
        .ok ⟨.ofNat (amount.toNat / 10 ^ cut source target), commonDecimals source target⟩
      else .error (.hasDust (.ofNat (amount.toNat % 10 ^ cut source target))) := by
  have hdivision := Nat.div_add_mod' amount.toNat (10 ^ cut source target)
  have hkept :
      (UInt64.ofNat (amount.toNat / 10 ^ cut source target * 10 ^ cut source target)).toNat =
        amount.toNat / 10 ^ cut source target * 10 ^ cut source target :=
    Word.toNat_ofNat_of_le (Nat.div_mul_le_self _ _)
  have hexact :
      UInt64.ofNat (amount.toNat / 10 ^ cut source target * 10 ^ cut source target) = amount ↔
        amount.toNat % 10 ^ cut source target = 0 := by
    rw [← UInt64.toNat_inj, hkept]
    omega
  have hdust :
      amount - UInt64.ofNat (amount.toNat / 10 ^ cut source target * 10 ^ cut source target) =
        UInt64.ofNat (amount.toNat % 10 ^ cut source target) := by
    rw [← UInt64.toNat_inj, UInt64.toNat_sub_of_le, hkept,
      Word.toNat_ofNat_of_le (Nat.mod_le _ _)]
    · omega
    · rw [UInt64.le_iff_toNat_le, hkept]
      omega
  rw [trimExact, removeDust_eq]
  split
  next => rfl
  next =>
    simp only [ok_bind, hexact, hdust]
    split <;> rfl

end TrimmedAmount

open TrimmedAmount in
/-- **What a sender pays**: the amount without its dust. Dust is left with the sender or refused, as
the policy says. -/
theorem trimOutbound_eq (policy : DustPolicy) (amount : UInt64) (decimals peerDecimals : UInt8) :
    trimOutbound policy amount decimals peerDecimals =
      if 20 ≤ cut decimals peerDecimals then .error (.amount .exponentOverflow)
      else if policy = .reject ∧ amount.toNat % 10 ^ cut decimals peerDecimals ≠ 0 then
        .error (.amountHasDust (.ofNat (amount.toNat % 10 ^ cut decimals peerDecimals)))
      else .ok (⟨.ofNat (amount.toNat / 10 ^ cut decimals peerDecimals),
          commonDecimals decimals peerDecimals⟩,
        .ofNat (amount.toNat / 10 ^ cut decimals peerDecimals *
          10 ^ cut decimals peerDecimals)) := by
  cases policy with
  | truncate =>
    rw [trimOutbound, removeDust_eq]
    split <;> simp [Except.mapError]
  | reject =>
    rw [trimOutbound, trimExact_eq]
    by_cases hfar : 20 ≤ cut decimals peerDecimals
    · simp [hfar]
    · by_cases hexact : amount.toNat % 10 ^ cut decimals peerDecimals = 0
      · -- An amount without dust is what it is trimmed to.
        have hkept : UInt64.ofNat (amount.toNat / 10 ^ cut decimals peerDecimals *
            10 ^ cut decimals peerDecimals) = amount := by
          rw [Nat.div_mul_cancel (Nat.dvd_of_mod_eq_zero hexact), UInt64.ofNat_toNat]
        simp [hfar, hexact, hkept]
      · simp [hfar, hexact]

open TrimmedAmount in
/-- What travels and what is paid for it are one quotient. -/
theorem toNat_of_trimOutbound {policy : DustPolicy} {amount debited : UInt64}
    {decimals peerDecimals : UInt8} {trimmed : TrimmedAmount}
    (h : trimOutbound policy amount decimals peerDecimals = .ok (trimmed, debited)) :
    trimmed.amount.toNat = amount.toNat / 10 ^ cut decimals peerDecimals ∧
      debited.toNat = amount.toNat / 10 ^ cut decimals peerDecimals *
        10 ^ cut decimals peerDecimals ∧
      (policy = .reject → amount.toNat % 10 ^ cut decimals peerDecimals = 0) := by
  rw [trimOutbound_eq] at h
  split at h
  next => cases h
  split at h
  next => cases h
  next hkept =>
    cases h
    exact ⟨Word.toNat_ofNat_of_le (Nat.div_le_self _ _),
      Word.toNat_ofNat_of_le (Nat.div_mul_le_self _ _),
      fun hpolicy => not_not.mp fun hrest => hkept ⟨hpolicy, hrest⟩⟩

/-! ## Back and forth

A trimmed amount can be expressed in every precision that is no coarser, as far as there is room
in a word, and trimming the result leads back to it. -/

namespace TrimmedAmount

variable {source target : UInt8} {value : TrimmedAmount}

/-- What becomes of a trimmed amount in a finer precision. -/
inductive Raised (value : TrimmedAmount) (finer : UInt8) : Except AmountError UInt64 → Prop where
  | far (hfar : 20 ≤ finer.toNat - value.decimals.toNat) :
      Raised value finer (.error .exponentOverflow)
  | large (hnear : finer.toNat - value.decimals.toNat < 20)
      (hlarge : 2 ^ 64 ≤ value.amount.toNat * 10 ^ (finer.toNat - value.decimals.toNat)) :
      Raised value finer (.error .amountOverflow)
  /-- The product is exact, so that trimming leads back. -/
  | exact {raised : UInt64} (hnear : finer.toNat - value.decimals.toNat < 20)
      (hproduct : raised.toNat = value.amount.toNat * 10 ^ (finer.toNat - value.decimals.toNat))
      (hback : trim raised finer value.decimals = .ok value) : Raised value finer (.ok raised)

/-- Trimming divides by the power of ten that raising the precision multiplied with. -/
theorem trim_of_product {raised : UInt64} {finer : UInt8} (hsmall : value.decimals.toNat ≤ 8)
    (hle : value.decimals.toNat ≤ finer.toNat) (hnear : finer.toNat - value.decimals.toNat < 20)
    (hproduct : raised.toNat = value.amount.toNat * 10 ^ (finer.toNat - value.decimals.toNat)) :
    trim raised finer value.decimals = .ok value := by
  have hcommon : commonDecimals finer value.decimals = value.decimals := by
    rw [← UInt8.toNat_inj, toNat_commonDecimals]
    omega
  have hpositive : 0 < 10 ^ (finer.toNat - value.decimals.toNat) := Nat.pow_pos (by decide)
  have hquotient : raised.toNat / 10 ^ (finer.toNat - value.decimals.toNat) =
      value.amount.toNat := by
    rw [hproduct, Nat.mul_div_cancel _ hpositive]
  rw [trim_eq, cut, hcommon, if_neg (Nat.not_le.mpr hnear), hquotient, UInt64.ofNat_toNat]

/-- **A trimmed amount in a finer precision** is exact, or there is no room for it. -/
theorem raised_untrim {finer : UInt8} (hsmall : value.decimals.toNat ≤ 8)
    (hle : value.decimals.toNat ≤ finer.toNat) : value.Raised finer (value.untrim finer) := by
  rw [untrim, rescale_of_ge value.amount hle]
  split
  next hfar => exact .far hfar
  next hnear =>
    rw [Nat.not_le] at hnear
    split
    next hlarge => exact .large hnear hlarge
    next hfits =>
      have hproduct := UInt64.toNat_ofNat_of_lt' (Nat.not_le.mp hfits)
      exact .exact hnear hproduct (trim_of_product hsmall hle hnear hproduct)

/-! ## The dust

What is cut off is the remainder. It is refused, or removed from the amount where that is kept. -/

/-- Removing the dust in place writes what it returns, and writes nothing if it fails. -/
theorem dropDust_eq (amount : UInt64) (source target : UInt8) :
    dropDust source target amount = match removeDust amount source target with
      | .ok (trimmed, kept) => .ok trimmed kept
      | .error e => .error e amount := by
  simp only [dropDust, removeDust, run_bind, run_get]
  cases trim amount source target with
  | error e => rfl
  | ok trimmed =>
    simp only [ok_bind, MonadExcept.ofExcept, run_pure]
    cases trimmed.untrim source with
    | error e => rfl
    | ok kept => rfl

/-- **What trimming makes of an amount** that loses the given number of decimals. -/
structure Trims (amount : UInt64) (source target : UInt8) (digits : ℕ) (value : TrimmedAmount)
    (kept : UInt64) : Prop where
  /-- What travels is the quotient. -/
  trims : trim amount source target = .ok value
  decimals : value.decimals.toNat = min 8 (min source.toNat target.toNat)
  quotient : value.amount.toNat = amount.toNat / 10 ^ digits
  /-- In the precision that it comes from it is the amount without the remainder. -/
  untrims : value.untrim source = .ok kept
  remainder : kept.toNat = amount.toNat - amount.toNat % 10 ^ digits
  kept_le : kept ≤ amount
  kept_eq_iff : kept = amount ↔ 10 ^ digits ∣ amount.toNat
  /-- The remainder is the dust that is refused. -/
  exact : 10 ^ digits ∣ amount.toNat → trimExact amount source target = .ok value
  dusty : ¬ 10 ^ digits ∣ amount.toNat → ∃ dust : UInt64,
    trimExact amount source target = .error (.hasDust dust) ∧
      dust.toNat = amount.toNat % 10 ^ digits
  /-- Or it is removed, after which there is none. -/
  drops : dropDust source target amount = .ok value kept
  dropsAgain : dropDust source target kept = .ok value kept
  finer : ∀ precision : UInt8, value.decimals.toNat ≤ precision.toNat →
    value.Raised precision (value.untrim precision)

/-- Removing the dust in place, if the power of ten fits a word. -/
theorem dropDust_of_lt (amount : UInt64) (hnear : cut source target < 20) :
    dropDust source target amount =
      .ok ⟨.ofNat (amount.toNat / 10 ^ cut source target), commonDecimals source target⟩
        (.ofNat (amount.toNat / 10 ^ cut source target * 10 ^ cut source target)) := by
  rw [dropDust_eq, removeDust_eq, if_neg (Nat.not_le.mpr hnear)]

/-- **An amount is trimmed** if the power of ten that is cut off fits a word. -/
theorem trims_of_cut_lt (amount : UInt64) (hnear : cut source target < 20) :
    Trims amount source target (cut source target)
      ⟨.ofNat (amount.toNat / 10 ^ cut source target), commonDecimals source target⟩
      (.ofNat (amount.toNat / 10 ^ cut source target * 10 ^ cut source target)) := by
  have hpositive : 0 < 10 ^ cut source target := Nat.pow_pos (by decide)
  have hdivision := Nat.div_add_mod' amount.toNat (10 ^ cut source target)
  have hquotient : (UInt64.ofNat (amount.toNat / 10 ^ cut source target)).toNat =
      amount.toNat / 10 ^ cut source target := Word.toNat_ofNat_of_le (Nat.div_le_self _ _)
  have hkept :
      (UInt64.ofNat (amount.toNat / 10 ^ cut source target * 10 ^ cut source target)).toNat =
        amount.toNat / 10 ^ cut source target * 10 ^ cut source target :=
    Word.toNat_ofNat_of_le (Nat.div_mul_le_self _ _)
  have hdecimals : (commonDecimals source target).toNat =
      min 8 (min source.toNat target.toNat) := by
    rw [toNat_commonDecimals, Nat.min_assoc]
  have hfar := Nat.not_le.mpr hnear
  constructor
  case trims => rw [trim_eq, if_neg hfar]
  case decimals => exact hdecimals
  case quotient => exact hquotient
  case untrims => exact untrim_quotient amount hnear
  case remainder =>
    rw [hkept]
    omega
  case kept_le =>
    rw [UInt64.le_iff_toNat_le, hkept]
    omega
  case kept_eq_iff =>
    rw [← UInt64.toNat_inj, hkept, Nat.dvd_iff_mod_eq_zero]
    omega
  case exact =>
    intro hexact
    rw [trimExact_eq, if_neg hfar, if_pos (Nat.mod_eq_zero_of_dvd hexact)]
  case dusty =>
    intro hdusty
    rw [Nat.dvd_iff_mod_eq_zero] at hdusty
    exact ⟨_, by rw [trimExact_eq, if_neg hfar, if_neg hdusty],
      Word.toNat_ofNat_of_le (Nat.mod_le _ _)⟩
  case drops => exact dropDust_of_lt amount hnear
  case dropsAgain =>
    -- What was kept has the same quotient, and no remainder.
    rw [dropDust_of_lt _ hnear, hkept, Nat.mul_div_cancel _ hpositive]
  case finer =>
    intro precision hle
    exact raised_untrim (hdecimals ▸ Nat.min_le_left _ _) hle

/-- **The laws of trimming.** An amount loses the decimals that its token has beyond those that it
can travel with. If the power of ten does not fit a word, nothing is trimmed and nothing written;
otherwise quotient and remainder say everything. -/
theorem trimming_laws (amount : UInt64) (source target : UInt8) :
    let digits := source.toNat - min 8 (min source.toNat target.toNat)
    (20 ≤ digits ∧ trim amount source target = .error .exponentOverflow ∧
        trimExact amount source target = .error .exponentOverflow ∧
        dropDust source target amount = .error .exponentOverflow amount) ∨
      (digits < 20 ∧ ∃ value kept, Trims amount source target digits value kept) := by
  have hcut : source.toNat - min 8 (min source.toNat target.toNat) = cut source target := by
    rw [cut, toNat_commonDecimals, Nat.min_assoc]
  rw [hcut]
  rcases Nat.lt_or_ge (cut source target) 20 with hnear | hfar
  · exact .inr ⟨hnear, _, _, trims_of_cut_lt amount hnear⟩
  · refine .inl ⟨hfar, ?_, ?_, ?_⟩
    · rw [trim_eq, if_pos hfar]
    · rw [trimExact_eq, if_pos hfar]
    · rw [dropDust_eq, removeDust_eq, if_pos hfar]

end TrimmedAmount

end CrossChain
