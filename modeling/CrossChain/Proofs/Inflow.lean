import CrossChain.Proofs.Backflow
import CrossChain.Proofs.Calls
import CrossChain.Proofs.Queue

/-!
# What comes in and what the limit is charged

When a redemption releases a transfer, its amount is converted twice: to the precision of the
limits, for the charge, and to that of the token, for the payment. Both round down, each for
itself. An amount that is no finer than the limits is charged in full. A finer one is charged
without its last digits and may be paid with them, so that the payment can exceed the charge, by
less than one unit of the limits.

The wire carries any number of decimals, so it is the sender of a message who keeps amounts from
being finer.

## Main statements

* `TrimmedAmount.nominal_lt`, `TrimmedAmount.nominal_eq`: one amount in two precisions.
* `Call.redeem_released`: a redemption that approves a transfer and releases it.
* `Book.gain_of_released`: runs.
* `Sample.finer_outruns_capacity`: an amount that is paid without any charge.
-/

namespace CrossChain

/-! ## §1 Two precisions -/

namespace TrimmedAmount

variable {value : TrimmedAmount} {coarse fine : UInt8} {x : UInt64}

/-- What is computed is the exact number, rounded down. -/
theorem toNat_of_untrim {decimals : UInt8} (h : value.untrim decimals = .ok x) :
    x.toNat = value.nominal decimals := by
  rcases rescale_eq_ok.mp h with ⟨hge, _, hx⟩ | ⟨hlt, _, hx⟩
  · rw [hx, nominal_of_ge hge]
  · rw [hx, nominal_of_le hlt.le]

/-- **Rounding down to the coarser precision** loses less than one of its units. -/
theorem nominal_lt (value : TrimmedAmount) (hle : coarse.toNat ≤ fine.toNat) :
    value.nominal fine < (value.nominal coarse + 1) * 10 ^ (fine.toNat - coarse.toNat) := by
  have hsplit : 10 ^ fine.toNat = 10 ^ coarse.toNat * 10 ^ (fine.toNat - coarse.toNat) := by
    rw [← pow_add, Nat.add_sub_cancel' hle]
  have hunit : 0 < 10 ^ (fine.toNat - coarse.toNat) := Nat.pow_pos (by decide)
  have hdenominator : 0 < 10 ^ value.decimals.toNat := Nat.pow_pos (by decide)
  have hcoarse : value.amount.toNat * 10 ^ coarse.toNat <
      (value.nominal coarse + 1) * 10 ^ value.decimals.toNat :=
    (Nat.div_lt_iff_lt_mul hdenominator).mp (Nat.lt_succ_self _)
  rw [nominal, Nat.div_lt_iff_lt_mul hdenominator]
  calc value.amount.toNat * 10 ^ fine.toNat
      = value.amount.toNat * 10 ^ coarse.toNat * 10 ^ (fine.toNat - coarse.toNat) := by
        rw [hsplit, mul_assoc]
    _ < (value.nominal coarse + 1) * 10 ^ value.decimals.toNat *
          10 ^ (fine.toNat - coarse.toNat) := Nat.mul_lt_mul_of_pos_right hcoarse hunit
    _ = (value.nominal coarse + 1) * 10 ^ (fine.toNat - coarse.toNat) *
          10 ^ value.decimals.toNat := by ring

/-- Nothing is lost on an amount that is no finer than the coarser precision, or where there is
only one. -/
theorem nominal_eq (hle : coarse.toNat ≤ fine.toNat)
    (h : value.decimals.toNat ≤ coarse.toNat ∨ coarse = fine) :
    value.nominal fine = value.nominal coarse * 10 ^ (fine.toNat - coarse.toNat) := by
  rcases h with hdecimals | rfl
  · rw [nominal_of_le hdecimals, nominal_of_le (hdecimals.trans hle), mul_assoc, ← pow_add]
    congr 2
    omega
  · rw [Nat.sub_self, pow_zero, mul_one]

end TrimmedAmount

/-! ## §2 Payments -/

/-- **A payment** raises the balance of who gets it by the amount. -/
theorem Token.balanceOf_of_credit {mode : Mode} {owner : Address} {amount : UInt64}
    {t t' : Token} (h : credit mode owner amount t = .ok () t') :
    (t'.balanceOf owner).toNat = (t.balanceOf owner).toNat + amount.toNat := by
  cases mode with
  | locking =>
    rcases unlock_result t owner amount with ⟨e, he⟩ | ⟨raised, custody, hraised, _, hok⟩
    · cases he.symm.trans h
    · cases hok.symm.trans h
      rw [← hraised]
      exact congrArg UInt64.toNat (balanceOf_setBalance_self t owner raised)
  | burning =>
    rcases mint_result t owner amount with ⟨e, he⟩ | ⟨raised, supply, hraised, _, hok⟩
    · cases he.symm.trans h
    · cases hok.symm.trans h
      rw [← hraised]
      exact congrArg UInt64.toNat (balanceOf_setBalance_self t owner raised)

/-- The capacity for transfers from a chain. -/
def Manager.inboundCapacity (m : Manager) (chain : ChainId) (now : Timestamp) : ℕ :=
  (m.inboundLimits.get? chain).elim 0 fun limit => (limit.capacityAt now).amount.toNat

namespace Step

/-- What a step adds to the balance of an account. -/
def gain (s : Step) (owner : Address) : ℕ :=
  (s.after.token.balanceOf owner).toNat - (s.before.token.balanceOf owner).toNat

/-- What a step takes from the capacity for transfers from a chain. -/
def charge (s : Step) (chain : ChainId) : ℕ :=
  s.before.manager.inboundCapacity chain s.event.now -
    s.after.manager.inboundCapacity chain s.event.now

end Step

/-! ## §3 Redemptions -/

variable {b after : Book} {transceiver : Address} {now : Timestamp} {source : ChainId}
  {delivery : Delivery TokenTransfer} {receipt : RedeemReceipt}

/-- Helper: a transfer that is approved by this vote has not asked the limit before. -/
private theorem initiated_of_approved {m : Manager} {digest : Digest} {id : UInt8}
    {voted : InboxItem} (hattest : (m.inbound source delivery digest).attest id = .ok voted)
    (hnew : ∀ item, m.inbox.get? digest = some item → item.approved = false)
    (happroved : (voted.tryApprove m.config.threshold m.config.enabled).approved = true) :
    (voted.tryApprove m.config.threshold m.config.enabled).status = .initiated := by
  have hnot : voted.approved = false := by
    obtain ⟨_, votes, _, rfl⟩ := InboxItem.attest_eq_ok hattest
    simp only [Manager.inbound]
    cases hfound : m.inbox.get? digest with
    | none => rfl
    | some old => exact hnew old hfound
  rcases voted.tryApprove_cases m.config.threshold m.config.enabled with hsame | ⟨_, _, _, heq⟩
  · rw [hsame] at happroved
    cases hnot.symm.trans happroved
  · rw [heq]

/-- **A redemption that approves a transfer and releases it** takes the amount off the capacity in
the precision of the limit, and pays it in that of the token. -/
theorem Call.redeem_released (h : redeem transceiver now source delivery b = .ok receipt after)
    (hreleased : receipt.status = .released)
    (hnew : ∀ item, b.manager.inbox.get? receipt.digest = some item → item.approved = false) :
    ∃ item limit rescaled payout, after.manager.inbox.get? receipt.digest = some item ∧
      b.manager.inboundLimits.get? source = some limit ∧
      item.amount.changeDecimals limit.stored.decimals = .ok rescaled ∧
      rescaled.amount ≤ (limit.capacityAt now).amount ∧
      after.manager.inboundLimits.get? source = some (limit.withCapacity
        ⟨(limit.capacityAt now).amount - rescaled.amount, limit.stored.decimals⟩ now) ∧
      item.amount.untrim b.manager.config.tokenDecimals = .ok payout ∧
      Token.credit b.manager.config.mode item.recipient payout b.token = .ok () after.token := by
  rw [redeem_eq] at h
  cases hplan : b.manager.planRedeem transceiver now source delivery with
  | error e =>
    rw [hplan] at h
    cases h
  | ok planned =>
    obtain ⟨digest, plan⟩ := planned
    rw [hplan] at h
    obtain ⟨id, _, hplan⟩ := Manager.planRedeem_eq_ok hplan
    cases plan with
    -- Only a transfer that was moved on is reported as released.
    | done | voted =>
      cases h
      cases hreleased
    | settled s =>
      simp only at h
      rcases settle_result b digest s with ⟨e, he⟩ | ⟨token, hpaid, hok⟩
      · rw [he] at h
        cases h
      rw [hok] at h
      cases h
      obtain ⟨_, voted, item, hattest, rfl, happroved, hsettles⟩ := hplan
      have hadvance : s.advance = .released := by
        cases hs : s.advance <;> simp_all [InboundStatus.ofAdvance]
      obtain ⟨limit, gate, hlimit, hpasses, hitem, hin, _⟩ := hsettles.gate
      rw [hadvance] at hpasses
      -- This call approves it, so it asks the limit for the first time.
      obtain ⟨rescaled, hrescaled, hfits, hspent⟩ := hpasses.spent_of_initiated
        (initiated_of_approved hattest hnew happroved)
      obtain ⟨_, payout, hpayout, hs⟩ := hsettles.payout.resolve_right fun h => h.1 hadvance
      simp only [Settlement.Paid, hs] at hpaid
      refine ⟨s.item, limit, rescaled, payout, SortedMap.get?_insert_self _ _ _, hlimit, ?_, hfits,
        ?_, ?_, hpaid⟩
      · rw [hitem]
        exact hrescaled
      · rw [← hspent, ← hin, ← hsettles.via]
        exact SortedMap.get?_insert_self _ _ _
      · rw [hitem]
        exact hpayout

/-- **The gain and the charge** of such a redemption are one amount in two precisions. -/
theorem Call.redeem_gain (hlimits : b.manager.Metered)
    (h : redeem transceiver now source delivery b = .ok receipt after)
    (hreleased : receipt.status = .released)
    (hnew : ∀ item, b.manager.inbox.get? receipt.digest = some item → item.approved = false) :
    ∃ item, after.manager.inbox.get? receipt.digest = some item ∧
      b.manager.inboundCapacity source now = after.manager.inboundCapacity source now +
        item.amount.nominal (.ofNat b.manager.precision) ∧
      (after.token.balanceOf item.recipient).toNat = (b.token.balanceOf item.recipient).toNat +
        item.amount.nominal b.manager.config.tokenDecimals := by
  obtain ⟨item, limit, rescaled, payout, hitem, hlimit, hrescaled, hfits, hleft, hpayout,
    hcredit⟩ := redeem_released h hreleased hnew
  have hregular := hlimits.inbound source limit hlimit
  have hduration := hlimits.duration_pos hregular
  have hprecision : limit.stored.decimals = .ofNat b.manager.precision := by
    rw [← hregular.stored, UInt8.ofNat_toNat]
  -- What is charged is the amount of the message in the unit of all limits.
  have hcharged : rescaled.amount.toNat = item.amount.nominal (.ofNat b.manager.precision) := by
    rw [← hprecision]
    exact TrimmedAmount.toNat_of_untrim (TrimmedAmount.changeDecimals_eq_ok.mp hrescaled).2
  refine ⟨item, hitem, ?_, ?_⟩
  · have hle : (limit.capacityAt now).amount - rescaled.amount ≤ limit.limit.amount :=
      UInt64.le_trans (Word.sub_le_self hfits) (limit.capacityAt_le_limit now)
    rw [Manager.inboundCapacity, Manager.inboundCapacity, hlimit, hleft, Option.elim_some,
      Option.elim_some, RateLimit.capacityAt_withCapacity hduration hle,
      UInt64.toNat_sub_of_le _ _ hfits, ← hcharged]
    exact (Nat.sub_add_cancel (UInt64.le_iff_toNat_le.mp hfits)).symm
  · rw [Token.balanceOf_of_credit hcredit, TrimmedAmount.toNat_of_untrim hpayout]

/-! ## §4 Runs -/

/-- Helper: a step that redeems a message is the call. -/
private theorem redeem_of_outcome
    (h : (b.step ⟨now, .redeem transceiver source delivery⟩).outcome = .ok (.redeemed receipt)) :
    Call.redeem transceiver now source delivery b =
      .ok receipt (b.step ⟨now, .redeem transceiver source delivery⟩).after := by
  simp only [Book.step, perform] at h ⊢
  cases hcall : Call.redeem transceiver now source delivery b with
  | error e after =>
    rw [hcall] at h
    cases h
  | ok found after =>
    rw [hcall] at h
    cases h
    rfl

/-- A step that redeems a message returns a receipt that says where the transfer stands. -/
theorem Book.redeemed_of_inboundStatus? {status : InboundStatus}
    (h : (b.step ⟨now, .redeem transceiver source delivery⟩).inboundStatus? = some status) :
    ∃ receipt, (b.step ⟨now, .redeem transceiver source delivery⟩).outcome =
      .ok (.redeemed receipt) ∧ receipt.status = status := by
  simp only [Step.inboundStatus?, step, perform] at h ⊢
  cases hcall : Call.redeem transceiver now source delivery b with
  | error e after =>
    rw [hcall] at h
    cases h
  | ok receipt after =>
    rw [hcall] at h
    cases h
    exact ⟨receipt, rfl, rfl⟩

/-- **What comes in exceeds what is taken from the capacity by less than one unit.** In every run,
when a message is redeemed and its transfer is approved and released in this call:

* the recipient gains less than one unit of the limits more than the amount by which the capacity
  for the source chain falls;
* if the message carries at most eight decimals, or the token has no more than these, the recipient
  gains exactly that amount. -/
theorem Book.gain_of_released (hfresh : b.Fresh) (events : List Event)
    (houtcome : ((b.run events).step ⟨now, .redeem transceiver source delivery⟩).outcome =
      .ok (.redeemed receipt))
    (hreleased : receipt.status = .released)
    (hnew : ∀ item, (b.run events).manager.inbox.get? receipt.digest = some item →
      item.approved = false) :
    let s := (b.run events).step ⟨now, .redeem transceiver source delivery⟩
    let decimals := s.before.manager.config.tokenDecimals.toNat
    ∃ item, s.after.manager.inbox.get? receipt.digest = some item ∧
      s.after.manager.inboundCapacity source now ≤ s.before.manager.inboundCapacity source now ∧
      s.gain item.recipient < (s.charge source + 1) * 10 ^ (decimals - min 8 decimals) ∧
      (item.amount.decimals.toNat ≤ 8 ∨ decimals ≤ 8 →
        s.gain item.recipient = s.charge source * 10 ^ (decimals - min 8 decimals)) := by
  intro s decimals
  obtain ⟨item, hitem, hcapacity, hbalance⟩ := Call.redeem_gain (hfresh.sound_run events).limits
    (redeem_of_outcome houtcome) hreleased hnew
  -- Gain and charge are differences of which the calls tell the larger side.
  have hgain : s.gain item.recipient = item.amount.nominal s.before.manager.config.tokenDecimals :=
    Nat.sub_eq_of_eq_add' hbalance
  have hcharge : s.charge source = item.amount.nominal (.ofNat s.before.manager.precision) :=
    Nat.sub_eq_of_eq_add' hcapacity
  have hcoarse : (UInt8.ofNat s.before.manager.precision).toNat = min 8 decimals :=
    UInt8.toNat_ofNat_of_lt' (lt_of_le_of_lt (Nat.min_le_left _ _) (by decide))
  have hle : (UInt8.ofNat s.before.manager.precision).toNat ≤ decimals :=
    hcoarse.le.trans (Nat.min_le_right _ _)
  refine ⟨item, hitem, ?_, ?_, ?_⟩
  · exact (Nat.le_add_right _ _).trans hcapacity.ge
  · rw [hgain, hcharge, ← hcoarse]
    exact item.amount.nominal_lt hle
  · intro hdecimals
    rw [hgain, hcharge, ← hcoarse]
    apply TrimmedAmount.nominal_eq hle
    rw [← UInt8.toNat_inj, hcoarse]
    show _ ∨ min 8 decimals = decimals
    omega

namespace Sample

/-- A message from the second chain with an amount in nine decimals, which the token of the first
has and its limits do not. -/
def finerDelivery : Delivery TokenTransfer where
  sourceManager := address 12
  recipientManager := address 11
  message := ⟨ManagerMessage.idOfSequence 0, address 22,
    ⟨⟨9, 9⟩, address 2, address 24, ⟨1⟩⟩⟩

/-- The message is redeemed by the only transceiver. -/
def finerStep : Step :=
  (home.run (queuedEvents.take 2)).step ⟨0, .redeem (address 30) ⟨2⟩ finerDelivery⟩

/-- The call says that the transfer was released just now. -/
theorem finer_released :
    ∃ receipt, finerStep.outcome = .ok (.redeemed receipt) ∧ receipt.status = .released :=
  Book.redeemed_of_inboundStatus? (by decide +kernel)

/-- There was nothing in the inbox before. -/
theorem finer_new (digest : Digest) :
    ∀ item, finerStep.before.manager.inbox.get? digest = some item → item.approved = false := by
  have hnone : finerStep.before.manager.inbox.toList = [] := by decide +kernel
  intro item hitem
  rw [SortedMap.get?_eq_some_iff, hnone] at hitem
  cases hitem

theorem finer_gain :
    home.Fresh ∧ ∃ receipt, finerStep.outcome = .ok (.redeemed receipt) ∧
      receipt.status = .released ∧
      (∀ item, finerStep.before.manager.inbox.get? receipt.digest = some item →
        item.approved = false) ∧
      ∃ item, finerStep.after.manager.inbox.get? receipt.digest = some item ∧
        finerStep.gain item.recipient < (finerStep.charge ⟨2⟩ + 1) * 10 ^ (9 - min 8 9) := by
  obtain ⟨receipt, houtcome, hreleased⟩ := finer_released
  have hnew := finer_new receipt.digest
  unfold finerStep at houtcome hnew ⊢
  obtain ⟨item, hitem, _, hgain, _⟩ :=
    Book.gain_of_released home_fresh (queuedEvents.take 2) houtcome hreleased hnew
  have hdecimals : (home.run (queuedEvents.take 2)).manager.config.tokenDecimals.toNat = 9 := by
    decide +kernel
  simp only [Book.step_before, hdecimals] at hgain
  exact ⟨home_fresh, receipt, houtcome, hreleased, hnew, item, hitem, hgain⟩

/-- **An amount that is paid without any charge**: nine units are less than one unit of the limit,
so the recipient gains more than the capacity falls by. -/
theorem finer_outruns_capacity :
    home.Fresh ∧ (∃ receipt, finerStep.outcome = .ok (.redeemed receipt) ∧
        receipt.status = .released ∧
        ∀ item, finerStep.before.manager.inbox.get? receipt.digest = some item →
          item.approved = false) ∧
      finerStep.before.manager.config.tokenDecimals = 9 ∧
      finerStep.charge ⟨2⟩ = 0 ∧ finerStep.gain (address 24) = 9 ∧
      ¬ finerStep.gain (address 24) ≤ finerStep.charge ⟨2⟩ * 10 ^ (9 - min 8 9) := by
  obtain ⟨receipt, houtcome, hreleased⟩ := finer_released
  exact ⟨home_fresh, ⟨receipt, houtcome, hreleased, finer_new receipt.digest⟩, by decide +kernel,
    by decide +kernel, by decide +kernel, by decide +kernel⟩

end Sample

end CrossChain
