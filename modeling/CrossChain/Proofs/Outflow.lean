import CrossChain.Proofs.Inflow
import CrossChain.Proofs.Trimming

/-!
# What goes out and what the limits are charged

A transfer on its way out meets three precisions. It is asked for and paid in that of the token, it
travels in one that both tokens can represent, and it is charged in that of the limits. It is
trimmed once, before anything else is done with it. From then on nothing is lost: the payment, the
amount that travels and the charge are one amount in three precisions, of which the last two are no
finer than the first.

So trimming is also the only conversion that can fail. What it fails with says that the two tokens
are too far apart in their precisions, whatever the amount is.

## Main statements

* `Manager.Sends.splits`: what is paid and what stays with the sender.
* `Manager.Sends.collects`: what the limits are charged.
* `Manager.planTransfer_eq_amount_error`: requests that fail with their amount.
* `Book.transfer_accounted`: runs.
-/

namespace CrossChain

variable {m : Manager} {sender : Address} {now : Timestamp} {request : TransferRequest}
  {plan : TransferPlan}

/-! ## §1 What is paid -/

/-- How an amount is split into what is paid for a transfer and what stays with its sender. -/
structure TransferReceipt.Splits (receipt : TransferReceipt) (amount : UInt64) (decimals : UInt8)
    (policy : DustPolicy) : Prop where
  /-- The amount travels in a precision that the token has. -/
  coarse : receipt.trimmed.decimals.toNat ≤ decimals.toNat
  whole : receipt.debited.toNat + receipt.dust.toNat = amount.toNat
  /-- The payment is what travels. -/
  debited : receipt.debited.toNat =
    receipt.trimmed.amount.toNat * 10 ^ (decimals.toNat - receipt.trimmed.decimals.toNat)
  /-- Less stays than one unit of what travels. -/
  dust : receipt.dust.toNat < 10 ^ (decimals.toNat - receipt.trimmed.decimals.toNat)
  refused : policy = .reject → receipt.dust = 0

namespace Manager

/-- **A transfer splits** the amount that was asked for. -/
theorem Sends.splits (h : m.Sends sender now request plan) :
    plan.receipt.Splits request.amount m.config.tokenDecimals m.config.dustPolicy := by
  obtain ⟨peer, _, _, htrim⟩ := h.trimmed
  obtain ⟨_, htrimmed, hleft⟩ := h.receipt
  obtain ⟨hquotient, hpaid, hexact⟩ := toNat_of_trimOutbound htrim
  have hdivision := Nat.div_add_mod' request.amount.toNat
    (10 ^ TrimmedAmount.cut m.config.tokenDecimals peer.tokenDecimals)
  have hcut : m.config.tokenDecimals.toNat - plan.receipt.trimmed.decimals.toNat =
      TrimmedAmount.cut m.config.tokenDecimals peer.tokenDecimals := by
    rw [htrimmed, (trimOutbound_eq_ok htrim).1, TrimmedAmount.cut]
  have hle : plan.receipt.debited ≤ request.amount := by
    rw [UInt64.le_iff_toNat_le]
    omega
  -- The quotient is paid, so the dust is what the division leaves.
  have hdust : plan.receipt.dust.toNat = request.amount.toNat %
      10 ^ TrimmedAmount.cut m.config.tokenDecimals peer.tokenDecimals := by
    rw [hleft, UInt64.toNat_sub_of_le _ _ hle]
    omega
  refine ⟨?_, by omega, ?_, ?_, fun hpolicy => ?_⟩
  · rw [htrimmed]
    exact h.worth.2
  · rw [hcut, htrimmed, hquotient, hpaid]
  · rw [hcut, hdust]
    exact Nat.mod_lt _ (Nat.pow_pos (by decide))
  · rw [← UInt64.toNat_inj, hdust]
    exact hexact hpolicy

end Manager

/-! ## §2 What the limits are charged -/

/-- A limit has one precision. -/
theorem RateLimit.Regular.decimals_eq {r : RateLimit} {precision : ℕ} {duration : Timestamp}
    (h : r.Regular precision duration) : r.stored.decimals = r.limit.decimals := by
  rw [← UInt8.toNat_inj, h.stored, h.limit]

/-- The capacity for transfers to all chains. -/
def Manager.outboundCapacity (m : Manager) (now : Timestamp) : ℕ :=
  (m.outboundLimit.capacityAt now).amount.toNat

/-- What a manager charges its limits for a transfer, and what becomes of them. -/
structure Manager.Collects (m m' : Manager) (now : Timestamp) (request : TransferRequest)
    (receipt : TransferReceipt) (charge : TrimmedAmount) : Prop where
  /-- The charge is what travels, in the precision of the limit. -/
  charged : receipt.trimmed.changeDecimals m.outboundLimit.limit.decimals = .ok charge
  coarse : m.outboundLimit.limit.decimals.toNat ≤ m.config.tokenDecimals.toNat
  /-- The payment is the charge, in the precision of the token. -/
  debited : receipt.debited.toNat = charge.amount.toNat *
    10 ^ (m.config.tokenDecimals.toNat - m.outboundLimit.limit.decimals.toNat)
  /-- A transfer passes if it fits. -/
  passes : receipt.status = .released ↔ charge.amount.toNat ≤ m.outboundCapacity now
  /-- One that passes is taken off what may go out. -/
  outbound : receipt.status = .released →
    m'.outboundCapacity now + charge.amount.toNat = m.outboundCapacity now
  /-- It makes room for what comes in from the same chain, as far as there can be any. -/
  inbound : receipt.status = .released →
    ∃ limit, m.inboundLimits.get? request.recipientChain = some limit ∧
      m'.inboundCapacity request.recipientChain now =
        min (m.inboundCapacity request.recipientChain now + charge.amount.toNat)
          limit.limit.amount.toNat
  /-- Any other one waits for the duration of the limit, as its sender agreed. -/
  waits : receipt.status ≠ .released → request.mayQueue = true ∧
    ∃ time, receipt.status = .queued time ∧
      time.toInt = min (now.toInt + m.outboundLimit.duration.toInt) Int64.maxValue.toInt
  unchanged : receipt.status ≠ .released →
    m'.outboundLimit = m.outboundLimit ∧ m'.inboundLimits = m.inboundLimits

namespace Manager

/-- **What is sent counts in the precision of the limits**, since the sender is charged for it in
that of the token. -/
theorem countsIn_of_trimOutbound {policy : DustPolicy} {amount debited : UInt64}
    {peerDecimals : UInt8} {trimmed : TrimmedAmount}
    (h : trimOutbound policy amount m.config.tokenDecimals peerDecimals = .ok (trimmed, debited))
    (hnonzero : trimmed.isZero = false) :
    trimmed.decimals.toNat ≤ m.precision ∧ trimmed.CountsIn m.precision := by
  obtain ⟨hdecimals, huntrim⟩ := trimOutbound_eq_ok h
  have hcoarse : trimmed.decimals.toNat ≤ m.precision := by
    rw [hdecimals, TrimmedAmount.toNat_commonDecimals, precision]
    exact Nat.min_le_left _ _
  have hamount : trimmed.amount ≠ 0 := by simpa [TrimmedAmount.isZero] using hnonzero
  exact ⟨hcoarse, TrimmedAmount.countsIn_of_untrim huntrim hamount hcoarse (Nat.min_le_right _ _)⟩

/-- **The charge and the payment** are one amount in two precisions, without a rest. -/
theorem Sends.charge (h : m.Sends sender now request plan) (hlimits : m.Metered) :
    ∃ charge, plan.receipt.trimmed.changeDecimals m.outboundLimit.limit.decimals = .ok charge ∧
      m.outboundLimit.limit.decimals.toNat ≤ m.config.tokenDecimals.toNat ∧
      plan.receipt.debited.toNat = charge.amount.toNat *
        10 ^ (m.config.tokenDecimals.toNat - m.outboundLimit.limit.decimals.toNat) := by
  obtain ⟨peer, _, _, htrim⟩ := h.trimmed
  obtain ⟨hcoarse, hcounts⟩ := countsIn_of_trimOutbound htrim h.nonzero
  obtain ⟨charge, hcharge, _⟩ := hcounts _ hlimits.outbound.limit
  have hle : m.outboundLimit.limit.decimals.toNat ≤ m.config.tokenDecimals.toNat :=
    hlimits.outbound.limit.le.trans (Nat.min_le_right _ _)
  rw [← hlimits.outbound.limit] at hcoarse
  refine ⟨charge, by rw [h.receipt.2.1, hcharge], hle, ?_⟩
  rw [TrimmedAmount.toNat_of_untrim h.worth.1, TrimmedAmount.nominal_eq hle (.inl hcoarse),
    TrimmedAmount.toNat_of_untrim (TrimmedAmount.changeDecimals_eq_ok.mp hcharge).2]

/-- **What the limits are charged** for a transfer is what its sender pays. -/
theorem Sends.collects (h : m.Sends sender now request plan) (hlimits : m.Metered) :
    ∃ charge, m.Collects (m.recordTransfer plan) now request plan.receipt charge := by
  obtain ⟨charge, hcharge, hle, hpaid⟩ := h.charge hlimits
  obtain ⟨limit, gate, hlimit, hpasses, _, hout, hin⟩ := h.limits
  have hregular := hlimits.inbound _ limit hlimit
  have hduration := hlimits.duration_pos hlimits.outbound
  have hdecimals : limit.stored.decimals = m.outboundLimit.stored.decimals := by
    rw [← UInt8.toNat_inj, hregular.stored, hlimits.outbound.stored]
  -- The gate expresses the amount in the decimals of the stored capacity, which are the same.
  rw [← hlimits.outbound.decimals_eq, h.receipt.2.1] at hcharge
  obtain ⟨rescaled, hrescaled, hfits, hwaits⟩ := hpasses.of_initiated rfl
  cases hcharge.symm.trans hrescaled
  -- What is taken from the one limit is given back to the other one.
  have hpassed (hreleased : plan.receipt.status = .released) :
      ∃ raised, gate.backflow = some raised ∧
        (gate.consumed.capacityAt now).amount.toNat =
          (m.outboundLimit.capacityAt now).amount.toNat - charge.amount.toNat ∧
        (raised.capacityAt now).amount.toNat =
          min ((limit.capacityAt now).amount.toNat + charge.amount.toNat)
            limit.limit.amount.toNat := by
    rw [hreleased] at hpasses
    obtain ⟨_, raised, hsame, hafter, hspent, hraised, _⟩ :=
      hpasses.exchanged hduration rfl (hlimits.duration_pos hregular) hdecimals
    cases hcharge.symm.trans hsame
    exact ⟨raised, hafter, hspent, hraised⟩
  have hinsert : (m.recordTransfer plan).inboundLimits =
      m.inboundLimits.insert request.recipientChain (gate.backflow.getD limit) := by
    rw [recordTransfer, hin, h.chain.2]
  refine ⟨charge, by rw [← hlimits.outbound.decimals_eq, h.receipt.2.1, hcharge], hle, hpaid,
    ?_, ?_, ?_, ?_, ?_⟩
  · rw [hfits, UInt64.le_iff_toNat_le]
    rfl
  · intro hreleased
    obtain ⟨raised, _, hspent, _⟩ := hpassed hreleased
    show (plan.outboundLimit.capacityAt now).amount.toNat + _ = _
    rw [hout, hspent]
    exact Nat.sub_add_cancel (UInt64.le_iff_toNat_le.mp (hfits.mp hreleased))
  · intro hreleased
    obtain ⟨raised, hafter, _, hraised⟩ := hpassed hreleased
    refine ⟨limit, hlimit, ?_⟩
    rw [inboundCapacity, inboundCapacity, hinsert, hafter, Option.getD_some,
      SortedMap.get?_insert_self, hlimit, Option.elim_some, Option.elim_some, hraised]
  · intro hnot
    obtain ⟨hmay, hqueued, _⟩ := hwaits hnot
    exact ⟨hmay, _, hqueued, RateLimit.toInt_delayFrom hduration now⟩
  · intro hnot
    -- The limit of the chain is written down again as it was.
    obtain ⟨_, _, hconsumed, hbackflow⟩ := hwaits hnot
    refine ⟨hout.trans hconsumed, ?_⟩
    rw [hinsert, hbackflow, Option.getD_some, SortedMap.insert_self hlimit]

/-! ## §3 Requests that fail with their amount -/

/-- A request passes all checks that come before its amount. -/
structure Considers (m : Manager) (request : TransferRequest) (peer : Peer) : Prop where
  running : m.config.paused = false
  amount : request.amount ≠ 0
  recipient : request.recipient ≠ Address.zero
  chain : request.recipientChain ≠ m.config.chain
  peer : m.peers.get? request.recipientChain = some peer
  instructions : ∃ instructions,
    readInstructions request.instructions m.config.nextTransceiver = .ok instructions

/-! No other check fails with the amount. -/

private theorem requireRunning_ne {c : Config} {e : AmountError} :
    c.requireRunning ≠ .error (.amount e) := by
  unfold Config.requireRunning
  split <;> simp

private theorem peer_ne {chain : ChainId} {e : AmountError} :
    m.peer chain ≠ .error (.amount e) := by
  unfold Manager.peer
  split <;> simp

private theorem inboundLimit_ne {chain : ChainId} {e : AmountError} :
    m.inboundLimit chain ≠ .error (.amount e) := by
  unfold inboundLimit
  split <;> simp

private theorem readInstructions_ne {bytes : Bytes} {registered : UInt8} {e : AmountError} :
    readInstructions bytes registered ≠ .error (.amount e) := by
  unfold readInstructions
  split
  next => simp
  next =>
    split
    next => simp
    next =>
      split
      next => simp
      next => split <;> simp

private theorem nextSequence_ne {current : UInt64} {e : AmountError} :
    CrossChain.nextSequence current ≠ .error (.amount e) := by
  unfold CrossChain.nextSequence
  split <;> simp

/-- **A request fails with its amount** if and only if the two tokens are too far apart in their
precisions. -/
theorem planTransfer_eq_amount_error (hlimits : m.Metered) (sender : Address) (now : Timestamp)
    (request : TransferRequest) (e : AmountError) :
    m.planTransfer sender now request = .error (.amount e) ↔
      e = .exponentOverflow ∧ ∃ peer, m.Considers request peer ∧
        20 ≤ TrimmedAmount.cut m.config.tokenDecimals peer.tokenDecimals := by
  constructor
  · intro h
    -- What is left of the checks is the amount itself, and what comes after it.
    simp only [planTransfer, throw_bind, bind_eq_error, guard_eq_error, requireRunning_ne, peer_ne,
      inboundLimit_ne, readInstructions_ne, nextSequence_ne, requireRunning_eq_ok, peer_eq_ok,
      inboundLimit_eq_ok, reduceCtorEq, and_false, false_or, Prod.exists] at h
    obtain ⟨_, hrunning, hamount, hrecipient, hchain, peer, hpeer, instructions, hinstructions,
      htrim | ⟨trimmed, debited, htrim, hnonzero, limit, hlimit, hlater⟩⟩ := h
    · rw [trimOutbound_eq] at htrim
      split at htrim
      next hfar =>
        cases htrim
        exact ⟨rfl, peer, ⟨hrunning, hamount, hrecipient, hchain, hpeer, _, hinstructions⟩, hfar⟩
      next => split at htrim <;> cases htrim
    · -- What was trimmed can be charged.
      have hcounts := (countsIn_of_trimOutbound htrim (by simpa using hnonzero)).2
      have hgate := Gate.pass_of_initiated ⟨.initiated, m.outboundLimit, some limit⟩ now
        request.mayQueue rfl (.of_limits hlimits.outbound (hlimits.inbound _ limit hlimit)) hcounts
      rcases hlater with hfails | ⟨_, _, _, _, _, _, hfails⟩
      · rcases hgate with ⟨_, _, hok⟩ | hrefused
        · cases hok.symm.trans hfails
        · cases hrefused.symm.trans hfails
      · cases hfails
  · rintro ⟨rfl, peer, h, hfar⟩
    obtain ⟨instructions, hinstructions⟩ := h.instructions
    have hfails : trimOutbound m.config.dustPolicy request.amount m.config.tokenDecimals
        peer.tokenDecimals = .error (.amount .exponentOverflow) := by
      rw [trimOutbound_eq, if_pos hfar]
    have running : m.config.requireRunning = .ok () := requireRunning_eq_ok.mpr h.running
    simp only [planTransfer, running, h.amount, h.recipient, h.chain, peer_eq_ok.mpr h.peer,
      hinstructions, hfails, ok_bind, if_false]
    rfl

end Manager

/-! ## §4 Runs -/

/-- A transfer is accounted for: by its receipt, by the balance of its sender and by the limits. -/
structure Step.Accounts (s : Step) (sender : Address) (request : TransferRequest)
    (receipt : TransferReceipt) : Prop where
  splits : receipt.Splits request.amount s.before.manager.config.tokenDecimals
    s.before.manager.config.dustPolicy
  paid : (s.after.token.balanceOf sender).toNat + receipt.debited.toNat =
    (s.before.token.balanceOf sender).toNat
  charged : ∃ charge,
    s.before.manager.Collects s.after.manager s.event.now request receipt charge

variable {b : Book}

/-- Helper: a step that sends tokens fails with its plan or with the token, or carries the plan
out. -/
private theorem Book.transfer_cases (b : Book) (sender : Address) (now : Timestamp)
    (request : TransferRequest) :
    let s := b.step ⟨now, .transfer sender request⟩
    (∃ e, b.manager.planTransfer sender now request = .error e ∧ s.outcome = .error (.call e)) ∨
      ∃ plan, b.manager.planTransfer sender now request = .ok plan ∧
        ((∃ e, s.outcome = .error (.call (.token e))) ∨
          (s.outcome = .ok (.sent plan.receipt) ∧ s.after.manager = b.manager.recordTransfer plan ∧
            s.Takes sender plan.receipt.debited)) := by
  have hcall := Call.transfer_eq b sender now request
  cases hplan : b.manager.planTransfer sender now request with
  | error e =>
    rw [hplan] at hcall
    exact .inl ⟨e, rfl, by simp only [step, perform, hcall, observe]⟩
  | ok plan =>
    refine .inr ⟨plan, rfl, ?_⟩
    cases hdebit : Token.debit b.manager.config.mode sender plan.receipt.debited b.token with
    | error e token =>
      simp only [hplan, hdebit] at hcall
      exact .inl ⟨e, by simp only [step, perform, hcall, observe]⟩
    | ok u token =>
      simp only [hplan, hdebit] at hcall
      simp only [Step.Takes, step, perform, hcall, observe]
      exact .inr ⟨trivial, trivial, hdebit⟩

/-- **Every transfer is accounted for.** In every run, when an account sends tokens:

* if this succeeds, the payment and the dust are the amount. The payment is what travels, less than
  one unit of that stays, and nothing under a policy that refuses dust. The sender has as much less
  as it paid;
* the charge is the payment in the precision of the limit, without a rest, and the transfer is
  released exactly when the charge fits the capacity. Then the capacity falls by the charge, and the
  one for transfers from the recipient's chain rises by it, up to its limit. Otherwise the transfer
  waits for the duration of the limit, as its sender agreed, and all limits stay as they are;
* it fails with the amount exactly when all checks before it pass and 20 decimals or more would be
  cut off, and what it says is that the power of ten does not fit. -/
theorem Book.transfer_accounted (hfresh : b.Fresh) (events : List Event) (sender : Address)
    (now : Timestamp) (request : TransferRequest) :
    let s := (b.run events).step ⟨now, .transfer sender request⟩
    (∀ answer, s.outcome = .ok answer →
        ∃ receipt, answer = .sent receipt ∧ s.Accounts sender request receipt) ∧
      ∀ e, s.outcome = .error (.call (.amount e)) ↔
        e = .exponentOverflow ∧ ∃ peer, s.before.manager.Considers request peer ∧
          20 ≤ TrimmedAmount.cut s.before.manager.config.tokenDecimals peer.tokenDecimals := by
  intro s
  have hlimits := (hfresh.sound_run events).limits
  refine ⟨fun answer hok => ?_, fun e => ?_⟩
  · rcases (b.run events).transfer_cases sender now request with
      ⟨e, _, houtcome⟩ | ⟨plan, hplan, ⟨e, houtcome⟩ | ⟨houtcome, hafter, htakes⟩⟩
    · cases houtcome.symm.trans hok
    · cases houtcome.symm.trans hok
    · cases houtcome.symm.trans hok
      have hsends := Manager.planTransfer_sends hplan
      refine ⟨plan.receipt, rfl, hsends.splits, Token.balanceOf_payer_of_debit htakes, ?_⟩
      show ∃ charge, Manager.Collects _ s.after.manager _ _ _ charge
      rw [hafter]
      exact hsends.collects hlimits
  · rw [Book.step_before, ← Manager.planTransfer_eq_amount_error hlimits sender now request e]
    rcases (b.run events).transfer_cases sender now request with
      ⟨error, hplan, houtcome⟩ | ⟨plan, hplan, ⟨error, houtcome⟩ | ⟨houtcome, _⟩⟩ <;>
      simp [s, houtcome, hplan]

namespace Sample

/-- What is asked for on the first chain. -/
def remittance : TransferRequest := ⟨123456789, ⟨2⟩, address 22, false, []⟩

/-- An account sends it. -/
def remittanceStep : Step :=
  (home.run (homeEvents.take 2)).step ⟨1, .transfer (address 20) remittance⟩

/-- A token with 27 decimals instead of nine, of which eight can travel. -/
def distant : Book where
  manager := ((Manager.create (token 27) (address 9) 0 (settings 1 .locking)).toOption).get
    (by decide)
  token := token 27

theorem distant_fresh : distant.Fresh := ⟨address 9, 0, settings 1 .locking, eq_ok_get (by decide)⟩

/-- Two digits stay with the sender, who has paid the rest. The limit has one decimal less than the
token, so it is charged a tenth of that. From the token with 27 decimals to one with seven nothing
can be sent. -/
theorem remittance_accounted :
    home.Fresh ∧
      remittanceStep.outcome = .ok (.sent ⟨0, .released, 123456700, 89, ⟨1234567, 7⟩⟩) ∧
      remittanceStep.Accounts (address 20) remittance ⟨0, .released, 123456700, 89, ⟨1234567, 7⟩⟩ ∧
      remittanceStep.before.manager.outboundCapacity 1 = 100000000 ∧
      remittanceStep.after.manager.outboundCapacity 1 = 87654330 ∧
      distant.Fresh ∧
      ((distant.run (homeEvents.take 2)).step ⟨1, .transfer (address 20) remittance⟩).outcome =
        .error (.call (.amount .exponentOverflow)) := by
  have houtcome : remittanceStep.outcome =
      .ok (.sent ⟨0, .released, 123456700, 89, ⟨1234567, 7⟩⟩) := by decide +kernel
  obtain ⟨receipt, hreceipt, haccounts⟩ :=
    (Book.transfer_accounted home_fresh (homeEvents.take 2) (address 20) 1 remittance).1 _ houtcome
  cases hreceipt
  have hpeer : (distant.run (homeEvents.take 2)).manager.peers.get? ⟨2⟩ =
      some ⟨address 12, 7⟩ := by decide +kernel
  have hconsiders : (distant.run (homeEvents.take 2)).manager.Considers remittance
      ⟨address 12, 7⟩ :=
    ⟨by decide +kernel, by decide, by decide, by decide +kernel, hpeer, .empty, rfl⟩
  have hfails :=
    (Book.transfer_accounted distant_fresh (homeEvents.take 2) (address 20) 1 remittance).2
      .exponentOverflow
  exact ⟨home_fresh, houtcome, haccounts, by decide +kernel, by decide +kernel, distant_fresh,
    hfails.mpr ⟨rfl, _, hconsiders, by decide +kernel⟩⟩

end Sample

end CrossChain
