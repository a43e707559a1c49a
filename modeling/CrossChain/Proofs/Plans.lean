import CrossChain.Manager.Inbound
import CrossChain.Manager.Outbound
import CrossChain.Manager.Transfer
import CrossChain.Proofs.Gate
import CrossChain.Proofs.Members

/-!
# What a plan has checked

A call to a manager first checks and works out what to do, and then does it. For each kind of
call this module says what holds when the checks have passed: every guard, and where each part
of the plan comes from. Later proofs read these facts and never open the checks again.

## Main statements

* `Manager.planTransfer_sends`: a transfer.
* `Manager.planRedeem_eq_ok`, `Manager.planReleaseInbound_eq_ok`: an inbound transfer, which
  passes its gate by `Manager.settleInbound_settles`.
* `Manager.planPickUp_eq_ok`, `Manager.planCancel_eq_ok`: an outbound transfer.
-/

namespace CrossChain

variable {m m' : Manager} {now : Timestamp}

namespace Manager

/-! ## §1 Looking things up -/

theorem requireRunning_eq_ok {c : Config} {u : Unit} :
    c.requireRunning = .ok u ↔ c.paused = false := by
  unfold Config.requireRunning
  split <;> simp_all

theorem requireOwner_eq_ok {c : Config} {caller : Address} {u : Unit} :
    c.requireOwner caller = .ok u ↔ c.owner = caller := by
  unfold Config.requireOwner
  split <;> simp_all

theorem peer_eq_ok {chain : ChainId} {peer : Peer} :
    m.peer chain = .ok peer ↔ m.peers.get? chain = some peer := by
  unfold Manager.peer
  cases m.peers.get? chain <;> simp

theorem inboundLimit_eq_ok {chain : ChainId} {limit : RateLimit} :
    m.inboundLimit chain = .ok limit ↔ m.inboundLimits.get? chain = some limit := by
  unfold Manager.inboundLimit
  cases m.inboundLimits.get? chain <;> simp

theorem inboxItem_eq_ok {digest : Digest} {item : InboxItem} :
    m.inboxItem digest = .ok item ↔ m.inbox.get? digest = some item := by
  unfold Manager.inboxItem
  cases m.inbox.get? digest <;> simp

theorem outboxItem_eq_ok {sequence : UInt64} {item : OutboxItem} :
    m.outboxItem sequence = .ok item ↔ m.outbox.get? sequence = some item := by
  unfold Manager.outboxItem
  cases m.outbox.get? sequence <;> simp

theorem transceiver_eq_ok {address : Address} {t : Transceiver} :
    m.transceiver address = .ok t ↔ m.transceiver? address = some t := by
  unfold Manager.transceiver
  cases m.transceiver? address <;> simp

theorem validateInbound_eq_ok {peers : SortedMap ChainId Peer} {chain : ChainId}
    {claimed : Address} {peer : Peer} :
    validateInbound peers chain claimed = .ok peer ↔
      peers.get? chain = some peer ∧ peer.address = claimed := by
  unfold validateInbound
  cases h : peers.get? chain with
  | none => simp
  | some found =>
    by_cases heq : found.address = claimed
    · simp only [heq, if_true, Except.ok.injEq, Option.some.injEq]
      exact ⟨fun h => ⟨h, h ▸ heq⟩, fun h => h.1⟩
    · simp only [heq, if_false, reduceCtorEq, Option.some.injEq, false_iff, not_and]
      rintro rfl
      exact heq

/-- **Enabled transceivers** are registered, under an id that is enabled. -/
theorem enabledTransceiver_eq_ok {address : Address} {id : UInt8} :
    m.enabledTransceiver address = .ok id ↔
      ∃ t, m.transceiver? address = some t ∧ t.id = id ∧ m.config.enabled.Mem id := by
  simp only [enabledTransceiver, bind_eq_ok, transceiver_eq_ok]
  refine exists_congr fun t => and_congr_right fun _ => ?_
  cases h : m.config.enabled.get? t.id with
  | none =>
    simp only [throw_eq_error, reduceCtorEq, false_iff, not_and]
    rintro rfl
    simp [Bitmap.Mem, h]
  | some enabled =>
    cases enabled with
    | false =>
      simp only [throw_eq_error, reduceCtorEq, false_iff, not_and]
      rintro rfl
      simp [Bitmap.Mem, h]
    | true =>
      simp only [pure_eq_ok]
      exact ⟨fun heq => ⟨heq, heq ▸ h⟩, fun heq => heq.1⟩

theorem nextSequence_eq_ok {current sequence next : UInt64} :
    CrossChain.nextSequence current = .ok (sequence, next) ↔
      sequence = current ∧ next.toNat = current.toNat + 1 := by
  unfold CrossChain.nextSequence
  cases h : Word.add? current 1 with
  | none =>
    have hnot : ¬ next.toNat = current.toNat + 1 := fun hn => by
      have hsome := (Word.add?_eq_some (a := current) (b := 1)).mpr hn
      rw [h] at hsome
      cases hsome
    simp [hnot]
  | some sum =>
    have hsum : sum.toNat = current.toNat + 1 := Word.add?_eq_some.mp h
    simp only [Except.ok.injEq, Prod.mk.injEq, ← hsum, UInt64.toNat_inj]
    exact and_congr eq_comm eq_comm

/-! ## §2 Outbound plans -/

/-- What holds of a transfer that passed all checks. -/
structure Sends (m : Manager) (sender : Address) (now : Timestamp) (request : TransferRequest)
    (plan : TransferPlan) : Prop where
  running : m.config.paused = false
  amount : request.amount ≠ 0
  recipient : request.recipient ≠ Address.zero ∧ plan.item.recipient = request.recipient
  chain : request.recipientChain ≠ m.config.chain ∧
    plan.item.recipientChain = request.recipientChain
  trimmed : ∃ peer, m.peers.get? request.recipientChain = some peer ∧
    plan.item.recipientManager = peer.address ∧
    trimOutbound m.config.dustPolicy request.amount m.config.tokenDecimals peer.tokenDecimals =
      .ok (plan.item.amount, plan.receipt.debited)
  nonzero : plan.item.amount.isZero = false
  instructions : readInstructions request.instructions m.config.nextTransceiver =
    .ok plan.item.instructions
  limits : ∃ inboundLimit gate, m.inboundLimits.get? request.recipientChain = some inboundLimit ∧
    Gate.Passes ⟨.initiated, m.outboundLimit, some inboundLimit⟩ plan.item.amount now
      request.mayQueue plan.receipt.status gate ∧
    plan.item.status = gate.status ∧ plan.outboundLimit = gate.consumed ∧
    plan.inboundLimit = gate.backflow.getD inboundLimit
  sequence : plan.item.sequence = m.nextSequence ∧
    plan.nextSequence.toNat = m.nextSequence.toNat + 1
  sender : plan.item.sender = sender
  fresh : plan.item.released = .empty ∧ plan.item.cancelled = false
  receipt : plan.receipt.sequence = m.nextSequence ∧ plan.receipt.trimmed = plan.item.amount ∧
    plan.receipt.dust = request.amount - plan.receipt.debited

theorem planTransfer_sends {sender : Address} {request : TransferRequest} {plan : TransferPlan}
    (h : m.planTransfer sender now request = .ok plan) : m.Sends sender now request plan := by
  simp only [planTransfer, throw_bind, bind_eq_ok, guard_eq_ok, pure_eq_ok, Prod.exists,
    requireRunning_eq_ok, peer_eq_ok, inboundLimit_eq_ok, nextSequence_eq_ok] at h
  obtain ⟨_, hrunning, hamount, hrecipient, hchain, peer, hpeer, instructions, hinstructions,
    trimmed, debited, htrim, hnonzero, inboundLimit, hlimit, status, gate, hgate, sequence, next,
    ⟨rfl, hnext⟩, rfl⟩ := h
  exact {
    running := hrunning
    amount := hamount
    recipient := ⟨hrecipient, rfl⟩
    chain := ⟨hchain, rfl⟩
    trimmed := ⟨peer, hpeer, rfl, htrim⟩
    nonzero := by simpa using hnonzero
    instructions := hinstructions
    limits := ⟨inboundLimit, gate, hlimit, Gate.passes_of_pass hgate, rfl, rfl, rfl⟩
    sequence := ⟨rfl, hnext⟩
    sender := rfl
    fresh := ⟨rfl, rfl⟩
    receipt := ⟨rfl, rfl, rfl⟩ }

/-- What holds when a transceiver picks up a transfer: the transfer has passed its gate, now or
before, and this transceiver has not picked it up yet. -/
structure HandsOut (m : Manager) (id : UInt8) (now : Timestamp) (item item' : OutboxItem)
    (outboundLimit inboundLimit : RateLimit) : Prop where
  limits : ∃ limit gate, m.inboundLimits.get? item.recipientChain = some limit ∧
    ((gate = ⟨item.status, m.outboundLimit, some limit⟩ ∧ item.status = .released) ∨
      ((∃ time, item.status = .queued time) ∧
        Gate.Passes ⟨item.status, m.outboundLimit, some limit⟩ item.amount now true .released
          gate)) ∧
    outboundLimit = gate.consumed ∧ inboundLimit = gate.backflow.getD limit
  pickedUp : item.released.get? id = some false ∧
    ∃ released, item.released.set? id true = some released ∧
      item' = { item with status := .released, released }

/-- What holds when a transfer that a transceiver wants to pick up still waits. -/
structure Waits (m : Manager) (now : Timestamp) (item item' : OutboxItem) : Prop where
  queued : ∃ limit time gate, m.inboundLimits.get? item.recipientChain = some limit ∧
    (∃ time, item.status = .queued time) ∧
    Gate.Passes ⟨item.status, m.outboundLimit, some limit⟩ item.amount now true (.queued time)
      gate ∧
    item' = { item with status := gate.status }

theorem tryRelease_eq_ok {item item' : OutboxItem} {id : UInt8}
    (h : item.tryRelease id = .ok (some item')) :
    item.status = .released ∧ item.released.get? id = some false ∧
      ∃ released, item.released.set? id true = some released ∧ item' = { item with released } := by
  unfold OutboxItem.tryRelease at h
  split at h
  next => cases h
  next =>
    split at h
    next => cases h
    next hstatus =>
      split at h
      next => cases h
      next released hget hset =>
        cases h
        exact ⟨not_not.mp hstatus, hget, released, hset, rfl⟩
      next => cases h

/-- Helper: moving a transfer on before it is picked up. -/
private theorem advanceQueued_eq_ok {item : OutboxItem} {limit : RateLimit} {advance : Advance}
    {gate : Gate} (h : m.advanceQueued item limit now = .ok (advance, gate)) :
    ((∃ time, item.status = .queued time) ∧
        Gate.Passes ⟨item.status, m.outboundLimit, some limit⟩ item.amount now true advance
          gate) ∨
      (advance = .alreadyReleased ∧ gate = ⟨item.status, m.outboundLimit, some limit⟩) := by
  unfold advanceQueued at h
  split at h
  next time hs => exact .inl ⟨⟨time, hs⟩, Gate.passes_of_pass h⟩
  next =>
    simp only [Except.ok.injEq, Prod.mk.injEq] at h
    exact .inr ⟨h.1.symm, h.2.symm⟩

/-- Helper: a transceiver gets the message of a transfer that passed its gate. -/
private theorem handed_eq_ok {item : OutboxItem} {id : UInt8}
    {outboundLimit inboundLimit : RateLimit} {plan : PickUp}
    (h : (do
      match ← item.tryRelease id with
      | none => throw .cantReleaseYet
      | some item' =>
        return .released item' outboundLimit inboundLimit (m.outboundRelease item' id) :
      Except CallError PickUp) = .ok plan) :
    ∃ item', plan = .released item' outboundLimit inboundLimit (m.outboundRelease item' id) ∧
      item.status = .released ∧ item.released.get? id = some false ∧
      ∃ released, item.released.set? id true = some released ∧
        item' = { item with released } := by
  rw [bind_eq_ok] at h
  obtain ⟨handed, hhanded, hplan⟩ := h
  cases handed with
  | none => cases hplan
  | some item' =>
    rw [pure_eq_ok] at hplan
    exact ⟨item', hplan.symm, tryRelease_eq_ok hhanded⟩

/-- **Picking up a transfer** either hands the message out or finds that the transfer still
waits, which a strict caller does not accept. -/
theorem planPickUp_eq_ok {transceiver : Address} {sequence : UInt64} {strict : Bool}
    {plan : PickUp} (h : m.planPickUp transceiver now sequence strict = .ok plan) :
    m.config.paused = false ∧ ∃ id item, m.enabledTransceiver transceiver = .ok id ∧
      m.outbox.get? sequence = some item ∧ item.cancelled = false ∧
      match plan with
      | .waiting item' => m.Waits now item item' ∧ strict = false
      | .released item' outboundLimit inboundLimit release =>
        m.HandsOut id now item item' outboundLimit inboundLimit ∧
          release = m.outboundRelease item' id := by
  simp only [planPickUp, throw_bind, bind_eq_ok, guard_eq_ok, Prod.exists, requireRunning_eq_ok,
    outboxItem_eq_ok, inboundLimit_eq_ok] at h
  obtain ⟨_, hrunning, id, hid, item, hitem, hcancelled, limit, hlimit, advance, gate, hadvance,
    hplan⟩ := h
  refine ⟨hrunning, id, item, hid, hitem, by simpa using hcancelled, ?_⟩
  rcases advanceQueued_eq_ok hadvance with ⟨hqueued, hpasses⟩ | ⟨rfl, rfl⟩
  · cases advance with
    | queued time =>
      simp only [throw_eq_error, guard_eq_ok, pure_eq_ok] at hplan
      obtain ⟨hstrict, rfl⟩ := hplan
      exact ⟨⟨limit, time, gate, hlimit, hqueued, hpasses, rfl⟩, by simpa using hstrict⟩
    | alreadyReleased =>
      -- A transfer that waits has not passed before.
      obtain ⟨time, hs⟩ := hqueued
      cases hpasses with
      | already hr => rw [hs] at hr; cases hr
    | released =>
      obtain ⟨item', rfl, _, hget, released, hset, rfl⟩ := handed_eq_ok hplan
      exact ⟨⟨⟨limit, gate, hlimit, .inr ⟨hqueued, hpasses⟩, rfl, rfl⟩, hget, released, hset,
        by simp only [hpasses.released.1]⟩, rfl⟩
  · -- What does not wait is handed out only if it passed its gate before.
    obtain ⟨item', rfl, hs, hget, released, hset, rfl⟩ := handed_eq_ok hplan
    exact ⟨⟨⟨limit, _, hlimit, .inl ⟨rfl, hs⟩, rfl, rfl⟩, hget, released, hset,
      by simp only [← hs]⟩, rfl⟩

/-- **Taking a transfer back** is for its sender, and only while it waits. -/
theorem planCancel_eq_ok {caller : Address} {sequence : UInt64} {item : OutboxItem}
    {refund : UInt64} (h : m.planCancel caller sequence = .ok (item, refund)) :
    m.config.paused = false ∧ m.outbox.get? sequence = some item ∧ item.sender = caller ∧
      item.cancelled = false ∧ (∃ time, item.status = .queued time) ∧
      item.amount.untrim m.config.tokenDecimals = .ok refund := by
  simp only [planCancel, throw_bind, bind_eq_ok, guard_eq_ok, requireRunning_eq_ok,
    outboxItem_eq_ok, not_not] at h
  obtain ⟨_, hrunning, found, hfound, hsender, hcancelled, h⟩ := h
  split at h
  next time hs =>
    simp only [bind_eq_ok, mapError_eq_ok, pure_eq_ok, Prod.mk.injEq] at h
    obtain ⟨_, hrefund, rfl, rfl⟩ := h
    exact ⟨hrunning, hfound, hsender, by simpa using hcancelled, ⟨time, hs⟩, hrefund⟩
  next => cases h

/-! ## §3 Inbound plans -/

/-- What holds of an inbound transfer that was moved on. -/
structure Settles (m : Manager) (chain : ChainId) (item : InboxItem) (now : Timestamp)
    (s : Settlement) : Prop where
  via : s.chain = chain
  gate : ∃ limit gate, m.inboundLimits.get? chain = some limit ∧
    Gate.Passes ⟨item.status, limit, some m.outboundLimit⟩ item.amount now true s.advance gate ∧
    s.item = { item with status := gate.status } ∧ s.inboundLimit = gate.consumed ∧
    s.outboundLimit = gate.backflow.getD m.outboundLimit
  payout : (s.advance = .released ∧
      ∃ amount, item.amount.untrim m.config.tokenDecimals = .ok amount ∧ s.payout = some amount) ∨
    (s.advance ≠ .released ∧ s.payout = none)

theorem settleInbound_settles {chain : ChainId} {item : InboxItem} {s : Settlement}
    (h : m.settleInbound chain item now = .ok s) : m.Settles chain item now s := by
  simp only [settleInbound, bind_eq_ok, inboundLimit_eq_ok, Prod.exists] at h
  obtain ⟨limit, hlimit, advance, gate, hgate, h⟩ := h
  have hpasses := Gate.passes_of_pass hgate
  split at h
  next hreleased =>
    split at h
    next amount huntrim =>
      simp only [bind_eq_ok, pure_eq_ok] at h
      obtain ⟨_, rfl, rfl⟩ := h
      exact ⟨rfl, ⟨limit, gate, hlimit, hpasses, rfl, rfl, rfl⟩,
        .inl ⟨hreleased, amount, huntrim, rfl⟩⟩
    next => cases h
  next hnot =>
    simp only [bind_eq_ok, pure_eq_ok] at h
    obtain ⟨_, rfl, rfl⟩ := h
    exact ⟨rfl, ⟨limit, gate, hlimit, hpasses, rfl, rfl, rfl⟩, .inr ⟨hnot, rfl⟩⟩

/-- What holds when a message was accepted from a transceiver. -/
structure Accepts (m : Manager) (transceiver : Address) (source : ChainId)
    (delivery : Delivery TokenTransfer) (digest : Digest) (id : UInt8) : Prop where
  running : m.config.paused = false
  enabled : m.enabledTransceiver transceiver = .ok id
  peer : ∃ peer, m.peers.get? source = some peer ∧ peer.address = delivery.sourceManager
  recipient : delivery.recipientManager = m.config.address
  chain : delivery.message.payload.recipientChain = m.config.chain
  digest : delivery.message.digest TokenTransfer.wire source = .ok digest

/-- An inbound transfer as it stands when its message arrives. -/
def inbound (m : Manager) (source : ChainId) (delivery : Delivery TokenTransfer)
    (digest : Digest) : InboxItem :=
  (m.inbox.get? digest).getD
    (.new source delivery.message.payload.amount delivery.message.payload.recipient)

theorem identify_eq_ok {source : ChainId} {delivery : Delivery TokenTransfer} {digest : Digest}
    (h : m.identify source delivery = .ok digest) :
    (∃ peer, m.peers.get? source = some peer ∧ peer.address = delivery.sourceManager) ∧
      delivery.recipientManager = m.config.address ∧
      delivery.message.payload.recipientChain = m.config.chain ∧
      delivery.message.digest TokenTransfer.wire source = .ok digest := by
  simp only [identify, throw_bind, bind_eq_ok, guard_eq_ok, discard_eq_ok, validateInbound_eq_ok,
    mapError_eq_ok, not_not] at h
  obtain ⟨_, hpeer, hrecipient, hchain, hdigest⟩ := h
  exact ⟨hpeer, hrecipient, hchain, hdigest⟩

/-- **Redeeming a message** finds its transfer released, or records a vote, or records a vote
for a transfer that is approved with it and moves that on. -/
theorem planRedeem_eq_ok {transceiver : Address} {source : ChainId}
    {delivery : Delivery TokenTransfer} {digest : Digest} {plan : RedeemPlan}
    (h : m.planRedeem transceiver now source delivery = .ok (digest, plan)) :
    ∃ id, m.Accepts transceiver source delivery digest id ∧
      match plan with
      | .done votes => (m.inbound source delivery digest).status = .released ∧
          votes = (m.inbound source delivery digest).voteCount
      | .voted item => (m.inbound source delivery digest).status ≠ .released ∧
          ∃ attested, (m.inbound source delivery digest).attest id = .ok attested ∧
            item = attested.tryApprove m.config.threshold m.config.enabled ∧
            item.approved = false
      | .settled s => (m.inbound source delivery digest).status ≠ .released ∧
          ∃ attested item, (m.inbound source delivery digest).attest id = .ok attested ∧
            item = attested.tryApprove m.config.threshold m.config.enabled ∧
            item.approved = true ∧ m.Settles source item now s := by
  simp only [planRedeem, bind_eq_ok, requireRunning_eq_ok] at h
  obtain ⟨_, hrunning, id, hid, digest', hidentify, h⟩ := h
  -- Each of the three branches returns the digest that was computed first.
  have haccepts (heq : digest' = digest) : m.Accepts transceiver source delivery digest id := by
    subst heq
    obtain ⟨hpeer, hrecipient, hchain, hdigest⟩ := identify_eq_ok hidentify
    exact ⟨hrunning, hid, hpeer, hrecipient, hchain, hdigest⟩
  split at h
  next hreleased =>
    simp only [pure_eq_ok, Prod.mk.injEq] at h
    obtain ⟨rfl, rfl⟩ := h
    exact ⟨id, haccepts rfl, hreleased, rfl⟩
  next hnot =>
    simp only [bind_eq_ok] at h
    obtain ⟨attested, hattest, h⟩ := h
    split at h
    next happroved =>
      simp only [pure_eq_ok, Prod.mk.injEq] at h
      obtain ⟨rfl, rfl⟩ := h
      exact ⟨id, haccepts rfl, hnot, attested, hattest, rfl, by simpa using happroved⟩
    next happroved =>
      simp only [bind_eq_ok, pure_eq_ok, Prod.mk.injEq] at h
      obtain ⟨s, hs, rfl, rfl⟩ := h
      exact ⟨id, haccepts rfl, hnot, attested, _, hattest, rfl, by simpa using happroved,
        settleInbound_settles hs⟩

/-- **Releasing an inbound transfer** finds it released, or moves it on if it is approved, maybe
only now. -/
theorem planReleaseInbound_eq_ok {digest : Digest} {plan : Option Settlement}
    (h : m.planReleaseInbound now digest = .ok plan) :
    m.config.paused = false ∧ ∃ found, m.inbox.get? digest = some found ∧
      match plan with
      | none => found.status = .released
      | some s => found.status ≠ .released ∧
          ∃ item, item = found.tryApprove m.config.threshold m.config.enabled ∧
            item.approved = true ∧ m.Settles item.sourceChain item now s := by
  simp only [planReleaseInbound, throw_bind, bind_eq_ok, requireRunning_eq_ok,
    inboxItem_eq_ok] at h
  obtain ⟨_, hrunning, found, hfound, h⟩ := h
  refine ⟨hrunning, found, hfound, ?_⟩
  split at h
  next hreleased =>
    rw [pure_eq_ok] at h
    subst h
    exact hreleased
  next hnot =>
    simp only [guard_eq_ok, bind_eq_ok, pure_eq_ok] at h
    obtain ⟨happroved, s, hs, rfl⟩ := h
    exact ⟨hnot, _, rfl, by simpa using happroved, settleInbound_settles hs⟩

/-- Nothing is paid for a transfer that still has to wait. -/
theorem Settles.payout_of_waits {chain : ChainId} {item : InboxItem} {s : Settlement}
    (h : m.Settles chain item now s) (hwaits : s.waits = true) : s.payout = none := by
  rcases h.payout with ⟨hreleased, _⟩ | ⟨_, hnone⟩
  · rw [Settlement.waits, hreleased] at hwaits
    cases hwaits
  · exact hnone

end Manager

end CrossChain
