import CrossChain.Manager.Call
import CrossChain.Message.Envelope

/-!
# Receiving tokens

A transceiver that received a message vouches for it by redeeming it. When enough enabled
transceivers have done so the transfer is approved and released, as far as the inbound limit
allows: its recipient is paid, and the amount is given back to the outbound limit. A transfer
that has to wait is released later, by anyone.

Redeeming a message whose transfer was released before does nothing and succeeds, so a
delivery may be repeated safely.
-/

namespace CrossChain

/-- Where an inbound transfer stands after a call. -/
inductive InboundStatus where
  /-- Too few transceivers vouch for it. -/
  | notApproved
  /-- The recipient has just been paid. -/
  | released
  /-- It is approved and waits until the given time. -/
  | queued (time : Timestamp)
  /-- The recipient was paid before; nothing happened. -/
  | alreadyReleased
deriving DecidableEq, Inhabited

/-- Where an approved transfer stands after it was moved on. -/
def InboundStatus.ofAdvance : Advance → InboundStatus
  | .released => .released
  | .queued time => .queued time
  | .alreadyReleased => .alreadyReleased

/-- What a transceiver is told when it redeems a message. -/
structure RedeemReceipt where
  digest : Digest
  /-- The number of votes, whether the transceivers are enabled or not. -/
  votes : Nat
  /-- Where the transfer stands. -/
  status : InboundStatus
deriving DecidableEq, Inhabited

/-- An inbound transfer after it was moved on, with the limits as they are then. -/
structure Settlement where
  item : InboxItem
  /-- The chain whose inbound limit it goes through. -/
  chain : ChainId
  inboundLimit : RateLimit
  outboundLimit : RateLimit
  /-- What moving it on has achieved. -/
  advance : Advance
  /-- What its recipient is to be paid, in the decimals of the token. -/
  payout : Option UInt64

/-- Whether the transfer still has to wait. -/
def Settlement.waits (s : Settlement) : Bool :=
  match s.advance with
  | .queued _ => true
  | _ => false

namespace Manager

/-- Moves an approved transfer on through the inbound limit of a chain, and works out what
its recipient is to be paid. -/
def settleInbound (m : Manager) (chain : ChainId) (item : InboxItem) (now : Timestamp) :
    Except CallError Settlement := do
  let inboundLimit ← m.inboundLimit chain
  let (advance, gate) ← Gate.pass ⟨item.status, inboundLimit, some m.outboundLimit⟩
    item.amount now true
  let payout ←
    -- Nothing is paid for a transfer that waits or was released before.
    if advance = .released then
      match item.amount.untrim m.config.tokenDecimals with
      | .ok amount => pure (some amount)
      | .error e => throw (.amount e)
    else pure none
  return {
    item := { item with status := gate.status }
    chain
    inboundLimit := gate.consumed
    outboundLimit := gate.backflow.getD m.outboundLimit
    advance
    payout }

/-- Records an inbound transfer. -/
def recordInbound (m : Manager) (digest : Digest) (item : InboxItem) : Manager :=
  { m with inbox := m.inbox.insert digest item }

/-- Records an inbound transfer that was moved on, and the limits it touched. -/
def recordSettlement (m : Manager) (digest : Digest) (s : Settlement) : Manager :=
  { m with
    inbox := m.inbox.insert digest s.item
    inboundLimits := m.inboundLimits.insert s.chain s.inboundLimit
    outboundLimit := s.outboundLimit }

/-- Checks that a message is meant for this manager and comes from the peer on its chain, and
works out its key. -/
def identify (m : Manager) (source : ChainId) (delivery : Delivery TokenTransfer) :
    Except CallError Digest := do
  discard (validateInbound m.peers source delivery.sourceManager)
  if delivery.recipientManager ≠ m.config.address then throw .invalidRecipientManager
  if delivery.message.payload.recipientChain ≠ m.config.chain then throw .invalidChainId
  (delivery.message.digest TokenTransfer.wire source).mapError .wire

/-- What redeeming a message comes to. -/
inductive RedeemPlan where
  /-- The transfer was released before. -/
  | done (votes : Nat)
  /-- The vote is recorded, and more are needed. -/
  | voted (item : InboxItem)
  /-- The transfer is approved and moved on. -/
  | settled (settlement : Settlement)

/-- Checks a message that a transceiver redeems and works out what that does. -/
def planRedeem (m : Manager) (transceiver : Address) (now : Timestamp) (source : ChainId)
    (delivery : Delivery TokenTransfer) : Except CallError (Digest × RedeemPlan) := do
  m.config.requireRunning
  let id ← m.enabledTransceiver transceiver
  let digest ← m.identify source delivery
  let transfer := delivery.message.payload
  let item := (m.inbox.get? digest).getD (.new source transfer.amount transfer.recipient)
  -- A repeated delivery of a released transfer is no second vote.
  if item.status = .released then return (digest, .done item.voteCount)
  let item ← item.attest id
  let item := item.tryApprove m.config.threshold m.config.enabled
  -- The vote counts even if it does not yet suffice.
  if !item.approved then return (digest, .voted item)
  let settlement ← m.settleInbound source item now
  return (digest, .settled settlement)

/-- Checks whether an inbound transfer may be released and works out what that does; there is
nothing to do for a transfer that was released before. Votes may reach a threshold that was
lowered after the last of them. -/
def planReleaseInbound (m : Manager) (now : Timestamp) (digest : Digest) :
    Except CallError (Option Settlement) := do
  m.config.requireRunning
  let item ← m.inboxItem digest
  if item.status = .released then return none
  let item := item.tryApprove m.config.threshold m.config.enabled
  if !item.approved then throw .transferNotApproved
  let settlement ← m.settleInbound item.sourceChain item now
  return some settlement

end Manager

namespace Call

/-- Pays the recipient of a transfer, if it was released. -/
def pay (m : Manager) (s : Settlement) : Call Unit :=
  match s.payout with
  | some amount => onToken (Token.credit m.config.mode s.item.recipient amount)
  | none => pure ()

/-- Pays the recipient of a transfer, if it was released, and records the transfer. -/
def settle (m : Manager) (digest : Digest) (s : Settlement) : Call Unit := do
  pay m s
  setManager (m.recordSettlement digest s)

/-- Vouches, as the given transceiver, for a message that came from another chain. -/
def redeem (transceiver : Address) (now : Timestamp) (source : ChainId)
    (delivery : Delivery TokenTransfer) : Call RedeemReceipt := do
  let m ← manager
  let (digest, plan) ← require (m.planRedeem transceiver now source delivery)
  match plan with
  | .done votes => return ⟨digest, votes, .alreadyReleased⟩
  | .voted item =>
    setManager (m.recordInbound digest item)
    return ⟨digest, item.voteCount, .notApproved⟩
  | .settled s =>
    settle m digest s
    return ⟨digest, s.item.voteCount, .ofAdvance s.advance⟩

/-- Releases an inbound transfer that has waited long enough; anyone may do so. A `strict` caller
wants no transfer that has to wait. -/
def releaseInbound (now : Timestamp) (digest : Digest) (strict : Bool) :
    Call InboundStatus := do
  let m ← manager
  match ← require (m.planReleaseInbound now digest) with
  | none => return .alreadyReleased
  | some s =>
    pay m s
    -- Nothing was paid if the transfer waits, so there is nothing to take back.
    if strict && s.waits then throw .cantReleaseYet
    setManager (m.recordSettlement digest s)
    return .ofAdvance s.advance

end Call

end CrossChain
