import CrossChain.Manager.Call
import CrossChain.Message.Manager

/-!
# Handing out and taking back outbound transfers

Each enabled transceiver picks up the message of an outbound transfer once. A transfer that
was queued passes the outbound limit when the first transceiver picks it up after its time.
Until then its sender may take the tokens back.
-/

namespace CrossChain

/-- What a transceiver has to send. -/
structure OutboundRelease where
  message : ManagerMessage TokenTransfer
  recipientChain : ChainId
  recipientManager : Address
  /-- What the sender of the transfer tells this transceiver. -/
  instruction : Option Bytes
deriving DecidableEq, Inhabited

/-- What picking up a transfer comes to. -/
inductive PickUp where
  | waiting (item : OutboxItem)
  /-- The transceiver gets the message; the limits are as they are then. -/
  | released (item : OutboxItem) (outboundLimit inboundLimit : RateLimit)
      (release : OutboundRelease)

namespace Manager

/-- What a transceiver has to send for a transfer. -/
def outboundRelease (m : Manager) (item : OutboxItem) (id : UInt8) : OutboundRelease where
  message := item.message m.config.tokenAddress
  recipientChain := item.recipientChain
  recipientManager := item.recipientManager
  instruction := item.instructions.get? id

/-- Moves a transfer on, if it waits in the queue. -/
def advanceQueued (m : Manager) (item : OutboxItem) (inboundLimit : RateLimit)
    (now : Timestamp) : Except CallError (Advance × Gate) :=
  let gate : Gate := ⟨item.status, m.outboundLimit, some inboundLimit⟩
  match item.status with
  | .queued _ => gate.pass item.amount now true
  -- A transfer in any other status does not touch the limits.
  | _ => .ok (.alreadyReleased, gate)

/-- Checks whether a transceiver may pick up a transfer and works out what that does. A
`strict` caller wants no transfer that has to wait. -/
def planPickUp (m : Manager) (transceiver : Address) (now : Timestamp) (sequence : UInt64)
    (strict : Bool) : Except CallError PickUp := do
  m.config.requireRunning
  let id ← m.enabledTransceiver transceiver
  let item ← m.outboxItem sequence
  if item.cancelled then throw .transferCancelled
  let inboundLimit ← m.inboundLimit item.recipientChain
  let (advance, gate) ← m.advanceQueued item inboundLimit now
  let item := { item with status := gate.status }
  match advance with
  | .queued _ => if strict then throw .cantReleaseYet else return .waiting item
  | _ =>
    match ← item.tryRelease id with
    -- Only a transfer that never passed its gate gets here unreleased.
    | none => throw .cantReleaseYet
    | some item =>
      return .released item gate.consumed (gate.backflow.getD inboundLimit)
        (m.outboundRelease item id)

/-- Checks whether a transfer may be taken back and works out what its sender gets. -/
def planCancel (m : Manager) (caller : Address) (sequence : UInt64) :
    Except CallError (OutboxItem × UInt64) := do
  m.config.requireRunning
  let item ← m.outboxItem sequence
  if item.sender ≠ caller then throw .cancellerNotSender
  if item.cancelled then throw .transferCancelled
  match item.status with
  | .queued _ =>
    let refund ← (item.amount.untrim m.config.tokenDecimals).mapError .amount
    return (item, refund)
  | _ => throw .transferNotQueued

/-- Records an outbound transfer. -/
def recordOutbound (m : Manager) (sequence : UInt64) (item : OutboxItem) : Manager :=
  { m with outbox := m.outbox.insert sequence item }

/-- Records an outbound transfer that was handed out, and the limits it touched. -/
def recordPickUp (m : Manager) (sequence : UInt64) (item : OutboxItem)
    (outboundLimit inboundLimit : RateLimit) : Manager :=
  { m with
    outbox := m.outbox.insert sequence item
    outboundLimit
    inboundLimits := m.inboundLimits.insert item.recipientChain inboundLimit }

end Manager

namespace Call

/-- Hands an outbound transfer to the given transceiver. There is no message while the
transfer waits. -/
def releaseOutbound (transceiver : Address) (now : Timestamp) (sequence : UInt64)
    (strict : Bool) : Call (Option OutboundRelease) := do
  let m ← manager
  match ← require (m.planPickUp transceiver now sequence strict) with
  | .waiting item =>
    setManager (m.recordOutbound sequence item)
    return none
  | .released item outboundLimit inboundLimit release =>
    setManager (m.recordPickUp sequence item outboundLimit inboundLimit)
    return some release

/-- Takes back a transfer that waits in the queue and returns the tokens to its sender. The
dust never left the sender, so the refund is what was taken. -/
def cancelOutbound (caller : Address) (sequence : UInt64) : Call UInt64 := do
  let m ← manager
  let (item, refund) ← require (m.planCancel caller sequence)
  onToken (Token.credit m.config.mode item.sender refund)
  setManager (m.recordOutbound sequence { item with cancelled := true })
  return refund

end Call

end CrossChain
