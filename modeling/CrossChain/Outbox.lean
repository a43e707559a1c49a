import CrossChain.Bitmap
import CrossChain.Message.Instructions
import CrossChain.Message.Manager
import CrossChain.Release

/-!
# Outbound transfers

An outbound transfer is remembered under its sequence number, together with the transceivers
that have picked up its message. Each transceiver picks it up once, and all of them get the
same message.
-/

namespace CrossChain

/-- An outbound transfer. -/
structure OutboxItem where
  /-- Its number among the outbound transfers of the manager. -/
  sequence : UInt64
  amount : TrimmedAmount
  sender : Address
  recipientChain : ChainId
  recipientManager : Address
  recipient : Address
  /-- How far the transfer has come. -/
  status : ReleaseStatus
  /-- The transceivers that have picked up the message. -/
  released : Bitmap
  /-- What the sender tells the transceivers. -/
  instructions : Instructions
  /-- Whether the sender took the transfer back. -/
  cancelled : Bool
deriving DecidableEq, Inhabited

namespace OutboxItem

/-- Hands the message to a transceiver. There is no result while the transfer waits. -/
def tryRelease (item : OutboxItem) (id : UInt8) : Except CallError (Option OutboxItem) :=
  if item.cancelled then .error .transferCancelled
  else if item.status ≠ .released then .ok none
  else match item.released.get? id, item.released.set? id true with
    | some true, _ => .error .messageAlreadySent
    | some false, some released => .ok (some { item with released })
    | _, _ => .error .idOutOfBounds

/-- Whether all enabled transceivers have picked up the message. -/
def isFullyReleased (item : OutboxItem) (enabled : Bitmap) : Bool :=
  item.status = .released && item.released.containsAll enabled

/-- The message that the transceivers carry. -/
def message (item : OutboxItem) (sourceToken : Address) : ManagerMessage TokenTransfer :=
  ⟨ManagerMessage.idOfSequence item.sequence, item.sender,
    ⟨item.amount, sourceToken, item.recipient, item.recipientChain⟩⟩

end OutboxItem

end CrossChain
