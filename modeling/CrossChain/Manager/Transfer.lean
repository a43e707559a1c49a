import CrossChain.Manager.Call
import CrossChain.Message.Instructions

/-!
# Sending tokens

An outbound transfer takes the tokens from the sender and is recorded under the next sequence
number. Either it passes the outbound limit at once, or it is queued, if the sender agreed to
that. The tokens are taken in both cases.

## Order of the checks

The request itself comes first, then the peer, the instructions, the amount, the limits, the
sequence number and last the tokens of the sender. Only then anything is recorded.
-/

namespace CrossChain

/-- What a sender asks for. -/
structure TransferRequest where
  /-- How much, in the decimals of the token. -/
  amount : UInt64
  recipientChain : ChainId
  recipient : Address
  /-- Whether the transfer may be queued. -/
  mayQueue : Bool
  /-- Instructions for the transceivers as bytes; none at all means no instructions. -/
  instructions : Bytes
deriving DecidableEq, Inhabited

/-- What became of a request. -/
structure TransferReceipt where
  sequence : UInt64
  /-- Whether the transfer has passed or waits. -/
  status : Advance
  /-- What was taken from the sender, in the decimals of the token. -/
  debited : UInt64
  /-- What stays with the sender because the other chain cannot represent it. -/
  dust : UInt64
  /-- The amount as it travels. -/
  trimmed : TrimmedAmount
deriving DecidableEq, Inhabited

/-- The instructions in the given bytes, all of them for registered transceivers. -/
def readInstructions (bytes : Bytes) (registered : UInt8) : Except CallError Instructions :=
  if bytes = [] then .ok .empty
  else match Wire.decode Instructions.wire bytes with
    | .error e => .error (.wire e)
    | .ok list =>
      match list.lastIndex? with
      | none => .ok list
      -- The indices ascend, so the last one speaks for all.
      | some index =>
        if registered ≤ index then .error (.invalidInstructionIndex index) else .ok list

/-- The amount that travels and the amount that the sender pays, as the policy on dust
prescribes. -/
def trimOutbound (policy : DustPolicy) (amount : UInt64) (decimals peerDecimals : UInt8) :
    Except CallError (TrimmedAmount × UInt64) :=
  match policy with
  | .reject =>
    match TrimmedAmount.trimExact amount decimals peerDecimals with
    | .ok trimmed => .ok (trimmed, amount)
    | .error (.hasDust dust) => .error (.amountHasDust dust)
    | .error e => .error (.amount e)
  | .truncate => (TrimmedAmount.removeDust amount decimals peerDecimals).mapError .amount

/-- A transfer that passed all checks, with the limits as they are after it. -/
structure TransferPlan where
  item : OutboxItem
  nextSequence : UInt64
  outboundLimit : RateLimit
  /-- The inbound limit of the recipient's chain after it. -/
  inboundLimit : RateLimit
  /-- What the sender pays and is told. -/
  receipt : TransferReceipt

namespace Manager

/-- Checks a request and works out what it does. -/
def planTransfer (m : Manager) (sender : Address) (now : Timestamp)
    (request : TransferRequest) : Except CallError TransferPlan := do
  m.config.requireRunning
  -- The request by itself.
  if request.amount = 0 then throw .zeroAmount
  if request.recipient = Address.zero then throw .invalidRecipientAddress
  if request.recipientChain = m.config.chain then throw .invalidChainId
  -- The peer, and who is told what.
  let peer ← m.peer request.recipientChain
  let instructions ← readInstructions request.instructions m.config.nextTransceiver
  -- The amount, as it travels and as it is paid.
  let (trimmed, debited) ← trimOutbound m.config.dustPolicy request.amount
    m.config.tokenDecimals peer.tokenDecimals
  if trimmed.isZero then throw .zeroAmount
  -- The limits: what goes out makes room for what comes in from the same chain.
  let inboundLimit ← m.inboundLimit request.recipientChain
  let (status, gate) ← Gate.pass ⟨.initiated, m.outboundLimit, some inboundLimit⟩
    trimmed now request.mayQueue
  let (sequence, next) ← CrossChain.nextSequence m.nextSequence
  return {
    item := {
      sequence
      amount := trimmed
      sender
      recipientChain := request.recipientChain
      recipientManager := peer.address
      recipient := request.recipient
      status := gate.status
      released := .empty
      instructions
      cancelled := false }
    nextSequence := next
    outboundLimit := gate.consumed
    inboundLimit := gate.backflow.getD inboundLimit
    receipt := { sequence, status, debited, dust := request.amount - debited, trimmed } }

/-- Records a transfer. -/
def recordTransfer (m : Manager) (plan : TransferPlan) : Manager :=
  { m with
    nextSequence := plan.nextSequence
    outboundLimit := plan.outboundLimit
    inboundLimits := m.inboundLimits.insert plan.item.recipientChain plan.inboundLimit
    outbox := m.outbox.insert plan.item.sequence plan.item }

end Manager

namespace Call

/-- Sends tokens of the sender to another chain. -/
def transfer (sender : Address) (now : Timestamp) (request : TransferRequest) :
    Call TransferReceipt := do
  let m ← manager
  let plan ← require (m.planTransfer sender now request)
  onToken (Token.debit m.config.mode sender plan.receipt.debited)
  setManager (m.recordTransfer plan)
  return plan.receipt

end Call

end CrossChain
