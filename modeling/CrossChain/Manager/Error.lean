import CrossChain.Amount
import CrossChain.Message.Error
import CrossChain.Snapshot.Error
import CrossChain.Token

/-!
# Why a call fails

The reasons for which a call to a manager fails, with the text of each.
-/

namespace CrossChain

/-- Why a call to a manager fails. -/
inductive CallError where
  /-- The transfer has to wait longer. -/
  | cantReleaseYet
  /-- Only the pending owner may claim the ownership. -/
  | invalidPendingOwner
  /-- The chain is the wrong one. -/
  | invalidChainId
  /-- The recipient is the zero address. -/
  | invalidRecipientAddress
  /-- The chain has no such peer. -/
  | invalidPeer
  /-- The message is meant for another manager. -/
  | invalidRecipientManager
  /-- Too few transceivers vouch for the transfer. -/
  | transferNotApproved
  | transferCancelled
  | transferNotQueued
  | messageAlreadySent
  /-- The transfer does not fit the limit, and may not be queued. -/
  | transferExceedsRateLimit
  | paused
  /-- The transceiver has already vouched for the message. -/
  | alreadyAttested
  | unregisteredTransceiver
  | disabledTransceiver
  /-- The message does not come from the trusted transceiver of its chain. -/
  | invalidTransceiverPeer
  | tooManyTransceivers
  | thresholdTooHigh
  | zeroThreshold
  /-- Only the owner may do this. -/
  | invalidOwner
  | invalidPeerZeroAddress
  | invalidPeerDecimals
  | invalidRateLimitDuration
  | zeroAmount
  /-- The other chain cannot represent the last digits of the amount. -/
  | amountHasDust (dust : UInt64)
  | idOutOfBounds
  /-- An instruction is for a transceiver that is not registered. -/
  | invalidInstructionIndex (index : UInt8)
  | outboundNotFound (sequence : UInt64)
  | inboundNotFound
  | cancellerNotSender
  | sequenceOverflow
  /-- The bridge did not accept the message. -/
  | transport (reason : String)
  | amount (error : AmountError)
  | wire (error : WireError)
  | token (error : TokenError)
  | snapshot (error : SnapshotError)
deriving DecidableEq

namespace CallError

/-- The text of an error. -/
def message : CallError → String
  | cantReleaseYet => "CantReleaseYet"
  | invalidPendingOwner => "InvalidPendingOwner"
  | invalidChainId => "InvalidChainId"
  | invalidRecipientAddress => "InvalidRecipientAddress"
  | invalidPeer => "InvalidPeer"
  | invalidRecipientManager => "InvalidRecipientNttManager"
  | transferNotApproved => "TransferNotApproved"
  | transferCancelled => "TransferCancelled"
  | transferNotQueued => "TransferNotQueued"
  | messageAlreadySent => "MessageAlreadySent"
  | transferExceedsRateLimit => "TransferExceedsRateLimit"
  | paused => "Paused"
  | alreadyAttested => "AlreadyAttested"
  | unregisteredTransceiver => "UnregisteredTransceiver"
  | disabledTransceiver => "DisabledTransceiver"
  | invalidTransceiverPeer => "InvalidTransceiverPeer"
  | tooManyTransceivers => "TooManyTransceivers"
  | thresholdTooHigh => "ThresholdTooHigh"
  | zeroThreshold => "ZeroThreshold"
  | invalidOwner => "InvalidOwner"
  | invalidPeerZeroAddress => "InvalidPeerZeroAddress"
  | invalidPeerDecimals => "InvalidPeerDecimals"
  | invalidRateLimitDuration => "InvalidRateLimitDuration"
  | zeroAmount => "ZeroAmount"
  | amountHasDust dust => s!"AmountHasDust: {dust} would not be transferred"
  | idOutOfBounds => "BitmapIndexOutOfBounds"
  | invalidInstructionIndex index =>
    s!"InvalidInstructionIndex: {index} is not a registered transceiver"
  | outboundNotFound sequence => s!"OutboxItemNotFound: sequence {sequence}"
  | inboundNotFound => "InboxItemNotFound"
  | cancellerNotSender => "CancellerNotSender"
  | sequenceOverflow => "SequenceOverflow"
  | transport reason => s!"Transport: {reason}"
  | amount error => error.message
  | wire error => error.message
  | token error => error.message
  | snapshot error => s!"Snapshot: {error.message}"

end CallError

end CrossChain
