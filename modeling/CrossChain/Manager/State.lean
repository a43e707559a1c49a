import CrossChain.Inbox
import CrossChain.Manager.Config
import CrossChain.Outbox
import CrossChain.SortedMap.Keys

/-!
# The state of a manager

All that a manager remembers: its configuration, its peers on other chains and the rate
limits towards them, its transceivers, and the inbound and outbound transfers. Looking
something up that is not there is an error.
-/

namespace CrossChain

/-- The manager of the same token on another chain. -/
structure Peer where
  address : Address
  /-- The decimals of the token there. -/
  tokenDecimals : UInt8
deriving DecidableEq, Inhabited

/-- A channel that carries the messages of a manager. -/
structure Transceiver where
  /-- Its id, which is its place in sets of transceivers. -/
  id : UInt8
  address : Address
deriving DecidableEq, Inhabited

/-- The state of a manager. -/
structure Manager where
  config : Config
  /-- The sequence number of the next outbound transfer. -/
  nextSequence : UInt64
  /-- The limit on all outbound transfers. -/
  outboundLimit : RateLimit
  peers : SortedMap ChainId Peer
  /-- The limits on inbound transfers, one for each chain. -/
  inboundLimits : SortedMap ChainId RateLimit
  /-- The transceivers in the order of their registration. -/
  transceivers : List Transceiver
  inbox : SortedMap Digest InboxItem
  outbox : SortedMap UInt64 OutboxItem

/-- An operation on a manager. -/
abbrev Manager.Operation := EStateM CallError Manager

/-- A sequence number and the one after it, unless the numbers are used up. -/
def nextSequence (current : UInt64) : Except CallError (UInt64 × UInt64) :=
  match Word.add? current 1 with
  | some next => .ok (current, next)
  | none => .error .sequenceOverflow

/-- The peer on a chain, if it has the address that a message names. A quorum shows that a
message was attested; this shows that it comes from the counterpart. -/
def validateInbound (peers : SortedMap ChainId Peer) (chain : ChainId) (claimed : Address) :
    Except CallError Peer :=
  match peers.get? chain with
  | some peer => if peer.address = claimed then .ok peer else .error .invalidPeer
  | none => .error .invalidPeer

namespace Manager

/-- The peer on a chain. -/
def peer (m : Manager) (chain : ChainId) : Except CallError Peer :=
  match m.peers.get? chain with
  | some peer => .ok peer
  | none => .error .invalidPeer

/-- The limit on transfers from a chain. -/
def inboundLimit (m : Manager) (chain : ChainId) : Except CallError RateLimit :=
  match m.inboundLimits.get? chain with
  | some limit => .ok limit
  | none => .error .invalidPeer

/-- The transceiver with an address. -/
def transceiver? (m : Manager) (address : Address) : Option Transceiver :=
  m.transceivers.find? fun t => t.address = address

/-- The transceiver with an address, which must be registered. -/
def transceiver (m : Manager) (address : Address) : Except CallError Transceiver :=
  match m.transceiver? address with
  | some t => .ok t
  | none => .error .unregisteredTransceiver

/-- The id of the transceiver with an address, provided that it is enabled. -/
def enabledTransceiver (m : Manager) (address : Address) : Except CallError UInt8 := do
  let t ← m.transceiver address
  match m.config.enabled.get? t.id with
  | none => throw .idOutOfBounds
  | some false => throw .disabledTransceiver
  | some true => return t.id

/-- The inbound transfer with a digest. -/
def inboxItem (m : Manager) (digest : Digest) : Except CallError InboxItem :=
  match m.inbox.get? digest with
  | some item => .ok item
  | none => .error .inboundNotFound

/-- The outbound transfer with a sequence number. -/
def outboxItem (m : Manager) (sequence : UInt64) : Except CallError OutboxItem :=
  match m.outbox.get? sequence with
  | some item => .ok item
  | none => .error (.outboundNotFound sequence)

end Manager

end CrossChain
