import CrossChain.Manager.Inbound
import CrossChain.Manager.Outbound
import CrossChain.Message.Envelope
import CrossChain.Message.Relay

/-!
# A transceiver on a bridge

A bridge carries posts from an emitter on one chain to every other chain, with signatures
that it verifies itself. An endpoint is the transceiver of a manager on such a bridge: it
wraps outbound messages in envelopes and posts them, and accepts posts only from the endpoint
that it trusts on the emitting chain.

The manager is changed only after the bridge accepted the post.
-/

namespace CrossChain

/-- The transceiver of a manager on a bridge. -/
structure Endpoint where
  /-- Its address, under which the manager has it registered and others know it. -/
  address : Address
  /-- The endpoints that it trusts on other chains. -/
  peers : SortedMap ChainId Address

/-- A post as the bridge delivers it, signatures verified. -/
structure SignedPost where
  emitterChain : ChainId
  emitter : Address
  sequence : UInt64
  payload : Bytes
deriving DecidableEq, Inhabited

/-- What an endpoint gives to the bridge. -/
structure Post where
  payload : Bytes
  /-- No relayer is asked to deliver the post. -/
  skipRelayer : Bool
deriving DecidableEq, Inhabited

/-- The bridge takes a post and numbers it, or says why it does not. -/
abbrev Publisher := Post → Except String UInt64

/-- A post that the bridge took, with its number. -/
structure Publication where
  post : Post
  number : UInt64
deriving DecidableEq, Inhabited

/-- Posts a message. -/
def publish {α : Type} (bridge : Publisher) (wire : Wire α) (message : α)
    (skipRelayer : Bool) : Except CallError Publication := do
  let payload ← (wire.write message).mapError .wire
  let post : Post := ⟨payload, skipRelayer⟩
  let number ← (bridge post).mapError .transport
  return ⟨post, number⟩

namespace Endpoint

/-- An endpoint that trusts nobody yet. -/
def new (address : Address) : Endpoint := ⟨address, .empty⟩

/-- The endpoint that is trusted on a chain. -/
def peer (e : Endpoint) (chain : ChainId) : Except CallError Address :=
  match e.peers.get? chain with
  | some address => .ok address
  | none => .error .invalidTransceiverPeer

/-- Sets the endpoint that is trusted on a chain, as the owner of the manager. -/
def setPeer (e : Endpoint) (config : Config) (caller : Address) (chain : ChainId)
    (address : Address) : Except CallError Endpoint := do
  config.requireOwner caller
  if chain = config.chain then throw .invalidChainId
  if address = Address.zero then throw .invalidPeerZeroAddress
  return { e with peers := e.peers.insert chain address }

/-- Checks that a post comes from the trusted endpoint of its chain and carries a transfer to
this chain. -/
def unwrap (e : Endpoint) (config : Config) (post : SignedPost) :
    Except CallError (Delivery TokenTransfer) := do
  if e.peers.get? post.emitterChain ≠ some post.emitter then throw .invalidTransceiverPeer
  let envelope ← (Wire.decode (Envelope.wire TokenTransfer.wire) post.payload).mapError .wire
  if envelope.delivery.message.payload.recipientChain ≠ config.chain then throw .invalidChainId
  return envelope.delivery

/-- Vouches for the transfer in a post. -/
def receive (e : Endpoint) (now : Timestamp) (post : SignedPost) : Call RedeemReceipt := do
  let m ← Call.manager
  let delivery ← require (e.unwrap m.config post)
  Call.redeem e.address now post.emitterChain delivery

/-- What the sender of a transfer tells the endpoint. -/
def relayInstruction : Option Bytes → Except CallError RelayInstruction
  | none => .ok .standard
  | some bytes => (Wire.decode RelayInstruction.wire bytes).mapError .wire

/-- Posts a message that was handed out. -/
def publishRelease (bridge : Publisher) (m : Manager) (release : OutboundRelease) :
    Except CallError Publication := do
  let instruction ← relayInstruction release.instruction
  publish bridge (Envelope.wire TokenTransfer.wire)
    ⟨⟨m.config.address, release.recipientManager, release.message⟩, []⟩
    instruction.skipRelayer

/-- Picks up an outbound transfer and posts it. There is no post while the transfer waits. A
pick-up counts only if the post was taken. -/
def release (e : Endpoint) (bridge : Publisher) (now : Timestamp) (sequence : UInt64)
    (strict : Bool) : Call (Option Publication) := do
  let book ← get
  -- The call works on a copy of the manager, but on the token itself.
  match Call.releaseOutbound e.address now sequence strict book with
  | .error error staged =>
    modify ({ · with token := staged.token })
    throw error
  | .ok none staged =>
    set staged
    return none
  | .ok (some release) staged =>
    modify ({ · with token := staged.token })
    let publication ← require (publishRelease bridge staged.manager release)
    -- The manager is replaced only after the bridge has taken the post.
    set staged
    return some publication

/-- Announces the manager that the endpoint serves. -/
def announceManager (bridge : Publisher) (config : Config) : Except CallError Publication :=
  publish bridge TransceiverInfo.wire
    ⟨config.address, config.mode, config.tokenAddress, config.tokenDecimals⟩ true

/-- Announces the endpoint that is trusted on a chain. -/
def announcePeer (e : Endpoint) (bridge : Publisher) (chain : ChainId) :
    Except CallError Publication := do
  let address ← e.peer chain
  publish bridge TransceiverRegistration.wire ⟨chain, address⟩ true

end Endpoint

end CrossChain
