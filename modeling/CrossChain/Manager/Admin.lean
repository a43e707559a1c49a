import CrossChain.Manager.Call
import CrossChain.Message.Wire

/-!
# Administration

The owner of a manager changes its configuration: peers, transceivers, thresholds, limits.
The ownership itself moves in two steps, so that it cannot be lost to an address that nobody
holds. Every change can also be written as an instruction, which is how governance sends it.

A change is made in place, one field after the other. Registering a transceiver gives it an id
before it enables it, and a limit that the owner sets is changed where it stands.

The threshold never exceeds the number of enabled transceivers, and is zero only while none
is enabled.
-/

namespace CrossChain

/-- A peer as the owner sets it. -/
structure PeerSpec where
  chain : ChainId
  address : Address
  /-- The limit on transfers from it, in the decimals of the token. -/
  limit : UInt64
  /-- The decimals of the token there. -/
  tokenDecimals : UInt8
deriving DecidableEq, Inhabited

/-- A change of the configuration. -/
inductive AdminInstruction where
  /-- Offers the ownership to an account. -/
  | transferOwnership (newOwner : Address)
  /-- Takes the ownership that was offered. -/
  | claimOwnership
  /-- Stops or restarts the movement of value. -/
  | setPaused (paused : Bool)
  | setPeer (spec : PeerSpec)
  /-- Registers and enables a transceiver. -/
  | registerTransceiver (address : Address)
  | setTransceiverEnabled (id : UInt8) (enabled : Bool)
  /-- Sets how many transceivers have to vouch for an inbound transfer. -/
  | setThreshold (threshold : UInt8)
  | setOutboundLimit (limit : UInt64)
  | setInboundLimit (chain : ChainId) (limit : UInt64)
deriving DecidableEq, Inhabited

/-! ## Changes -/

namespace Manager

/-- A limit as the owner gives it, in the precision in which amounts travel. -/
def trimLimit (m : Manager) (limit : UInt64) : Except CallError TrimmedAmount :=
  (TrimmedAmount.trim limit m.config.tokenDecimals m.config.tokenDecimals).mapError .amount

/-- The manager with another configuration. -/
def withConfig (m : Manager) (config : Config) : Manager :=
  { m with config }

/-- Changes the configuration. -/
def modifyConfig (change : Config → Config) : Operation Unit :=
  modify fun m => m.withConfig (change m.config)

/-- Refuses callers other than the owner. -/
def requireOwner (caller : Address) : Operation Unit := do
  require ((← get).config.requireOwner caller)

/-- Offers the ownership to an account, which has to claim it. -/
def transferOwnership (caller newOwner : Address) : Operation Unit := do
  requireOwner caller
  modifyConfig ({ · with pendingOwner := some newOwner })

/-- Takes the ownership that was offered to the caller. -/
def claimOwnership (caller : Address) : Operation Unit := do
  refuseIf ((← get).config.pendingOwner ≠ some caller) .invalidPendingOwner
  modifyConfig ({ · with owner := caller })
  modifyConfig ({ · with pendingOwner := none })

/-- Stops or restarts the movement of value. -/
def setPaused (caller : Address) (paused : Bool) : Operation Unit := do
  requireOwner caller
  modifyConfig ({ · with paused })

/-- Sets the peer on a chain and the limit on transfers from it. A new limit starts full; one
that exists keeps its capacity, cut off at the new limit. -/
def setPeer (caller : Address) (now : Timestamp) (spec : PeerSpec) : Operation Unit := do
  requireOwner caller
  let m ← get
  refuseIf (spec.chain = m.config.chain) .invalidChainId
  refuseIf (spec.address = Address.zero) .invalidPeerZeroAddress
  refuseIf (spec.tokenDecimals = 0) .invalidPeerDecimals
  let limit ← require (m.trimLimit spec.limit)
  -- The limit is changed on a copy. A full limit that is set to itself stays full.
  let current := (m.inboundLimits.get? spec.chain).getD
    (.full limit now m.config.rateLimitDuration)
  let changed ← require ((current.setLimit limit now).mapError .amount)
  modify fun m => { m with
    peers := m.peers.insert spec.chain ⟨spec.address, spec.tokenDecimals⟩ }
  modify fun m => { m with inboundLimits := m.inboundLimits.insert spec.chain changed }

/-- The id of a transceiver; one that is not known is registered under the next id. -/
def enrol (address : Address) : Operation UInt8 := do
  let m ← get
  match m.transceiver? address with
  | some known => return known.id
  | none =>
    -- Ids are given in the order of registration and never again.
    let id := m.config.nextTransceiver
    refuseIf (Bitmap.capacity ≤ id) .tooManyTransceivers
    modify fun m => { m with transceivers := m.transceivers ++ [⟨id, address⟩] }
    modifyConfig ({ · with nextTransceiver := id + 1 })
    return id

/-- Adds an id to the enabled ones or removes it from them. -/
def setEnabled (id : UInt8) (enabled : Bool) : Operation Unit := do
  match (← get).config.enabled.set? id enabled with
  | none => throw .idOutOfBounds
  | some members => modifyConfig ({ · with enabled := members })

/-- Raises a threshold of zero to one. -/
def raiseThreshold : Operation Unit := do
  if (← get).config.threshold = 0 then modifyConfig ({ · with threshold := 1 })

/-- Lowers a threshold that exceeds the number of enabled transceivers to that number. -/
def lowerThreshold : Operation Unit := do
  let count := (← get).config.enabledCount
  if count < (← get).config.threshold then modifyConfig ({ · with threshold := count })

/-- Registers a transceiver under the next id and enables it. One that is known already is
enabled again under its old id. -/
def registerTransceiver (caller address : Address) : Operation UInt8 := do
  requireOwner caller
  let id ← enrol address
  setEnabled id true
  raiseThreshold
  return id

/-- Enables or disables a registered transceiver. The threshold follows the number of enabled
transceivers down, and a threshold of zero rises to one with the first of them. -/
def setTransceiverEnabled (caller : Address) (id : UInt8) (enabled : Bool) : Operation Unit := do
  requireOwner caller
  refuseIf ((← get).config.nextTransceiver ≤ id) .unregisteredTransceiver
  setEnabled id enabled
  lowerThreshold
  if enabled then raiseThreshold

/-- Sets how many transceivers have to vouch for an inbound transfer. -/
def setThreshold (caller : Address) (threshold : UInt8) : Operation Unit := do
  requireOwner caller
  refuseIf (threshold = 0) .zeroThreshold
  refuseIf ((← get).config.enabledCount < threshold) .thresholdTooHigh
  modifyConfig ({ · with threshold })

/-- Sets the outbound limit, cutting the capacity off at the new one. -/
def setOutboundLimit (caller : Address) (now : Timestamp) (limit : UInt64) : Operation Unit := do
  requireOwner caller
  let limit ← require ((← get).trimLimit limit)
  within Manager.outboundLimit (fun outboundLimit m => { m with outboundLimit }) .amount
    (RateLimit.relimit limit now)

/-- Sets the limit on transfers from a chain, cutting the capacity off at the new one. -/
def setInboundLimit (caller : Address) (now : Timestamp) (chain : ChainId) (limit : UInt64) :
    Operation Unit := do
  requireOwner caller
  let limit ← require ((← get).trimLimit limit)
  let current ← require ((← get).inboundLimit chain)
  within (fun _ => current)
    (fun changed m => { m with inboundLimits := m.inboundLimits.insert chain changed }) .amount
    (RateLimit.relimit limit now)

/-- Carries out an instruction as the given caller. -/
def execute (caller : Address) (now : Timestamp) : AdminInstruction → Operation Unit
  | .transferOwnership newOwner => transferOwnership caller newOwner
  | .claimOwnership => claimOwnership caller
  | .setPaused paused => setPaused caller paused
  | .setPeer spec => setPeer caller now spec
  | .registerTransceiver address => discard (registerTransceiver caller address)
  | .setTransceiverEnabled id enabled => setTransceiverEnabled caller id enabled
  | .setThreshold threshold => setThreshold caller threshold
  | .setOutboundLimit limit => setOutboundLimit caller now limit
  | .setInboundLimit chain limit => setInboundLimit caller now chain limit

end Manager

/-! ## Wire format -/

namespace AdminInstruction

open Format Wire

/-- A truth value in one byte. -/
def switch : Wire Bool := flag .badFlag

/-- The fields of a peer in order. -/
def peerSpec : Wire PeerSpec :=
  (pair chainId (pair bytes32 (pair word64BE byte))).imap
    (fun (chain, address, limit, tokenDecimals) => ⟨chain, address, limit, tokenDecimals⟩)
    (fun s => (s.chain, s.address, s.limit, s.tokenDecimals))

/-- The id of a transceiver and whether it is enabled. -/
def toggle : Wire (UInt8 × Bool) := pair byte switch

/-- A chain and a limit. -/
def chainLimit : Wire (ChainId × UInt64) := pair chainId word64BE

/-- Reads the fields of the instruction with the given number. -/
def readFields : UInt8 → Reader WireError AdminInstruction
  | 0 => transferOwnership <$> bytes32.read
  | 1 => pure claimOwnership
  | 2 => setPaused <$> switch.read
  | 3 => setPeer <$> peerSpec.read
  | 4 => registerTransceiver <$> bytes32.read
  | 5 => (fun v => setTransceiverEnabled v.1 v.2) <$> toggle.read
  | 6 => setThreshold <$> byte.read
  | 7 => setOutboundLimit <$> word64BE.read
  | 8 => (fun v => setInboundLimit v.1 v.2) <$> chainLimit.read
  | other => throw (.unknownInstruction other)

/-- The number of an instruction. -/
def number : AdminInstruction → UInt8
  | transferOwnership _ => 0
  | claimOwnership => 1
  | setPaused _ => 2
  | setPeer _ => 3
  | registerTransceiver _ => 4
  | setTransceiverEnabled _ _ => 5
  | setThreshold _ => 6
  | setOutboundLimit _ => 7
  | setInboundLimit _ _ => 8

/-- The bytes of the fields of an instruction. -/
def writeFields : AdminInstruction → Except WireError Bytes
  | transferOwnership newOwner => bytes32.write newOwner
  | claimOwnership => .ok []
  | setPaused paused => switch.write paused
  | setPeer spec => peerSpec.write spec
  | registerTransceiver address => bytes32.write address
  | setTransceiverEnabled id enabled => toggle.write (id, enabled)
  | setThreshold threshold => byte.write threshold
  | setOutboundLimit limit => word64BE.write limit
  | setInboundLimit chain limit => chainLimit.write (chain, limit)

/-- The number of bytes of the fields of an instruction. -/
def fieldsSize : AdminInstruction → Nat
  | transferOwnership newOwner => bytes32.size newOwner
  | claimOwnership => 0
  | setPaused paused => switch.size paused
  | setPeer spec => peerSpec.size spec
  | registerTransceiver address => bytes32.size address
  | setTransceiverEnabled id enabled => toggle.size (id, enabled)
  | setThreshold threshold => (byte : Wire UInt8).size threshold
  | setOutboundLimit limit => (word64BE : Wire UInt64).size limit
  | setInboundLimit chain limit => chainLimit.size (chain, limit)

/-- An instruction: its number in one byte, then its fields. -/
def wire : Wire AdminInstruction where
  read := do readFields (← byte.read)
  write i := return i.number :: (← writeFields i)
  size i := 1 + fieldsSize i

end AdminInstruction

namespace Manager

/-- Carries out the instruction in the given bytes as the given caller. -/
def invoke (caller : Address) (now : Timestamp) (callData : Bytes) : Operation Unit := do
  let instruction ← require ((Wire.decode AdminInstruction.wire callData).mapError .wire)
  execute caller now instruction

end Manager

namespace Call

/-- Carries out an instruction as the given caller. -/
def execute (caller : Address) (now : Timestamp) (instruction : AdminInstruction) : Call Unit :=
  onManager (Manager.execute caller now instruction)

/-- Registers a transceiver and answers its id. -/
def registerTransceiver (caller address : Address) : Call UInt8 :=
  onManager (Manager.registerTransceiver caller address)

/-- Carries out the instruction in the given bytes as the given caller. -/
def invoke (caller : Address) (now : Timestamp) (callData : Bytes) : Call Unit :=
  onManager (Manager.invoke caller now callData)

end Call

end CrossChain
