import CrossChain.Bytes.Hex
import CrossChain.Json.Value
import CrossChain.Settings.Basic

/-!
# Settings as text

Settings are kept as JSON. They are written in full, in a fixed order and without blanks; on
reading, fields that have a usual value may be left out, and members that are not known are
skipped whatever they hold.
-/

namespace CrossChain

open Json

namespace Settings

/-! ## Reading -/

/-- A field that must be there. -/
def required {α : Type} (read : Json → Option α) : Option Json → Option α
  | some value => read value
  | none => none

/-- A field that has a usual value. -/
def usually {α : Type} (usual : α) (read : Json → Option α) : Option Json → Option α
  | some value => read value
  | none => some usual

/-- An address: exactly 64 hexadecimal digits. -/
def address? (value : Json) : Option Address := do
  Hex.decodeBlock? 32 (← value.text?)

/-- A natural number below a bound. -/
def natBelow? (bound : Nat) (value : Json) : Option Nat := do
  let z ← value.toInt?
  -- A negative zero has no integer, so it is refused like a fraction.
  if 0 ≤ z ∧ z < bound then some z.toNat else none

/-- An unsigned byte. -/
def byte? (value : Json) : Option UInt8 :=
  UInt8.ofNat <$> natBelow? UInt8.size value

/-- The number of a chain. -/
def chainId? (value : Json) : Option ChainId :=
  (fun n => ⟨UInt16.ofNat n⟩) <$> natBelow? UInt16.size value

/-- An amount. -/
def amount? (value : Json) : Option UInt64 :=
  UInt64.ofNat <$> natBelow? UInt64.size value

/-- A span of time. -/
def timestamp? (value : Json) : Option Timestamp := do
  let z ← value.toInt?
  if Int64.minValue.toInt ≤ z ∧ z ≤ Int64.maxValue.toInt then some (Int64.ofInt z) else none

/-- A custody mode. -/
def mode? (value : Json) : Option Mode := do
  Mode.ofName? (← value.case?)

/-- A policy on dust. -/
def dustPolicy? (value : Json) : Option DustPolicy := do
  DustPolicy.ofName? (← value.case?)

/-- A threshold, or `null` for none. -/
def threshold? : Json → Option (Option UInt8)
  | .null => some none
  | value => some <$> byte? value

/-- How a manager is created. -/
def manager? (value : Json) : Option ManagerSettings := do
  match ← value.fields? ["address", "chain_id", "mode", "limit", "rate_limit_duration",
      "dust_policy"] with
  | [address, chain, mode, limit, duration, policy] =>
    return {
      address := ← required address? address
      chain := ← required chainId? chain
      mode := ← required mode? mode
      limit := ← required amount? limit
      rateLimitDuration := ← usually RateLimit.standardDuration timestamp? duration
      dustPolicy := ← usually .truncate dustPolicy? policy }
  | _ => none

/-- A transceiver to register. -/
def transceiver? (value : Json) : Option TransceiverSettings := do
  match ← value.fields? ["address"] with
  | [address] => return { address := ← required address? address }
  | _ => none

/-- A peer to set. -/
def peer? (value : Json) : Option PeerSettings := do
  match ← value.fields? ["chain_id", "address", "token_decimals", "inbound_limit"] with
  | [chain, address, decimals, limit] =>
    return {
      chain := ← required chainId? chain
      address := ← required address? address
      tokenDecimals := ← required byte? decimals
      inboundLimit := ← required amount? limit }
  | _ => none

/-- A whole deployment. -/
def deployment? (value : Json) : Option DeploymentSettings := do
  match ← value.fields? ["owner", "manager", "transceivers", "peers", "threshold",
      "paused"] with
  | [owner, manager, transceivers, peers, threshold, paused] =>
    return {
      owner := ← required address? owner
      manager := ← required manager? manager
      transceivers := ← usually [] (listOf? transceiver?) transceivers
      peers := ← usually [] (listOf? peer?) peers
      threshold := ← usually none threshold? threshold
      paused := ← usually false bool? paused }
  | _ => none

/-! ## Writing -/

/-- An address as text. -/
def ofAddress (address : Address) : Json :=
  .text (some (Hex.encode address.toList))

/-- How a manager is created, as JSON. -/
def ofManager (s : ManagerSettings) : Json :=
  ofMembers [
    ("address", ofAddress s.address),
    ("chain_id", ofNat s.chain.number.toNat),
    ("mode", ofString s.mode.name),
    ("limit", ofNat s.limit.toNat),
    ("rate_limit_duration", ofInt s.rateLimitDuration.toInt),
    ("dust_policy", ofString s.dustPolicy.name)]

/-- A transceiver as JSON. -/
def ofTransceiver (s : TransceiverSettings) : Json :=
  ofMembers [("address", ofAddress s.address)]

/-- A peer as JSON. -/
def ofPeer (s : PeerSettings) : Json :=
  ofMembers [
    ("chain_id", ofNat s.chain.number.toNat),
    ("address", ofAddress s.address),
    ("token_decimals", ofNat s.tokenDecimals.toNat),
    ("inbound_limit", ofNat s.inboundLimit.toNat)]

/-- A threshold as JSON. -/
def ofThreshold : Option UInt8 → Json
  | none => .null
  | some threshold => ofNat threshold.toNat

end Settings

namespace DeploymentSettings

open Settings

/-- The settings in a JSON text. -/
def parse? (text : String) : Option DeploymentSettings := do
  deployment? (← Json.parse? text.toList)

/-- Settings as JSON. -/
def toJson (s : DeploymentSettings) : Json :=
  ofMembers [
    ("owner", ofAddress s.owner),
    ("manager", ofManager s.manager),
    ("transceivers", .array (s.transceivers.map ofTransceiver)),
    ("peers", .array (s.peers.map ofPeer)),
    ("threshold", ofThreshold s.threshold),
    ("paused", .bool s.paused)]

/-- Settings as a JSON text. -/
def render (s : DeploymentSettings) : String :=
  String.ofList (s.toJson.render)

end DeploymentSettings

end CrossChain
