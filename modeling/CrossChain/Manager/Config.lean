import CrossChain.Bitmap
import CrossChain.Chain
import CrossChain.Manager.Error
import CrossChain.Mode

/-!
# Configuration of a manager

Who owns a manager, which token it manages and how, which of its transceivers are enabled and
how many of them have to vouch for an inbound transfer.
-/

namespace CrossChain

/-- What happens to the digits of an outbound amount that the other chain cannot represent. -/
inductive DustPolicy where
  /-- The transfer is refused. -/
  | reject
  /-- The digits stay with the sender. -/
  | truncate
deriving DecidableEq, Inhabited

namespace DustPolicy

/-- The name of a policy in settings. -/
def name : DustPolicy → String
  | .reject => "reject"
  | .truncate => "truncate"

/-- The policy of a name in settings. -/
def ofName? (text : String) : Option DustPolicy :=
  if text = "reject" then some .reject
  else if text = "truncate" then some .truncate
  else none

/-- The byte that stands for a policy in snapshots. -/
def toByte : DustPolicy → UInt8
  | .reject => 0
  | .truncate => 1

/-- The policy a byte stands for. -/
def ofByte? : UInt8 → Option DustPolicy
  | 0 => some .reject
  | 1 => some .truncate
  | _ => none

end DustPolicy

/-- The configuration of a manager. -/
structure Config where
  /-- The address by which the peers know the manager. -/
  address : Address
  /-- The account that may change the configuration. -/
  owner : Address
  /-- The account that may claim the ownership. -/
  pendingOwner : Option Address
  tokenAddress : Address
  tokenDecimals : UInt8
  mode : Mode
  chain : ChainId
  /-- The id of the transceiver that is registered next. -/
  nextTransceiver : UInt8
  /-- How many transceivers have to vouch for an inbound transfer. -/
  threshold : UInt8
  enabled : Bitmap
  /-- Whether value is kept from moving. -/
  paused : Bool
  dustPolicy : DustPolicy
  /-- The duration of every rate limit. -/
  rateLimitDuration : Timestamp
deriving DecidableEq, Inhabited

namespace Config

/-- Refuses callers other than the owner. -/
def requireOwner (c : Config) (caller : Address) : Except CallError Unit :=
  if c.owner = caller then .ok () else .error .invalidOwner

/-- Refuses calls while the manager is paused. -/
def requireRunning (c : Config) : Except CallError Unit :=
  if c.paused then .error .paused else .ok ()

/-- The number of enabled transceivers. -/
def enabledCount (c : Config) : UInt8 :=
  c.enabled.countByte

end Config

end CrossChain
