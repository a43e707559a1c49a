import CrossChain.Chain
import CrossChain.Manager.Config
import CrossChain.RateLimit

/-!
# Deployment settings

Everything needed to bring up a configured manager: the manager itself, its transceivers and
peers, the threshold, and whether it starts out paused.
-/

namespace CrossChain

/-- How a manager is created. -/
structure ManagerSettings where
  /-- The address by which the peers will know the manager. -/
  address : Address
  chain : ChainId
  mode : Mode
  /-- The outbound limit, in the decimals of the token. -/
  limit : UInt64
  rateLimitDuration : Timestamp
  dustPolicy : DustPolicy
deriving DecidableEq, Inhabited

/-- A transceiver to register. -/
structure TransceiverSettings where
  address : Address
deriving DecidableEq, Inhabited

/-- A peer to set. -/
structure PeerSettings where
  chain : ChainId
  address : Address
  tokenDecimals : UInt8
  /-- The limit on transfers from it, in the decimals of the token here. -/
  inboundLimit : UInt64
deriving DecidableEq, Inhabited

/-- A manager and its configuration. -/
structure DeploymentSettings where
  owner : Address
  /-- How it is created. -/
  manager : ManagerSettings
  /-- The transceivers in the order of their registration. -/
  transceivers : List TransceiverSettings
  /-- The peers; of two for one chain the later one stays. -/
  peers : List PeerSettings
  /-- How many transceivers have to vouch for an inbound transfer; the first registration
  sets it to one. -/
  threshold : Option UInt8
  paused : Bool
deriving DecidableEq, Inhabited

end CrossChain
