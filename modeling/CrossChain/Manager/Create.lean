import CrossChain.Manager.Admin
import CrossChain.Settings.Text

/-!
# Creating a manager

A new manager has a full outbound limit and nothing else: no peers, no transceivers, no
transfers. A manager that is deployed from settings is created and then configured by the
calls that its owner would make, in the order of the settings.
-/

namespace CrossChain

/-- Why a manager cannot be deployed. -/
inductive DeploymentError where
  /-- The settings are malformed. -/
  | settings
  /-- A call that the settings ask for failed. -/
  | call (error : CallError)
deriving DecidableEq

/-- The text of an error. -/
def DeploymentError.message : DeploymentError → String
  | .settings => "Json: malformed settings"
  | .call error => s!"Manager: {error.message}"

namespace Manager

/-- A manager of the given token that nobody has used yet. -/
def create (token : Token) (owner : Address) (now : Timestamp) (settings : ManagerSettings) :
    Except CallError Manager := do
  if settings.rateLimitDuration ≤ 0 then throw .invalidRateLimitDuration
  let limit ← (TrimmedAmount.trim settings.limit token.decimals token.decimals).mapError .amount
  return {
    config := {
      address := settings.address
      owner
      pendingOwner := none
      tokenAddress := token.address
      tokenDecimals := token.decimals
      mode := settings.mode
      chain := settings.chain
      nextTransceiver := 0
      threshold := 0
      enabled := .empty
      paused := false
      dustPolicy := settings.dustPolicy
      rateLimitDuration := settings.rateLimitDuration }
    nextSequence := 0
    outboundLimit := .full limit now settings.rateLimitDuration
    peers := .empty
    inboundLimits := .empty
    transceivers := []
    inbox := .empty
    outbox := .empty }

/-- The instructions that configure a new manager as the settings say. -/
def deployment (settings : DeploymentSettings) : List AdminInstruction :=
  settings.transceivers.map (fun t => .registerTransceiver t.address)
    ++ settings.peers.map (fun p => .setPeer ⟨p.chain, p.address, p.inboundLimit, p.tokenDecimals⟩)
    ++ (settings.threshold.map .setThreshold).toList
    ++ if settings.paused then [.setPaused true] else []

/-- A manager of the given token, configured as the settings say. -/
def deploy (token : Token) (now : Timestamp) (settings : DeploymentSettings) :
    Except CallError Manager := do
  -- The owner calls in this order, and the first call that fails fails the deployment.
  let m ← create token settings.owner now settings.manager
  applied ((deployment settings).forM (execute settings.owner now)) m

/-- A manager of the given token, configured as the settings in a text say. -/
def deployText (token : Token) (now : Timestamp) (text : String) :
    Except DeploymentError Manager :=
  match DeploymentSettings.parse? text with
  | none => .error .settings
  | some settings => (deploy token now settings).mapError .call

end Manager

end CrossChain
