import CrossChain.Governance.Message
import CrossChain.Manager.Admin

/-!
# The governance contract

A governance contract carries out each governance message once, provided that the message
comes from the trusted emitter and is meant for this contract on this chain. It acts on a
manager that has the contract as its owner.

A message is marked as consumed only after the call it asks for succeeded, so that one whose
call failed may be delivered again.
-/

namespace CrossChain

/-- Why a governance message is not carried out. -/
inductive GovernanceError where
  /-- The message belongs to another kind of governance. -/
  | invalidModule
  | invalidAction (action : UInt8)
  | invalidChain
  /-- The message does not come from the trusted emitter. -/
  | invalidEmitter
  /-- The message is meant for another governance contract. -/
  | notRecipient
  /-- The message is about another governed contract. -/
  | invalidGoverned
  | alreadyConsumed
  | wire (error : WireError)
  | dispatch (error : CallError)
deriving DecidableEq

/-- The text of an error. -/
def GovernanceError.message : GovernanceError → String
  | .invalidModule => "InvalidModule"
  | .invalidAction action => s!"InvalidAction: {action}"
  | .invalidChain => "InvalidGovernanceChainId"
  | .invalidEmitter => "InvalidGovernanceContract"
  | .notRecipient => "NotRecipientContract"
  | .invalidGoverned => "InvalidGovernedContract"
  | .alreadyConsumed => "GovernanceActionAlreadyConsumed"
  | .wire error => error.message
  | .dispatch error => s!"Dispatch: {error.message}"

/-- A governance contract. -/
structure Governance where
  /-- Its address, which owns the contracts that it governs. -/
  address : Address
  /-- The chain that it is on. -/
  chain : ChainId
  /-- The chain of the trusted emitter. -/
  trustedChain : ChainId
  /-- The trusted emitter. -/
  trustedEmitter : Address
  /-- The keys of the messages that were carried out. -/
  consumed : SortedSet Digest

/-- A governance contract and the manager that it governs. -/
structure Governed where
  governance : Governance
  manager : Manager

namespace Governance

/-- The emitter of the bridge's own governance: address four on chain one. -/
def standardEmitter : Address :=
  Address.zero.set 31 4

/-- A contract that has carried out nothing and trusts the bridge's own governance. -/
def new (address : Address) (chain : ChainId) : Governance :=
  ⟨address, chain, ⟨1⟩, standardEmitter, .empty⟩

/-- Whether the message with a key was carried out. -/
def isConsumed (g : Governance) (digest : Digest) : Bool :=
  g.consumed.contains digest

/-- Checks a post, and finds the call data for the governed contract in it. -/
def authorize (g : Governance) (governed : Address) (post : SignedPost) :
    Except GovernanceError Bytes := do
  let message ← (Wire.decode GovernanceMessage.wire post.payload).mapError .wire
  -- What the message says comes first, then where it comes from, then whom it concerns.
  if message.moduleTag ≠ GovernanceMessage.generalModule then throw .invalidModule
  if message.action ≠ GovernanceMessage.contractCall then throw (.invalidAction message.action)
  if message.chain ≠ g.chain then throw .invalidChain
  if post.emitterChain ≠ g.trustedChain || post.emitter ≠ g.trustedEmitter then
    throw .invalidEmitter
  if message.governanceContract ≠ g.address then throw .notRecipient
  if g.isConsumed post.digest then throw .alreadyConsumed
  if message.governedContract ≠ governed then throw .invalidGoverned
  return message.callData

/-- Carries out the message in a post. -/
def execute (now : Timestamp) (post : SignedPost) : EStateM GovernanceError Governed Unit := do
  let s ← get
  let callData ← require (s.governance.authorize s.manager.config.address post)
  -- If the call fails the message stays unconsumed, so it may be delivered again.
  within Governed.manager (fun manager governed => { governed with manager }) .dispatch
    (Manager.invoke s.governance.address now callData)
  modify fun s => { s with
    governance := { s.governance with consumed := s.governance.consumed.insert post.digest () } }

end Governance

end CrossChain
