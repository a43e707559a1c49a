import CrossChain.Bridge.Endpoint

/-!
# Governance messages

A governance message asks a governance contract on some chain to call a contract that it
governs. It travels as a signed post of the bridge.
-/

namespace CrossChain

/-- A call that governance asks for. -/
structure GovernanceMessage where
  /-- The kind of governance that the message belongs to. -/
  moduleTag : Bytes32
  /-- What is to be done. -/
  action : UInt8
  /-- The chain on which it is to be done. -/
  chain : ChainId
  /-- The governance contract that is to do it. -/
  governanceContract : Address
  /-- The contract that is to be called. -/
  governedContract : Address
  /-- What it is called with. -/
  callData : Bytes
deriving DecidableEq, Inhabited

namespace GovernanceMessage

open Format Wire

/-- A message: its fields in order, the call data behind its length. -/
def wire : Wire GovernanceMessage :=
  (pair bytes32 (pair byte (pair chainId (pair bytes32 (pair bytes32 bytes16))))).imap
    (fun (moduleTag, action, chain, governanceContract, governedContract, callData) =>
      ⟨moduleTag, action, chain, governanceContract, governedContract, callData⟩)
    (fun m => (m.moduleTag, m.action, m.chain, m.governanceContract, m.governedContract,
      m.callData))

/-- The kind of governance that calls contracts: its name in ASCII at the end of the block. -/
def generalModule : Bytes32 :=
  #v[0, 0, 0, 0, 0, 0, 0, 0,
     0x47, 0x65, 0x6e, 0x65, 0x72, 0x61, 0x6c, 0x50,
     0x75, 0x72, 0x70, 0x6f, 0x73, 0x65, 0x47, 0x6f,
     0x76, 0x65, 0x72, 0x6e, 0x61, 0x6e, 0x63, 0x65]

/-- The action that calls a contract. -/
def contractCall : UInt8 := 1

end GovernanceMessage

/-- The key of a post: the hash of its emitter, its number and its payload. -/
def SignedPost.digest (post : SignedPost) : Digest :=
  Keccak.hash (bytesBE 2 post.emitterChain.number.toNat ++ post.emitter.toList
    ++ bytesBE 8 post.sequence.toNat ++ post.payload)

end CrossChain
