import CrossChain.Bridge.Endpoint
import CrossChain.Governance.Contract
import CrossChain.Snapshot.Format

/-!
# Snapshots of endpoints and governance contracts

The states of the other contracts around a manager as bytes, and back.
-/

namespace CrossChain.Stored

open Format

/-- An endpoint: its address and the endpoints that it trusts. -/
def endpoint : Stored Endpoint :=
  (pair bytes32 (map chainId bytes32)).imap (fun (address, peers) => ⟨address, peers⟩)
    (fun e => (e.address, e.peers))

/-- A governance contract: its fields in order. -/
def governance : Stored Governance :=
  (pair bytes32 (pair chainId (pair chainId (pair bytes32 (set bytes32))))).imap
    (fun (address, chain, trustedChain, trustedEmitter, consumed) =>
      ⟨address, chain, trustedChain, trustedEmitter, consumed⟩)
    (fun g => (g.address, g.chain, g.trustedChain, g.trustedEmitter, g.consumed))

end CrossChain.Stored
