import CrossChain.Manager.State
import CrossChain.Snapshot.Message

/-!
# Snapshots of a manager

The state of a manager as bytes, and back. A state is restored as it is found: nothing in it
is checked beyond its format.
-/

namespace CrossChain

namespace Stored

open Format

/-- An inbound transfer: its fields in order. -/
def inboxItem : Stored InboxItem :=
  (pair chainId (pair trimmedAmount (pair bytes32 (pair bitmap
    (pair boolean releaseStatus))))).imap
    (fun (sourceChain, amount, recipient, votes, approved, status) =>
      ⟨sourceChain, amount, recipient, votes, approved, status⟩)
    (fun i => (i.sourceChain, i.amount, i.recipient, i.votes, i.approved, i.status))

/-- An outbound transfer: its fields in order. -/
def outboxItem : Stored OutboxItem :=
  (pair word64LE (pair trimmedAmount (pair bytes32 (pair chainId (pair bytes32 (pair bytes32
    (pair releaseStatus (pair bitmap (pair instructions boolean))))))))).imap
    (fun (sequence, amount, sender, recipientChain, recipientManager, recipient, status,
        released, instructions, cancelled) =>
      ⟨sequence, amount, sender, recipientChain, recipientManager, recipient, status,
        released, instructions, cancelled⟩)
    (fun i => (i.sequence, i.amount, i.sender, i.recipientChain, i.recipientManager,
      i.recipient, i.status, i.released, i.instructions, i.cancelled))

/-- A configuration: its fields in order. -/
def config : Stored Config :=
  (pair bytes32 (pair bytes32 (pair (option bytes32) (pair bytes32 (pair byte (pair mode
    (pair chainId (pair byte (pair byte (pair bitmap (pair boolean
    (pair (choice DustPolicy.toByte DustPolicy.ofByte?) timestamp)))))))))))).imap
    (fun (address, owner, pendingOwner, tokenAddress, tokenDecimals, mode, chain,
        nextTransceiver, threshold, enabled, paused, dustPolicy, rateLimitDuration) =>
      ⟨address, owner, pendingOwner, tokenAddress, tokenDecimals, mode, chain,
        nextTransceiver, threshold, enabled, paused, dustPolicy, rateLimitDuration⟩)
    (fun c => (c.address, c.owner, c.pendingOwner, c.tokenAddress, c.tokenDecimals, c.mode,
      c.chain, c.nextTransceiver, c.threshold, c.enabled, c.paused, c.dustPolicy,
      c.rateLimitDuration))

/-- A peer: its fields in order. -/
def peer : Stored Peer :=
  (pair bytes32 byte).imap (fun (address, tokenDecimals) => ⟨address, tokenDecimals⟩)
    (fun p => (p.address, p.tokenDecimals))

/-- A transceiver: its fields in order. -/
def transceiver : Stored Transceiver :=
  (pair byte bytes32).imap (fun (id, address) => ⟨id, address⟩) (fun t => (t.id, t.address))

/-- A manager: its fields in order. -/
def manager : Stored Manager :=
  (pair config (pair word64LE (pair rateLimit (pair (map chainId peer)
    (pair (map chainId rateLimit) (pair (list transceiver) (pair (map bytes32 inboxItem)
    (map word64LE outboxItem)))))))).imap
    (fun (config, nextSequence, outboundLimit, peers, inboundLimits, transceivers, inbox,
        outbox) =>
      ⟨config, nextSequence, outboundLimit, peers, inboundLimits, transceivers, inbox, outbox⟩)
    (fun m => (m.config, m.nextSequence, m.outboundLimit, m.peers, m.inboundLimits,
      m.transceivers, m.inbox, m.outbox))

end Stored

namespace Manager

/-- The state of a manager as bytes. -/
def snapshot (m : Manager) : Except CallError Bytes :=
  (Stored.manager.write m).mapError .snapshot

/-- The manager whose state is in the given bytes. -/
def restore (bs : Bytes) : Except CallError Manager :=
  (Stored.manager.decode bs).mapError .snapshot

end Manager

end CrossChain
