import CrossChain.Message.Announcement
import CrossChain.Message.Instructions
import CrossChain.Message.Manager
import CrossChain.Message.Relay
import CrossChain.Snapshot.Format

/-!
# Messages in snapshots

Messages are also kept in snapshots. There they have no tags and no spans, only their fields
in order. A list of instructions is kept as it is, whether it may be sent or not.
-/

namespace CrossChain.Stored

open Format

/-- A transfer: its fields in order. -/
def tokenTransfer : Stored TokenTransfer :=
  (pair trimmedAmount (pair bytes32 (pair bytes32 chainId))).imap
    (fun (amount, sourceToken, recipient, recipientChain) =>
      ⟨amount, sourceToken, recipient, recipientChain⟩)
    (fun t => (t.amount, t.sourceToken, t.recipient, t.recipientChain))

/-- A manager message: its fields in order. -/
def managerMessage {π : Type} (payload : Stored π) : Stored (ManagerMessage π) :=
  (pair bytes32 (pair bytes32 payload)).imap
    (fun (id, sender, payload) => ⟨id, sender, payload⟩)
    (fun m => (m.id, m.sender, m.payload))

/-- A manager announcement: its fields in order. -/
def transceiverInfo : Stored TransceiverInfo :=
  (pair bytes32 (pair mode (pair bytes32 byte))).imap
    (fun (manager, mode, token, tokenDecimals) => ⟨manager, mode, token, tokenDecimals⟩)
    (fun i => (i.manager, i.mode, i.token, i.tokenDecimals))

/-- A peer announcement: its fields in order. -/
def transceiverRegistration : Stored TransceiverRegistration :=
  (pair chainId bytes32).imap
    (fun (chain, transceiver) => ⟨chain, transceiver⟩)
    (fun r => (r.chain, r.transceiver))

/-- A relay instruction. -/
def relayInstruction : Stored RelayInstruction :=
  boolean.imap RelayInstruction.mk RelayInstruction.skipRelayer

/-- An instruction: its fields in order. -/
def instruction : Stored Instruction :=
  (pair byte bytes).imap (fun (index, payload) => ⟨index, payload⟩)
    (fun i => (i.index, i.payload))

/-- A list of instructions. -/
def instructions : Stored Instructions :=
  (list instruction).imap Instructions.mk Instructions.entries

end CrossChain.Stored
