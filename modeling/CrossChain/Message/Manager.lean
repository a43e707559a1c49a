import CrossChain.Message.Payload
import CrossChain.Keccak

/-!
# Manager messages

What one manager tells another: a payload, the account that asked for it, and an id that no
other message of the sending manager has. The digest of a message, taken over the chain it
comes from and its bytes, is the key under which it is remembered.
-/

namespace CrossChain

/-- A message from one manager to another. -/
structure ManagerMessage (π : Type) where
  /-- Tells the messages of one manager apart. -/
  id : Bytes32
  /-- The account that the message was sent for. -/
  sender : Address
  /-- What the message says. -/
  payload : π
deriving DecidableEq, Inhabited

namespace ManagerMessage

open Format Wire

/-- The id of the message with the given sequence number: the number, big endian, at the end
of the block. -/
def idOfSequence (sequence : UInt64) : Bytes32 :=
  ⟨(bytesBE 32 sequence.toNat).toArray, by simp⟩

/-- A message: id and sender, then the payload behind its length. -/
def wire {π : Type} (payload : Wire π) : Wire (ManagerMessage π) :=
  (pair bytes32 (pair bytes32 (spanned payload))).imap
    (fun (id, sender, payload) => ⟨id, sender, payload⟩)
    (fun m => (m.id, m.sender, m.payload))

/-- The hash of the chain a message comes from and the bytes of the message. -/
def digestOfBytes (source : ChainId) (bytes : Bytes) : Digest :=
  Keccak.hash (bytesBE 2 source.number.toNat ++ bytes)

/-- The key of a message that comes from the given chain. -/
def digest {π : Type} (payload : Wire π) (source : ChainId) (m : ManagerMessage π) :
    Except WireError Digest := do
  let bytes ← (wire payload).write m
  return digestOfBytes source bytes

end ManagerMessage

end CrossChain
