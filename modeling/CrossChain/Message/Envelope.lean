import CrossChain.Message.Manager

/-!
# Envelopes

A manager message on its way through a transceiver, which adds the two managers concerned
and may add bytes of its own.
-/

namespace CrossChain

/-- A manager message together with the managers at its two ends. -/
structure Delivery (π : Type) where
  /-- The manager that sent the message. -/
  sourceManager : Address
  /-- The manager that the message is meant for. -/
  recipientManager : Address
  message : ManagerMessage π
deriving DecidableEq, Inhabited

/-- A delivery as a transceiver transports it. -/
structure Envelope (π : Type) where
  delivery : Delivery π
  /-- What the transceiver adds for itself. -/
  transceiverPayload : Bytes
deriving DecidableEq, Inhabited

namespace Envelope

open Format Wire

/-- The tag of envelopes. -/
def tag : Tag := #v[0x99, 0x45, 0xff, 0x10]

/-- An envelope: its tag, the two managers, then the message and the bytes of the
transceiver, each behind its length. -/
def wire {π : Type} (payload : Wire π) : Wire (Envelope π) :=
  tagged tag (.wrongTag tag) <|
    (pair bytes32 (pair bytes32 (pair (spanned (ManagerMessage.wire payload)) bytes16))).imap
      (fun (source, recipient, message, extra) => ⟨⟨source, recipient, message⟩, extra⟩)
      (fun e => (e.delivery.sourceManager, e.delivery.recipientManager, e.delivery.message,
        e.transceiverPayload))

end Envelope

end CrossChain
