import CrossChain.Message.Transfer
import CrossChain.Message.Announcement

/-!
# Payloads of manager messages

The payloads that a manager message may carry, told apart by their tags.
-/

namespace CrossChain

/-- What a manager message may carry. -/
inductive Payload where
  /-- Tokens move to another chain. -/
  | transfer (transfer : TokenTransfer)
  /-- A transceiver names its manager. -/
  | info (info : TransceiverInfo)
  /-- A transceiver names its counterpart. -/
  | registration (registration : TransceiverRegistration)
deriving DecidableEq, Inhabited

namespace Payload

/-- The tag that a payload starts with. -/
def tag : Payload → Tag
  | transfer _ => TokenTransfer.tag
  | info _ => TransceiverInfo.tag
  | registration _ => TransceiverRegistration.tag

/-- The transfer that a payload is, if it is one. -/
def asTransfer : Payload → Option TokenTransfer
  | transfer t => some t
  | _ => none

/-- Looks at the tag, puts it back and reads the payload that it announces. -/
def read : Reader WireError Payload := do
  let found ← (Format.block 4).read
  -- The payload's own format reads the tag once more.
  modify (found.toList ++ ·)
  if found = TokenTransfer.tag then transfer <$> TokenTransfer.wire.read
  else if found = TransceiverInfo.tag then info <$> TransceiverInfo.wire.read
  else if found = TransceiverRegistration.tag then
    registration <$> TransceiverRegistration.wire.read
  else throw (.unknownPayload found)

/-- A payload in the layout of its own kind. -/
def wire : Wire Payload where
  read := read
  write
    | transfer t => TokenTransfer.wire.write t
    | info i => TransceiverInfo.wire.write i
    | registration r => TransceiverRegistration.wire.write r
  size
    | transfer t => TokenTransfer.wire.size t
    | info i => TransceiverInfo.wire.size i
    | registration r => TransceiverRegistration.wire.size r

end Payload

end CrossChain
