import CrossChain.Bytes.Format
import CrossChain.Bytes.Hex

/-!
# Why a message is refused

The reasons for which bytes do not form a message, or a message does not fit its format,
with the text of each.
-/

namespace CrossChain

/-- Why bytes are not a message, or a message has no bytes. -/
inductive WireError where
  /-- Another kind of message was expected. -/
  | wrongTag (expected actual : Tag)
  /-- A field does not have the length that is declared in front of it. -/
  | lengthMismatch (declared : Nat)
  /-- Bytes are left over after the message. -/
  | trailingBytes (count : Nat)
  | unexpectedEnd
  /-- The indices of an instruction list do not ascend. -/
  | unorderedInstructions (previous current : UInt8)
  | tooManyInstructions (count : Nat)
  | payloadTooLong (length max : Nat)
  /-- No custody mode has this byte. -/
  | invalidMode (byte : UInt8)
  /-- No payload has this tag. -/
  | unknownPayload (tag : Tag)
  /-- The relayer flag is neither zero nor one. -/
  | badRelayerFlag (byte : UInt8)
  /-- A truth value is neither zero nor one. -/
  | badFlag (byte : UInt8)
  /-- No admin instruction has this number. -/
  | unknownInstruction (number : UInt8)
  /-- No custody mode has this name. -/
  | unknownModeName (name : String)
  /-- A payload is followed by more bytes. -/
  | badPayloadLength
deriving DecidableEq

namespace WireError

instance : Truncation WireError := ⟨unexpectedEnd⟩

/-- A tag as a list of hexadecimal bytes. -/
def tagText (tag : Tag) : String :=
  "[" ++ String.intercalate ", " (tag.toList.map fun b => String.ofList (Hex.digits b)) ++ "]"

/-- The text of an error. -/
def message : WireError → String
  | wrongTag expected actual =>
    s!"IncorrectPrefix: expected {tagText expected}, got {tagText actual}"
  | lengthMismatch declared =>
    s!"LengthMismatch: field length {declared} does not match its contents"
  | trailingBytes count => s!"TrailingBytes: {count} bytes left after decoding"
  | unexpectedEnd => "UnexpectedEnd: message ended before all fields were read"
  | unorderedInstructions previous current =>
    s!"UnorderedInstructions: index {current} follows {previous}"
  | tooManyInstructions count => s!"TooManyInstructions: {count} exceeds 255"
  | payloadTooLong length max => s!"PayloadTooLong: {length} exceeds {max} bytes"
  | invalidMode byte => s!"InvalidMode: {byte}"
  | unknownPayload tag => s!"UnknownPayload: no payload type with prefix {tagText tag}"
  | badRelayerFlag byte => s!"Malformed: relayer flag must be 0 or 1, got {byte}"
  | badFlag byte => s!"Malformed: expected a bool, got {byte}"
  | unknownInstruction number => s!"Malformed: unknown admin instruction {number}"
  | unknownModeName name => s!"Malformed: unknown mode {name}"
  | badPayloadLength => "Malformed: Invalid payload length"

end WireError

end CrossChain
