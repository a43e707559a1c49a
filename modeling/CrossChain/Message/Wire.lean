import CrossChain.Message.Error
import CrossChain.Amount
import CrossChain.Chain
import CrossChain.Mode

/-!
# The wire format

What all messages share: numbers are big endian, addresses are raw bytes, amounts start with
their decimals, and a field of varying length stands behind its length in two bytes. A field
that is itself a message must fill its declared length exactly, so that every message has
one encoding.
-/

namespace CrossChain

/-- A layout for messages. -/
abbrev Wire (α : Type) := Format WireError α

namespace Wire

open Format

variable {α : Type}

/-- Reads a message that takes up all of the bytes. -/
def decode (f : Wire α) (bs : Bytes) : Except WireError α :=
  Format.decode f .trailingBytes bs

/-- Reads a payload that takes up all of the bytes. -/
def decodePayload (f : Wire α) (bs : Bytes) : Except WireError α :=
  Format.decode f (fun _ => .badPayloadLength) bs

/-- Thirty-two raw bytes. -/
def bytes32 : Wire Bytes32 := block 32

/-- The number of a chain. -/
def chainId : Wire ChainId := word16BE.imap ChainId.mk ChainId.number

/-- An amount: its decimals, then the amount itself. -/
def trimmedAmount : Wire TrimmedAmount :=
  (pair byte word64BE).imap (fun v => ⟨v.2, v.1⟩) (fun a => (a.decimals, a.amount))

/-- A custody mode in one byte. -/
def mode : Wire Mode where
  read := do
    let b ← byte.read
    match Mode.ofByte? b with
    | some m => return m
    | none => throw (.invalidMode b)
  write m := byte.write m.toByte
  size _ := 1

/-- A length in two bytes. -/
def length16 : Wire Nat := numeralBE 2 (.payloadTooLong · 65535)

/-- A length in one byte. -/
def length8 : Wire Nat := numeralBE 1 (.payloadTooLong · 255)

/-- Raw bytes behind their length in two bytes. -/
def bytes16 : Wire Bytes := prefixed length16

/-- Reads a value from exactly the given bytes. Bytes that end too early or are left over
mean that the declared length was wrong. -/
def readExactly (f : Wire α) (span : Bytes) : Except WireError α :=
  match f.read span with
  | .ok (value, []) => .ok value
  | .ok (_, _ :: _) => .error (.lengthMismatch span.length)
  -- A field inside the span that is cut off has reported its own length already.
  | .error .unexpectedEnd => .error (.lengthMismatch span.length)
  | .error other => .error other

/-- A value behind its length in two bytes, which it fills exactly. -/
def spanned (f : Wire α) : Wire α where
  read := do
    let span ← bytes16.read
    readExactly f span
  write v := do
    let inner ← f.write v
    bytes16.write inner
  size v := 2 + f.size v

end Wire

end CrossChain
