import CrossChain.Message.Wire

/-!
# Announcements of a transceiver

A transceiver tells its counterparts which manager it serves, and which transceiver it
trusts on another chain.
-/

namespace CrossChain

open Format Wire

/-- The manager that a transceiver serves. -/
structure TransceiverInfo where
  manager : Address
  /-- How the manager holds its tokens. -/
  mode : Mode
  token : Address
  tokenDecimals : UInt8
deriving DecidableEq, Inhabited

namespace TransceiverInfo

/-- The tag of manager announcements. -/
def tag : Tag := #v[0x9c, 0x23, 0xbd, 0x3b]

/-- A manager announcement: its tag, then its fields in order. -/
def wire : Wire TransceiverInfo :=
  tagged tag (.wrongTag tag) <|
    (pair bytes32 (pair Wire.mode (pair bytes32 byte))).imap
      (fun (manager, mode, token, tokenDecimals) => ⟨manager, mode, token, tokenDecimals⟩)
      (fun i => (i.manager, i.mode, i.token, i.tokenDecimals))

end TransceiverInfo

/-- The transceiver that is trusted on another chain. -/
structure TransceiverRegistration where
  chain : ChainId
  /-- The transceiver there. -/
  transceiver : Address
deriving DecidableEq, Inhabited

namespace TransceiverRegistration

/-- The tag of peer announcements. -/
def tag : Tag := #v[0x18, 0xfc, 0x67, 0xc2]

/-- A peer announcement: its tag, then its fields in order. -/
def wire : Wire TransceiverRegistration :=
  tagged tag (.wrongTag tag) <|
    (pair chainId bytes32).imap
      (fun (chain, transceiver) => ⟨chain, transceiver⟩)
      (fun r => (r.chain, r.transceiver))

end TransceiverRegistration

end CrossChain
