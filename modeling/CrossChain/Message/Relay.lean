import CrossChain.Message.Wire

/-!
# Relay instructions

The instruction that a bridged transceiver understands: whether to skip the relayer that
would otherwise deliver the message on the other chain.
-/

namespace CrossChain

/-- What a sender may tell a bridged transceiver. -/
structure RelayInstruction where
  /-- No relayer is asked to deliver the message. -/
  skipRelayer : Bool
deriving DecidableEq, Inhabited

namespace RelayInstruction

/-- Without an instruction the relayer is asked. -/
def standard : RelayInstruction := ⟨false⟩

/-- A single byte, zero or one. -/
def wire : Wire RelayInstruction :=
  (Format.flag .badRelayerFlag).imap RelayInstruction.mk skipRelayer

end RelayInstruction

end CrossChain
