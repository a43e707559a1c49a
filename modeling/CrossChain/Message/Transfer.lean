import CrossChain.Message.Wire

/-!
# Token transfers

The payload that moves tokens: how much, of which token, to whom and on which chain.
-/

namespace CrossChain

/-- A transfer of tokens to another chain. -/
structure TokenTransfer where
  /-- How much, in a precision that both chains can represent. -/
  amount : TrimmedAmount
  /-- The token on the chain that the transfer starts from. -/
  sourceToken : Address
  recipient : Address
  recipientChain : ChainId
deriving DecidableEq, Inhabited

namespace TokenTransfer

open Format Wire

/-- The tag of transfers. -/
def tag : Tag := #v[0x99, 0x4e, 0x54, 0x54]

/-- A transfer: its tag, then its fields in order. -/
def wire : Wire TokenTransfer :=
  tagged tag (.wrongTag tag) <|
    (pair trimmedAmount (pair bytes32 (pair bytes32 chainId))).imap
      (fun (amount, sourceToken, recipient, recipientChain) =>
        ⟨amount, sourceToken, recipient, recipientChain⟩)
      (fun t => (t.amount, t.sourceToken, t.recipient, t.recipientChain))

end TokenTransfer

end CrossChain
