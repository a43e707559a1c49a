import CrossChain.SortedMap

/-!
# Chains

The blockchains that tokens move between are told apart by a 16-bit number.
-/

namespace CrossChain

/-- The number of a chain. -/
structure ChainId where
  number : UInt16
deriving DecidableEq, Inhabited

instance : Ranked ChainId where
  rank c := c.number.toNat
  rank_injective {a b} h := by
    cases a
    cases b
    simpa using UInt16.toNat_inj.mp h

end CrossChain
