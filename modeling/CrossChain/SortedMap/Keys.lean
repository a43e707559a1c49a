import CrossChain.SortedMap
import CrossChain.Bytes.Basic

/-!
# Keys of sorted maps

Words are ordered as numbers, and blocks of bytes lexicographically, which for blocks of one
width is the order of their big endian values.
-/

namespace CrossChain

instance : Ranked UInt64 where
  rank := UInt64.toNat
  rank_injective := UInt64.toNat_inj.mp

instance (n : Nat) : Ranked (Vector UInt8 n) where
  rank v := natOfBE v.toList
  rank_injective h := Vector.toList_inj.mp (eq_of_natOfBE_eq (by simp) h)

end CrossChain
