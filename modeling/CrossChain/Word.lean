/-!
# Checked and saturating words

Amounts are unsigned 64-bit words and timestamps are signed 64-bit words. None of the
arithmetic on them wraps: a step either reports that the exact result does not fit or stops
at the nearest value that does. Each operation is stated on the exact integers.
-/

namespace CrossChain.Word

/-- The sum, if it fits. -/
def add? (a b : UInt64) : Option UInt64 :=
  if a.toNat + b.toNat < UInt64.size then some (UInt64.ofNat (a.toNat + b.toNat)) else none

/-- The difference, if it is not negative. -/
def sub? (a b : UInt64) : Option UInt64 :=
  if b.toNat ≤ a.toNat then some (UInt64.ofNat (a.toNat - b.toNat)) else none

/-- The product, if it fits. -/
def mul? (a b : UInt64) : Option UInt64 :=
  if a.toNat * b.toNat < UInt64.size then some (UInt64.ofNat (a.toNat * b.toNat)) else none

/-- The sum, or the greatest word if the sum does not fit. -/
def addSat (a b : UInt64) : UInt64 :=
  UInt64.ofNat (min (a.toNat + b.toNat) (UInt64.size - 1))

/-- The difference, or zero if it would be negative. -/
def subSat (a b : UInt64) : UInt64 :=
  UInt64.ofNat (a.toNat - b.toNat)

/-- The number of unsigned words of 128 bits. -/
def wideSize : Nat := UInt64.size * UInt64.size

/-- The product of two numbers, if it fits an unsigned word of 128 bits. -/
def mulWide? (a b : Nat) : Option Nat :=
  if a * b < wideSize then some (a * b) else none

/-- The sum of two numbers, or the greatest unsigned word of 128 bits. -/
def addWideSat (a b : Nat) : Nat :=
  min (a + b) (wideSize - 1)

end CrossChain.Word

namespace CrossChain

/-- Seconds since the epoch; spans of time have the same type. -/
abbrev Timestamp := Int64

namespace Timestamp

/-- The signed word nearest to an integer. -/
def clamp (z : Int) : Timestamp :=
  Int64.ofInt (max Int64.minValue.toInt (min z Int64.maxValue.toInt))

/-- The sum, stopped at the ends of the range. -/
def addSat (a b : Timestamp) : Timestamp :=
  clamp (a.toInt + b.toInt)

/-- The difference, stopped at the ends of the range. -/
def subSat (a b : Timestamp) : Timestamp :=
  clamp (a.toInt - b.toInt)

end Timestamp

end CrossChain
