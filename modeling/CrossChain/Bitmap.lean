/-!
# Sets of transceivers

A manager has at most 128 transceivers. A set of them is a bitmap: bit `i` tells whether the
transceiver with id `i` belongs to it. Ids beyond 127 belong to no set and cannot be added.
-/

namespace CrossChain

/-- A set of transceiver ids. -/
structure Bitmap where
  /-- One bit for each id. -/
  bits : BitVec 128
deriving DecidableEq, Inhabited

namespace Bitmap

/-- The number of ids. -/
def capacity : UInt8 := 128

/-- The set without members. -/
def empty : Bitmap := ⟨0⟩

/-- Whether an id belongs to the set; `none` for an id that is out of bounds. -/
def get? (s : Bitmap) (id : UInt8) : Option Bool :=
  if id < capacity then some (s.bits.getLsbD id.toNat) else none

/-- Adds or removes an id; `none` for an id that is out of bounds. -/
def set? (s : Bitmap) (id : UInt8) (member : Bool) : Option Bitmap :=
  if id < capacity then
    let bit := BitVec.twoPow 128 id.toNat
    some ⟨if member then s.bits ||| bit else s.bits &&& ~~~bit⟩
  else none

/-- The number of members. -/
def count (s : Bitmap) : Nat :=
  s.bits.cpop.toNat

/-- The number of members in a byte, or the number of ids if it did not fit. -/
def countByte (s : Bitmap) : UInt8 :=
  if s.count < UInt8.size then .ofNat s.count else capacity

/-- The members of both sets. -/
def inter (s t : Bitmap) : Bitmap :=
  ⟨s.bits &&& t.bits⟩

/-- The number of members of both sets. -/
def countCommon (s t : Bitmap) : Nat :=
  (s.inter t).count

/-- Whether every member of the second set belongs to the first. -/
def containsAll (s t : Bitmap) : Bool :=
  s.bits &&& t.bits == t.bits

/-- Whether the set has no members. -/
def isEmpty (s : Bitmap) : Bool :=
  s.bits == 0

end Bitmap

end CrossChain
