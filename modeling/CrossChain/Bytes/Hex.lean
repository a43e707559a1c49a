import CrossChain.Bytes.Basic

/-!
# Hexadecimal text

Addresses are written as hexadecimal text, two digits a byte. Written text is lower case;
digits of either case are read.
-/

namespace CrossChain.Hex

/-- The digit of a number below sixteen. -/
def digit (n : Nat) : Char :=
  if n < 10 then Char.ofNat ('0'.toNat + n) else Char.ofNat ('a'.toNat + (n - 10))

/-- The value of a hexadecimal digit of either case. -/
def value? (c : Char) : Option Nat :=
  if '0' ≤ c ∧ c ≤ '9' then some (c.toNat - '0'.toNat)
  else if 'a' ≤ c ∧ c ≤ 'f' then some (c.toNat - 'a'.toNat + 10)
  else if 'A' ≤ c ∧ c ≤ 'F' then some (c.toNat - 'A'.toNat + 10)
  else none

/-- The two digits of a byte. -/
def digits (b : UInt8) : List Char :=
  [digit (b.toNat / 16), digit (b.toNat % 16)]

/-- A byte string as text. -/
def encode (bs : Bytes) : List Char :=
  bs.flatMap digits

/-- The byte string a text stands for: an even number of digits and nothing else. -/
def decode? : List Char → Option Bytes
  | [] => some []
  | [_] => none
  | high :: low :: rest => do
    let h ← value? high
    let l ← value? low
    let bs ← decode? rest
    return UInt8.ofNat (16 * h + l) :: bs

/-- The block of exactly `n` bytes that a text stands for. -/
def decodeBlock? (n : Nat) (text : List Char) : Option (Vector UInt8 n) := do
  let bs ← decode? text
  if h : bs.length = n then some ⟨bs.toArray, by simpa using h⟩ else none

end CrossChain.Hex
