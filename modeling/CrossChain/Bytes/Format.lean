import CrossChain.Bytes.Basic

/-!
# Formats: a reader beside a writer

A `Format` says how values of one type are laid out as bytes: a reader that takes a value
off the front of a byte string, a writer that puts it there, and the number of bytes the
writer produces. Formats are built from smaller ones, so that the reader and the writer of
a message are written once, side by side, and cannot drift apart.

## Parts

- **Blocks and numerals**: fixed-width bytes, words in either byte order.
- **Products**: `pair` and `imap` lay out the fields of a record one after another.
- **Choices**: `flag`, `optional` spend one byte to say which form follows.
- **Sequences**: `prefixed` and `listOf` put a count in front.
- **Conditions**: `checked` refuses values that a reader could form but no writer should.
-/

namespace CrossChain

/-- Takes a value off the front of a byte string, or says why it cannot. -/
abbrev Reader (ε : Type) := StateT Bytes (Except ε)

/-- Errors with a case for input that ends before the value does. -/
class Truncation (ε : Type) where
  /-- The input ended too early. -/
  truncated : ε

/-- The layout of values of type `α` as bytes. -/
structure Format (ε α : Type) where
  /-- Takes one value off the front. -/
  read : Reader ε α
  /-- The bytes of a value, unless it is too large for the format. -/
  write : α → Except ε Bytes
  /-- The number of bytes that `write` produces. -/
  size : α → Nat

namespace Format

variable {ε α β : Type}

/-! ## Whole byte strings -/

/-- Reads a value that takes up the whole byte string; `extra n` is the error for `n`
bytes left over. -/
def decode (f : Format ε α) (extra : Nat → ε) (bs : Bytes) : Except ε α := do
  let (value, rest) ← f.read bs
  match rest with
  | [] => return value
  | rest => throw (extra rest.length)

/-! ## Blocks and numerals -/

/-- Exactly `n` bytes. -/
def block [Truncation ε] (n : Nat) : Format ε (Vector UInt8 n) where
  read bs :=
    if h : (bs.take n).length = n then
      .ok (⟨(bs.take n).toArray, by simpa using h⟩, bs.drop n)
    else .error Truncation.truncated
  write v := .ok v.toList
  size _ := n

/-- The same layout for a type that stands in bijection with the first. -/
def imap (f : Format ε α) (forth : α → β) (back : β → α) : Format ε β where
  read := forth <$> f.read
  write b := f.write (back b)
  size b := f.size (back b)

/-- One byte. -/
def byte [Truncation ε] : Format ε UInt8 where
  read
    | [] => .error Truncation.truncated
    | b :: rest => .ok (b, rest)
  write b := .ok [b]
  size _ := 1

/-- A number below `numeralCount k` as a big endian numeral; `tooLarge n` is the error for a
greater one. -/
def numeralBE [Truncation ε] (k : Nat) (tooLarge : Nat → ε) : Format ε Nat where
  read := (fun v => natOfBE v.toList) <$> (block k).read
  write n := if n < numeralCount k then .ok (bytesBE k n) else .error (tooLarge n)
  size _ := k

/-- A number below `numeralCount k` as a little endian numeral; `tooLarge n` is the error for a
greater one. -/
def numeralLE [Truncation ε] (k : Nat) (tooLarge : Nat → ε) : Format ε Nat where
  read := (fun v => natOfLE v.toList) <$> (block k).read
  write n := if n < numeralCount k then .ok (bytesLE k n) else .error (tooLarge n)
  size _ := k

/-- A 16-bit word, most significant byte first. -/
def word16BE [Truncation ε] : Format ε UInt16 where
  read := (fun v => UInt16.ofNat (natOfBE v.toList)) <$> (block 2).read
  write w := .ok (bytesBE 2 w.toNat)
  size _ := 2

/-- A 64-bit word, most significant byte first. -/
def word64BE [Truncation ε] : Format ε UInt64 where
  read := (fun v => UInt64.ofNat (natOfBE v.toList)) <$> (block 8).read
  write w := .ok (bytesBE 8 w.toNat)
  size _ := 8

/-- A 16-bit word, least significant byte first. -/
def word16LE [Truncation ε] : Format ε UInt16 where
  read := (fun v => UInt16.ofNat (natOfLE v.toList)) <$> (block 2).read
  write w := .ok (bytesLE 2 w.toNat)
  size _ := 2

/-- A 64-bit word, least significant byte first. -/
def word64LE [Truncation ε] : Format ε UInt64 where
  read := (fun v => UInt64.ofNat (natOfLE v.toList)) <$> (block 8).read
  write w := .ok (bytesLE 8 w.toNat)
  size _ := 8

/-! ## Products -/

/-- No bytes at all. -/
def nothing : Format ε Unit where
  read := pure ()
  write _ := .ok []
  size _ := 0

/-- One value after another. -/
def pair (f : Format ε α) (g : Format ε β) : Format ε (α × β) where
  read := do
    let a ← f.read
    let b ← g.read
    return (a, b)
  write v := do
    let front ← f.write v.1
    let back ← g.write v.2
    return front ++ back
  size v := f.size v.1 + g.size v.2

/-- A value behind a fixed tag; `wrong t` is the error for another tag `t`. -/
def tagged [Truncation ε] (tag : Tag) (wrong : Tag → ε) (f : Format ε α) : Format ε α where
  read := do
    let found ← (block 4).read
    if found = tag then f.read else throw (wrong found)
  write v := return tag.toList ++ (← f.write v)
  size v := 4 + f.size v

/-! ## Choices -/

/-- A truth value in one byte, zero or one; `bad b` is the error for another byte. -/
def flag [Truncation ε] (bad : UInt8 → ε) : Format ε Bool where
  read := do
    match ← byte.read with
    | 0 => return false
    | 1 => return true
    | other => throw (bad other)
  write b := .ok [if b then 1 else 0]
  size _ := 1

/-- A value that may be missing: a byte, zero or one, that tells whether it follows. -/
def optional [Truncation ε] (bad : UInt8 → ε) (f : Format ε α) : Format ε (Option α) where
  read := do
    if ← (flag bad).read then some <$> f.read else return none
  write
    | none => .ok [0]
    | some v => return 1 :: (← f.write v)
  size
    | none => 1
    | some v => 1 + f.size v

/-! ## Sequences -/

/-- Reads `n` values, one after another. -/
def readMany (f : Format ε α) : Nat → Reader ε (List α)
  | 0 => pure []
  | n + 1 => do
    let v ← f.read
    let vs ← readMany f n
    return v :: vs

/-- The bytes of values laid out one after another. -/
def writeMany (f : Format ε α) : List α → Except ε Bytes
  | [] => .ok []
  | v :: vs => do
    let front ← f.write v
    let back ← writeMany f vs
    return front ++ back

/-- The number of bytes of values laid out one after another. -/
def sizeMany (f : Format ε α) : List α → Nat
  | [] => 0
  | v :: vs => f.size v + sizeMany f vs

/-- Bytes behind their number. -/
def prefixed [Truncation ε] (count : Format ε Nat) : Format ε Bytes where
  read := do
    let n ← count.read
    let v ← (block n).read
    return v.toList
  write bs := return (← count.write bs.length) ++ bs
  size bs := count.size bs.length + bs.length

/-- Values behind their number. -/
def listOf (count : Format ε Nat) (f : Format ε α) : Format ε (List α) where
  read := do
    let n ← count.read
    readMany f n
  write vs := return (← count.write vs.length) ++ (← writeMany f vs)
  size vs := count.size vs.length + sizeMany f vs

/-! ## Conditions -/

/-- The same layout, refused on reading for values that fail a check. -/
def checked (f : Format ε α) (check : α → Except ε Unit) : Format ε α where
  read := do
    let v ← f.read
    check v
    return v
  write := f.write
  size := f.size

end Format

end CrossChain
