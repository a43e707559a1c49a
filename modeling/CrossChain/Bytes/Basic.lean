/-!
# Byte strings

Everything that travels between chains or is kept in a snapshot is a string of bytes.
This module holds the byte string itself, the fixed-width blocks that serve as account
addresses and as digests, and unsigned numerals in both byte orders.

## Main statements

* `natOfLE_bytesLE`, `natOfBE_bytesBE`: a numeral of `k` bytes reads back as the number
  modulo `numeralCount k`.
* `bytesLE_natOfLE`, `bytesBE_natOfBE`: every byte string is the numeral of its value.
-/

namespace CrossChain

/-- A string of bytes. -/
abbrev Bytes := List UInt8

/-- Four bytes that tell one kind of message from another. -/
abbrev Tag := Vector UInt8 4

/-- Thirty-two bytes. -/
abbrev Bytes32 := Vector UInt8 32

/-- An account, contract or token on some chain, left padded to thirty-two bytes. -/
abbrev Address := Bytes32

/-- A hash that identifies a message. -/
abbrev Digest := Bytes32

/-- The address that no account has. -/
def Address.zero : Address := Vector.replicate 32 0

/-! ## Numerals -/

/-- The number of numerals of `k` bytes, which is `256 ^ k`. -/
def numeralCount : Nat → Nat
  | 0 => 1
  | k + 1 => 256 * numeralCount k

/-- The numeral of `n` in `k` bytes, least significant byte first; digits beyond `k` are
dropped. -/
def bytesLE : Nat → Nat → Bytes
  | 0, _ => []
  | k + 1, n => UInt8.ofNat n :: bytesLE k (n / 256)

/-- The number whose little endian numeral is the given byte string. -/
def natOfLE : Bytes → Nat
  | [] => 0
  | b :: rest => b.toNat + 256 * natOfLE rest

/-- The numeral of `n` in `k` bytes, most significant byte first. -/
def bytesBE (k n : Nat) : Bytes :=
  (bytesLE k n).reverse

/-- The number whose big endian numeral is the given byte string. -/
def natOfBE (bs : Bytes) : Nat :=
  natOfLE bs.reverse

/-! ## Numerals read back -/

/-- A numeral has as many bytes as were asked for. -/
@[simp]
theorem length_bytesLE (k n : Nat) : (bytesLE k n).length = k := by
  induction k generalizing n with
  | zero => rfl
  | succ k ih => simp [bytesLE, ih]

/-- A big endian numeral has as many bytes as were asked for. -/
@[simp]
theorem length_bytesBE (k n : Nat) : (bytesBE k n).length = k := by
  simp [bytesBE]

/-- There are numerals of every length. -/
theorem numeralCount_pos (k : Nat) : 0 < numeralCount k := by
  induction k with
  | zero => decide
  | succ k ih => simp only [numeralCount]; omega

/-- **A little endian numeral reads back** as the number modulo `numeralCount k`. -/
theorem natOfLE_bytesLE (k n : Nat) : natOfLE (bytesLE k n) = n % numeralCount k := by
  induction k generalizing n with
  | zero => simp [bytesLE, natOfLE, numeralCount, Nat.mod_one]
  | succ k ih =>
    have split : n % numeralCount (k + 1) = n % 256 + 256 * (n / 256 % numeralCount k) := by
      rw [numeralCount, Nat.mod_mul]
    simp [bytesLE, natOfLE, ih, split]

/-- **Every byte string is the little endian numeral** of its value. -/
theorem bytesLE_natOfLE (bs : Bytes) : bytesLE bs.length (natOfLE bs) = bs := by
  induction bs with
  | nil => rfl
  | cons b rest ih =>
    have low : b.toNat < 256 := b.toNat_lt
    have quotient : (b.toNat + 256 * natOfLE rest) / 256 = natOfLE rest := by omega
    have head : UInt8.ofNat (b.toNat + 256 * natOfLE rest) = b := by
      apply UInt8.toNat_inj.mp
      simp
    simp only [List.length_cons, bytesLE, natOfLE, quotient, ih, head]

/-- A byte string of length `k` stands for a number below `numeralCount k`. -/
theorem natOfLE_lt (bs : Bytes) : natOfLE bs < numeralCount bs.length := by
  have value := natOfLE_bytesLE bs.length (natOfLE bs)
  rw [bytesLE_natOfLE] at value
  rw [value]
  exact Nat.mod_lt _ (numeralCount_pos _)

/-- **A big endian numeral reads back** as the number modulo `numeralCount k`. -/
theorem natOfBE_bytesBE (k n : Nat) : natOfBE (bytesBE k n) = n % numeralCount k := by
  simp [natOfBE, bytesBE, natOfLE_bytesLE]

/-- **Every byte string is the big endian numeral** of its value. -/
theorem bytesBE_natOfBE (bs : Bytes) : bytesBE bs.length (natOfBE bs) = bs := by
  have reversed := bytesLE_natOfLE bs.reverse
  rw [List.length_reverse] at reversed
  simp [bytesBE, natOfBE, reversed]

/-- A big endian byte string of length `k` stands for a number below `numeralCount k`. -/
theorem natOfBE_lt (bs : Bytes) : natOfBE bs < numeralCount bs.length := by
  simpa [natOfBE] using natOfLE_lt bs.reverse

/-- Byte strings of one length are equal when their big endian values are. -/
theorem eq_of_natOfBE_eq {as bs : Bytes} (len : as.length = bs.length)
    (value : natOfBE as = natOfBE bs) : as = bs := by
  rw [← bytesBE_natOfBE as, ← bytesBE_natOfBE bs, len, value]

end CrossChain
