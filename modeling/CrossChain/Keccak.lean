import CrossChain.Bytes.Basic

/-!
# The Keccak-256 hash

Message identifiers and replay keys are Keccak-256 hashes: the sponge over the permutation
`f[1600]` with a rate of 136 bytes, the padding `01 00 … 00 80`, and 32 bytes of output.

A state is 25 lanes of 64 bits; lane `x + 5 * y` stands in column `x` of row `y`.
-/

namespace CrossChain.Keccak

/-- Twenty-five lanes of 64 bits. -/
abbrev Lanes := Vector UInt64 25

/-- The number of message bytes that one permutation absorbs. -/
def rate : Nat := 136

/-! ## The permutation -/

/-- The bits of a word moved up by `n` places, those that fall out entering below. -/
def rotate (w : UInt64) (n : Nat) : UInt64 :=
  if n = 0 then w else (w <<< UInt64.ofNat n) ||| (w >>> UInt64.ofNat (64 - n))

/-- How far each lane is rotated. -/
def rotations : Vector Nat 25 :=
  #v[0, 1, 62, 28, 27,
     36, 44, 6, 55, 20,
     3, 10, 43, 25, 39,
     41, 45, 15, 21, 8,
     18, 2, 61, 56, 14]

/-- The constant of each round. -/
def roundConstants : List UInt64 :=
  [0x0000000000000001, 0x0000000000008082, 0x800000000000808A, 0x8000000080008000,
   0x000000000000808B, 0x0000000080000001, 0x8000000080008081, 0x8000000000008009,
   0x000000000000008A, 0x0000000000000088, 0x0000000080008009, 0x000000008000000A,
   0x000000008000808B, 0x800000000000008B, 0x8000000000008089, 0x8000000000008003,
   0x8000000000008002, 0x8000000000000080, 0x000000000000800A, 0x800000008000000A,
   0x8000000080008081, 0x8000000000008080, 0x0000000080000001, 0x8000000080008008]

/-- The lane in column `x` of row `y`, both taken modulo five. -/
def lane (s : Lanes) (x y : Nat) : UInt64 :=
  s[x % 5 + 5 * (y % 5)]

/-- Adds to each lane the parities of two neighbouring columns. -/
def mixColumns (s : Lanes) : Lanes :=
  let parity : Vector UInt64 5 := Vector.ofFn fun x =>
    lane s x 0 ^^^ lane s x 1 ^^^ lane s x 2 ^^^ lane s x 3 ^^^ lane s x 4
  let delta : Vector UInt64 5 := Vector.ofFn fun x =>
    parity[(x.val + 4) % 5] ^^^ rotate parity[(x.val + 1) % 5] 1
  Vector.ofFn fun i => s[i] ^^^ delta[i.val % 5]

/-- Rotates each lane and moves it to another place. -/
def moveLanes (s : Lanes) : Lanes :=
  Vector.ofFn fun i =>
    let x := (i.val % 5 + 3 * (i.val / 5)) % 5
    let y := i.val % 5
    rotate (lane s x y) (rotations[x % 5 + 5 * (y % 5)])

/-- Combines each lane with the next two of its row. -/
def mixRows (s : Lanes) : Lanes :=
  Vector.ofFn fun i =>
    let y := i.val / 5
    s[i] ^^^ (~~~lane s (i.val + 1) y &&& lane s (i.val + 2) y)

/-- One round of the permutation. -/
def round (s : Lanes) (constant : UInt64) : Lanes :=
  let mixed := mixRows (moveLanes (mixColumns s))
  mixed.set 0 (mixed[0] ^^^ constant)

/-- The permutation: 24 rounds. -/
def permute (s : Lanes) : Lanes :=
  roundConstants.foldl round s

/-! ## The sponge -/

/-- Adds a block of message bytes to the first lanes. -/
def addBlock (s : Lanes) (message : Bytes) : Lanes :=
  let bytes := message.toArray
  Vector.ofFn fun i =>
    if 8 * i.val < rate then
      s[i] ^^^ UInt64.ofNat (natOfLE (bytes.extract (8 * i.val) (8 * i.val + 8)).toList)
    else s[i]

/-- Absorbs `n` blocks of message bytes. -/
def absorb : Nat → Lanes → Bytes → Lanes
  | 0, s, _ => s
  | n + 1, s, message => absorb n (permute (addBlock s (message.take rate))) (message.drop rate)

/-- Fills the last block: a one, zeros, and the highest bit of the last byte. -/
def pad (message : Bytes) : Bytes :=
  -- There is always at least one byte of padding.
  let missing := rate - message.length % rate
  if missing = 1 then message ++ [0x81]
  else message ++ 0x01 :: List.replicate (missing - 2) 0x00 ++ [0x80]

/-- The first 32 bytes of a state. -/
def squeeze (s : Lanes) : Digest :=
  Vector.ofFn fun i => UInt8.ofNat (s[i.val / 8].toNat >>> (8 * (i.val % 8)))

/-- The Keccak-256 hash of a byte string. -/
def hash (message : Bytes) : Digest :=
  let padded := pad message
  squeeze (absorb (padded.length / rate) (Vector.replicate 25 0) padded)

end CrossChain.Keccak
