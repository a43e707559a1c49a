import CrossChain.Bitmap
import CrossChain.Chain
import CrossChain.Amount
import CrossChain.Mode
import CrossChain.Release
import CrossChain.Snapshot.Error
import CrossChain.SortedMap.Keys

/-!
# The snapshot format

What all snapshots share: numbers are little endian, collections stand behind the number of
their entries in four bytes, and the case of a choice is told by one byte. A map is written
in the order of its keys; on reading, entries may come in any order, and of several with one
key the last counts.
-/

namespace CrossChain

/-- A layout for snapshots. -/
abbrev Stored (α : Type) := Format SnapshotError α

namespace Stored

open Format

variable {α κ : Type}

/-- Reads a value that takes up all of the bytes. -/
def decode (f : Stored α) (bs : Bytes) : Except SnapshotError α :=
  Format.decode f (fun _ => .leftover) bs

/-! ## Parts of snapshots -/

/-- The number of entries of a collection. -/
def count : Stored Nat := numeralLE 4 (fun _ => .tooManyEntries)

/-- A truth value. -/
def boolean : Stored Bool := flag .badFlag

/-- A value that may be missing. -/
def option (f : Stored α) : Stored (Option α) := optional .badOption f

/-- Raw bytes behind their number. -/
def bytes : Stored Bytes := prefixed count

/-- Values behind their number. -/
def list (f : Stored α) : Stored (List α) := listOf count f

/-- The entries of a map behind their number. -/
def map [Ranked κ] (key : Stored κ) (value : Stored α) : Stored (SortedMap κ α) :=
  -- Reading sorts: `ofList` inserts one entry after another.
  (list (pair key value)).imap .ofList SortedMap.toList

/-- The members of a set behind their number. -/
def set [Ranked κ] (key : Stored κ) : Stored (SortedSet κ) :=
  (list key).imap (fun keys => .ofList (keys.map (·, ()))) (fun s => s.toList.map (·.1))

/-- A choice without fields: one byte for each case. -/
def choice (toByte : α → UInt8) (ofByte? : UInt8 → Option α) : Stored α where
  read := do
    let b ← byte.read
    match ofByte? b with
    | some v => return v
    | none => throw (.badCase b)
  write v := byte.write (toByte v)
  size _ := 1

/-! ## Values -/

/-- Thirty-two raw bytes. -/
def bytes32 : Stored Bytes32 := block 32

/-- A timestamp in two's complement. -/
def timestamp : Stored Timestamp := word64LE.imap UInt64.toInt64 Int64.toUInt64

/-- The number of a chain. -/
def chainId : Stored ChainId := word16LE.imap ChainId.mk ChainId.number

/-- A custody mode. -/
def mode : Stored Mode := choice Mode.toByte Mode.ofByte?

/-- A set of transceivers as a number of 128 bits. -/
def bitmap : Stored Bitmap :=
  (numeralLE 16 (fun _ => .tooManyEntries)).imap
    (fun n => ⟨BitVec.ofNat 128 n⟩) (fun s => s.bits.toNat)

/-- An amount: the amount itself, then its decimals. -/
def trimmedAmount : Stored TrimmedAmount :=
  (pair word64LE byte).imap (fun v => ⟨v.1, v.2⟩) (fun a => (a.amount, a.decimals))

/-- How far a transfer has come; a queued one has its time. -/
def releaseStatus : Stored ReleaseStatus where
  read := do
    match ← byte.read with
    | 0 => return .notApproved
    | 1 => return .initiated
    | 2 => .queued <$> timestamp.read
    | 3 => return .released
    | other => throw (.badCase other)
  write
    | .notApproved => .ok [0]
    | .initiated => .ok [1]
    | .queued time => return 2 :: (← timestamp.write time)
    | .released => .ok [3]
  size
    | .queued time => 1 + timestamp.size time
    | _ => 1

/-- A rate limit: its fields in order. -/
def rateLimit : Stored RateLimit :=
  (pair trimmedAmount (pair trimmedAmount (pair timestamp timestamp))).imap
    (fun (limit, stored, updatedAt, duration) => ⟨limit, stored, updatedAt, duration⟩)
    (fun r => (r.limit, r.stored, r.updatedAt, r.duration))

end Stored

end CrossChain
