import CrossChain.Bytes.Format

/-!
# Why a snapshot is refused

The reasons for which bytes are not a snapshot, with the text of each. The first one met in
reading order counts.
-/

namespace CrossChain

/-- Why bytes are not a snapshot, or a state has none. -/
inductive SnapshotError where
  | unexpectedEnd
  | leftover
  /-- A truth value is neither zero nor one. -/
  | badFlag (byte : UInt8)
  /-- The byte in front of a value that may be missing is neither zero nor one. -/
  | badOption (byte : UInt8)
  /-- No case of a choice has this number. -/
  | badCase (byte : UInt8)
  /-- A collection has more entries than a snapshot can count. -/
  | tooManyEntries
deriving DecidableEq

namespace SnapshotError

instance : Truncation SnapshotError := ⟨unexpectedEnd⟩

/-- The text of an error. -/
def message : SnapshotError → String
  | unexpectedEnd => "Unexpected length of input"
  | leftover => "Not all bytes read"
  | badFlag byte => s!"Invalid bool representation: {byte}"
  | badOption byte =>
    s!"Invalid Option representation: {byte}. The first byte must be 0 or 1"
  | badCase byte => s!"Unexpected variant tag: {byte}"
  | tooManyEntries => "invalid data"

end SnapshotError

end CrossChain
