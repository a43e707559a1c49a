/-!
# Custody modes

A manager either keeps outbound tokens in its own custody and hands them out again on the
way back, or destroys them and creates them anew.
-/

namespace CrossChain

/-- How a manager takes outbound tokens and gives inbound ones. -/
inductive Mode where
  /-- Tokens are locked on the way out and unlocked on the way in. -/
  | locking
  /-- Tokens are burned on the way out and minted on the way in. -/
  | burning
deriving DecidableEq, Inhabited

namespace Mode

/-- The name of a mode in settings. -/
def name : Mode → String
  | .locking => "locking"
  | .burning => "burning"

/-- The mode of a name in settings. -/
def ofName? (text : String) : Option Mode :=
  if text = "locking" then some .locking
  else if text = "burning" then some .burning
  else none

/-- A text with its ASCII letters in lower case; other characters stay as they are. -/
def lowerAscii (text : String) : String :=
  text.map Char.toLower

/-- The mode a text names in ASCII letters of any case; the error is the text in lower
case. -/
def parse (text : String) : Except String Mode :=
  match ofName? (lowerAscii text) with
  | some mode => .ok mode
  | none => .error (lowerAscii text)

/-- The byte that stands for a mode in messages and snapshots. -/
def toByte : Mode → UInt8
  | .locking => 0
  | .burning => 1

/-- The mode a byte stands for. -/
def ofByte? : UInt8 → Option Mode
  | 0 => some .locking
  | 1 => some .burning
  | _ => none

end Mode

end CrossChain
