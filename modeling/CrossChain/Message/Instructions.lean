import CrossChain.Message.Wire

/-!
# Instructions for transceivers

A sender may attach to a transfer an instruction for each of the transceivers that will
carry it. The list holds at most 255 instructions of at most 255 bytes, in strictly
ascending order of the transceivers they are for, so that a set of instructions has one
encoding.
-/

namespace CrossChain

/-- Bytes for one transceiver. -/
structure Instruction where
  index : UInt8
  /-- What it is told. -/
  payload : Bytes
deriving DecidableEq, Inhabited

/-- Instructions for several transceivers. -/
structure Instructions where
  entries : List Instruction
deriving DecidableEq, Inhabited

namespace Instructions

/-- No instructions. -/
def empty : Instructions := ⟨[]⟩

/-! ## Admissible lists -/

/-- Checks the instructions that follow one with index `previous`: each payload fits its
length byte, and each index is above the one before. -/
def checkFrom : Option UInt8 → List Instruction → Except WireError Unit
  | _, [] => .ok ()
  | previous, entry :: rest =>
    if 255 < entry.payload.length then .error (.payloadTooLong entry.payload.length 255)
    else match previous with
      | none => checkFrom (some entry.index) rest
      | some last =>
        if entry.index ≤ last then .error (.unorderedInstructions last entry.index)
        else checkFrom (some entry.index) rest

/-- Checks that a list of instructions may be sent. -/
def check (list : Instructions) : Except WireError Unit :=
  if 255 < list.entries.length then .error (.tooManyInstructions list.entries.length)
  else checkFrom none list.entries

/-- The instructions of a list, unless it may not be sent. -/
def ofList (entries : List Instruction) : Except WireError Instructions := do
  check ⟨entries⟩
  return ⟨entries⟩

/-! ## Looking up -/

/-- Halves the `size` entries from `base` on until one is left, keeping the upper half unless
it starts above `index`. -/
def bisect (entries : Array Instruction) (index : UInt8) (base size : Nat) : Nat :=
  if 1 < size then
    let half := size / 2
    let base :=
      match entries[base + half]? with
      | some entry => if index < entry.index then base else base + half
      | none => base
    bisect entries index base (size - half)
  else base
termination_by size
decreasing_by omega

/-- The payload for a transceiver, found by bisection. -/
def get? (list : Instructions) (index : UInt8) : Option Bytes :=
  let entries := list.entries.toArray
  -- A list from a snapshot need not ascend; what is found in it is what bisection finds.
  match entries[bisect entries index 0 entries.size]? with
  | some entry => if entry.index = index then some entry.payload else none
  | none => none

/-- The last index, which is the greatest one of a list that may be sent. -/
def lastIndex? (list : Instructions) : Option UInt8 :=
  list.entries.getLast?.map Instruction.index

/-! ## Wire format -/

open Format Wire

/-- An instruction: its index, then its payload behind its length in one byte. -/
def instructionWire : Wire Instruction :=
  (pair byte (prefixed length8)).imap
    (fun (index, payload) => ⟨index, payload⟩) (fun i => (i.index, i.payload))

/-- The instructions behind their number in one byte. -/
def wire : Wire Instructions :=
  checked
    ((listOf (numeralBE 1 .tooManyInstructions) instructionWire).imap Instructions.mk entries)
    check

end Instructions

end CrossChain
