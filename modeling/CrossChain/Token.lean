import CrossChain.Bytes.Basic
import CrossChain.Mode
import CrossChain.SortedMap.Keys
import CrossChain.Word

/-!
# The token ledger

The token of a chain: the balance of every holder, what a manager holds in custody, and the
total supply. Four operations move tokens for a manager; a fifth creates them from nothing,
as a faucet does.

Operations run one after another on the ledger and keep what they did before a failure.
-/

namespace CrossChain

/-- Why the ledger refuses to move tokens. -/
inductive TokenError where
  /-- There are fewer tokens than requested. -/
  | insufficientFunds (available requested : UInt64)
  /-- A balance, the custody or the supply would exceed 64 bits. -/
  | supplyOverflow
deriving DecidableEq

/-- The text of an error. -/
def TokenError.message : TokenError → String
  | .insufficientFunds available requested =>
    s!"InsufficientFunds: {available} available, {requested} requested"
  | .supplyOverflow => "SupplyOverflow"

/-- A token and who holds it. -/
structure Token where
  address : Address
  decimals : UInt8
  /-- What each holder has; a holder that never had a balance has no entry. -/
  balances : SortedMap Address UInt64
  /-- What the manager holds for tokens that are on other chains. -/
  custody : UInt64
  supply : UInt64

namespace Token

/-- An operation on the ledger. -/
abbrev Operation := EStateM TokenError Token

/-- A token that nobody holds yet. -/
def create (address : Address) (decimals : UInt8) : Token :=
  ⟨address, decimals, .empty, 0, 0⟩

/-- What a holder has. -/
def balanceOf (t : Token) (owner : Address) : UInt64 :=
  (t.balances.get? owner).getD 0

/-- Sets what a holder has. -/
def setBalance (t : Token) (owner : Address) (amount : UInt64) : Token :=
  { t with balances := t.balances.insert owner amount }

/-- The result of an arithmetic step that must fit 64 bits. -/
def fitting : Option UInt64 → Operation UInt64
  | some value => pure value
  | none => throw .supplyOverflow

/-- Gives a holder more; a new holder starts with an entry of zero. -/
def give (owner : Address) (amount : UInt64) : Operation Unit := do
  let balance := (← get).balanceOf owner
  -- The entry is made before the sum is checked.
  modify (·.setBalance owner balance)
  let raised ← fitting (Word.add? balance amount)
  modify (·.setBalance owner raised)

/-- Takes from a holder. -/
def take (owner : Address) (amount : UInt64) : Operation Unit := do
  let balance := (← get).balanceOf owner
  match Word.sub? balance amount with
  | none => throw (.insufficientFunds balance amount)
  | some remaining => modify (·.setBalance owner remaining)

/-- Creates tokens from nothing for a holder. -/
def fund (owner : Address) (amount : UInt64) : Operation Unit := do
  let supply ← fitting (Word.add? (← get).supply amount)
  modify ({ · with supply })
  give owner amount

/-- Moves tokens of a holder into custody. -/
def lock (owner : Address) (amount : UInt64) : Operation Unit := do
  let custody ← fitting (Word.add? (← get).custody amount)
  take owner amount
  modify ({ · with custody })

/-- Moves tokens out of custody to a holder. -/
def unlock (recipient : Address) (amount : UInt64) : Operation Unit := do
  let held := (← get).custody
  match Word.sub? held amount with
  | none => throw (.insufficientFunds held amount)
  | some custody =>
    give recipient amount
    modify ({ · with custody })

/-- Destroys tokens of a holder. -/
def burn (owner : Address) (amount : UInt64) : Operation Unit := do
  take owner amount
  -- The supply covers all balances, unless it was set by hand.
  modify fun t => { t with supply := Word.subSat t.supply amount }

/-- Creates tokens for a holder on behalf of the manager. -/
def mint (recipient : Address) (amount : UInt64) : Operation Unit := do
  let supply ← fitting (Word.add? (← get).supply amount)
  give recipient amount
  modify ({ · with supply })

/-- Takes tokens of a holder on their way out, as the mode prescribes. -/
def debit (mode : Mode) (owner : Address) (amount : UInt64) : Operation Unit :=
  match mode with
  | .locking => lock owner amount
  | .burning => burn owner amount

/-- Gives a holder tokens on their way in, as the mode prescribes. -/
def credit (mode : Mode) (recipient : Address) (amount : UInt64) : Operation Unit :=
  match mode with
  | .locking => unlock recipient amount
  | .burning => mint recipient amount

end Token

end CrossChain
