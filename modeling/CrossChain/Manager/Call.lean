import CrossChain.Manager.State
import CrossChain.Operation
import CrossChain.Token

/-!
# Calls to a manager

A call is an operation on a manager and on the token ledger.
-/

namespace CrossChain

/-- A manager and the token it manages. -/
structure Book where
  manager : Manager
  token : Token

/-- A call to a manager. -/
abbrev Call := EStateM CallError Book

namespace Call

variable {α : Type}

/-- The manager as it is. -/
def manager : Call Manager :=
  return (← get).manager

/-- Replaces the manager. -/
def setManager (m : Manager) : Call Unit :=
  modify ({ · with manager := m })

/-- An operation on the manager. -/
def onManager (operation : Manager.Operation α) : Call α :=
  within Book.manager (fun manager book => { book with manager }) id operation

/-- An operation on the token ledger. -/
def onToken (operation : Token.Operation α) : Call α :=
  within Book.token (fun token book => { book with token }) .token operation

end Call

end CrossChain
