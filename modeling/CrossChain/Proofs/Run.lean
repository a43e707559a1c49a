import Mathlib.Data.List.Induction
import CrossChain.Bridge.Endpoint
import CrossChain.Governance.Contract
import CrossChain.Manager.Create
import CrossChain.Manager.Transfer

/-!
# Runs of a manager

Everything that can happen to a manager and the token it manages, as one step function over a
type of actions, and the runs that arise from it.

## Actions

An action is a call with all that its caller chooses. Whoever calls, the step function carries
the call out as it is defined; what a wrapper around a manager brings along (an endpoint with
the peers it trusts, a bridge that takes posts or refuses them, a governance contract with the
messages it has consumed) is part of the action, so a run ranges over all of their states.
`Action.external` is the one action that is not a call to the manager: others use the token.

## Runs

`Book.run` is the book after a list of events and `Book.trace` the list of steps that lead
there, each with the books before and after it. Time is part of an event and need not ascend.

## Main definitions

* `Action`, `Answer`, `Book.step`: one step.
* `Book.run`, `Book.trace`, `Book.Fresh`: runs from a manager that was just created.
* `Action.arrival?`, `Action.subject?`, `Action.pickUp?`: what an action is about.
* `Step.Credits`, `Step.Pays`, `Step.Takes`, `Step.Redeems`, `Step.HandsOver`: what a step did.
-/

namespace CrossChain

/-! ## §1 Actions and answers -/

/-- Something that happens to a manager or its token. -/
inductive Action where
  /-- An account sends tokens. -/
  | transfer (sender : Address) (request : TransferRequest)
  /-- A transceiver vouches for a message. -/
  | redeem (transceiver : Address) (source : ChainId) (delivery : Delivery TokenTransfer)
  /-- An endpoint receives a post from its bridge. -/
  | receive (endpoint : Endpoint) (post : SignedPost)
  /-- Anyone releases an inbound transfer. -/
  | releaseInbound (digest : Digest) (strict : Bool)
  /-- A transceiver picks up an outbound transfer. -/
  | releaseOutbound (transceiver : Address) (sequence : UInt64) (strict : Bool)
  /-- An endpoint picks up an outbound transfer and posts it. -/
  | publish (endpoint : Endpoint) (bridge : Publisher) (sequence : UInt64) (strict : Bool)
  /-- An account takes an outbound transfer back. -/
  | cancelOutbound (caller : Address) (sequence : UInt64)
  /-- An account changes the configuration. -/
  | execute (caller : Address) (instruction : AdminInstruction)
  /-- An account registers a transceiver and asks for its id. -/
  | register (caller address : Address)
  /-- An account changes the configuration by an instruction in bytes. -/
  | invoke (caller : Address) (callData : Bytes)
  /-- A governance contract receives a post. -/
  | govern (contract : Governance) (post : SignedPost)
  /-- Others use the token, which may be anything afterwards. -/
  | external (token : Token)

/-- What an action returns when it succeeds. -/
inductive Answer where
  | sent (receipt : TransferReceipt)
  | redeemed (receipt : RedeemReceipt)
  | released (status : InboundStatus)
  | handedOut (release : Option OutboundRelease)
  | published (publication : Option Publication)
  | refunded (amount : UInt64)
  | registered (id : UInt8)
  | done
deriving DecidableEq

/-- Why an action fails. -/
inductive Failure where
  | call (error : CallError)
  | governance (error : GovernanceError)
deriving DecidableEq

/-- What an action returns. -/
abbrev Outcome := Except Failure Answer

/-- An action and when it happens. -/
structure Event where
  now : Timestamp
  action : Action

/-- Whether an action is a call to the manager. -/
def Action.IsCall : Action → Prop
  | .external _ => False
  | _ => True

/-! ## §2 Steps -/

/-- A step of a run: what happened, with the books before and after it. -/
structure Step where
  before : Book
  event : Event
  outcome : Outcome
  after : Book

/-- What a call returned, and the book it left. -/
def observe {α : Type} (answer : α → Answer) : EStateM.Result CallError Book α → Outcome × Book
  | .ok value book => (.ok (answer value), book)
  | .error e book => (.error (.call e), book)

/-- Carries out an action on a book. -/
def perform (now : Timestamp) (book : Book) : Action → Outcome × Book
  | .transfer sender request => observe .sent (Call.transfer sender now request book)
  | .redeem transceiver source delivery =>
    observe .redeemed (Call.redeem transceiver now source delivery book)
  | .receive endpoint post => observe .redeemed (endpoint.receive now post book)
  | .releaseInbound digest strict =>
    observe .released (Call.releaseInbound now digest strict book)
  | .releaseOutbound transceiver sequence strict =>
    observe .handedOut (Call.releaseOutbound transceiver now sequence strict book)
  | .publish endpoint bridge sequence strict =>
    observe .published (endpoint.release bridge now sequence strict book)
  | .cancelOutbound caller sequence =>
    observe .refunded (Call.cancelOutbound caller sequence book)
  | .execute caller instruction =>
    observe (fun _ => .done) (Call.execute caller now instruction book)
  | .register caller address => observe .registered (Call.registerTransceiver caller address book)
  | .invoke caller callData => observe (fun _ => .done) (Call.invoke caller now callData book)
  | .govern contract post =>
    match Governance.execute now post ⟨contract, book.manager⟩ with
    | .ok _ governed => (.ok .done, { book with manager := governed.manager })
    | .error e governed => (.error (.governance e), { book with manager := governed.manager })
  | .external token => (.ok .done, { book with token })

namespace Book

/-- The step that an event makes from a book. -/
def step (book : Book) (event : Event) : Step :=
  let result := perform event.now book event.action
  ⟨book, event, result.1, result.2⟩

/-! ## §3 Runs -/

/-- The book after a list of events. -/
def run (book : Book) : List Event → Book
  | [] => book
  | event :: rest => (book.step event).after.run rest

/-- The steps that a list of events makes, in order. -/
def trace (book : Book) : List Event → List Step
  | [] => []
  | event :: rest => book.step event :: (book.step event).after.trace rest

/-- A book in which a manager of the token was just created. -/
def Fresh (book : Book) : Prop :=
  ∃ owner now settings, Manager.create book.token owner now settings = .ok book.manager

@[simp]
theorem step_before (book : Book) (event : Event) : (book.step event).before = book := rfl

@[simp]
theorem step_event (book : Book) (event : Event) : (book.step event).event = event := rfl

@[simp]
theorem run_nil (book : Book) : book.run [] = book := rfl

@[simp]
theorem trace_nil (book : Book) : book.trace [] = [] := rfl

theorem run_append (book : Book) (events more : List Event) :
    book.run (events ++ more) = (book.run events).run more := by
  induction events generalizing book with
  | nil => rfl
  | cons event rest ih => exact ih (book.step event).after

theorem trace_append (book : Book) (events more : List Event) :
    book.trace (events ++ more) = book.trace events ++ (book.run events).trace more := by
  induction events generalizing book with
  | nil => rfl
  | cons event rest ih => simp only [List.cons_append, trace, run, ih]

@[simp]
theorem run_concat (book : Book) (events : List Event) (event : Event) :
    book.run (events ++ [event]) = ((book.run events).step event).after := by
  rw [run_append]; rfl

@[simp]
theorem trace_concat (book : Book) (events : List Event) (event : Event) :
    book.trace (events ++ [event]) = book.trace events ++ [(book.run events).step event] := by
  rw [trace_append]; rfl

/-- **Invariants of runs**: a relation between the steps so far and the book they lead to holds
after every run when it holds at the start and every step keeps it. -/
theorem run_induction {book : Book} {motive : List Step → Book → Prop}
    (start : motive [] book)
    (step : ∀ history current event, motive history current →
      motive (history ++ [current.step event]) (current.step event).after)
    (events : List Event) : motive (book.trace events) (book.run events) := by
  induction events using List.reverseRecOn with
  | nil => exact start
  | append_singleton events event ih =>
    rw [trace_concat, run_concat]
    exact step _ _ event ih

@[simp]
theorem length_trace (book : Book) (events : List Event) :
    (book.trace events).length = events.length := by
  induction events generalizing book with
  | nil => rfl
  | cons event rest ih => simp only [trace, List.length_cons, ih]

/-- The first steps of a run are the steps of the first events. -/
theorem take_trace (book : Book) (events : List Event) (n : ℕ) :
    (book.trace events).take n = book.trace (events.take n) := by
  have hsplit : book.trace events =
      book.trace (events.take n) ++ (book.run (events.take n)).trace (events.drop n) := by
    rw [← trace_append, List.take_append_drop]
  rcases Nat.lt_or_ge n events.length with hlt | hge
  · rw [hsplit, List.take_left' (by rw [length_trace, List.length_take_of_le (Nat.le_of_lt hlt)])]
  · rw [List.take_of_length_le (by simpa using hge), List.take_of_length_le hge]

/-- A step of a run is the step of its event, from the book after the events before it. -/
theorem trace_getElem? (book : Book) (events : List Event) (i : ℕ) :
    (book.trace events)[i]? = events[i]?.map (book.run (events.take i)).step := by
  induction events generalizing book i with
  | nil => rfl
  | cons event rest ih =>
    cases i with
    | zero => rfl
    | succ i => exact ih (book.step event).after i

/-- A step starts from the book that the steps before it lead to. -/
theorem before_eq {book : Book} {events : List Event} {i : ℕ} {s : Step}
    (hs : (book.trace events)[i]? = some s) : s.before = book.run (events.take i) := by
  rw [trace_getElem?, Option.map_eq_some_iff] at hs
  obtain ⟨event, _, rfl⟩ := hs
  rfl

/-- A step leads to the book that the steps up to it lead to. -/
theorem after_eq {book : Book} {events : List Event} {i : ℕ} {s : Step}
    (hs : (book.trace events)[i]? = some s) : s.after = book.run (events.take (i + 1)) := by
  rw [trace_getElem?, Option.map_eq_some_iff] at hs
  obtain ⟨event, hevent, rfl⟩ := hs
  rw [List.take_add_one, hevent, Option.toList_some, run_concat]

/-- A step starts from the book that the step before it leaves. -/
theorem before_succ {book : Book} {events : List Event} {i : ℕ} {s t : Step}
    (hs : (book.trace events)[i]? = some s) (ht : (book.trace events)[i + 1]? = some t) :
    t.before = s.after :=
  (before_eq ht).trans (after_eq hs).symm

/-- A step starts from the book that a run leads to from the book after an earlier step. -/
theorem before_eq_run {book : Book} {events : List Event} {i j : ℕ} {s t : Step}
    (hs : (book.trace events)[i]? = some s) (ht : (book.trace events)[j]? = some t)
    (hij : i < j) : ∃ between, t.before = s.after.run between := by
  have hfirst : (events.take j).take (i + 1) = events.take (i + 1) := by
    rw [List.take_take, Nat.min_eq_left hij]
  have hsplit : events.take j = events.take (i + 1) ++ (events.take j).drop (i + 1) := by
    rw [← hfirst, List.take_append_drop]
  rw [before_eq ht, after_eq hs, hsplit, run_append]
  exact ⟨_, rfl⟩

theorem event_mem {book : Book} {events : List Event} {s : Step} (h : s ∈ book.trace events) :
    s.event ∈ events := by
  obtain ⟨i, hs⟩ := List.mem_iff_getElem?.mp h
  rw [trace_getElem?, Option.map_eq_some_iff] at hs
  obtain ⟨event, hevent, rfl⟩ := hs
  exact List.mem_of_getElem? hevent

/-- A step of a run is what its event does to the book before it. -/
theorem step_of_mem {book : Book} {events : List Event} {s : Step} (h : s ∈ book.trace events) :
    s.before.step s.event = s := by
  obtain ⟨i, hs⟩ := List.mem_iff_getElem?.mp h
  rw [trace_getElem?, Option.map_eq_some_iff] at hs
  obtain ⟨event, _, rfl⟩ := hs
  rfl

/-- **Invariants of some runs**: as before, where every step is known to have a property. -/
theorem run_induction_of {book : Book} {P : Step → Prop} {motive : List Step → Book → Prop}
    (start : motive [] book)
    (step : ∀ history current event, P (current.step event) → motive history current →
      motive (history ++ [current.step event]) (current.step event).after)
    {events : List Event} (h : ∀ s ∈ book.trace events, P s) :
    motive (book.trace events) (book.run events) := by
  refine run_induction (motive := fun history current => (∀ s ∈ history, P s) →
    motive history current) (fun _ => start) ?_ events h
  intro history current event ih hall
  exact step history current event (hall _ List.mem_concat_self)
    (ih fun s hs => hall s (List.mem_append_left _ hs))

/-- **An invariant at a step** of a run holds after it, of the steps up to it. -/
theorem invariant_at {book : Book} {motive : List Step → Book → Prop} (start : motive [] book)
    (step : ∀ history current event, motive history current →
      motive (history ++ [current.step event]) (current.step event).after)
    {events : List Event} {i : ℕ} {s : Step} (hs : (book.trace events)[i]? = some s) :
    motive ((book.trace events).take (i + 1)) s.after := by
  have hlast : (book.trace events).take (i + 1) = (book.trace events).take i ++ [s] := by
    rw [List.take_add_one, hs, Option.toList_some]
  rw [trace_getElem?, Option.map_eq_some_iff] at hs
  obtain ⟨event, _, rfl⟩ := hs
  rw [hlast, take_trace]
  exact step _ _ event (run_induction start step (events.take i))

/-- A step among the first of a run stands at one of the first places. -/
theorem exists_lt_of_mem_take {steps : List Step} {n : ℕ} {s : Step} (h : s ∈ steps.take n) :
    ∃ j < n, steps[j]? = some s := by
  obtain ⟨j, hj⟩ := List.mem_iff_getElem?.mp h
  rw [List.getElem?_take] at hj
  split at hj
  next hlt => exact ⟨j, hlt, hj⟩
  next => cases hj

theorem exists_le_of_mem_take {steps : List Step} {i : ℕ} {s : Step}
    (h : s ∈ steps.take (i + 1)) : ∃ j ≤ i, steps[j]? = some s := by
  obtain ⟨j, hlt, hj⟩ := exists_lt_of_mem_take h
  exact ⟨j, Nat.le_of_lt_succ hlt, hj⟩

theorem mem_take_of_lt {steps : List Step} {j n : ℕ} {s : Step} (hs : steps[j]? = some s)
    (hlt : j < n) : s ∈ steps.take n :=
  List.mem_of_getElem? ((List.getElem?_take_of_lt hlt).trans hs)

end Book

/-! ## §4 What a step is about -/

/-- A message in the hands of a transceiver. -/
structure Arrival where
  transceiver : Address
  source : ChainId
  delivery : Delivery TokenTransfer
deriving DecidableEq

/-- The key of the message that arrived. -/
def Arrival.digest (a : Arrival) : Except WireError Digest :=
  a.delivery.message.digest TokenTransfer.wire a.source

/-- What one manager says to another in the bytes of a post, if they are an envelope. -/
def Envelope.delivery? (payload : Bytes) : Option (Delivery TokenTransfer) :=
  (Wire.decode (Envelope.wire TokenTransfer.wire) payload).toOption.map (·.delivery)

/-- Where an inbound transfer stands, as far as an answer says. -/
def Answer.inboundStatus? : Answer → Option InboundStatus
  | redeemed receipt => some receipt.status
  | released status => some status
  | _ => none

namespace Action

/-- The message that an action vouches for. -/
def arrival? : Action → Option Arrival
  | redeem transceiver source delivery => some ⟨transceiver, source, delivery⟩
  | receive endpoint post =>
    (Envelope.delivery? post.payload).map fun delivery =>
      ⟨endpoint.address, post.emitterChain, delivery⟩
  | _ => none

/-- The key of the inbound transfer that an action is about. -/
def subject? : Action → Option Digest
  | releaseInbound digest _ => some digest
  | action => action.arrival?.bind fun a => a.digest.toOption

/-- The transceiver that picks up an outbound transfer, the number of the transfer, and whether
the caller is strict. -/
def pickUp? : Action → Option (Address × UInt64 × Bool)
  | releaseOutbound transceiver sequence strict => some (transceiver, sequence, strict)
  | publish endpoint _ sequence strict => some (endpoint.address, sequence, strict)
  | _ => none

/-- Whether an action changes the configuration. -/
def Administers : Action → Prop
  | execute _ _ | register _ _ | invoke _ _ | govern _ _ => True
  | _ => False

variable {action : Action}

theorem subject?_of_arrival? {a : Arrival} (h : action.arrival? = some a) :
    action.subject? = a.digest.toOption := by
  -- A call that brings a message never takes the branch of a release.
  have hbind : action.subject? = action.arrival?.bind fun a => a.digest.toOption := by
    cases action <;> first | rfl | cases h
  rw [hbind, h, Option.bind_some]

theorem subject?_of_pickUp? {call : Address × UInt64 × Bool} (h : action.pickUp? = some call) :
    action.subject? = none := by
  cases action <;> first | rfl | cases h

theorem subject?_of_administers (h : action.Administers) : action.subject? = none := by
  cases action <;> first | rfl | exact h.elim

end Action

namespace Step

/-- Where an inbound transfer stands after a step, as far as the step says. -/
def inboundStatus? (s : Step) : Option InboundStatus :=
  s.outcome.toOption.bind Answer.inboundStatus?

/-- A step credits tokens for an inbound transfer: it is about that transfer, and either it
says that the recipient was paid just now or the token ledger is another one afterwards. -/
def Credits (s : Step) (digest : Digest) : Prop :=
  s.event.action.subject? = some digest ∧
    (s.inboundStatus? = some .released ∨ s.after.token ≠ s.before.token)

/-- A step moves tokens to a recipient in the mode of the manager, and does nothing else to
the token ledger. -/
def Pays (s : Step) (recipient : Address) (amount : UInt64) : Prop :=
  Token.credit s.before.manager.config.mode recipient amount s.before.token =
    .ok () s.after.token

/-- A step takes tokens from an account in the mode of the manager, and does nothing else to the
token ledger. -/
def Takes (s : Step) (sender : Address) (amount : UInt64) : Prop :=
  Token.debit s.before.manager.config.mode sender amount s.before.token = .ok () s.after.token

/-- A step redeems a message under a key. -/
def Redeems (s : Step) (a : Arrival) (digest : Digest) : Prop :=
  s.event.action.arrival? = some a ∧ a.digest = .ok digest ∧
    ∃ receipt, s.outcome = .ok (.redeemed receipt) ∧ receipt.digest = digest

/-- A step hands a message over to a transceiver, as it is or in the payload of a post. -/
def HandsOver (s : Step) (delivery : Delivery TokenTransfer) : Prop :=
  (∃ release, s.outcome = .ok (.handedOut (some release)) ∧
    delivery = ⟨s.before.manager.config.address, release.recipientManager, release.message⟩) ∨
  ∃ publication, s.outcome = .ok (.published (some publication)) ∧
    Envelope.delivery? publication.post.payload = some delivery

end Step

/-! ## §5 A run on two chains

A small run to look at: an account on the first chain sends tokens whose last two digits the
second chain cannot represent, and two transceivers bring the message there, one of them twice. -/

namespace Sample

/-- An address that is told by one byte. -/
def address (n : UInt8) : Address := Vector.replicate 32 n

/-- A token of which one account and the custody hold something. -/
def token (decimals : UInt8) : Token where
  address := address 1
  decimals
  balances := SortedMap.empty.insert (address 20) 5000000000
  custody := 2000000000
  supply := 7000000000

/-- A manager on a chain; its address is told by the chain. -/
def settings (chain : UInt8) (mode : Mode) : ManagerSettings where
  address := address (10 + chain)
  chain := ⟨chain.toUInt16⟩
  mode
  limit := 1000000000
  rateLimitDuration := 100
  dustPolicy := .truncate

/-- The first chain, where tokens are locked. -/
def home : Book where
  manager := ((Manager.create (token 9) (address 9) 0 (settings 1 .locking)).toOption).get
    (by decide)
  token := token 9

/-- The second chain, where tokens are created. -/
def away : Book where
  manager := ((Manager.create (token 7) (address 9) 0 (settings 2 .burning)).toOption).get
    (by decide)
  token := token 7

theorem eq_ok_get {ε α : Type} {x : Except ε α} (h : x.toOption.isSome) :
    x = .ok (x.toOption.get h) := by
  cases x with
  | error e => cases h
  | ok a => rfl

theorem home_fresh : home.Fresh := ⟨address 9, 0, settings 1 .locking, eq_ok_get (by decide)⟩

theorem away_fresh : away.Fresh := ⟨address 9, 0, settings 2 .burning, eq_ok_get (by decide)⟩

/-- What the manager on the first chain tells the other one. -/
def delivery : Delivery TokenTransfer where
  sourceManager := address 11
  recipientManager := address 12
  message := ⟨ManagerMessage.idOfSequence 0, address 20,
    ⟨⟨1234567, 7⟩, address 1, address 22, ⟨2⟩⟩⟩

/-- What happens on the first chain. -/
def homeEvents : List Event :=
  [⟨0, .execute (address 9) (.registerTransceiver (address 30))⟩,
   ⟨0, .execute (address 9) (.setPeer ⟨⟨2⟩, address 12, 1000000000, 7⟩)⟩,
   ⟨1, .transfer (address 20) ⟨123456789, ⟨2⟩, address 22, false, []⟩⟩,
   ⟨2, .releaseOutbound (address 30) 0 true⟩]

/-- What happens on the second chain. -/
def awayEvents : List Event :=
  [⟨0, .execute (address 9) (.registerTransceiver (address 31))⟩,
   ⟨0, .execute (address 9) (.registerTransceiver (address 32))⟩,
   ⟨0, .execute (address 9) (.setPeer ⟨⟨1⟩, address 11, 1000000000, 9⟩)⟩,
   ⟨3, .redeem (address 31) ⟨1⟩ delivery⟩,
   ⟨4, .redeem (address 32) ⟨1⟩ delivery⟩,
   ⟨5, .redeem (address 31) ⟨1⟩ delivery⟩]

/-- The key of the message. -/
def key : Digest :=
  ((delivery.message.digest TokenTransfer.wire ⟨1⟩).toOption).get (by decide)

theorem key_eq : delivery.message.digest TokenTransfer.wire ⟨1⟩ = .ok key :=
  eq_ok_get (by decide)

end Sample

end CrossChain
