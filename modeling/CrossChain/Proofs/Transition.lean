import CrossChain.Proofs.Administration
import CrossChain.Proofs.Handling

/-!
# What a step can do

Every step of a run is one of nine kinds, whoever acts and however. A kind tells what has been
checked and what becomes of the transfers and the ledger; it leaves out the limits, so an invariant
of runs that does not speak of them is proved by going through the kinds.

## Main statements

* `Transition`: the kinds, each with what has been checked and what changes.
* `Book.step_transition`: every step is of one of these kinds.
-/

namespace CrossChain

/-! ## §1 The kinds of steps -/

/-- A call moves an inbound transfer on: `voted` is the transfer with the vote of the caller, and
`item` is the transfer as it is recorded afterwards. -/
structure Moves (b : Book) (action : Action) (digest : Digest) (voted item : InboxItem)
    (answer : Answer) (after : Book) : Prop where
  subject : action.subject? = some digest
  vote : Voted b action digest answer voted
  waits : voted.status ≠ .released
  approval : ∃ status, item =
    { voted.tryApprove b.manager.config.threshold b.manager.config.enabled with status }
  inbox : after.manager.inbox = b.manager.inbox.insert digest item
  outbox : after.manager.outbox = b.manager.outbox
  nextSequence : after.manager.nextSequence = b.manager.nextSequence
  config : after.manager.config = b.manager.config
  transceivers : after.manager.transceivers = b.manager.transceivers
  answers : ∃ status, answer.inboundStatus? = some status
  payment : (item.status = .released ∧ item.approved = true ∧
      answer.inboundStatus? = some .released ∧
      ∃ amount, item.amount.untrim b.manager.config.tokenDecimals = .ok amount ∧
        Token.credit b.manager.config.mode item.recipient amount b.token = .ok () after.token) ∨
    (item.status ≠ .released ∧ answer.inboundStatus? ≠ some .released ∧ after.token = b.token)

/-- The kinds of steps. -/
inductive Transition (b : Book) (now : Timestamp) : Action → Outcome → Book → Prop where
  /-- A call fails, and nothing changes. -/
  | refused {action : Action} {failure : Failure} : Transition b now action (.error failure) b
  /-- An inbound transfer was released before. -/
  | repeated {action : Action} {digest : Digest} {item : InboxItem} {answer : Answer}
      (hsubject : action.subject? = some digest)
      (hitem : b.manager.inbox.get? digest = some item) (hreleased : item.status = .released)
      (hanswer : answer.inboundStatus? = some .alreadyReleased) :
      Transition b now action (.ok answer) b
  /-- An inbound transfer is moved on. -/
  | moved {action : Action} {digest : Digest} {voted item : InboxItem} {answer : Answer}
      {after : Book} (hmoves : Moves b action digest voted item answer after) :
      Transition b now action (.ok answer) after
  /-- Tokens are sent. -/
  | transferred {sender : Address} {request : TransferRequest} {plan : TransferPlan}
      {token : Token} (hsends : b.manager.Sends sender now request plan)
      (hdebit : Token.debit b.manager.config.mode sender plan.receipt.debited b.token =
        .ok () token) :
      Transition b now (.transfer sender request) (.ok (.sent plan.receipt))
        ⟨b.manager.recordTransfer plan, token⟩
  /-- An outbound transfer that a transceiver wants to pick up still waits. -/
  | waiting {action : Action} {transceiver : Address} {sequence : UInt64} {strict : Bool}
      {item item' : OutboxItem} {answer : Answer}
      (haction : action.pickUp? = some (transceiver, sequence, strict))
      (hanswer : answer = .handedOut none ∨ answer = .published none)
      (hitem : b.manager.outbox.get? sequence = some item) (hcancelled : item.cancelled = false)
      (hwaits : b.manager.Waits now item item') :
      Transition b now action (.ok answer)
        { b with manager := b.manager.recordOutbound sequence item' }
  /-- A transceiver picks up an outbound transfer. -/
  | pickedUp {action : Action} {transceiver : Address} {sequence : UInt64} {strict : Bool}
      {id : UInt8} {item item' : OutboxItem} {outboundLimit inboundLimit : RateLimit}
      {answer : Answer} (haction : action.pickUp? = some (transceiver, sequence, strict))
      (hanswer : answer = .handedOut (some (b.manager.outboundRelease item' id)) ∨
        ∃ bridge publication, answer = .published (some publication) ∧
          Endpoint.publishRelease bridge
            (b.manager.recordPickUp sequence item' outboundLimit inboundLimit)
            (b.manager.outboundRelease item' id) = .ok publication)
      (hid : b.manager.enabledTransceiver transceiver = .ok id)
      (hitem : b.manager.outbox.get? sequence = some item) (hcancelled : item.cancelled = false)
      (hout : b.manager.HandsOut id now item item' outboundLimit inboundLimit) :
      Transition b now action (.ok answer)
        { b with manager := b.manager.recordPickUp sequence item' outboundLimit inboundLimit }
  /-- The sender of an outbound transfer takes it back. -/
  | cancelled {caller : Address} {sequence : UInt64} {item : OutboxItem} {refund : UInt64}
      {token : Token} (hitem : b.manager.outbox.get? sequence = some item)
      (hsender : item.sender = caller) (hcancelled : item.cancelled = false)
      (hqueued : ∃ time, item.status = .queued time)
      (hrefund : item.amount.untrim b.manager.config.tokenDecimals = .ok refund)
      (hcredit : Token.credit b.manager.config.mode item.sender refund b.token = .ok () token) :
      Transition b now (.cancelOutbound caller sequence) (.ok (.refunded refund))
        ⟨b.manager.recordOutbound sequence { item with cancelled := true }, token⟩
  /-- The configuration changes. -/
  | configured {action : Action} {answer : Answer} {m : Manager} (haction : action.Administers)
      (hanswer : answer = .done ∨ ∃ id, answer = .registered id)
      (hconfigures : b.manager.Configures m) :
      Transition b now action (.ok answer) { b with manager := m }
  /-- Others use the token. -/
  | external {token : Token} : Transition b now (.external token) (.ok .done) { b with token }

/-! ## §2 Calls for transfers -/

variable {b : Book} {now : Timestamp} {action : Action}

/-- Every result of a call is a step of one of the kinds. -/
abbrev Observed (b : Book) (now : Timestamp) (action : Action) (result : Outcome × Book) : Prop :=
  Transition b now action result.1 result.2

/-- Helper: an inbound transfer that was moved through its gate. -/
private theorem moves_of_settles {digest : Digest} {voted attempted : InboxItem}
    {chain : ChainId} {s : Settlement} {answer : Answer} {token : Token}
    (hsubject : action.subject? = some digest)
    (hvoted : Voted b action digest answer voted)
    (hwaits : voted.status ≠ .released)
    (hattempted : attempted = voted.tryApprove b.manager.config.threshold b.manager.config.enabled)
    (happroved : attempted.approved = true) (hsettles : b.manager.Settles chain attempted now s)
    (hpaid : s.Paid b.manager.config.mode b.token token)
    (hanswer : answer.inboundStatus? = some (.ofAdvance s.advance)) :
    Moves b action digest voted s.item answer ⟨b.manager.recordSettlement digest s, token⟩ := by
  obtain ⟨_, ⟨limit, gate, _, hpasses, hitem, _, _⟩, hpayout⟩ := hsettles
  have hstatus : s.item.status = gate.status := by rw [hitem]
  -- The transfer did not come in released, so it goes out released only if it just passed.
  have hreleased : s.item.status = .released ↔ s.advance = .released := by
    rw [hstatus]
    exact hpasses.eq_released (hattempted ▸ InboxItem.tryApprove_ne_released hwaits)
  refine ⟨hsubject, hvoted, hwaits, ⟨gate.status, by rw [hitem, hattempted]⟩, rfl, rfl, rfl, rfl,
    rfl, ⟨_, hanswer⟩, ?_⟩
  unfold Settlement.Paid at hpaid
  rcases hpayout with ⟨hadvance, amount, huntrim, hpayout⟩ | ⟨hadvance, hpayout⟩
  · rw [hpayout] at hpaid
    exact .inl ⟨hreleased.mpr hadvance, by rw [hitem]; exact happroved,
      by rw [hanswer, hadvance]; rfl, amount, by rw [hitem]; exact huntrim, hpaid⟩
  · rw [hpayout] at hpaid
    refine .inr ⟨fun h => hadvance (hreleased.mp h), ?_, hpaid⟩
    rw [hanswer]
    cases hs : s.advance with
    | released => exact absurd hs hadvance
    | queued time => simp [InboundStatus.ofAdvance]
    | alreadyReleased => simp [InboundStatus.ofAdvance]

/-- **What a call for a transfer does** is a step of one of the kinds. -/
theorem Handles.transition {answer : Answer} {after : Book}
    (h : Handles b now action answer after) : Transition b now action (.ok answer) after := by
  cases h with
  | repeated hsubject hitem hreleased hanswer => exact .repeated hsubject hitem hreleased hanswer
  | @voted _ _ voted item _ hsubject hvoted hwaits hitem _ hanswer =>
    refine .moved ⟨hsubject, hvoted, hwaits, ⟨item.status, by rw [hitem]⟩, rfl, rfl, rfl, rfl, rfl,
      ⟨_, hanswer⟩, .inr ⟨?_, by rw [hanswer]; simp, rfl⟩⟩
    rw [hitem]
    exact InboxItem.tryApprove_ne_released hwaits
  | settled hsubject hvoted hwaits hitem happroved hsettles hpaid hanswer =>
    exact .moved (moves_of_settles hsubject hvoted hwaits hitem happroved hsettles hpaid hanswer)
  | transferred hsends hdebit => exact .transferred hsends hdebit
  | waiting haction hanswer hitem hcancelled hwaits =>
    exact .waiting haction hanswer hitem hcancelled hwaits
  | pickedUp haction hanswer hid hitem hcancelled hout =>
    exact .pickedUp haction hanswer hid hitem hcancelled hout
  | cancelled hitem hsender hcancelled hqueued hrefund hcredit =>
    exact .cancelled hitem hsender hcancelled hqueued hrefund hcredit

theorem Handled.transition {result : Outcome × Book} (h : Handled b now action result) :
    Observed b now action result := by
  cases h with
  | refused => exact .refused
  | handled _ hhandles => exact hhandles.transition

/-! ## §3 All actions -/

theorem Administered.transition {result : Outcome × Book} (hadmin : action.Administers)
    (h : Administered b now action result) : Observed b now action result := by
  cases h with
  | refused => exact .refused
  | executed _ hanswer hexecutes => exact .configured hadmin hanswer hexecutes.configures

/-- **Every action** makes a step of one of the kinds. -/
theorem perform_transition (now : Timestamp) (b : Book) (action : Action) :
    Observed b now action (perform now b action) := by
  rcases action.kinds with hvalue | hadmin | ⟨token, rfl⟩
  · exact (perform_handled hvalue now b).transition
  · exact (perform_administered hadmin now b).transition hadmin
  · exact .external

/-- **Every step** of a run is of one of the kinds. -/
theorem Book.step_transition (book : Book) (event : Event) :
    Transition book event.now event.action (book.step event).outcome (book.step event).after :=
  perform_transition event.now book event.action

/-! ## §4 What no step does -/

namespace Transition

variable {outcome : Outcome} {after : Book}

/-- No step changes what was fixed when the manager was created. -/
theorem akin (h : Transition b now action outcome after) :
    b.manager.config.Akin after.manager.config := by
  cases h with
  | moved hmoves => rw [hmoves.config]; exact .refl _
  | configured _ _ hconfigures => exact hconfigures.config
  | _ => exact .refl _

/-- No step does more to the transceivers than to register one. -/
theorem enrols (h : Transition b now action outcome after) : b.manager.Enrols after.manager := by
  cases h with
  | moved hmoves => exact .same hmoves.transceivers (by rw [hmoves.config])
  | configured _ _ hconfigures => exact hconfigures.enrols
  | _ => exact .same rfl rfl

/-- No step changes the id of a transceiver. -/
theorem transceiver? (h : Transition b now action outcome after) {address : Address}
    {t : Transceiver} (ht : b.manager.transceiver? address = some t) :
    after.manager.transceiver? address = some t :=
  h.enrols.transceiver? ht

end Transition

namespace Book

theorem Fresh.empty (h : b.Fresh) : b.manager.inbox = .empty ∧ b.manager.outbox = .empty := by
  obtain ⟨owner, now, settings, h⟩ := h
  simp only [Manager.create, throw_bind, bind_eq_ok, guard_eq_ok, pure_eq_ok] at h
  obtain ⟨_, limit, _, hm⟩ := h
  rw [← hm]
  exact ⟨rfl, rfl⟩

theorem run_akin (book : Book) (events : List Event) :
    book.manager.config.Akin (book.run events).manager.config :=
  run_induction (motive := fun _ current => book.manager.config.Akin current.manager.config)
    (.refl _) (fun _ current event h => h.trans (current.step_transition event).akin) events

theorem step_akin {book : Book} {events : List Event} {i : ℕ} {s : Step}
    (hs : (book.trace events)[i]? = some s) : book.manager.config.Akin s.before.manager.config := by
  rw [trace_getElem?, Option.map_eq_some_iff] at hs
  obtain ⟨event, _, rfl⟩ := hs
  exact book.run_akin _

theorem transition_at {book : Book} {events : List Event} {i : ℕ} {s : Step}
    (hs : (book.trace events)[i]? = some s) :
    Transition s.before s.event.now s.event.action s.outcome s.after := by
  rw [trace_getElem?, Option.map_eq_some_iff] at hs
  obtain ⟨event, _, rfl⟩ := hs
  exact step_transition _ event

end Book

end CrossChain
