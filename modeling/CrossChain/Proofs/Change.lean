import CrossChain.Proofs.Transition

/-!
# What a step does to all that a manager remembers

The kinds of steps say what a step does to the transfers and the ledger, and leave open what
becomes of the limits, the peers and the thresholds. This module closes the gap: every step leaves
the manager as it was, or makes one of the changes listed here, each with what was checked
before it. An invariant of the whole state is proved by going through the list.

## Main statements

* `Manager.Changes`, `Book.step_changes`: a step.
* `Book.Fresh.blank`: where runs start.
-/

namespace CrossChain

variable {m m' : Manager} {caller : Address} {now : Timestamp}

namespace Manager

/-! ## §1 Changes -/

/-- An inbound transfer in the hands of a call: one that the manager remembers, or one that a
transceiver has just voted for. -/
inductive Presents (m : Manager) (digest : Digest) : InboxItem → Prop where
  | vote {transceiver : Address} {source : ChainId} {delivery : Delivery TokenTransfer}
      {id : UInt8} {voted : InboxItem}
      (haccepts : m.Accepts transceiver source delivery digest id)
      (hattest : (m.inbound source delivery digest).attest id = .ok voted) :
      Presents m digest voted
  | found {item : InboxItem} (hitem : m.inbox.get? digest = some item) : Presents m digest item

/-- What a step can do to a manager. -/
inductive Changes (m : Manager) (now : Timestamp) : Manager → Prop where
  | same : Changes m now m
  /-- A vote that does not suffice is recorded. -/
  | voted {digest : Digest} {voted : InboxItem} (hpresents : m.Presents digest voted)
      (hwaits : voted.status ≠ .released)
      (hnot : (voted.tryApprove m.config.threshold m.config.enabled).approved = false) :
      Changes m now
        (m.recordInbound digest (voted.tryApprove m.config.threshold m.config.enabled))
  /-- An approved transfer is moved on. -/
  | settled {digest : Digest} {voted : InboxItem} {chain : ChainId} {s : Settlement}
      (hpresents : m.Presents digest voted) (hwaits : voted.status ≠ .released)
      (happroved : (voted.tryApprove m.config.threshold m.config.enabled).approved = true)
      (hsettles : m.Settles chain (voted.tryApprove m.config.threshold m.config.enabled) now s) :
      Changes m now (m.recordSettlement digest s)
  | transferred {sender : Address} {request : TransferRequest} {plan : TransferPlan}
      (hsends : m.Sends sender now request plan) : Changes m now (m.recordTransfer plan)
  /-- A transfer that a transceiver wants to pick up still waits. -/
  | waiting {sequence : UInt64} {item item' : OutboxItem}
      (hitem : m.outbox.get? sequence = some item) (hcancelled : item.cancelled = false)
      (hwaits : m.Waits now item item') : Changes m now (m.recordOutbound sequence item')
  | pickedUp {transceiver : Address} {sequence : UInt64} {id : UInt8} {item item' : OutboxItem}
      {outboundLimit inboundLimit : RateLimit} (hid : m.enabledTransceiver transceiver = .ok id)
      (hitem : m.outbox.get? sequence = some item) (hcancelled : item.cancelled = false)
      (hout : m.HandsOut id now item item' outboundLimit inboundLimit) :
      Changes m now (m.recordPickUp sequence item' outboundLimit inboundLimit)
  | cancelled {caller : Address} {sequence : UInt64} {item : OutboxItem}
      (hitem : m.outbox.get? sequence = some item) (hsender : item.sender = caller)
      (hcancelled : item.cancelled = false) (hqueued : ∃ time, item.status = .queued time) :
      Changes m now (m.recordOutbound sequence { item with cancelled := true })
  | executed {caller : Address} {instruction : AdminInstruction} {m' : Manager}
      (hexecutes : m.Executes caller now instruction m') : Changes m now m'

namespace Changes

/-- No change touches what was fixed when the manager was created. -/
theorem akin (h : m.Changes now m') : m.config.Akin m'.config := by
  cases h with
  | executed hexecutes => exact hexecutes.configures.config
  | _ => exact .refl _

theorem enrols (h : m.Changes now m') : m.Enrols m' := by
  cases h with
  | executed hexecutes => exact hexecutes.configures.enrols
  | _ => exact .same rfl rfl

/-- No change forgets a peer. -/
theorem peer_kept (h : m.Changes now m') {chain : ChainId} {peer : Peer}
    (hpeer : m.peers.get? chain = some peer) : ∃ peer', m'.peers.get? chain = some peer' := by
  cases h with
  | executed hexecutes =>
    cases hexecutes with
    | @setPeer spec =>
      by_cases hsame : chain = spec.chain
      · exact ⟨_, SortedMap.get?_insert_eq_some.mpr (.inl ⟨hsame, rfl⟩)⟩
      · exact ⟨peer, SortedMap.get?_insert_eq_some.mpr (.inr ⟨hsame, hpeer⟩)⟩
    | _ => exact ⟨peer, hpeer⟩
  | _ => exact ⟨peer, hpeer⟩

end Changes

end Manager

/-! ## §2 Steps -/

variable {b after : Book} {action : Action}

/-- Helper: an inbound transfer in the hands of a call, as a step knows it. -/
private theorem Voted.presents {digest : Digest} {answer : Answer} {voted : InboxItem}
    (h : Voted b action digest answer voted) : b.manager.Presents digest voted := by
  cases h with
  | vote _ haccepts hattest => exact .vote haccepts hattest
  | none _ hitem => exact .found hitem

/-- **What a call for a transfer does** is one of the changes. -/
theorem Handles.changes {answer : Answer} (h : Handles b now action answer after) :
    b.manager.Changes now after.manager := by
  cases h with
  | repeated => exact .same
  | voted _ hvoted hwaits hitem hnot =>
    subst hitem
    exact .voted hvoted.presents hwaits hnot
  | settled _ hvoted hwaits hitem happroved hsettles =>
    subst hitem
    exact .settled hvoted.presents hwaits happroved hsettles
  | transferred hsends => exact .transferred hsends
  | waiting _ _ hitem hcancelled hwaits => exact .waiting hitem hcancelled hwaits
  | pickedUp _ _ hid hitem hcancelled hout => exact .pickedUp hid hitem hcancelled hout
  | cancelled hitem hsender hcancelled hqueued =>
    exact .cancelled hitem hsender hcancelled hqueued

theorem Handled.changes {result : Outcome × Book} (h : Handled b now action result) :
    b.manager.Changes now result.2.manager := by
  cases h with
  | refused => exact .same
  | handled _ hhandles => exact hhandles.changes

theorem Administered.changes {result : Outcome × Book} (h : Administered b now action result) :
    b.manager.Changes now result.2.manager := by
  cases h with
  | refused => exact .same
  | executed _ _ hexecutes => exact .executed hexecutes

/-- **Every action** makes one of the changes. -/
theorem perform_changes (now : Timestamp) (b : Book) (action : Action) :
    b.manager.Changes now (perform now b action).2.manager := by
  rcases action.kinds with hvalue | hadmin | ⟨token, rfl⟩
  · exact (perform_handled hvalue now b).changes
  · exact (perform_administered hadmin now b).changes
  · exact .same

/-- **Every step** of a run makes one of the changes. -/
theorem Book.step_changes (book : Book) (event : Event) :
    book.manager.Changes event.now (book.step event).after.manager :=
  perform_changes event.now book event.action

/-! ## §3 New managers -/

/-- A manager that nobody has used yet. -/
structure Manager.Blank (m : Manager) : Prop where
  duration : 0 < m.config.rateLimitDuration.toInt
  nextTransceiver : m.config.nextTransceiver = 0
  threshold : m.config.threshold = 0
  enabled : m.config.enabled = .empty
  nextSequence : m.nextSequence = 0
  outboundLimit : ∃ amount limit now,
    TrimmedAmount.trim amount m.config.tokenDecimals m.config.tokenDecimals = .ok limit ∧
      m.outboundLimit = .full limit now m.config.rateLimitDuration
  peers : m.peers = .empty
  inboundLimits : m.inboundLimits = .empty
  transceivers : m.transceivers = []
  inbox : m.inbox = .empty
  outbox : m.outbox = .empty

/-- A manager that was just created has a full outbound limit and nothing else. -/
theorem Book.Fresh.blank (h : b.Fresh) : b.manager.Blank := by
  obtain ⟨owner, now, settings, h⟩ := h
  simp only [Manager.create, throw_bind, bind_eq_ok, guard_eq_ok, mapError_eq_ok,
    pure_eq_ok] at h
  obtain ⟨hduration, limit, hlimit, hm⟩ := h
  rw [← hm]
  exact {
    duration := Int64.lt_iff_toInt_lt.mp (Int64.not_le.mp hduration)
    nextTransceiver := rfl
    threshold := rfl
    enabled := rfl
    nextSequence := rfl
    outboundLimit := ⟨_, limit, now, hlimit, rfl⟩
    peers := rfl
    inboundLimits := rfl
    transceivers := rfl
    inbox := rfl
    outbox := rfl }

end CrossChain
