import CrossChain.Proofs.Codec
import CrossChain.Proofs.Scaling
import CrossChain.Proofs.Transition

/-!
# Outbound transfers over a run

Where the entries of the outbox come from and what happens to them. An entry is made by a
transfer that was paid for, under a number that no other entry has, and keeps what identifies it;
once it was released it is never taken back. Every message that is handed to a transceiver is the
message of an entry that is released.

## Main statements

* `Transition.outbox_cases`: what a step does to the outbox.
* `Records`, `Book.records`: the invariant on the outbox.
-/

namespace CrossChain

/-! ## §1 Steps -/

/-- What no step changes about an outbound transfer: what identifies it, that it was released and
is not taken back, and that it was taken back. -/
structure OutboxItem.Keeps (item item' : OutboxItem) : Prop where
  same : ∃ status released cancelled, item' = { item with status, released, cancelled }
  released : item.status = .released → item.cancelled = false →
    item'.status = .released ∧ item'.cancelled = false
  cancelled : item.cancelled = true → item'.cancelled = true

theorem OutboxItem.Keeps.refl (item : OutboxItem) : item.Keeps item :=
  ⟨⟨_, _, _, rfl⟩, fun hreleased hcancelled => ⟨hreleased, hcancelled⟩, id⟩

/-- Helper: a transfer that waits and was not taken back. -/
private theorem keeps_of_queued {item : OutboxItem} (hcancelled : item.cancelled = false)
    (hqueued : ∃ time, item.status = .queued time) (status : ReleaseStatus) (released : Bitmap)
    (cancelled : Bool) : item.Keeps { item with status, released, cancelled } := by
  refine ⟨⟨_, _, _, rfl⟩, fun hreleased => ?_, fun h => ?_⟩
  · obtain ⟨time, hqueued⟩ := hqueued
    rw [hqueued] at hreleased
    cases hreleased
  · rw [hcancelled] at h
    cases h

variable {b after : Book} {now : Timestamp} {action : Action} {outcome : Outcome}

/-- What is posted for a transfer is its message, between the two managers. -/
theorem Endpoint.delivery_of_publishRelease {bridge : Publisher} {m : Manager}
    {release : OutboundRelease} {publication : Publication}
    (h : publishRelease bridge m release = .ok publication) :
    Envelope.delivery? publication.post.payload =
      some ⟨m.config.address, release.recipientManager, release.message⟩ := by
  simp only [publishRelease, publish, bind_eq_ok, mapError_eq_ok, pure_eq_ok] at h
  obtain ⟨_, _, payload, hpayload, _, _, rfl⟩ := h
  have hdecode : Wire.decode (Envelope.wire TokenTransfer.wire) payload = .ok _ :=
    (Envelope.wire_exact TokenTransfer.wire_exact).decode_eq_ok.mpr hpayload
  rw [Envelope.delivery?, hdecode]
  rfl

namespace Transition

/-- **A step** leaves the outbox alone, changes how far one transfer has come, or records a new
one. -/
theorem outbox_cases (h : Transition b now action outcome after) :
    (after.manager.outbox = b.manager.outbox ∧
        after.manager.nextSequence = b.manager.nextSequence) ∨
      (∃ sequence item item', b.manager.outbox.get? sequence = some item ∧ item.Keeps item' ∧
        after.manager.outbox = b.manager.outbox.insert sequence item' ∧
        after.manager.nextSequence = b.manager.nextSequence) ∨
      ∃ sender request plan, action = .transfer sender request ∧
        outcome = .ok (.sent plan.receipt) ∧ b.manager.Sends sender now request plan ∧
        (Step.mk b ⟨now, action⟩ outcome after).Takes sender plan.receipt.debited ∧
        after.manager = b.manager.recordTransfer plan := by
  cases h with
  | refused => exact .inl ⟨rfl, rfl⟩
  | repeated => exact .inl ⟨rfl, rfl⟩
  | moved hmoves => exact .inl ⟨hmoves.outbox, hmoves.nextSequence⟩
  | transferred hsends hdebit => exact .inr (.inr ⟨_, _, _, rfl, rfl, hsends, hdebit, rfl⟩)
  | waiting _ _ hitem hcancelled hwaits =>
    obtain ⟨_, _, _, _, hqueued, _, rfl⟩ := hwaits.queued
    exact .inr (.inl ⟨_, _, _, hitem, keeps_of_queued hcancelled hqueued _ _ _, rfl, rfl⟩)
  | pickedUp _ _ _ hitem hcancelled hout =>
    obtain ⟨_, _, _, rfl⟩ := hout.pickedUp
    exact .inr (.inl ⟨_, _, _, hitem, ⟨⟨_, _, _, rfl⟩, fun _ _ => ⟨rfl, hcancelled⟩, id⟩, rfl, rfl⟩)
  | cancelled hitem _ hcancelled hqueued =>
    exact .inr (.inl ⟨_, _, _, hitem, keeps_of_queued hcancelled hqueued _ _ _, rfl, rfl⟩)
  | configured _ _ hconfigures => exact .inl ⟨hconfigures.outbox, hconfigures.nextSequence⟩
  | external => exact .inl ⟨rfl, rfl⟩

/-- **A message that is handed over** is the message of a transfer that is released. -/
theorem released_of_handsOver (h : Transition b now action outcome after)
    {delivery : Delivery TokenTransfer}
    (hover : (Step.mk b ⟨now, action⟩ outcome after).HandsOver delivery) :
    ∃ sequence item, after.manager.outbox.get? sequence = some item ∧ item.status = .released ∧
      item.cancelled = false ∧ delivery = ⟨b.manager.config.address, item.recipientManager,
        item.message b.manager.config.tokenAddress⟩ := by
  -- Only a pick-up answers with a message or a post.
  have hnot (answer : Answer) (hanswer : outcome = .ok answer)
      (hhanded : ∀ release, answer ≠ .handedOut (some release))
      (hpublished : ∀ publication, answer ≠ .published (some publication)) : False := by
    rcases hover with ⟨release, hok, _⟩ | ⟨publication, hok, _⟩
    · exact hhanded release (Except.ok.inj (hanswer.symm.trans hok))
    · exact hpublished publication (Except.ok.inj (hanswer.symm.trans hok))
  cases h with
  | refused => rcases hover with ⟨_, hok, _⟩ | ⟨_, hok, _⟩ <;> cases hok
  | repeated _ _ _ hanswer =>
    exact (hnot _ rfl (by rintro _ rfl; cases hanswer) (by rintro _ rfl; cases hanswer)).elim
  | moved hmoves =>
    obtain ⟨_, hanswer⟩ := hmoves.answers
    exact (hnot _ rfl (by rintro _ rfl; cases hanswer) (by rintro _ rfl; cases hanswer)).elim
  | transferred => exact (hnot _ rfl nofun nofun).elim
  | waiting _ hanswer =>
    rcases hanswer with rfl | rfl <;> exact (hnot _ rfl nofun nofun).elim
  | @pickedUp _ _ sequence _ id _ item' outboundLimit inboundLimit _ _ hanswer _ hitem hcancelled
      hout =>
    -- The transfer is released when it is picked up, whether it waited or not.
    obtain ⟨_, released, _, rfl⟩ := hout.pickedUp
    refine ⟨sequence, _, SortedMap.get?_insert_self _ _ _, rfl, hcancelled, ?_⟩
    rcases hover with ⟨release, hok, hdelivery⟩ | ⟨publication, hok, hdelivery⟩
    · rcases hanswer with rfl | ⟨_, _, rfl, _⟩
      · cases hok
        exact hdelivery
      · cases hok
    · rcases hanswer with rfl | ⟨bridge, _, rfl, hpublish⟩
      · cases hok
      · cases hok
        rw [Endpoint.delivery_of_publishRelease hpublish] at hdelivery
        exact (Option.some.inj hdelivery).symm
  | cancelled => exact (hnot _ rfl nofun nofun).elim
  | configured _ hanswer =>
    rcases hanswer with rfl | ⟨_, rfl⟩ <;> exact (hnot _ rfl nofun nofun).elim
  | external => exact (hnot _ rfl nofun nofun).elim

/-- Every entry of the outbox after a step was there before, perhaps less far, or is new. -/
theorem outbox_entry (h : Transition b now action outcome after) {sequence : UInt64}
    {item' : OutboxItem} (hitem' : after.manager.outbox.get? sequence = some item') :
    (∃ item, b.manager.outbox.get? sequence = some item ∧ item.Keeps item') ∨
      ∃ sender request plan, outcome = .ok (.sent plan.receipt) ∧
        b.manager.Sends sender now request plan ∧
        (Step.mk b ⟨now, action⟩ outcome after).Takes sender plan.receipt.debited ∧
        after.manager = b.manager.recordTransfer plan ∧ sequence = plan.item.sequence ∧
        item' = plan.item := by
  rcases h.outbox_cases with ⟨houtbox, _⟩ | ⟨changed, item, new, hitem, hkeeps, houtbox, _⟩ |
    ⟨sender, request, plan, _, hok, hsends, htakes, hafter⟩
  · rw [houtbox] at hitem'
    exact .inl ⟨item', hitem', .refl _⟩
  · rw [houtbox, SortedMap.get?_insert_eq_some] at hitem'
    rcases hitem' with ⟨rfl, rfl⟩ | ⟨_, hitem'⟩
    · exact .inl ⟨item, hitem, hkeeps⟩
    · exact .inl ⟨item', hitem', .refl _⟩
  · rw [hafter, Manager.recordTransfer, SortedMap.get?_insert_eq_some] at hitem'
    rcases hitem' with ⟨hnew, hitem'⟩ | ⟨_, hitem'⟩
    · exact .inr ⟨sender, request, plan, hok, hsends, htakes, hafter, hnew, hitem'⟩
    · exact .inl ⟨item', hitem', .refl _⟩

/-- No step takes a number back. -/
theorem nextSequence_le (h : Transition b now action outcome after) :
    b.manager.nextSequence.toNat ≤ after.manager.nextSequence.toNat := by
  rcases h.outbox_cases with ⟨_, hnext⟩ | ⟨_, _, _, _, _, _, hnext⟩ |
    ⟨_, _, plan, _, _, hsends, _, hafter⟩
  · rw [hnext]
  · rw [hnext]
  · rw [hafter]
    exact (Nat.le_succ _).trans (le_of_eq hsends.sequence.2.symm)

/-- **An entry** of the outbox stays there, since its number is not given out again. -/
theorem outbox_kept (h : Transition b now action outcome after) {sequence : UInt64}
    {item : OutboxItem} (hitem : b.manager.outbox.get? sequence = some item)
    (hgiven : sequence.toNat < b.manager.nextSequence.toNat) :
    ∃ item', after.manager.outbox.get? sequence = some item' ∧ item.Keeps item' := by
  rcases h.outbox_cases with ⟨houtbox, _⟩ | ⟨changed, old, new, hold, hkeeps, houtbox, _⟩ |
    ⟨_, _, plan, _, _, hsends, _, hafter⟩
  · exact ⟨item, houtbox ▸ hitem, .refl _⟩
  · rw [houtbox]
    by_cases hsame : sequence = changed
    · subst hsame
      cases hold.symm.trans hitem
      exact ⟨new, SortedMap.get?_insert_self _ _ _, hkeeps⟩
    · exact ⟨item, SortedMap.get?_insert_eq_some.mpr (.inr ⟨hsame, hitem⟩), .refl _⟩
  · -- A new transfer takes the next number, which is above all that were given out.
    have hother : sequence ≠ plan.item.sequence := by
      rintro rfl
      rw [hsends.sequence.1] at hgiven
      exact lt_irrefl _ hgiven
    rw [hafter]
    exact ⟨item, SortedMap.get?_insert_eq_some.mpr (.inr ⟨hother, hitem⟩), .refl _⟩

end Transition

/-! ## §2 The invariant -/

/-- What is known of an entry of the outbox. -/
structure Recorded (history : List Step) (m : Manager) (sequence : UInt64) (item : OutboxItem) :
    Prop where
  /-- It stands under its own number. -/
  number : item.sequence = sequence
  /-- The number was given out. -/
  given : sequence.toNat < m.nextSequence.toNat
  /-- Some step sent it, and took from the sender what its amount is worth here. -/
  sent : ∃ s ∈ history, ∃ receipt, s.outcome = .ok (.sent receipt) ∧ receipt.sequence = sequence ∧
    s.Takes item.sender receipt.debited ∧
    item.amount.untrim m.config.tokenDecimals = .ok receipt.debited
  /-- Its amount is no more precise than the token. -/
  precision : item.amount.decimals.toNat ≤ m.config.tokenDecimals.toNat

/-- What the outbox records of the steps so far. -/
structure Records (history : List Step) (b : Book) : Prop where
  /-- Every entry was sent. -/
  entries : ∀ sequence item, b.manager.outbox.get? sequence = some item →
    Recorded history b.manager sequence item
  /-- Every entry that some call took back says so. -/
  cancelled : ∀ s ∈ history, ∀ caller sequence answer,
    s.event.action = .cancelOutbound caller sequence → s.outcome = .ok answer →
      ∃ item, b.manager.outbox.get? sequence = some item ∧ item.cancelled = true
  /-- Every message that was handed over is the message of a released entry. -/
  handed : ∀ s ∈ history, ∀ delivery, s.HandsOver delivery →
    ∃ sequence item, b.manager.outbox.get? sequence = some item ∧ item.status = .released ∧
      item.cancelled = false ∧ delivery = ⟨b.manager.config.address, item.recipientManager,
        item.message b.manager.config.tokenAddress⟩

theorem records_nil (houtbox : b.manager.outbox = .empty) : Records [] b where
  entries sequence item h := by
    rw [houtbox, SortedMap.get?_empty] at h
    cases h
  cancelled _ hs := nomatch hs
  handed _ hs := nomatch hs

/-- The next number is free. -/
theorem Records.fresh {history : List Step} (h : Records history b) :
    b.manager.outbox.get? b.manager.nextSequence = none := by
  cases hitem : b.manager.outbox.get? b.manager.nextSequence with
  | none => rfl
  | some item => exact absurd (h.entries _ _ hitem).given (lt_irrefl _)

/-- A new transfer is paid for what its amount is worth, which is no more precise than the
token. -/
theorem Manager.Sends.worth {m : Manager} {sender : Address} {request : TransferRequest}
    {plan : TransferPlan} (h : m.Sends sender now request plan) :
    plan.item.amount.untrim m.config.tokenDecimals = .ok plan.receipt.debited ∧
      plan.item.amount.decimals.toNat ≤ m.config.tokenDecimals.toNat := by
  obtain ⟨peer, _, _, htrim⟩ := h.trimmed
  obtain ⟨hdecimals, huntrim⟩ := trimOutbound_eq_ok htrim
  refine ⟨huntrim, ?_⟩
  rw [hdecimals, TrimmedAmount.toNat_commonDecimals]
  omega

/-- What a call that takes a transfer back has checked and done. -/
theorem Transition.cancels {caller : Address} {sequence : UInt64} {answer : Answer}
    (h : Transition b now (.cancelOutbound caller sequence) (.ok answer) after) :
    ∃ item refund, b.manager.outbox.get? sequence = some item ∧ item.sender = caller ∧
      item.cancelled = false ∧
      item.amount.untrim b.manager.config.tokenDecimals = .ok refund ∧
      answer = .refunded refund ∧
      Token.credit b.manager.config.mode caller refund b.token = .ok () after.token ∧
      after.manager = b.manager.recordOutbound sequence { item with cancelled := true } := by
  -- The index of the relation has to be a variable before the kinds are told apart.
  generalize haction : Action.cancelOutbound caller sequence = action at h
  cases h with
  | cancelled hitem hsender hcancelled _ hrefund hcredit =>
    cases haction
    exact ⟨_, _, hitem, hsender, hcancelled, hrefund, rfl, hsender ▸ hcredit, rfl⟩
  | repeated hsubject => subst haction; cases hsubject
  | moved hmoves => subst haction; cases hmoves.subject
  | waiting hpickUp => subst haction; cases hpickUp
  | pickedUp hpickUp => subst haction; cases hpickUp
  | configured hadministers => subst haction; exact hadministers.elim
  | transferred => cases haction
  | external => cases haction

/-- A transfer that is taken back is in the outbox afterwards, and says so. -/
theorem Transition.cancelled_of_ok {caller : Address} {sequence : UInt64} {answer : Answer}
    (h : Transition b now (.cancelOutbound caller sequence) (.ok answer) after) :
    ∃ item, after.manager.outbox.get? sequence = some item ∧ item.cancelled = true := by
  obtain ⟨item, _, _, _, _, _, _, _, hafter⟩ := h.cancels
  rw [hafter]
  exact ⟨_, SortedMap.get?_insert_self _ _ _, rfl⟩

/-- Helper: an entry after a step, which is new or was recorded before. -/
private theorem Records.recorded {history : List Step} (h : Records history b) (event : Event)
    {sequence : UInt64} {item' : OutboxItem}
    (hitem' : (b.step event).after.manager.outbox.get? sequence = some item') :
    Recorded (history ++ [b.step event]) (b.step event).after.manager sequence item' := by
  have htransition := b.step_transition event
  have hdecimals := htransition.akin.tokenDecimals
  rcases htransition.outbox_entry hitem' with ⟨item, hitem, hkeeps⟩ |
    ⟨sender, request, plan, hok, hsends, htakes, hafter, rfl, rfl⟩
  · obtain ⟨_, _, _, rfl⟩ := hkeeps.same
    obtain ⟨hnumber, hgiven, ⟨s, hs, receipt, hsent⟩, hprecision⟩ := h.entries sequence item hitem
    refine ⟨hnumber, hgiven.trans_le htransition.nextSequence_le,
      ⟨s, List.mem_append_left _ hs, receipt, ?_⟩, ?_⟩
    · rwa [hdecimals]
    · rwa [hdecimals]
  · -- The new entry stands under the number that was next, which is given out with it.
    have hgiven : plan.item.sequence.toNat < (b.step event).after.manager.nextSequence.toNat := by
      rw [hafter, hsends.sequence.1]
      exact (Nat.lt_succ_self _).trans_eq hsends.sequence.2.symm
    refine ⟨rfl, hgiven, ⟨b.step event, List.mem_concat_self, plan.receipt, hok,
      hsends.receipt.1.trans hsends.sequence.1.symm, ?_, ?_⟩, ?_⟩
    · rw [hsends.sender]
      exact htakes
    · rw [hdecimals]
      exact hsends.worth.1
    · rw [hdecimals]
      exact hsends.worth.2

/-- A step keeps every entry. -/
theorem Records.kept {history : List Step} (h : Records history b) (event : Event)
    {sequence : UInt64} {item : OutboxItem}
    (hitem : b.manager.outbox.get? sequence = some item) :
    ∃ item', (b.step event).after.manager.outbox.get? sequence = some item' ∧ item.Keeps item' :=
  (b.step_transition event).outbox_kept hitem (h.entries sequence item hitem).given

/-- Every step keeps what the outbox records. -/
theorem Records.step {history : List Step} (h : Records history b) (event : Event) :
    Records (history ++ [b.step event]) (b.step event).after := by
  have htransition := b.step_transition event
  have hakin := htransition.akin
  refine ⟨fun sequence item' hitem' => h.recorded event hitem',
    fun s hs caller sequence answer haction hok => ?_, fun s hs delivery hover => ?_⟩
  · rcases List.mem_append.mp hs with hs | hs
    · obtain ⟨item, hitem, hcancelled⟩ := h.cancelled s hs caller sequence answer haction hok
      obtain ⟨item', hitem', hkeeps⟩ := h.kept event hitem
      exact ⟨item', hitem', hkeeps.cancelled hcancelled⟩
    · rw [List.mem_singleton.mp hs] at haction hok
      rw [Book.step_event] at haction
      rw [haction, hok] at htransition
      exact htransition.cancelled_of_ok
  · rw [hakin.address, hakin.tokenAddress]
    rcases List.mem_append.mp hs with hs | hs
    · obtain ⟨sequence, item, hitem, hreleased, hcancelled, hdelivery⟩ :=
        h.handed s hs delivery hover
      obtain ⟨item', hitem', hkeeps⟩ := h.kept event hitem
      obtain ⟨hreleased', hcancelled'⟩ := hkeeps.released hreleased hcancelled
      obtain ⟨_, _, _, rfl⟩ := hkeeps.same
      exact ⟨sequence, _, hitem', hreleased', hcancelled', hdelivery⟩
    · rw [List.mem_singleton.mp hs] at hover
      exact htransition.released_of_handsOver hover

/-- **The outbox records** the transfers and the messages of a run. -/
theorem Book.records (hfresh : b.Fresh) (events : List Event) :
    Records (b.trace events) (b.run events) :=
  run_induction (records_nil hfresh.empty.2) (fun _ _ event h => h.step event) events

/-- **Invariants beside the outbox**: a step may be taken to start from a book whose outbox records
the steps before it. -/
theorem Book.records_induction (hfresh : b.Fresh) {motive : List Step → Book → Prop}
    (start : motive [] b)
    (step : ∀ history current event, Records history current → motive history current →
      motive (history ++ [current.step event]) (current.step event).after)
    (events : List Event) : motive (b.trace events) (b.run events) := by
  have hboth := run_induction
    (motive := fun history current => Records history current ∧ motive history current)
    ⟨records_nil hfresh.empty.2, start⟩
    (fun history current event h => ⟨h.1.step event, step history current event h.1 h.2⟩) events
  exact hboth.2

end CrossChain
