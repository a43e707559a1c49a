import CrossChain.Proofs.Delivery

/-!
# Taken back or sent, never both

While an outbound transfer waits in the queue, its sender and the transceivers compete for it: the
sender may take the tokens back, and each transceiver may pick the message up when its time has
come. Whatever the order of the calls, only one side gets it. A transfer that was taken back is
never handed to a transceiver, before or after, and its sender gets exactly what was taken for it,
although the amount was cut down in between.

## Main statements

* `Refunds`, `Book.refunds`: the invariant, that the outbox remembers both sides of a refund.
* `Book.cancelled_unsent`: what holds of every transfer that was taken back.
-/

namespace CrossChain

variable {b after : Book} {now : Timestamp} {action : Action}

/-! ## §1 Steps -/

/-- Only a transfer is answered with a receipt. -/
theorem Transition.transfer_of_sent {receipt : TransferReceipt}
    (h : Transition b now action (.ok (.sent receipt)) after) :
    ∃ sender request, action = .transfer sender request := by
  cases h with
  | transferred => exact ⟨_, _, rfl⟩
  | repeated _ _ _ hanswer => cases hanswer
  | moved hmoves =>
    obtain ⟨_, hanswer⟩ := hmoves.answers
    cases hanswer
  | waiting _ hanswer => rcases hanswer with h | h <;> cases h
  | pickedUp _ hanswer => rcases hanswer with h | ⟨_, _, h, _⟩ <;> cases h
  | configured _ hanswer => rcases hanswer with h | ⟨_, h⟩ <;> cases h

/-- What a call that sends tokens has checked and done. -/
theorem Transition.sends {sender : Address} {request : TransferRequest} {answer : Answer}
    (h : Transition b now (.transfer sender request) (.ok answer) after) :
    ∃ plan, b.manager.Sends sender now request plan ∧ answer = .sent plan.receipt ∧
      after.manager = b.manager.recordTransfer plan := by
  generalize haction : Action.transfer sender request = action at h
  cases h with
  | transferred hsends =>
    cases haction
    exact ⟨_, hsends, rfl, rfl⟩
  | repeated hsubject => subst haction; cases hsubject
  | moved hmoves => subst haction; cases hmoves.subject
  | waiting hpickUp => subst haction; cases hpickUp
  | pickedUp hpickUp => subst haction; cases hpickUp
  | configured hadministers => subst haction; exact hadministers.elim
  | cancelled => cases haction
  | external => cases haction

/-! ## §2 The invariant -/

/-- A transfer in the outbox, with its sender and what its amount is worth to the sender. -/
structure Manager.Owes (m : Manager) (sequence : UInt64) (sender : Address) (amount : UInt64)
    (item : OutboxItem) : Prop where
  entry : m.outbox.get? sequence = some item
  sender : item.sender = sender
  worth : item.amount.untrim m.config.tokenDecimals = .ok amount

/-- What the outbox remembers of the transfers that were sent, and of those taken back. -/
structure Refunds (history : List Step) (b : Book) : Prop where
  sent : ∀ s ∈ history, ∀ sender request receipt, s.event.action = .transfer sender request →
    s.outcome = .ok (.sent receipt) →
      ∃ item, b.manager.Owes receipt.sequence sender receipt.debited item
  refunded : ∀ s ∈ history, ∀ caller sequence answer,
    s.event.action = .cancelOutbound caller sequence → s.outcome = .ok answer →
      ∃ item refund, b.manager.Owes sequence caller refund item ∧ item.cancelled = true ∧
        answer = .refunded refund ∧ s.Pays caller refund

/-- A step keeps what the manager owes, and that a transfer was taken back. -/
theorem Records.owes_step {history : List Step} (h : Records history b) (event : Event)
    {sequence : UInt64} {sender : Address} {amount : UInt64} {item : OutboxItem}
    (howes : b.manager.Owes sequence sender amount item) :
    ∃ item', (b.step event).after.manager.Owes sequence sender amount item' ∧
      (item.cancelled = true → item'.cancelled = true) := by
  obtain ⟨hitem, hsender, hworth⟩ := howes
  obtain ⟨item', hitem', hkeeps⟩ := h.kept event hitem
  have hcancelled := hkeeps.cancelled
  obtain ⟨_, _, _, rfl⟩ := hkeeps.same
  refine ⟨_, ⟨hitem', hsender, ?_⟩, hcancelled⟩
  rw [(b.step_transition event).akin.tokenDecimals]
  exact hworth

/-- Every step keeps what the outbox remembers. -/
theorem Refunds.step {history : List Step} (h : Refunds history b) (hrecords : Records history b)
    (event : Event) : Refunds (history ++ [b.step event]) (b.step event).after := by
  have htransition := b.step_transition event
  have hdecimals := htransition.akin.tokenDecimals
  -- What an earlier step left stays, and only the last step can add to it.
  refine ⟨fun s hs sender request receipt haction hok => ?_,
    fun s hs caller sequence answer haction hok => ?_⟩
  · rcases List.mem_append.mp hs with hs | hs
    · obtain ⟨item, howes⟩ := h.sent s hs sender request receipt haction hok
      obtain ⟨item', howes', _⟩ := hrecords.owes_step event howes
      exact ⟨item', howes'⟩
    · rw [List.mem_singleton.mp hs] at haction hok
      rw [Book.step_event] at haction
      rw [haction, hok] at htransition
      obtain ⟨plan, hsends, hanswer, hafter⟩ := htransition.sends
      cases hanswer
      refine ⟨plan.item, ?_, hsends.sender, ?_⟩
      · rw [hafter, hsends.receipt.1, ← hsends.sequence.1]
        exact SortedMap.get?_insert_self _ _ _
      · rw [hdecimals]
        exact hsends.worth.1
  · rcases List.mem_append.mp hs with hs | hs
    · obtain ⟨item, refund, howes, hcancelled, hanswer⟩ :=
        h.refunded s hs caller sequence answer haction hok
      obtain ⟨item', howes', hkeeps⟩ := hrecords.owes_step event howes
      exact ⟨item', refund, howes', hkeeps hcancelled, hanswer⟩
    · have hlast := List.mem_singleton.mp hs
      subst hlast
      rw [Book.step_event] at haction
      rw [haction, hok] at htransition
      obtain ⟨item, refund, _, hsender, _, hworth, hanswer, hpays, hafter⟩ := htransition.cancels
      refine ⟨{ item with cancelled := true }, refund, ⟨?_, hsender, ?_⟩, rfl, hanswer, hpays⟩
      · rw [hafter]
        exact SortedMap.get?_insert_self _ _ _
      · rw [hdecimals]
        exact hworth

theorem Book.refunds (hfresh : b.Fresh) (events : List Event) :
    Refunds (b.trace events) (b.run events) := by
  have hstart : Refunds [] b :=
    ⟨fun _ hs => (List.not_mem_nil hs).elim, fun _ hs => (List.not_mem_nil hs).elim⟩
  exact records_induction hfresh hstart (fun _ _ event hrecords h => h.step hrecords event) events

/-! ## §3 Runs -/

namespace Book

variable {events : List Event} {i j : ℕ} {s t : Step} {caller other : Address} {sequence : UInt64}
  {answer answer' : Answer}

/-- What the outbox records before a step of a run. -/
theorem records_before (hfresh : b.Fresh) (hs : (b.trace events)[i]? = some s) :
    Records ((b.trace events).take i) s.before := by
  rw [take_trace, before_eq hs]
  exact b.records hfresh _

/-- Whoever takes a transfer back finds that nobody did so before. -/
theorem not_cancelled_twice (hfresh : b.Fresh) (hs : (b.trace events)[i]? = some s)
    (ht : (b.trace events)[j]? = some t)
    (haction : s.event.action = .cancelOutbound caller sequence)
    (haction' : t.event.action = .cancelOutbound other sequence) (hok : s.outcome = .ok answer)
    (hok' : t.outcome = .ok answer') : ¬ i < j := by
  intro hlt
  obtain ⟨item, hitem, hcancelled⟩ := (records_before hfresh ht).cancelled s
    (mem_take_of_lt hs hlt) caller sequence answer haction hok
  have htransition := transition_at ht
  rw [haction', hok'] at htransition
  obtain ⟨found, _, hfound, _, hopen, _⟩ := htransition.cancels
  cases hitem.symm.trans hfound
  cases hcancelled.symm.trans hopen

/-- What is taken back was sent before. -/
theorem sent_before (hfresh : b.Fresh) (hs : (b.trace events)[i]? = some s)
    (haction : s.event.action = .cancelOutbound caller sequence) (hok : s.outcome = .ok answer) :
    ∃ j < i, ∃ t sender request receipt, (b.trace events)[j]? = some t ∧
      t.event.action = .transfer sender request ∧ t.outcome = .ok (.sent receipt) ∧
      receipt.sequence = sequence := by
  have htransition := transition_at hs
  rw [haction, hok] at htransition
  obtain ⟨item, _, hitem, _⟩ := htransition.cancels
  obtain ⟨t, ht, receipt, hsent, hsequence, _⟩ :=
    ((records_before hfresh hs).entries sequence item hitem).sent
  obtain ⟨j, hlt, hj⟩ := exists_lt_of_mem_take ht
  have htransfer := transition_at hj
  rw [hsent] at htransfer
  obtain ⟨sender, request, haction'⟩ := htransfer.transfer_of_sent
  exact ⟨j, hlt, t, sender, request, receipt, hj, haction', hsent, hsequence⟩

/-- **Taken back or sent, never both**: when a transfer is taken back,

* no other call of the run takes it back;
* it was sent before, by the caller, who gets exactly what was taken from them then;
* no call of the run, before or after, hands its message over to a transceiver. -/
theorem cancelled_unsent (hfresh : b.Fresh) (hs : (b.trace events)[i]? = some s)
    (haction : s.event.action = .cancelOutbound caller sequence) (hok : s.outcome = .ok answer) :
    (∀ (j : ℕ) (t : Step) (other : Address) (answer' : Answer), (b.trace events)[j]? = some t →
      t.event.action = .cancelOutbound other sequence → t.outcome = .ok answer' → j = i) ∧
    (∃ refund, answer = .refunded refund ∧ s.Pays caller refund ∧
      (∃ j < i, ∃ t request receipt, (b.trace events)[j]? = some t ∧
        t.event.action = .transfer caller request ∧ t.outcome = .ok (.sent receipt) ∧
        receipt.sequence = sequence) ∧
      ∀ t ∈ b.trace events, ∀ sender request receipt, t.event.action = .transfer sender request →
        t.outcome = .ok (.sent receipt) → receipt.sequence = sequence →
          sender = caller ∧ receipt.debited = refund) ∧
    ∀ t ∈ b.trace events, ∀ transceiver, t.handover? ≠ some (transceiver, sequence) := by
  have hmem := List.mem_of_getElem? hs
  have hrefunds := b.refunds hfresh events
  obtain ⟨item, refund, howes, hcancelled, hanswer, hpays⟩ :=
    hrefunds.refunded s hmem caller sequence answer haction hok
  -- Whatever the run says of the transfer, it says of this entry.
  have hsent (t : Step) (ht : t ∈ b.trace events) (sender : Address) (request : TransferRequest)
      (receipt : TransferReceipt) (haction : t.event.action = .transfer sender request)
      (hok : t.outcome = .ok (.sent receipt)) (hsequence : receipt.sequence = sequence) :
      sender = caller ∧ receipt.debited = refund := by
    obtain ⟨found, hfound⟩ := hrefunds.sent t ht sender request receipt haction hok
    rw [hsequence] at hfound
    cases howes.entry.symm.trans hfound.entry
    exact ⟨hfound.sender.symm.trans howes.sender,
      Except.ok.inj (hfound.worth.symm.trans howes.worth)⟩
  refine ⟨fun j t other answer' ht haction' hok' => ?_, ⟨refund, hanswer, hpays, ?_, hsent⟩,
    fun t ht transceiver hover => ?_⟩
  · have hle := Nat.le_of_not_lt (not_cancelled_twice hfresh hs ht haction haction' hok hok')
    have hge := Nat.le_of_not_lt (not_cancelled_twice hfresh ht hs haction' haction hok' hok)
    exact Nat.le_antisymm hle hge
  · obtain ⟨j, hlt, t, sender, request, receipt, hj, haction', hok', hsequence⟩ :=
      sent_before hfresh hs haction hok
    obtain ⟨rfl, _⟩ :=
      hsent t (List.mem_of_getElem? hj) sender request receipt haction' hok' hsequence
    exact ⟨j, hlt, t, request, receipt, hj, haction', hok', hsequence⟩
  · obtain ⟨found, hfound, _, hopen, _⟩ :=
      (b.deliveries hfresh events).contents t ht transceiver sequence hover
    cases howes.entry.symm.trans hfound
    cases hcancelled.symm.trans hopen

end Book

namespace Sample

/-- An account sends more than the limit lets pass at once and takes it back, while a transceiver
tries to pick it up before and after. -/
def regretEvents : List Event :=
  [⟨0, .execute (address 9) (.registerTransceiver (address 30))⟩,
   ⟨0, .execute (address 9) (.setPeer ⟨⟨2⟩, address 12, 1000000000, 7⟩)⟩,
   ⟨1, .transfer (address 20) ⟨2000000089, ⟨2⟩, address 22, true, []⟩⟩,
   ⟨2, .releaseOutbound (address 30) 0 false⟩,
   ⟨3, .cancelOutbound (address 20) 0⟩,
   ⟨200, .releaseOutbound (address 30) 0 false⟩]

/-- The sender gets back what was taken, without the dust that was not. -/
theorem regret_refunded :
    (home.trace regretEvents)[4].Pays (address 20) 2000000000 ∧
      ∀ t ∈ home.trace regretEvents, ∀ transceiver, t.handover? ≠ some (transceiver, 0) := by
  have hs : (home.trace regretEvents)[4]? = some (home.trace regretEvents)[4] :=
    List.getElem?_eq_getElem (by decide)
  have haction : (home.trace regretEvents)[4].event.action = .cancelOutbound (address 20) 0 := rfl
  have hok : (home.trace regretEvents)[4].outcome = .ok (.refunded 2000000000) := by
    decide +kernel
  obtain ⟨_, ⟨refund, hanswer, hpays, _⟩, hnever⟩ :=
    Book.cancelled_unsent home_fresh hs haction hok
  cases hanswer
  exact ⟨hpays, hnever⟩

end Sample

end CrossChain
