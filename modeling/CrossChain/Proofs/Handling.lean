import CrossChain.Proofs.Calls
import CrossChain.Proofs.Ledger
import CrossChain.Proofs.Plans
import CrossChain.Proofs.Run

/-!
# What a call for a transfer does

Seven of the calls can move value: tokens are sent, messages redeemed, and transfers released,
picked up, posted or taken back. Whoever makes such a call, it is refused, and then nothing has
changed, or the manager runs and the call does one of seven things. This is the only place where
these calls are opened; each thing that they do is listed with all that was checked before, the
limits included.

## Main statements

* `Handles`: what a call can do.
* `perform_handled`: every call that can move value does one of these things or is refused.
-/

namespace CrossChain

/-- Whether an action is a call that can move value. -/
def Action.MovesValue : Action → Prop
  | transfer _ _ | redeem _ _ _ | receive _ _ | releaseInbound _ _ | releaseOutbound _ _ _
  | publish _ _ _ _ | cancelOutbound _ _ => True
  | _ => False

/-- An action is such a call, or changes the configuration, or is no call at all. -/
theorem Action.kinds (action : Action) :
    action.MovesValue ∨ action.Administers ∨ ∃ token, action = .external token := by
  cases action <;> simp [MovesValue, Administers]

/-! ## §1 What can be done -/

/-- An inbound transfer that a call is about, with the vote of the caller if the caller brings a
message. -/
inductive Voted (b : Book) (action : Action) (digest : Digest) (answer : Answer)
    (voted : InboxItem) : Prop where
  /-- The caller brings a message. -/
  | vote {a : Arrival} {id : UInt8} {receipt : RedeemReceipt} (harrival : action.arrival? = some a)
      (haccepts : b.manager.Accepts a.transceiver a.source a.delivery digest id)
      (hattest : (b.manager.inbound a.source a.delivery digest).attest id = .ok voted)
      (hanswer : answer = .redeemed receipt) (hdigest : receipt.digest = digest)
  /-- The caller brings nothing. -/
  | none (harrival : action.arrival? = none) (hitem : b.manager.inbox.get? digest = some voted)

/-- What is paid out of the ledger when an inbound transfer is moved on. -/
def Settlement.Paid (s : Settlement) (mode : Mode) (before after : Token) : Prop :=
  match s.payout with
  | some amount => Token.credit mode s.item.recipient amount before = .ok () after
  | none => after = before

/-- The chain through whose limit an action moves an inbound transfer: the one that the message
comes from which the action brings, and otherwise the one that is recorded. -/
def Action.chainOf (action : Action) (item : InboxItem) : ChainId :=
  (action.arrival?.map Arrival.source).getD item.sourceChain

/-- What a call that can move value does. -/
inductive Handles (b : Book) (now : Timestamp) : Action → Answer → Book → Prop where
  /-- An inbound transfer was released before. -/
  | repeated {action : Action} {digest : Digest} {item : InboxItem} {answer : Answer}
      (hsubject : action.subject? = some digest)
      (hitem : b.manager.inbox.get? digest = some item) (hreleased : item.status = .released)
      (hanswer : answer.inboundStatus? = some .alreadyReleased) : Handles b now action answer b
  /-- A vote for an inbound transfer is recorded, and more are needed. -/
  | voted {action : Action} {digest : Digest} {voted item : InboxItem} {answer : Answer}
      (hsubject : action.subject? = some digest) (hvoted : Voted b action digest answer voted)
      (hwaits : voted.status ≠ .released)
      (hitem : item = voted.tryApprove b.manager.config.threshold b.manager.config.enabled)
      (hnot : item.approved = false) (hanswer : answer.inboundStatus? = some .notApproved) :
      Handles b now action answer { b with manager := b.manager.recordInbound digest item }
  /-- An inbound transfer is approved and moved on. -/
  | settled {action : Action} {digest : Digest} {voted item : InboxItem} {s : Settlement}
      {answer : Answer} {token : Token} (hsubject : action.subject? = some digest)
      (hvoted : Voted b action digest answer voted) (hwaits : voted.status ≠ .released)
      (hitem : item = voted.tryApprove b.manager.config.threshold b.manager.config.enabled)
      (happroved : item.approved = true)
      (hsettles : b.manager.Settles (action.chainOf item) item now s)
      (hpaid : s.Paid b.manager.config.mode b.token token)
      (hanswer : answer.inboundStatus? = some (.ofAdvance s.advance)) :
      Handles b now action answer ⟨b.manager.recordSettlement digest s, token⟩
  /-- Tokens are sent. -/
  | transferred {sender : Address} {request : TransferRequest} {plan : TransferPlan}
      {token : Token} (hsends : b.manager.Sends sender now request plan)
      (hdebit : Token.debit b.manager.config.mode sender plan.receipt.debited b.token =
        .ok () token) :
      Handles b now (.transfer sender request) (.sent plan.receipt)
        ⟨b.manager.recordTransfer plan, token⟩
  /-- An outbound transfer that a transceiver wants to pick up still waits. -/
  | waiting {action : Action} {transceiver : Address} {sequence : UInt64} {strict : Bool}
      {item item' : OutboxItem} {answer : Answer}
      (haction : action.pickUp? = some (transceiver, sequence, strict))
      (hanswer : answer = .handedOut none ∨ answer = .published none)
      (hitem : b.manager.outbox.get? sequence = some item) (hcancelled : item.cancelled = false)
      (hwaits : b.manager.Waits now item item') :
      Handles b now action answer
        { b with manager := b.manager.recordOutbound sequence item' }
  /-- A transceiver picks up an outbound transfer. -/
  | pickedUp {action : Action} {transceiver : Address} {sequence : UInt64} {strict : Bool}
      {id : UInt8} {item item' : OutboxItem} {outboundLimit inboundLimit : RateLimit}
      {answer : Answer} (haction : action.pickUp? = some (transceiver, sequence, strict))
      (hanswer : answer = .handedOut (some (b.manager.outboundRelease item' id)) ∨
        ∃ bridge publication, answer = .published (some publication) ∧
          Endpoint.publishRelease bridge
            (b.manager.recordPickUp sequence item' outboundLimit inboundLimit)
            (b.manager.outboundRelease item' id) = .ok publication)
      (hid : b.manager.enabledTransceiver transceiver = .ok id)
      (hitem : b.manager.outbox.get? sequence = some item) (hcancelled : item.cancelled = false)
      (hout : b.manager.HandsOut id now item item' outboundLimit inboundLimit) :
      Handles b now action answer
        { b with manager := b.manager.recordPickUp sequence item' outboundLimit inboundLimit }
  /-- The sender of an outbound transfer takes it back. -/
  | cancelled {caller : Address} {sequence : UInt64} {item : OutboxItem} {refund : UInt64}
      {token : Token} (hitem : b.manager.outbox.get? sequence = some item)
      (hsender : item.sender = caller) (hcancelled : item.cancelled = false)
      (hqueued : ∃ time, item.status = .queued time)
      (hrefund : item.amount.untrim b.manager.config.tokenDecimals = .ok refund)
      (hcredit : Token.credit b.manager.config.mode item.sender refund b.token = .ok () token) :
      Handles b now (.cancelOutbound caller sequence) (.refunded refund)
        ⟨b.manager.recordOutbound sequence { item with cancelled := true }, token⟩

/-- **What comes of a call** that can move value. -/
inductive Handled (b : Book) (now : Timestamp) (action : Action) : Outcome × Book → Prop where
  | refused {failure : Failure} : Handled b now action (.error failure, b)
  | handled {answer : Answer} {after : Book} (hrunning : b.manager.config.paused = false)
      (hhandles : Handles b now action answer after) : Handled b now action (.ok answer, after)

/-! ## §2 Inbound transfers -/

variable {b : Book} {now : Timestamp} {action : Action}

/-- Paying for an inbound transfer fails before anything changes. -/
theorem pay_result (b : Book) (s : Settlement) :
    (∃ e, Call.pay b.manager s b = .error e b) ∨
      ∃ token, s.Paid b.manager.config.mode b.token token ∧
        Call.pay b.manager s b = .ok () { b with token } := by
  rw [Call.pay_eq]
  unfold Settlement.Paid
  cases s.payout with
  | none => exact .inr ⟨b.token, rfl, rfl⟩
  | some amount =>
    cases hcredit : Token.credit b.manager.config.mode s.item.recipient amount b.token with
    | ok _ token => exact .inr ⟨token, hcredit, by simp only [hcredit]⟩
    | error e token =>
      cases Token.credit_error hcredit
      exact .inl ⟨.token e, by simp only [hcredit]⟩

/-- Recording an inbound transfer either pays for it, or fails before anything changes. -/
theorem settle_result (b : Book) (digest : Digest) (s : Settlement) :
    (∃ e, Call.settle b.manager digest s b = .error e b) ∨
      ∃ token, s.Paid b.manager.config.mode b.token token ∧
        Call.settle b.manager digest s b = .ok () ⟨b.manager.recordSettlement digest s, token⟩ := by
  rw [Call.settle_eq]
  rcases pay_result b s with ⟨e, he⟩ | ⟨token, hpaid, hok⟩
  · exact .inl ⟨e, by rw [he]⟩
  · exact .inr ⟨token, hpaid, by rw [hok]⟩

/-- **Redeeming a message**, directly or out of a post. -/
theorem redeem_handled {transceiver : Address} {source : ChainId}
    {delivery : Delivery TokenTransfer}
    (haction : action.arrival? = some ⟨transceiver, source, delivery⟩) :
    Handled b now action (observe .redeemed (Call.redeem transceiver now source delivery b)) := by
  rw [Call.redeem_eq]
  cases hplan : b.manager.planRedeem transceiver now source delivery with
  | error e => exact .refused
  | ok planned =>
    obtain ⟨digest, plan⟩ := planned
    obtain ⟨id, haccepts, hplan⟩ := Manager.planRedeem_eq_ok hplan
    -- The digest that the checks computed is the one that the action is about.
    have hsubject : action.subject? = some digest := by
      rw [Action.subject?_of_arrival? haction, Arrival.digest, haccepts.digest]
      rfl
    have hstatus {voted : InboxItem}
        (hattest : (b.manager.inbound source delivery digest).attest id = .ok voted) :
        voted.status = (b.manager.inbound source delivery digest).status := by
      obtain ⟨_, votes, _, rfl⟩ := InboxItem.attest_eq_ok hattest
      rfl
    cases plan with
    | done votes =>
      -- A transfer that is not recorded yet is not released.
      unfold Manager.inbound at hplan
      cases hitem : b.manager.inbox.get? digest with
      | none =>
        rw [hitem] at hplan
        cases hplan.1
      | some item =>
        rw [hitem] at hplan
        exact .handled haccepts.running (.repeated hsubject hitem hplan.1 rfl)
    | voted item =>
      obtain ⟨hwaits, voted, hattest, hitem, hnot⟩ := hplan
      exact .handled haccepts.running (.voted hsubject (.vote haction haccepts hattest rfl rfl)
        (hstatus hattest ▸ hwaits) hitem hnot rfl)
    | settled s =>
      obtain ⟨hwaits, voted, item, hattest, hitem, happroved, hsettles⟩ := hplan
      have hchain : action.chainOf item = source := by rw [Action.chainOf, haction]; rfl
      rw [← hchain] at hsettles
      rcases settle_result b digest s with ⟨e, he⟩ | ⟨token, hpaid, hok⟩
      · simp only [he]
        exact .refused
      · simp only [hok]
        exact .handled haccepts.running (.settled hsubject
          (.vote haction haccepts hattest rfl rfl) (hstatus hattest ▸ hwaits) hitem happroved
          hsettles hpaid rfl)

theorem releaseInbound_handled {digest : Digest} {strict : Bool} :
    Handled b now (.releaseInbound digest strict)
      (observe .released (Call.releaseInbound now digest strict b)) := by
  rw [Call.releaseInbound_eq]
  cases hplan : b.manager.planReleaseInbound now digest with
  | error e => exact .refused
  | ok plan =>
    obtain ⟨hrunning, found, hfound, hplan⟩ := Manager.planReleaseInbound_eq_ok hplan
    cases plan with
    | none => exact .handled hrunning (.repeated rfl hfound hplan rfl)
    | some s =>
      obtain ⟨hwaits, item, hitem, happroved, hsettles⟩ := hplan
      rcases pay_result b s with ⟨e, he⟩ | ⟨token, hpaid, hok⟩
      · simp only [he]
        exact .refused
      simp only [hok]
      by_cases hrefused : (strict && s.waits) = true
      · -- It is refused after the payment, but there was none.
        rw [Settlement.Paid, hsettles.payout_of_waits (Bool.and_eq_true_iff.mp hrefused).2] at hpaid
        rw [if_pos hrefused, hpaid]
        exact .refused
      · rw [if_neg hrefused]
        exact .handled hrunning (.settled rfl (.none rfl hfound) hwaits hitem happroved hsettles
          hpaid rfl)

/-! ## §3 Outbound transfers -/

theorem transfer_handled {sender : Address} {request : TransferRequest} :
    Handled b now (.transfer sender request)
      (observe .sent (Call.transfer sender now request b)) := by
  rw [Call.transfer_eq]
  cases hplan : b.manager.planTransfer sender now request with
  | error e => exact .refused
  | ok plan =>
    have hsends := Manager.planTransfer_sends hplan
    cases hdebit : Token.debit b.manager.config.mode sender plan.receipt.debited b.token with
    | error e token =>
      cases Token.debit_error hdebit
      simp only [hdebit]
      exact .refused
    | ok _ token =>
      simp only [hdebit]
      exact .handled hsends.running (.transferred hsends hdebit)

theorem releaseOutbound_handled {transceiver : Address} {sequence : UInt64} {strict : Bool} :
    Handled b now (.releaseOutbound transceiver sequence strict)
      (observe .handedOut (Call.releaseOutbound transceiver now sequence strict b)) := by
  rw [Call.releaseOutbound_eq]
  cases hplan : b.manager.planPickUp transceiver now sequence strict with
  | error e => exact .refused
  | ok plan =>
    obtain ⟨hrunning, id, item, hid, hitem, hcancelled, hplan⟩ := Manager.planPickUp_eq_ok hplan
    cases plan with
    | waiting item' => exact .handled hrunning (.waiting rfl (.inl rfl) hitem hcancelled hplan.1)
    | released item' outboundLimit inboundLimit release =>
      obtain ⟨hout, rfl⟩ := hplan
      exact .handled hrunning (.pickedUp rfl (.inl rfl) hid hitem hcancelled hout)

/-- **Posting a message** picks it up only if the bridge takes the post. -/
theorem publish_handled {endpoint : Endpoint} {bridge : Publisher} {sequence : UInt64}
    {strict : Bool} :
    Handled b now (.publish endpoint bridge sequence strict)
      (observe .published (endpoint.release bridge now sequence strict b)) := by
  rw [Endpoint.release_eq, Call.releaseOutbound_eq]
  cases hplan : b.manager.planPickUp endpoint.address now sequence strict with
  | error e => exact .refused
  | ok plan =>
    obtain ⟨hrunning, id, item, hid, hitem, hcancelled, hplan⟩ := Manager.planPickUp_eq_ok hplan
    cases plan with
    | waiting item' => exact .handled hrunning (.waiting rfl (.inr rfl) hitem hcancelled hplan.1)
    | released item' outboundLimit inboundLimit release =>
      obtain ⟨hout, rfl⟩ := hplan
      cases hpost : Endpoint.publishRelease bridge
          (b.manager.recordPickUp sequence item' outboundLimit inboundLimit)
          (b.manager.outboundRelease item' id) with
      | error e =>
        simp only [hpost]
        exact .refused
      | ok publication =>
        simp only [hpost]
        exact .handled hrunning
          (.pickedUp rfl (.inr ⟨bridge, publication, rfl, hpost⟩) hid hitem hcancelled hout)

theorem cancelOutbound_handled {caller : Address} {sequence : UInt64} :
    Handled b now (.cancelOutbound caller sequence)
      (observe .refunded (Call.cancelOutbound caller sequence b)) := by
  rw [Call.cancelOutbound_eq]
  cases hplan : b.manager.planCancel caller sequence with
  | error e => exact .refused
  | ok plan =>
    obtain ⟨item, refund⟩ := plan
    obtain ⟨hrunning, hitem, hsender, hcancelled, hqueued, hrefund⟩ :=
      Manager.planCancel_eq_ok hplan
    cases hcredit : Token.credit b.manager.config.mode item.sender refund b.token with
    | error e token =>
      cases Token.credit_error hcredit
      simp only [hcredit]
      exact .refused
    | ok _ token =>
      simp only [hcredit]
      exact .handled hrunning (.cancelled hitem hsender hcancelled hqueued hrefund hcredit)

/-! ## §4 All of them -/

/-- **Every call that can move value** does one of the things listed, or is refused. -/
theorem perform_handled (hvalue : action.MovesValue) (now : Timestamp) (b : Book) :
    Handled b now action (perform now b action) := by
  cases action with
  | transfer sender request => exact transfer_handled
  | redeem transceiver source delivery => exact redeem_handled rfl
  | receive endpoint post =>
    rw [perform, Endpoint.receive_eq]
    cases hunwrap : endpoint.unwrap b.manager.config post with
    | error e => exact .refused
    | ok delivery =>
      -- The message that is redeemed is the one in the post.
      simp only [Endpoint.unwrap, throw_bind, bind_eq_ok, guard_eq_ok, mapError_eq_ok,
        pure_eq_ok] at hunwrap
      obtain ⟨_, envelope, hdecode, _, rfl⟩ := hunwrap
      exact redeem_handled (by simp [Action.arrival?, Envelope.delivery?, hdecode, Except.toOption])
  | releaseInbound digest strict => exact releaseInbound_handled
  | releaseOutbound transceiver sequence strict => exact releaseOutbound_handled
  | publish endpoint bridge sequence strict => exact publish_handled
  | cancelOutbound caller sequence => exact cancelOutbound_handled
  | execute | register | invoke | govern | external => exact hvalue.elim

/-- **Every step** that can move value does one of these things or changes nothing. -/
theorem Book.step_handled (book : Book) {event : Event} (hvalue : event.action.MovesValue) :
    (book.step event).after = book ∨ ∃ answer, (book.step event).outcome = .ok answer ∧
      Handles book event.now event.action answer (book.step event).after := by
  have h := perform_handled hvalue event.now book
  rw [step]
  generalize perform event.now book event.action = result at h ⊢
  cases h with
  | refused => exact .inl rfl
  | handled _ hhandles => exact .inr ⟨_, rfl, hhandles⟩

end CrossChain
