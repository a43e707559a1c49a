import CrossChain.Proofs.Inbound
import CrossChain.Proofs.Outbound

/-!
# The manager and the token agree

What a manager remembers of its transfers accounts for everything that its calls did to the token:
what was sent and not taken back on one side, what was paid on the other. This holds as long as
only the manager uses the token.

## Main statements

* `Balances.debit`, `Balances.credit`, `Balances.refund`: the equation, for one operation.
* `Reconciles`, `Reconciles.step`: the invariant.
* `Book.reconciled`: the equation, for every run.
-/

namespace CrossChain

/-! ## §1 What is on the books -/

/-- What an amount comes to in the decimals of a token, and nothing if it does not fit. -/
def TrimmedAmount.worth (value : TrimmedAmount) (decimals : UInt8) : ℕ :=
  (value.untrim decimals).toOption.elim 0 UInt64.toNat

theorem TrimmedAmount.worth_eq {value : TrimmedAmount} {decimals : UInt8} {amount : UInt64}
    (h : value.untrim decimals = .ok amount) : value.worth decimals = amount.toNat := by
  rw [worth, h]
  rfl

/-- What an outbound transfer has taken from its sender. -/
def OutboxItem.taken (decimals : UInt8) (item : OutboxItem) : ℕ :=
  if item.cancelled then 0 else item.amount.worth decimals

/-- What an inbound transfer has given to its recipient. -/
def InboxItem.given (decimals : UInt8) (item : InboxItem) : ℕ :=
  if item.status = .released then item.amount.worth decimals else 0

namespace Manager

/-- What all outbound transfers that were not taken back are worth. -/
def sent (m : Manager) : ℕ :=
  m.outbox.total (OutboxItem.taken m.config.tokenDecimals)

/-- What all inbound transfers that were released are worth. -/
def paid (m : Manager) : ℕ :=
  m.inbox.total (InboxItem.given m.config.tokenDecimals)

end Manager

/-! ## §2 The equation -/

/-- A token accounts for what was sent and what was paid since it was `initial`. -/
structure Balances (mode : Mode) (initial t : Token) (sent paid : ℕ) : Prop where
  held : t.held + sent = initial.held + paid
  mode : match mode with
    | .locking => t.custody.toNat + paid = initial.custody.toNat + sent ∧
        t.supply = initial.supply
    | .burning => t.supply.toNat + sent = initial.supply.toNat + paid ∧
        t.custody = initial.custody ∧ t.held ≤ t.supply.toNat

namespace Balances

variable {mode : Mode} {initial t t' : Token} {sent paid : ℕ} {owner : Address} {amount : UInt64}

theorem debit (h : Balances mode initial t sent paid)
    (hdebit : Token.debit mode owner amount t = .ok () t') :
    Balances mode initial t' (sent + amount.toNat) paid := by
  obtain ⟨hheld, hmode⟩ := Token.debit_ok hdebit
  have hsum := h.held
  have hbefore := h.mode
  cases mode with
  | locking =>
    exact ⟨by omega, by dsimp only at *; omega, hmode.2.trans hbefore.2⟩
  | burning =>
    -- The supply covers what is burned, so the subtraction is exact.
    dsimp only at hmode hbefore
    refine ⟨by omega, by omega, hmode.2.trans hbefore.2.1, by omega⟩

theorem credit (h : Balances mode initial t sent paid)
    (hcredit : Token.credit mode owner amount t = .ok () t') :
    Balances mode initial t' sent (paid + amount.toNat) := by
  obtain ⟨hheld, hmode⟩ := Token.credit_ok hcredit
  have hsum := h.held
  have hbefore := h.mode
  cases mode with
  | locking =>
    exact ⟨by omega, by dsimp only at *; omega, hmode.2.trans hbefore.2⟩
  | burning =>
    dsimp only at hmode hbefore
    exact ⟨by omega, by omega, hmode.2.trans hbefore.2.1, by omega⟩

theorem refund {sent' : ℕ} (h : Balances mode initial t sent paid)
    (hcredit : Token.credit mode owner amount t = .ok () t') (hsent : sent = sent' + amount.toNat) :
    Balances mode initial t' sent' paid := by
  obtain ⟨hheld, hmode⟩ := h.credit hcredit
  refine ⟨by omega, ?_⟩
  cases mode with
  | locking => exact ⟨by dsimp only at *; omega, hmode.2⟩
  | burning => exact ⟨by dsimp only at *; omega, hmode.2⟩

end Balances

/-! ## §3 Steps -/

variable {b after : Book} {now : Timestamp} {action : Action} {outcome : Outcome}

/-- Helper: recording an outbound transfer changes what was sent by the difference of that
transfer. -/
private theorem sent_insert {m m' : Manager} {sequence : UInt64} {item' : OutboxItem}
    (hdecimals : m'.config.tokenDecimals = m.config.tokenDecimals)
    (houtbox : m'.outbox = m.outbox.insert sequence item') :
    m'.sent + (m.outbox.get? sequence).elim 0 (OutboxItem.taken m.config.tokenDecimals) =
      m.sent + item'.taken m.config.tokenDecimals := by
  rw [Manager.sent, hdecimals, houtbox]
  exact SortedMap.total_insert _ _ _ _

/-- Helper: recording a transfer that is worth the same leaves what was sent as it is. -/
private theorem sent_same {m m' : Manager} {sequence : UInt64} {item item' : OutboxItem}
    (hdecimals : m'.config.tokenDecimals = m.config.tokenDecimals)
    (houtbox : m'.outbox = m.outbox.insert sequence item')
    (hitem : m.outbox.get? sequence = some item)
    (hsame : item'.taken m.config.tokenDecimals = item.taken m.config.tokenDecimals) :
    m'.sent = m.sent := by
  have hinsert := sent_insert hdecimals houtbox
  rw [hitem, Option.elim_some, hsame] at hinsert
  exact Nat.add_right_cancel hinsert

theorem Moves.sent_eq {digest : Digest} {voted item : InboxItem} {answer : Answer}
    (h : Moves b action digest voted item answer after) : after.manager.sent = b.manager.sent := by
  rw [Manager.sent, h.config, h.outbox, Manager.sent]

/-- Moving an inbound transfer on adds what it gives. -/
theorem Moves.paid_eq {digest : Digest} {voted item : InboxItem} {answer : Answer}
    (h : Moves b action digest voted item answer after) :
    after.manager.paid = b.manager.paid + item.given b.manager.config.tokenDecimals := by
  have hinsert := SortedMap.total_insert (InboxItem.given b.manager.config.tokenDecimals)
    b.manager.inbox digest item
  -- A transfer that is moved on was not released, so it had given nothing.
  have hbefore : (b.manager.inbox.get? digest).elim 0
      (InboxItem.given b.manager.config.tokenDecimals) = 0 := by
    cases hold : b.manager.inbox.get? digest with
    | none => rfl
    | some old => exact if_neg (h.not_released hold)
  rw [hbefore, Nat.add_zero] at hinsert
  rw [Manager.paid, h.config, h.inbox, hinsert]
  rfl

section Sent

variable {m : Manager} {sequence : UInt64} {item item' : OutboxItem}

theorem sent_recordTransfer {sender : Address} {request : TransferRequest} {plan : TransferPlan}
    (hsends : m.Sends sender now request plan) (hfresh : m.outbox.get? m.nextSequence = none) :
    (m.recordTransfer plan).sent = m.sent + plan.receipt.debited.toNat := by
  have hsent : (m.recordTransfer plan).sent + (m.outbox.get? plan.item.sequence).elim 0
        (OutboxItem.taken m.config.tokenDecimals) =
      m.sent + plan.item.taken m.config.tokenDecimals := sent_insert rfl rfl
  have htaken : plan.item.taken m.config.tokenDecimals = plan.receipt.debited.toNat := by
    rw [OutboxItem.taken, hsends.fresh.2]
    exact TrimmedAmount.worth_eq hsends.worth.1
  rwa [hsends.sequence.1, hfresh, Option.elim_none, Nat.add_zero, htaken] at hsent

theorem sent_waiting (hitem : m.outbox.get? sequence = some item)
    (hwaits : m.Waits now item item') : (m.recordOutbound sequence item').sent = m.sent := by
  obtain ⟨_, _, _, _, _, _, rfl⟩ := hwaits.queued
  exact sent_same rfl rfl hitem rfl

theorem sent_pickedUp {id : UInt8} {outboundLimit inboundLimit : RateLimit}
    (hitem : m.outbox.get? sequence = some item)
    (hout : m.HandsOut id now item item' outboundLimit inboundLimit) :
    (m.recordPickUp sequence item' outboundLimit inboundLimit).sent = m.sent := by
  obtain ⟨_, _, _, rfl⟩ := hout.pickedUp
  exact sent_same rfl rfl hitem rfl

/-- Taking a transfer back takes off what it is worth. -/
theorem sent_cancelled {refund : UInt64} (hitem : m.outbox.get? sequence = some item)
    (hcancelled : item.cancelled = false)
    (hrefund : item.amount.untrim m.config.tokenDecimals = .ok refund) :
    m.sent = (m.recordOutbound sequence { item with cancelled := true }).sent + refund.toNat := by
  have hsent : (m.recordOutbound sequence { item with cancelled := true }).sent +
        (m.outbox.get? sequence).elim 0 (OutboxItem.taken m.config.tokenDecimals) =
      m.sent + OutboxItem.taken m.config.tokenDecimals { item with cancelled := true } :=
    sent_insert rfl rfl
  have hnothing : OutboxItem.taken m.config.tokenDecimals { item with cancelled := true } = 0 := rfl
  have htaken : item.taken m.config.tokenDecimals = refund.toNat := by
    rw [OutboxItem.taken, hcancelled]
    exact TrimmedAmount.worth_eq hrefund
  rw [hitem, Option.elim_some, htaken, hnothing, Nat.add_zero] at hsent
  exact hsent.symm

end Sent

theorem Manager.Configures.sent_eq {m m' : Manager} (h : m.Configures m') : m'.sent = m.sent := by
  rw [Manager.sent, h.config.tokenDecimals, h.outbox, Manager.sent]

theorem Manager.Configures.paid_eq {m m' : Manager} (h : m.Configures m') : m'.paid = m.paid := by
  rw [Manager.paid, h.config.tokenDecimals, h.inbox, Manager.paid]

/-- **Every call** keeps the equation. -/
theorem Transition.balances (h : Transition b now action outcome after) (hcall : action.IsCall)
    (hfresh : b.manager.outbox.get? b.manager.nextSequence = none) {initial : Token}
    (hb : Balances b.manager.config.mode initial b.token b.manager.sent b.manager.paid) :
    Balances after.manager.config.mode initial after.token after.manager.sent
      after.manager.paid := by
  cases h with
  | refused => exact hb
  | repeated => exact hb
  | moved hmoves =>
    rw [hmoves.config, hmoves.sent_eq, hmoves.paid_eq]
    -- A transfer counts as given from the moment its recipient is paid.
    rcases hmoves.payment with ⟨hreleased, _, _, amount, huntrim, hcredit⟩ | ⟨hnot, _, htoken⟩
    · rw [InboxItem.given, if_pos hreleased, TrimmedAmount.worth_eq huntrim]
      exact hb.credit hcredit
    · rw [InboxItem.given, if_neg hnot, htoken]
      exact hb
  | @transferred _ _ plan token hsends hdebit =>
    show Balances b.manager.config.mode initial token (b.manager.recordTransfer plan).sent
      b.manager.paid
    rw [sent_recordTransfer hsends hfresh]
    exact hb.debit hdebit
  | @waiting _ _ sequence _ _ item' _ _ _ hitem _ hwaits =>
    show Balances b.manager.config.mode initial b.token
      (b.manager.recordOutbound sequence item').sent b.manager.paid
    rw [sent_waiting hitem hwaits]
    exact hb
  | @pickedUp _ _ sequence _ _ _ item' outboundLimit inboundLimit _ _ _ _ hitem _ hout =>
    show Balances b.manager.config.mode initial b.token
      (b.manager.recordPickUp sequence item' outboundLimit inboundLimit).sent b.manager.paid
    rw [sent_pickedUp hitem hout]
    exact hb
  | cancelled hitem _ hcancelled _ hrefund hcredit =>
    exact hb.refund hcredit (sent_cancelled hitem hcancelled hrefund)
  | @configured _ _ m _ _ hconfigures =>
    show Balances m.config.mode initial b.token m.sent m.paid
    rw [hconfigures.config.mode, hconfigures.sent_eq, hconfigures.paid_eq]
    exact hb
  | external => exact hcall.elim

/-- What was paid is worth something that fits. -/
theorem Transition.payouts (h : Transition b now action outcome after)
    (hb : ∀ digest item, b.manager.inbox.get? digest = some item → item.status = .released →
      ∃ amount, item.amount.untrim b.manager.config.tokenDecimals = .ok amount)
    {digest : Digest} {item : InboxItem} (hitem : after.manager.inbox.get? digest = some item)
    (hreleased : item.status = .released) :
    ∃ amount, item.amount.untrim after.manager.config.tokenDecimals = .ok amount := by
  rw [h.akin.tokenDecimals]
  rcases h.inbox_eq_or_moves with hinbox | ⟨moved, _, new, _, _, hmoves⟩
  · exact hb digest item (hinbox ▸ hitem) hreleased
  · rw [hmoves.inbox, SortedMap.get?_insert_eq_some] at hitem
    rcases hitem with ⟨rfl, rfl⟩ | ⟨_, hitem⟩
    · rcases hmoves.payment with ⟨_, _, _, amount, huntrim, _⟩ | ⟨hnot, _⟩
      · exact ⟨amount, huntrim⟩
      · exact absurd hreleased hnot
    · exact hb digest item hitem hreleased

/-! ## §4 Runs -/

/-- The invariant: the outbox records the steps, what was paid fits, and the token accounts for
both. -/
structure Reconciles (initial : Token) (history : List Step) (b : Book) : Prop where
  records : Records history b
  payouts : ∀ digest item, b.manager.inbox.get? digest = some item → item.status = .released →
    ∃ amount, item.amount.untrim b.manager.config.tokenDecimals = .ok amount
  balances : Balances b.manager.config.mode initial b.token b.manager.sent b.manager.paid

theorem Reconciles.step {initial : Token} {history : List Step} (h : Reconciles initial history b)
    (event : Event) (hcall : event.action.IsCall) :
    Reconciles initial (history ++ [b.step event]) (b.step event).after where
  records := h.records.step event
  payouts _ _ := (b.step_transition event).payouts h.payouts
  balances := (b.step_transition event).balances hcall h.records.fresh h.balances

namespace Book

theorem reconciles_nil (hfresh : b.Fresh) (hcovered : b.token.held ≤ b.token.supply.toNat) :
    Reconciles b.token [] b := by
  obtain ⟨hinbox, houtbox⟩ := hfresh.empty
  have hsent : b.manager.sent = 0 := by rw [Manager.sent, houtbox, SortedMap.total_empty]
  have hpaid : b.manager.paid = 0 := by rw [Manager.paid, hinbox, SortedMap.total_empty]
  refine ⟨records_nil houtbox, fun digest item h => ?_, ?_⟩
  · rw [hinbox, SortedMap.get?_empty] at h
    cases h
  · rw [hsent, hpaid]
    refine ⟨rfl, ?_⟩
    cases b.manager.config.mode with
    | locking => exact ⟨rfl, rfl⟩
    | burning => exact ⟨rfl, rfl, hcovered⟩

theorem reconciles (hfresh : b.Fresh) (hcovered : b.token.held ≤ b.token.supply.toNat)
    {events : List Event} (hcalls : ∀ event ∈ events, event.action.IsCall) :
    Reconciles b.token (b.trace events) (b.run events) :=
  run_induction_of (reconciles_nil hfresh hcovered)
    (fun _ _ event hcall h => h.step event hcall) fun _ hs => hcalls _ (event_mem hs)

/-- **Ledger reconciliation**: let a manager be created for a token whose supply covers all
balances, and let nobody else use the token. After every run of calls, whoever makes them, with
whatever arguments and times, and whether they succeed or fail, each outbound transfer that was not
taken back and each inbound transfer that was released is worth an amount that fits, and

* when tokens are locked, the custody is what it was, plus what was sent, less what was paid, and
  the supply is what it was;
* when tokens are burned, the supply is what it was, less what was sent, plus what was paid, and
  the custody is what it was;
* the holders together have what they had, plus what was paid, less what was sent. -/
theorem reconciled (hfresh : b.Fresh) (hcovered : b.token.held ≤ b.token.supply.toNat)
    (events : List Event) (hcalls : ∀ event ∈ events, event.action.IsCall) :
    (∀ sequence item, (b.run events).manager.outbox.get? sequence = some item →
      item.cancelled = false →
        ∃ amount, item.amount.untrim b.manager.config.tokenDecimals = .ok amount) ∧
    (∀ digest item, (b.run events).manager.inbox.get? digest = some item →
      item.status = .released →
        ∃ amount, item.amount.untrim b.manager.config.tokenDecimals = .ok amount) ∧
    (match b.manager.config.mode with
      | .locking =>
        ((b.run events).token.custody.toNat : ℤ) = b.token.custody.toNat +
            (b.run events).manager.sent - (b.run events).manager.paid ∧
          (b.run events).token.supply = b.token.supply
      | .burning =>
        ((b.run events).token.supply.toNat : ℤ) = b.token.supply.toNat -
            (b.run events).manager.sent + (b.run events).manager.paid ∧
          (b.run events).token.custody = b.token.custody) ∧
    ((b.run events).token.held : ℤ) - b.token.held =
      (b.run events).manager.paid - (b.run events).manager.sent := by
  -- The mode and the decimals are those of the beginning.
  have hakin := b.run_akin events
  obtain ⟨hrecords, hpayouts, hheld, hmode⟩ := reconciles hfresh hcovered hcalls
  rw [hakin.tokenDecimals] at hpayouts
  rw [hakin.mode] at hmode
  refine ⟨fun sequence item hitem _ => ?_, hpayouts, ?_, by omega⟩
  · obtain ⟨_, _, ⟨_, _, receipt, _, _, _, huntrim⟩, _⟩ := hrecords.entries sequence item hitem
    exact ⟨receipt.debited, hakin.tokenDecimals ▸ huntrim⟩
  · cases hm : b.manager.config.mode with
    | locking =>
      rw [hm] at hmode
      exact ⟨by have hcustody := hmode.1; omega, hmode.2⟩
    | burning =>
      rw [hm] at hmode
      exact ⟨by have hsupply := hmode.1; omega, hmode.2.1⟩

end Book

namespace Sample

/-- On the first chain all that was sent is in custody. -/
theorem home_reconciled :
    (home.run homeEvents).manager.sent = 123456700 ∧ (home.run homeEvents).manager.paid = 0 ∧
      ((home.run homeEvents).token.custody.toNat : ℤ) = home.token.custody.toNat + 123456700 := by
  have hmode : home.manager.config.mode = .locking := by decide +kernel
  have hsent : (home.run homeEvents).manager.sent = 123456700 := by decide +kernel
  have hpaid : (home.run homeEvents).manager.paid = 0 := by decide +kernel
  have hcalls : ∀ event ∈ homeEvents, event.action.IsCall := by
    simp [homeEvents, Action.IsCall]
  obtain ⟨_, _, hcustody, _⟩ :=
    Book.reconciled home_fresh (by decide +kernel) homeEvents hcalls
  rw [hmode, hsent, hpaid] at hcustody
  exact ⟨hsent, hpaid, by simpa using hcustody.1⟩

end Sample

end CrossChain
