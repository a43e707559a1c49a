import CrossChain.Proofs.Calls
import CrossChain.Proofs.Outbound
import CrossChain.Proofs.Quorum
import CrossChain.Proofs.Queue

/-!
# A queued transfer is never stuck

A transfer waits until someone calls for it. Should that call fail for good the tokens would be
lost, so every lookup, every conversion of the amount and every set of transceivers on its way has
to work out, also for an amount above the limit and whatever happened to the limits and the
transceivers in the meantime.

Each of the calls is first computed as a whole: it comes down to what the gate says, and after that
to what the token says.

## Main statements

* `Manager.planPickUp_of_queued`, `Manager.planCancel_of_queued`,
  `Manager.planReleaseInbound_of_queued`: the checks of the three calls.
* `Book.OutboundProceeds`, `Book.InboundProceeds`: what can be done about a transfer that waits.
* `Book.queue_proceeds`: runs.
-/

namespace CrossChain

/-! ## §1 Plans -/

namespace Manager

variable {m : Manager} {now time : Timestamp} {t : Transceiver}

/-- The limit on transfers from the chain of a peer. -/
theorem Metered.inboundLimit_of_peer (h : m.Metered) {chain : ChainId}
    (hpeer : ∃ peer, m.peers.get? chain = some peer) :
    ∃ limit, m.inboundLimits.get? chain = some limit := by
  obtain ⟨peer, hpeer⟩ := hpeer
  have hsome := (h.keys chain).mpr (Option.isSome_iff_exists.mpr ⟨peer, hpeer⟩)
  exact Option.isSome_iff_exists.mp hsome

/-- A transceiver that has not picked up a transfer gets it once it has passed. -/
theorem tryRelease_of_released (ht : m.Enables t) (item : OutboxItem)
    (hstatus : item.status = .released) (hcancelled : item.cancelled = false)
    (hnot : ¬ item.released.Mem t.id) :
    ∃ released, item.tryRelease t.id = .ok (some { item with released }) := by
  obtain ⟨released, hset⟩ := Bitmap.set?_of_mem ht.2 item.released true
  refine ⟨released, ?_⟩
  simp only [OutboxItem.tryRelease, hcancelled, hstatus, Bitmap.get?_eq_false ht.2 hnot, hset]
  rfl

/-- **Picking up a transfer that waits** comes down to what its gate says. -/
theorem planPickUp_of_queued (now : Timestamp) (hlimits : m.Metered)
    (hrunning : m.config.paused = false) (ht : m.Enables t) {sequence : UInt64} {item : OutboxItem}
    (hitem : m.outbox.get? sequence = some item) (hproper : item.ProperFor m)
    (hcounts : item.amount.CountsIn m.precision) (hcancelled : item.cancelled = false)
    (hqueued : item.status = .queued time) (strict : Bool) :
    ∃ limit result gate,
      Gate.Passes ⟨item.status, m.outboundLimit, some limit⟩ item.amount now true result gate ∧
      ((result = .released ∧ ∃ item' outboundLimit inboundLimit,
          m.planPickUp t.address now sequence strict =
            .ok (.released item' outboundLimit inboundLimit (m.outboundRelease item t.id))) ∨
        (result ≠ .released ∧ (m.planPickUp t.address now sequence strict = .error .cantReleaseYet ∨
          ∃ item', m.planPickUp t.address now sequence strict = .ok (.waiting item')))) := by
  obtain ⟨limit, hlimit⟩ := hlimits.inboundLimit_of_peer hproper.peer
  have hregular := hlimits.inbound _ limit hlimit
  obtain ⟨result, gate, hgate⟩ := Gate.pass_of_queued
    ⟨item.status, m.outboundLimit, some limit⟩ now hqueued (.of_limits hlimits.outbound hregular)
    hcounts
  have hpasses := Gate.passes_of_pass hgate
  have hadvance : m.advanceQueued item limit now = .ok (result, gate) := by
    simp only [hqueued] at hgate
    simp only [advanceQueued, hqueued, hgate]
  refine ⟨limit, result, gate, hpasses, ?_⟩
  -- Every check before the gate succeeds.
  have running : m.config.requireRunning = .ok () := requireRunning_eq_ok.mpr hrunning
  simp only [planPickUp, running, ht.enabledTransceiver,
    outboxItem_eq_ok.mpr hitem, hcancelled, inboundLimit_eq_ok.mpr hlimit, hadvance, ok_bind,
    Bool.false_eq_true, if_false]
  cases result with
  | alreadyReleased =>
    cases hpasses with
    | already hreleased => cases hqueued.symm.trans hreleased
  | queued later =>
    refine .inr ⟨by simp, ?_⟩
    cases strict with
    | true => exact .inl rfl
    | false => exact .inr ⟨_, rfl⟩
  | released =>
    refine .inl ⟨rfl, ?_⟩
    -- Nobody has picked up a transfer that waits.
    have hnot : ¬ item.released.Mem t.id := by
      intro hmem
      cases hqueued.symm.trans (hproper.released _ hmem).1
    obtain ⟨released, hhanded⟩ := tryRelease_of_released ht
      { item with status := gate.status } hpasses.released.1 hcancelled hnot
    simp only [hcancelled] at hhanded
    simp only [hhanded, ok_bind]
    exact ⟨_, _, _, rfl⟩

/-- **Taking a transfer back** that waits. -/
theorem planCancel_of_queued (hrunning : m.config.paused = false) {sequence : UInt64}
    {item : OutboxItem} {refund : UInt64} (hitem : m.outbox.get? sequence = some item)
    (hcancelled : item.cancelled = false) (hqueued : item.status = .queued time)
    (hrefund : item.amount.untrim m.config.tokenDecimals = .ok refund) :
    m.planCancel item.sender sequence = .ok (item, refund) := by
  have running : m.config.requireRunning = .ok () := requireRunning_eq_ok.mpr hrunning
  simp only [planCancel, running, outboxItem_eq_ok.mpr hitem, hcancelled,
    hqueued, hrefund, ok_bind, ne_eq, not_true_eq_false, Bool.false_eq_true, if_false]
  rfl

/-- **Releasing an inbound transfer that waits** comes down to what its gate says. -/
theorem planReleaseInbound_of_queued (now : Timestamp) (hlimits : m.Metered)
    (hrunning : m.config.paused = false) {digest : Digest} {item : InboxItem}
    (hitem : m.inbox.get? digest = some item) (happroved : item.approved = true)
    (hqueued : item.status = .queued time)
    (hcounts : item.amount.CountsIn m.precision) {limit : RateLimit}
    (hlimit : m.inboundLimits.get? item.sourceChain = some limit) {payout : UInt64}
    (hpayout : payout.toNat = item.amount.nominal m.config.tokenDecimals) :
    ∃ result gate, ∃ s : Settlement,
      Gate.Passes ⟨item.status, limit, some m.outboundLimit⟩ item.amount now true result gate ∧
      m.planReleaseInbound now digest = .ok (some s) ∧
      ((result = .released ∧ s.payout = some payout ∧ s.item.recipient = item.recipient ∧
          s.advance = .released) ∨
        (result ≠ .released ∧ s.payout = none)) := by
  have hregular := hlimits.inbound _ limit hlimit
  obtain ⟨result, gate, hgate⟩ := Gate.pass_of_queued
    ⟨item.status, limit, some m.outboundLimit⟩ now hqueued (.of_limits hregular hlimits.outbound)
    hcounts
  have hpasses := Gate.passes_of_pass hgate
  have huntrim : item.amount.untrim m.config.tokenDecimals = .ok payout :=
    TrimmedAmount.untrim_of_nominal hcounts (Nat.min_le_right _ _) hpayout
  have running : m.config.requireRunning = .ok () := requireRunning_eq_ok.mpr hrunning
  have hwaits : ¬ item.status = .released := by simp [hqueued]
  -- Every check succeeds, and the gate decides.
  simp only [planReleaseInbound, running, inboxItem_eq_ok.mpr hitem,
    hwaits, InboxItem.tryApprove_of_approved happroved, happroved, settleInbound,
    inboundLimit_eq_ok.mpr hlimit, hgate, ok_bind]
  cases result with
  | alreadyReleased =>
    cases hpasses with
    | already hreleased => cases hqueued.symm.trans hreleased
  | queued later => exact ⟨.queued later, gate, _, hpasses, rfl, .inr ⟨by simp, rfl⟩⟩
  | released =>
    simp only [huntrim]
    exact ⟨.released, gate, _, hpasses, rfl, .inl ⟨rfl, rfl, rfl, rfl⟩⟩

end Manager

/-! ## §2 What becomes of the queue -/

namespace Book

/-- What can be done about an outbound transfer that waits until a time. -/
structure OutboundProceeds (b : Book) (sequence : UInt64) (item : OutboxItem) (time : Timestamp) :
    Prop where
  /-- Once its time has come and the limit has rested, each enabled transceiver gets the message. -/
  handedOut : ∀ t now strict, b.manager.Enables t → time ≤ now →
    b.manager.outboundLimit.Rested now →
      ∃ m, Call.releaseOutbound t.address now sequence strict b =
        .ok (some (b.manager.outboundRelease item t.id)) { b with manager := m }
  /-- At any time it is refused only because it has to wait. -/
  waits : ∀ t now strict e after, b.manager.Enables t →
    Call.releaseOutbound t.address now sequence strict b = .error e after → e = .cantReleaseYet
  /-- Its sender gets the tokens back at any time, provided that they can be paid. -/
  refunded : ∃ refund, item.amount.untrim b.manager.config.tokenDecimals = .ok refund ∧
    ∀ token, Token.credit b.manager.config.mode item.sender refund b.token = .ok () token →
      ∃ m, Call.cancelOutbound item.sender sequence b = .ok refund ⟨m, token⟩
  /-- Only the token refuses to take it back. -/
  kept : ∀ e after, Call.cancelOutbound item.sender sequence b = .error e after →
    ∃ reason, e = .token reason

/-- What can be done about an inbound transfer that waits until a time. -/
structure InboundProceeds (b : Book) (digest : Digest) (item : InboxItem) (time : Timestamp) :
    Prop where
  /-- Once its time has come and the limit of its chain has rested, anyone gets the recipient paid,
  provided that the amount fits a word and can be paid. -/
  paid : ∃ limit, b.manager.inboundLimits.get? item.sourceChain = some limit ∧
    ∀ now strict (payout : UInt64) token, time ≤ now → limit.Rested now →
      payout.toNat = item.amount.nominal b.manager.config.tokenDecimals →
      Token.credit b.manager.config.mode item.recipient payout b.token = .ok () token →
        ∃ m, Call.releaseInbound now digest strict b = .ok .released ⟨m, token⟩
  /-- At any time it is refused only because it has to wait, or by the token. -/
  waits : ∀ now strict (payout : UInt64) e after,
    payout.toNat = item.amount.nominal b.manager.config.tokenDecimals →
      Call.releaseInbound now digest strict b = .error e after →
        e = .cantReleaseYet ∨ ∃ reason, e = .token reason

/-- No transfer that waits is stuck. -/
structure QueueProceeds (b : Book) : Prop where
  outbound : ∀ sequence item time, b.manager.outbox.get? sequence = some item →
    item.cancelled = false → item.status = .queued time → b.OutboundProceeds sequence item time
  inbound : ∀ digest item time, b.manager.inbox.get? digest = some item →
    item.status = .queued time → b.InboundProceeds digest item time

variable {b : Book} {time : Timestamp}

/-- **An outbound transfer that waits** proceeds from a sound manager that is running. -/
theorem outboundProceeds (hsound : b.manager.Sound) (hrunning : b.manager.config.paused = false)
    {sequence : UInt64} {item : OutboxItem} (hitem : b.manager.outbox.get? sequence = some item)
    {refund : UInt64} (hrefund : item.amount.untrim b.manager.config.tokenDecimals = .ok refund)
    (hcancelled : item.cancelled = false) (hqueued : item.status = .queued time) :
    b.OutboundProceeds sequence item time := by
  have hproper := hsound.outbox.items sequence item hitem
  have hcounts : item.amount.CountsIn b.manager.precision :=
    TrimmedAmount.countsIn_of_untrim hrefund hproper.amount hproper.decimals (Nat.min_le_right _ _)
  have hcancel := Manager.planCancel_of_queued hrunning hitem hcancelled hqueued hrefund
  constructor
  · intro t now strict ht htime hrested
    obtain ⟨limit, result, gate, hpasses, hplan⟩ := Manager.planPickUp_of_queued now
      hsound.limits hrunning ht hitem hproper hcounts hcancelled hqueued strict
    have hduration := hsound.limits.duration_pos hsound.limits.outbound
    -- The limit is full by now, so the gate lets the transfer pass, whatever its amount.
    have hreleased := hpasses.released_of_rested hqueued htime hduration hrested
    rcases hplan with ⟨_, item', outboundLimit, inboundLimit, hplan⟩ | ⟨hnot, _⟩
    · rw [Call.releaseOutbound_eq, hplan]
      exact ⟨_, rfl⟩
    · exact absurd hreleased hnot
  · intro t now strict e after ht herror
    obtain ⟨_, _, _, _, hplan⟩ := Manager.planPickUp_of_queued now
      hsound.limits hrunning ht hitem hproper hcounts hcancelled hqueued strict
    rw [Call.releaseOutbound_eq] at herror
    -- Of the three plans, only the refusal to wait fails.
    rcases hplan with ⟨_, _, _, _, hplan⟩ | ⟨_, hplan | ⟨_, hplan⟩⟩ <;> rw [hplan] at herror <;>
      cases herror
    rfl
  · refine ⟨refund, hrefund, fun token hcredit => ?_⟩
    rw [Call.cancelOutbound_eq, hcancel]
    simp only [hcredit]
    exact ⟨_, rfl⟩
  · intro e after herror
    rw [Call.cancelOutbound_eq, hcancel] at herror
    simp only at herror
    split at herror <;> cases herror
    exact ⟨_, rfl⟩

/-- **An inbound transfer that waits** proceeds from a sound manager that is running. -/
theorem inboundProceeds (hsound : b.manager.Sound) (hqueue : b.manager.QueueCounts)
    (hrunning : b.manager.config.paused = false) {digest : Digest} {item : InboxItem}
    (hitem : b.manager.inbox.get? digest = some item) (hqueued : item.status = .queued time) :
    b.InboundProceeds digest item time := by
  have hproper := hsound.inbox digest item hitem
  have hcounts := hqueue digest item hitem ⟨time, hqueued⟩
  obtain ⟨limit, hlimit⟩ := hsound.limits.inboundLimit_of_peer hproper.peer
  -- A transfer that waits was approved.
  have happroved : item.approved = true := by
    rcases hproper.stage with ⟨_, hnot⟩ | ⟨happroved, _⟩
    · cases hqueued.symm.trans hnot
    · exact happroved
  constructor
  · refine ⟨limit, hlimit, fun now strict payout token htime hrested hpayout hcredit => ?_⟩
    obtain ⟨result, gate, s, hpasses, hplan, hresult⟩ := Manager.planReleaseInbound_of_queued now
      hsound.limits hrunning hitem happroved hqueued hcounts hlimit hpayout
    have hduration := hsound.limits.duration_pos (hsound.limits.inbound _ limit hlimit)
    have hreleased := hpasses.released_of_rested hqueued htime hduration hrested
    rcases hresult with ⟨_, hs, hrecipient, hadvance⟩ | ⟨hnot, _⟩
    · have hpasses : s.waits = false := by rw [Settlement.waits, hadvance]
      rw [Call.releaseInbound_eq, hplan]
      simp only [Call.pay_eq, hs, hrecipient, hcredit, hadvance, hpasses, Bool.and_false]
      exact ⟨_, rfl⟩
    · exact absurd hreleased hnot
  · intro now strict payout e after hpayout herror
    obtain ⟨_, _, s, _, hplan, hresult⟩ := Manager.planReleaseInbound_of_queued now
      hsound.limits hrunning hitem happroved hqueued hcounts hlimit hpayout
    rw [Call.releaseInbound_eq, hplan] at herror
    simp only at herror
    rcases hresult with ⟨_, hs, _, hadvance⟩ | ⟨_, hs⟩
    · -- A transfer that passes fails only on the payment.
      have hpasses : s.waits = false := by rw [Settlement.waits, hadvance]
      simp only [Call.pay_eq, hs, hpasses, Bool.and_false] at herror
      cases hcredit : Token.credit b.manager.config.mode s.item.recipient payout b.token with
      | error reason token =>
        rw [hcredit] at herror
        cases herror
        exact .inr ⟨reason, rfl⟩
      | ok _ token =>
        rw [hcredit] at herror
        cases herror
    · -- One that waits pays nothing.
      simp only [Call.pay_eq, hs] at herror
      split at herror <;> cases herror
      exact .inl rfl

/-- **A queued transfer is never stuck.** Whatever has happened to a new manager, as long as it is
not paused:

* an outbound transfer that waits and was not taken back is handed to every enabled transceiver
  that asks for it once its time has come and the limit has been left alone for its duration,
  however large the amount is; and its sender may take it back before, provided that the refund can
  be paid;
* an inbound transfer that waits is paid once its time has come and the limit of its chain has been
  left alone for its duration, provided that its amount fits a word in the decimals of the token and
  can be paid.

At no time do these calls fail for another reason than that the transfer has to wait or that the
token cannot be paid: every limit, every conversion and every set of transceivers on their way is in
order. -/
theorem queue_proceeds (hfresh : b.Fresh) (events : List Event)
    (hrunning : (b.run events).manager.config.paused = false) : (b.run events).QueueProceeds := by
  have hsound := hfresh.sound_run events
  constructor
  · intro sequence item time hitem hcancelled hqueued
    -- The sender was charged for the amount, so it can be expressed in the precision of the token.
    obtain ⟨_, _, receipt, _, _, _, hrefund⟩ :=
      ((Book.records hfresh events).entries sequence item hitem).sent
    exact outboundProceeds hsound hrunning hitem hrefund hcancelled hqueued
  · intro digest item time hitem hqueued
    exact inboundProceeds hsound (hfresh.queueCounts_run events) hrunning hitem hqueued

end Book

namespace Sample

/-- A transfer from the first chain is above the limit of the second and queued until 103. -/
def delayedEvents : List Event :=
  [⟨0, .execute (address 9) (.registerTransceiver (address 31))⟩,
   ⟨0, .execute (address 9) (.setPeer ⟨⟨1⟩, address 11, 1000000, 9⟩)⟩,
   ⟨3, .redeem (address 31) ⟨1⟩ delivery⟩]

theorem delayed_proceeds :
    home.Fresh ∧ (home.run queuedEvents).QueueProceeds ∧
      (((home.run queuedEvents).manager.outbox.get? 0).map fun item =>
        (item.status, item.cancelled)) = some (.queued 101, false) ∧
      away.Fresh ∧ (away.run delayedEvents).QueueProceeds ∧
      ((away.run delayedEvents).manager.inbox.toList.map fun entry =>
        (entry.2.status, entry.2.amount.nominal 7)) = [(.queued 103, 1234567)] :=
  ⟨home_fresh, Book.queue_proceeds home_fresh queuedEvents (by decide +kernel), by decide +kernel,
    away_fresh, Book.queue_proceeds away_fresh delayedEvents (by decide +kernel), by decide +kernel⟩

end Sample

end CrossChain
