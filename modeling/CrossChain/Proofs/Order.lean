import CrossChain.Proofs.Atomicity
import CrossChain.Proofs.Calls
import CrossChain.Proofs.Quorum
import CrossChain.Proofs.Registry

/-!
# The order of attestations

Several transceivers redeem one message, and the one whose vote completes the quorum is the one
whose call approves the transfer and pays it. Which of them that is depends on the order of the
calls, and nothing else does: a call looks at the number of votes and at the number of those that
are enabled, never at whose they are.

Two books are followed side by side that differ in the votes for one message only, and have the same
numbers of them. Such books stay alike when one transceiver redeems the message on the first and
another on the second, as long as neither has voted before.

## Main statements

* `Manager.planVote_withVotes`: what a vote comes to, whoever casts it.
* `Book.Alike`, `Book.Alike.redeem`, `Book.Alike.run`: books that differ in votes only, and that a
  redemption on either side keeps them so.
* `Book.votes_of_attestations`: the votes after a run.
* `Book.order_irrelevant`: any two orders.
-/

namespace CrossChain

/-! ## §1 Sets of votes -/

namespace Bitmap

variable {s s' t t' enabled : Bitmap} {id other : UInt8}

theorem count_set? (hset : s.set? id true = some s') (hnot : ¬ s.Mem id) :
    s'.count = s.count + 1 := by
  have hmembers : s'.members = insert id s.members := by
    ext other
    rw [Finset.mem_insert, mem_members, mem_members, mem_set? hset]
  rw [count_eq_card, count_eq_card, hmembers, Finset.card_insert_of_notMem]
  exact fun h => hnot (mem_members.mp h)

theorem countCommon_set? (hset : s.set? id true = some s') (hnot : ¬ s.Mem id)
    (hid : enabled.Mem id) : s'.countCommon enabled = s.countCommon enabled + 1 := by
  -- The id is enabled, so it is new among the enabled votes as well.
  have hmembers : (s'.inter enabled).members = insert id (s.inter enabled).members := by
    ext other
    rw [Finset.mem_insert, mem_members, mem_members, mem_inter, mem_inter, mem_set? hset]
    constructor
    · rintro ⟨rfl | hmem, henabled⟩
      · exact .inl rfl
      · exact .inr ⟨hmem, henabled⟩
    · rintro (rfl | ⟨hmem, henabled⟩)
      · exact ⟨.inl rfl, hid⟩
      · exact ⟨.inr hmem, henabled⟩
  rw [countCommon, countCommon, count_eq_card, count_eq_card, hmembers,
    Finset.card_insert_of_notMem]
  exact fun h => hnot (mem_inter.mp (mem_members.mp h)).1

/-- Two sets of votes with the same numbers, of all of them and of those that are enabled. -/
structure Matches (enabled s t : Bitmap) : Prop where
  count : t.count = s.count
  common : t.countCommon enabled = s.countCommon enabled

theorem Matches.refl (enabled s : Bitmap) : enabled.Matches s s := ⟨rfl, rfl⟩

/-- **One more vote on either side**, of transceivers that are enabled and have not voted. -/
theorem Matches.set? (h : enabled.Matches s t) (hs : s.set? id true = some s')
    (ht : t.set? other true = some t') (hid : enabled.Mem id) (hother : enabled.Mem other)
    (hnots : ¬ s.Mem id) (hnott : ¬ t.Mem other) : enabled.Matches s' t' where
  count := by rw [count_set? hs hnots, count_set? ht hnott, h.count]
  common := by rw [countCommon_set? hs hnots hid, countCommon_set? ht hnott hother, h.common]

end Bitmap

namespace InboxItem

variable {id : UInt8} {enabled votes : Bitmap}

/-- The vote of an enabled transceiver that has not voted. -/
theorem attest_of_new (item : InboxItem) (hid : enabled.Mem id) (hnot : ¬ item.votes.Mem id) :
    ∃ votes, item.votes.set? id true = some votes ∧ item.attest id = .ok { item with votes } := by
  obtain ⟨votes, hset⟩ := Bitmap.set?_of_mem hid item.votes true
  refine ⟨votes, hset, ?_⟩
  simp only [attest, Bitmap.get?_eq_false hid hnot, hset]

/-- The approval looks at the numbers of votes only. -/
theorem tryApprove_withVotes (item : InboxItem) (h : enabled.Matches item.votes votes)
    (threshold : UInt8) :
    tryApprove { item with votes } threshold enabled =
      { item.tryApprove threshold enabled with votes } := by
  simp only [tryApprove, h.common]
  split <;> rfl

end InboxItem

/-! ## §2 Plans -/

/-- A settlement with other votes. -/
def Settlement.withVotes (s : Settlement) (votes : Bitmap) : Settlement :=
  { s with item := { s.item with votes } }

namespace Manager

/-- A plan with other votes. -/
def RedeemPlan.withVotes (votes : Bitmap) : RedeemPlan → RedeemPlan
  | .done count => .done count
  | .voted item => .voted { item with votes }
  | .settled s => .settled (s.withVotes votes)

/-- What a plan records are these votes, if it records any. -/
def RedeemPlan.Records (votes : Bitmap) : RedeemPlan → Prop
  | .done _ => True
  | .voted item => item.votes = votes
  | .settled s => s.item.votes = votes

variable {m n : Manager} {now : Timestamp} {source : ChainId} {digest : Digest}
  {delivery : Delivery TokenTransfer}

/-- The votes for a message. -/
def votes (m : Manager) (digest : Digest) : Bitmap :=
  ((m.inbox.get? digest).map InboxItem.votes).getD .empty

theorem votes_inbound (m : Manager) (source : ChainId) (delivery : Delivery TokenTransfer)
    (digest : Digest) : (m.inbound source delivery digest).votes = m.votes digest := by
  unfold inbound votes
  cases m.inbox.get? digest <;> rfl

/-- Moving a transfer on does not look at its votes. -/
theorem settleInbound_withVotes (m : Manager) (chain : ChainId) (item : InboxItem)
    (votes : Bitmap) (now : Timestamp) :
    m.settleInbound chain { item with votes } now =
      (·.withVotes votes) <$> m.settleInbound chain item now := by
  -- Both go through the same gate, so they fail together at each of its steps.
  simp only [settleInbound]
  cases m.inboundLimit chain with
  | error e => rfl
  | ok limit =>
    simp only [ok_bind]
    cases Gate.pass ⟨item.status, limit, some m.outboundLimit⟩ item.amount now true with
    | error e => rfl
    | ok passed =>
      obtain ⟨advance, gate⟩ := passed
      simp only [ok_bind]
      split
      · cases item.amount.untrim m.config.tokenDecimals <;> rfl
      · rfl

/-- What a vote comes to, for an inbound transfer as it stands. -/
def planVote (m : Manager) (id : UInt8) (now : Timestamp) (source : ChainId) (item : InboxItem) :
    Except CallError RedeemPlan := do
  if item.status = .released then return .done item.voteCount
  let item ← item.attest id
  let item := item.tryApprove m.config.threshold m.config.enabled
  if !item.approved then return .voted item
  let settlement ← m.settleInbound source item now
  return .settled settlement

/-- Redeeming a message is the vote of the caller, once the checks have passed. -/
theorem planRedeem_eq {t : Transceiver} (ht : m.Enables t) (now : Timestamp) (source : ChainId)
    (delivery : Delivery TokenTransfer) :
    m.planRedeem t.address now source delivery = (do
      m.config.requireRunning
      let digest ← m.identify source delivery
      (digest, ·) <$> m.planVote t.id now source (m.inbound source delivery digest)) := by
  simp only [planRedeem, ht.enabledTransceiver, ok_bind]
  cases m.config.requireRunning with
  | error e => rfl
  | ok _ =>
    simp only [ok_bind]
    cases m.identify source delivery with
    | error e => rfl
    | ok digest =>
      -- From here on the plan does not depend on who calls, but for the id.
      simp only [ok_bind]
      show _ = (digest, ·) <$> m.planVote t.id now source (m.inbound source delivery digest)
      rw [← inbound]
      generalize m.inbound source delivery digest = item
      by_cases hreleased : item.status = .released
      · simp only [planVote, hreleased, if_true]
        rfl
      · simp only [planVote, hreleased, if_false]
        cases item.attest t.id with
        | error e => rfl
        | ok voted =>
          simp only [ok_bind]
          cases (voted.tryApprove m.config.threshold m.config.enabled).approved with
          | false => rfl
          | true => cases m.settleInbound source _ now <;> rfl

/-- Helper: what is recorded has the votes that there are with the one that was cast. -/
private theorem records_of_planVote {item : InboxItem} {id : UInt8} {voted : Bitmap}
    (hattest : item.attest id = .ok { item with votes := voted }) {plan : RedeemPlan}
    (h : m.planVote id now source item = .ok plan) : plan.Records voted := by
  obtain ⟨_, _, _, hvotes⟩ := InboxItem.tryApprove_frame { item with votes := voted }
    m.config.threshold m.config.enabled
  simp only [planVote, hattest, ok_bind] at h
  -- The transfer was released before, or it has to wait for more votes, or it is moved on. A plan
  -- of the first kind records nothing.
  split at h
  next =>
    cases h
    trivial
  next =>
    split at h
    next =>
      cases h
      exact hvotes
    next =>
      -- Moving it on changes its status and nothing else.
      simp only [bind_eq_ok, pure_eq_ok] at h
      obtain ⟨s, hs, rfl⟩ := h
      obtain ⟨_, _, _, _, hitem, _⟩ := (settleInbound_settles hs).gate
      show s.item.votes = voted
      rw [hitem]
      exact hvotes

/-- **A vote, whoever casts it.** Two enabled transceivers that have not voted, on two transfers
that differ in their votes and have the same numbers of them: the plans differ in the votes, and the
numbers are the same again. -/
theorem planVote_withVotes {item : InboxItem} {votes : Bitmap} {id other : UInt8}
    (h : m.config.enabled.Matches item.votes votes) (hid : m.config.enabled.Mem id)
    (hother : m.config.enabled.Mem other) (hnot : ¬ item.votes.Mem id)
    (hnot' : ¬ votes.Mem other) (now : Timestamp) (source : ChainId) :
    ∃ voted voted', m.config.enabled.Matches voted voted' ∧
      (∀ plan, m.planVote id now source item = .ok plan → plan.Records voted) ∧
      m.planVote other now source { item with votes } =
        (·.withVotes voted') <$> m.planVote id now source item := by
  -- Either vote is new on its side, so the numbers grow by one on both.
  obtain ⟨voted, hset, hattest⟩ := InboxItem.attest_of_new item hid hnot
  obtain ⟨voted', hset', hattest'⟩ :=
    InboxItem.attest_of_new { item with votes } hother hnot'
  have hmatches := h.set? hset hset' hid hother hnot hnot'
  refine ⟨voted, voted', hmatches, fun plan => records_of_planVote hattest, ?_⟩
  have happroval := InboxItem.tryApprove_withVotes { item with votes := voted }
    hmatches m.config.threshold
  by_cases hreleased : item.status = .released
  · -- Only the number of votes is told, which is the same.
    simp only [planVote, hreleased, if_true, InboxItem.voteCount, h.count]
    rfl
  · -- The approval compares numbers and the gate looks at no votes, so the plans are of one kind.
    simp only [planVote, hreleased, if_false, hattest, hattest', ok_bind, happroval,
      settleInbound_withVotes]
    generalize InboxItem.tryApprove _ m.config.threshold m.config.enabled = item'
    by_cases hshort : (!item'.approved) = true
    · simp only [hshort, if_true]
      rfl
    · simp only [hshort]
      cases m.settleInbound source item' now <;> rfl

/-! ## §3 Alike books -/

/-- A manager that differs from another in the votes for a message only, and has the same numbers of
them. -/
inductive Alike (digest : Digest) (m : Manager) : Manager → Prop where
  | same : Alike digest m m
  | votes {item : InboxItem} {votes : Bitmap} (hitem : m.inbox.get? digest = some item)
      (hmatches : m.config.enabled.Matches item.votes votes) :
      Alike digest m (m.recordInbound digest { item with votes })

theorem votes_of_get? {item : InboxItem} (h : m.inbox.get? digest = some item) :
    m.votes digest = item.votes := by
  rw [votes, h, Option.map_some, Option.getD_some]

namespace Alike

theorem config (h : m.Alike digest n) : n.config = m.config := by cases h <;> rfl

theorem identify (h : m.Alike digest n) (source : ChainId) (delivery : Delivery TokenTransfer) :
    n.identify source delivery = m.identify source delivery := by cases h <;> rfl

theorem planVote (h : m.Alike digest n) (id : UInt8) (now : Timestamp) (source : ChainId)
    (item : InboxItem) : n.planVote id now source item = m.planVote id now source item := by
  cases h <;> rfl

/-- Recording the transfer with votes that match makes up for the difference. -/
theorem recordInbound (h : m.Alike digest n) {item : InboxItem} {votes : Bitmap}
    (hmatches : m.config.enabled.Matches item.votes votes) :
    (m.recordInbound digest item).Alike digest (n.recordInbound digest { item with votes }) := by
  -- What stood under the key before is gone on both sides, and nothing else was different.
  have hvotes :=
    Alike.votes (m := m.recordInbound digest item) (SortedMap.get?_insert_self ..) hmatches
  cases h <;> simpa only [Manager.recordInbound, SortedMap.insert_insert] using hvotes

theorem recordSettlement (h : m.Alike digest n) {s : Settlement} {votes : Bitmap}
    (hmatches : m.config.enabled.Matches s.item.votes votes) :
    (m.recordSettlement digest s).Alike digest
      (n.recordSettlement digest (s.withVotes votes)) := by
  have hvotes :=
    Alike.votes (m := m.recordSettlement digest s) (SortedMap.get?_insert_self ..) hmatches
  cases h <;>
    simpa only [Manager.recordSettlement, Manager.recordInbound, Settlement.withVotes,
      SortedMap.insert_insert] using hvotes

/-- The transfer of the message as it stands. -/
theorem inbound (h : m.Alike digest n) (source : ChainId) (delivery : Delivery TokenTransfer) :
    n.inbound source delivery digest =
        { m.inbound source delivery digest with votes := n.votes digest } ∧
      m.config.enabled.Matches (m.inbound source delivery digest).votes (n.votes digest) := by
  cases h with
  | same =>
    rw [← m.votes_inbound source delivery digest]
    exact ⟨rfl, .refl _ _⟩
  | @votes item votes hitem hmatches =>
    -- It is recorded on both sides, so neither of them starts it anew from the message.
    have hrecorded : (m.recordInbound digest { item with votes }).inbox.get? digest =
        some { item with votes } := SortedMap.get?_insert_self ..
    rw [votes_of_get? hrecorded]
    simp only [Manager.inbound, hitem, hrecorded, Option.getD_some]
    exact ⟨trivial, hmatches⟩

/-- Who is enabled in one of them is enabled in the other. -/
theorem enables_iff (h : m.Alike digest n) (t : Transceiver) : n.Enables t ↔ m.Enables t := by
  cases h <;> rfl

end Alike

end Manager

/-- A book that differs from another in the votes for a message only. -/
structure Book.Alike (digest : Digest) (b c : Book) : Prop where
  manager : b.manager.Alike digest c.manager
  token : c.token = b.token

/-- Results of a call that differ in the votes for a message only. -/
inductive Call.Alike (digest : Digest) {α : Type} :
    EStateM.Result CallError Book α → EStateM.Result CallError Book α → Prop where
  | ok (value : α) {b c : Book} (h : b.Alike digest c) : Alike digest (.ok value b) (.ok value c)
  | error (e : CallError) {b c : Book} (h : b.Alike digest c) :
      Alike digest (.error e b) (.error e c)

variable {b c : Book} {now : Timestamp} {source : ChainId} {delivery : Delivery TokenTransfer}
  {digest : Digest} {t u : Transceiver}

/-- Paying a recipient does not look at the votes. -/
theorem Call.settle_alike (h : b.Alike digest c) {s : Settlement} {votes : Bitmap}
    (hmatches : b.manager.config.enabled.Matches s.item.votes votes) :
    Alike digest (settle b.manager digest s b) (settle c.manager digest (s.withVotes votes) c) := by
  have hrecorded := h.manager.recordSettlement hmatches
  rw [settle_eq, settle_eq, pay_eq, pay_eq, h.manager.config, h.token]
  simp only [Settlement.withVotes]
  cases s.payout with
  | none => exact .ok () ⟨hrecorded, h.token⟩
  | some amount =>
    simp only
    cases Token.credit b.manager.config.mode s.item.recipient amount b.token with
    | error e token => exact .error _ ⟨h.manager, rfl⟩
    | ok _ token => exact .ok () ⟨hrecorded, rfl⟩

/-- **A redemption on either side**: one transceiver redeems the message on the first book and
another on the second. Both are enabled and have not voted; they are told the same, and the books
are alike again. -/
theorem Book.Alike.redeem (h : b.Alike digest c) (now : Timestamp)
    (hdigest : delivery.message.digest TokenTransfer.wire source = .ok digest)
    (ht : b.manager.Enables t) (hu : c.manager.Enables u)
    (hnot : ¬ (b.manager.votes digest).Mem t.id) (hnot' : ¬ (c.manager.votes digest).Mem u.id) :
    Call.Alike digest (Call.redeem t.address now source delivery b)
      (Call.redeem u.address now source delivery c) := by
  -- The checks on either side are the same.
  rw [Call.redeem_eq, Call.redeem_eq, Manager.planRedeem_eq ht, Manager.planRedeem_eq hu,
    h.manager.config, h.manager.identify]
  cases b.manager.config.requireRunning with
  | error e => exact .error e h
  | ok _ =>
    simp only [ok_bind]
    cases hidentify : b.manager.identify source delivery with
    | error e => exact .error e h
    | ok digest' =>
      -- The message is the one in whose votes the books differ, and each caller is new to those.
      obtain ⟨_, _, _, hdigest'⟩ := Manager.identify_eq_ok hidentify
      cases hdigest'.symm.trans hdigest
      obtain ⟨hinbound, hmatches⟩ := h.manager.inbound source delivery
      rw [← b.manager.votes_inbound source delivery] at hnot
      obtain ⟨voted, voted', hmatches, hrecords, hplan⟩ := Manager.planVote_withVotes hmatches
        ht.2 ((h.manager.enables_iff u).mp hu).2 hnot hnot' now source
      simp only [ok_bind]
      rw [h.manager.planVote, hinbound, hplan]
      cases hplanned : b.manager.planVote t.id now source
          (b.manager.inbound source delivery digest) with
      | error e => exact .error e h
      | ok plan =>
        -- The plans differ in their votes, and so do the books that they leave.
        have hvotes := hrecords plan hplanned
        simp only [map_ok]
        cases plan with
        | done count => exact .ok _ h
        | voted item =>
          -- The callers are told how many votes there are, and that is the same number.
          cases hvotes
          have hcount : InboxItem.voteCount { item with votes := voted' } = item.voteCount :=
            hmatches.count
          simp only [Manager.RedeemPlan.withVotes, hcount]
          exact .ok _ ⟨h.manager.recordInbound hmatches, h.token⟩
        | settled s =>
          cases hvotes
          have hcount : (s.withVotes voted').item.voteCount = s.item.voteCount := hmatches.count
          have hsettle := Call.settle_alike h hmatches
          simp only [Manager.RedeemPlan.withVotes, hcount]
          -- Whether the token pays or not, it does so on both sides.
          generalize Call.settle b.manager digest s b = result at hsettle ⊢
          generalize Call.settle c.manager digest (s.withVotes voted') c = result' at hsettle ⊢
          cases hsettle with
          | ok _ h => exact .ok _ h
          | error e h => exact .error e h

/-! ## §4 The votes after a redemption -/

/-- The transfer of a message was released. -/
def Manager.HasReleased (m : Manager) (digest : Digest) : Prop :=
  ∃ item, m.inbox.get? digest = some item ∧ item.status = .released

/-- What a step in which a transceiver redeems a message leaves of the votes for it. -/
inductive Step.Casts (s : Step) (digest : Digest) (id : UInt8) : Prop where
  /-- The call fails. -/
  | refused (hfailed : s.succeeded = false) (hafter : s.after = s.before)
  /-- The transfer was released before, and there is no vote. -/
  | repeated (hafter : s.after = s.before) (hreleased : s.before.manager.HasReleased digest)
  /-- The vote counts. -/
  | recorded (hconfig : s.after.manager.config = s.before.manager.config)
      (htransceivers : s.after.manager.transceivers = s.before.manager.transceivers)
      (hvotes : (s.before.manager.votes digest).set? id true = some (s.after.manager.votes digest))

/-- The event in which a transceiver redeems a message. -/
def attestation (now : Timestamp) (source : ChainId) (delivery : Delivery TokenTransfer)
    (t : Transceiver) : Event :=
  ⟨now, .redeem t.address source delivery⟩

/-- **A redemption by an enabled transceiver** fails, finds the transfer released, or counts. -/
theorem Transition.casts {outcome : Outcome} {after : Book}
    (h : Transition b now (attestation now source delivery t).action outcome after)
    (hdigest : delivery.message.digest TokenTransfer.wire source = .ok digest)
    (ht : b.manager.Enables t) :
    (Step.mk b (attestation now source delivery t) outcome after).Casts digest t.id := by
  have hsubject : (attestation now source delivery t).action.subject? = some digest := by
    rw [Action.subject?_of_arrival? rfl, Arrival.digest, hdigest, Except.toOption]
  -- Of the things that a call can do, those that are about an inbound transfer are left.
  cases h with
  | refused => exact .refused rfl rfl
  | repeated hrepeated hitem hreleased =>
    cases hrepeated.symm.trans hsubject
    exact .repeated rfl ⟨_, hitem, hreleased⟩
  | @moved _ _ voted item _ _ hmoves =>
    cases hmoves.subject.symm.trans hsubject
    refine .recorded hmoves.config hmoves.transceivers ?_
    cases hmoves.vote with
    | none harrival => cases harrival
    | vote harrival haccepts hattest =>
      -- The id that votes is that of the caller.
      cases harrival
      cases haccepts.enabled.symm.trans ht.enabledTransceiver
      obtain ⟨_, votes, hset, rfl⟩ := InboxItem.attest_eq_ok hattest
      -- Neither the approval nor the gate changes the votes.
      obtain ⟨status, rfl⟩ := hmoves.approval
      obtain ⟨_, _, _, hvotes⟩ := InboxItem.tryApprove_frame
        { b.manager.inbound source delivery digest with votes }
        b.manager.config.threshold b.manager.config.enabled
      rw [Manager.votes_inbound] at hset
      rw [hset, Manager.votes_of_get? hmoves.get?_inbox, hvotes]
  | waiting haction => cases haction
  | pickedUp haction => cases haction
  | configured haction => exact haction.elim

/-- Enabled transceivers with ids of their own that have not voted for a message. -/
structure Manager.Unheard (m : Manager) (digest : Digest) (ts : List Transceiver) : Prop where
  enabled : ∀ t ∈ ts, m.Enables t
  ids : (ts.map Transceiver.id).Nodup
  unvoted : ∀ t ∈ ts, ¬ (m.votes digest).Mem t.id

/-- The vote of one transceiver is no vote of the others. -/
theorem Step.Casts.unheard {s : Step} {ts : List Transceiver} (h : s.Casts digest t.id)
    (hts : s.before.manager.Unheard digest (t :: ts)) : s.after.manager.Unheard digest ts := by
  obtain ⟨hfirst, hids⟩ := List.nodup_cons.mp hts.ids
  have hrest : s.before.manager.Unheard digest ts :=
    ⟨fun u hu => hts.enabled u (List.mem_cons_of_mem t hu), hids,
      fun u hu => hts.unvoted u (List.mem_cons_of_mem t hu)⟩
  cases h with
  | refused _ hafter => exact hafter ▸ hrest
  | repeated hafter => exact hafter ▸ hrest
  | recorded hconfig htransceivers hvotes =>
    refine ⟨fun u hu => ?_, hids, fun u hu hmem => ?_⟩
    · have henables := hrest.enabled u hu
      unfold Manager.Enables Manager.transceiver? at henables ⊢
      rwa [hconfig, htransceivers]
    · -- One that has voted now is the caller, who has an id of its own, or has voted before.
      rcases (Bitmap.mem_set? hvotes u.id).mp hmem with hid | hmem
      · exact hfirst (hid ▸ List.mem_map_of_mem hu)
      · exact hrest.unvoted u hu hmem

/-! ## §5 Runs -/

/-- The events in which transceivers redeem a message, one after another. -/
def attestations (now : Timestamp) (source : ChainId) (delivery : Delivery TokenTransfer)
    (ts : List Transceiver) : List Event :=
  ts.map (attestation now source delivery)

theorem Call.Alike.observe {α : Type} {result result' : EStateM.Result CallError Book α}
    (h : Alike digest result result') (answer : α → Answer) :
    (CrossChain.observe answer result').1 = (CrossChain.observe answer result).1 ∧
      (CrossChain.observe answer result).2.Alike digest (CrossChain.observe answer result').2 := by
  cases h with
  | ok _ h => exact ⟨rfl, h⟩
  | error _ h => exact ⟨rfl, h⟩

/-- **Two runs side by side.** As many transceivers redeem the message on either side: they are told
the same in turn. -/
theorem Book.Alike.run (h : b.Alike digest c)
    (hdigest : delivery.message.digest TokenTransfer.wire source = .ok digest) (now : Timestamp)
    {ts us : List Transceiver} (hlength : us.length = ts.length)
    (hts : b.manager.Unheard digest ts) (hus : c.manager.Unheard digest us) :
    (c.trace (attestations now source delivery us)).map Step.outcome =
        (b.trace (attestations now source delivery ts)).map Step.outcome ∧
      (b.run (attestations now source delivery ts)).Alike digest
        (c.run (attestations now source delivery us)) := by
  -- On the first list. The first two calls leave books that are alike again, in which the other
  -- transceivers still have not voted.
  induction ts generalizing b c us with
  | nil =>
    cases List.length_eq_zero_iff.mp hlength
    exact ⟨rfl, h⟩
  | cons t ts ih =>
    obtain ⟨u, us, rfl⟩ := List.exists_cons_of_length_eq_add_one hlength
    have ht := hts.enabled t List.mem_cons_self
    have hu := hus.enabled u List.mem_cons_self
    obtain ⟨houtcome, hafter⟩ :=
      (h.redeem now hdigest ht hu (hts.unvoted t List.mem_cons_self)
        (hus.unvoted u List.mem_cons_self)).observe .redeemed
    have hcasts := (b.step_transition (attestation now source delivery t)).casts hdigest ht
    have hcasts' := (c.step_transition (attestation now source delivery u)).casts hdigest hu
    obtain ⟨houtcomes, hrun⟩ :=
      ih hafter (Nat.succ.inj hlength) (hcasts.unheard hts) (hcasts'.unheard hus)
    exact ⟨congrArg₂ List.cons houtcome houtcomes, hrun⟩

/-- A released transfer stays released. -/
theorem Book.run_hasReleased (h : b.manager.HasReleased digest) (events : List Event) :
    (b.run events).manager.HasReleased digest := by
  refine run_induction (motive := fun _ current => current.manager.HasReleased digest) h ?_ events
  rintro _ current event ⟨item, hitem, hreleased⟩
  exact ⟨item, (current.step_transition event).released_stays hitem hreleased, hreleased⟩

/-- **The votes after a run** that succeeds throughout are those before it and those of the callers,
unless the transfer is released. -/
theorem Book.votes_of_attestations
    (hdigest : delivery.message.digest TokenTransfer.wire source = .ok digest) (now : Timestamp)
    {ts : List Transceiver} (hts : b.manager.Unheard digest ts)
    (hsucceeds : ∀ s ∈ b.trace (attestations now source delivery ts), s.succeeded = true) :
    (b.run (attestations now source delivery ts)).manager.HasReleased digest ∨
      ∀ id, ((b.run (attestations now source delivery ts)).manager.votes digest).Mem id ↔
        (∃ t ∈ ts, t.id = id) ∨ (b.manager.votes digest).Mem id := by
  -- On the list, from the book that the first call leaves.
  induction ts generalizing b with
  | nil =>
    refine .inr fun id => ?_
    simp [attestations]
  | cons t ts ih =>
    have hcasts := (b.step_transition (attestation now source delivery t)).casts hdigest
      (hts.enabled t List.mem_cons_self)
    obtain ⟨hfirst, hrest⟩ := List.forall_mem_cons.mp hsucceeds
    have ih := ih (hcasts.unheard hts) hrest
    cases hcasts with
    | refused hfailed => cases hfailed.symm.trans hfirst
    | repeated hafter hreleased =>
      -- No vote is cast any more.
      refine .inl (run_hasReleased ?_ (attestations now source delivery ts))
      rwa [← hafter] at hreleased
    | recorded _ _ hvotes =>
      -- The vote of the first is among those that the others find.
      refine ih.imp_right fun hmem id => (hmem id).trans ?_
      rw [Bitmap.mem_set? hvotes, List.exists_mem_cons_iff, or_assoc, eq_comm (a := id),
        or_left_comm]

/-! ## §6 Any two orders -/

/-- An inbound transfer without its votes. -/
def InboxItem.eraseVotes (item : InboxItem) : InboxItem :=
  { item with votes := .empty }

/-- A book that is the same as another but for the votes for a message, which are the same as well
unless its transfer was released. -/
structure Book.SameButVotes (digest : Digest) (b c : Book) : Prop where
  /-- The token and all of the manager but its inbox. -/
  rest : c = { b with manager := { b.manager with inbox := c.manager.inbox } }
  /-- The other transfers. -/
  others : ∀ other ≠ digest, c.manager.inbox.get? other = b.manager.inbox.get? other
  /-- The transfer but for its votes. -/
  item : (c.manager.inbox.get? digest).map InboxItem.eraseVotes =
    (b.manager.inbox.get? digest).map InboxItem.eraseVotes
  /-- The transfer with its votes, if it was not released. -/
  waiting : ∀ item, b.manager.inbox.get? digest = some item → item.status ≠ .released →
    c.manager.inbox.get? digest = some item

namespace Book.Alike

theorem hasReleased (h : b.Alike digest c) (hreleased : c.manager.HasReleased digest) :
    b.manager.HasReleased digest := by
  obtain ⟨hmanager, _⟩ := h
  generalize c.manager = n at hmanager hreleased
  cases hmanager with
  | same => exact hreleased
  | @votes item _ hitem =>
    obtain ⟨item', hitem', hstatus⟩ := hreleased
    cases (SortedMap.get?_insert_self ..).symm.trans hitem'
    exact ⟨item, hitem, hstatus⟩

/-- Alike books are the same but for the votes, once the votes of a transfer that was not released
are known to be the same. -/
theorem sameButVotes (h : b.Alike digest c)
    (hvotes : ¬ b.manager.HasReleased digest → c.manager.votes digest = b.manager.votes digest) :
    b.SameButVotes digest c := by
  obtain ⟨m, token⟩ := b
  obtain ⟨n, token'⟩ := c
  obtain ⟨hmanager, rfl⟩ := h
  change m.Alike digest n at hmanager
  cases hmanager with
  | same => exact ⟨rfl, fun _ _ => rfl, rfl, fun _ hitem _ => hitem⟩
  | @votes item votes hitem hmatches =>
    have hrecorded : (m.recordInbound digest { item with votes }).inbox.get? digest =
        some { item with votes } := SortedMap.get?_insert_self ..
    refine ⟨rfl, fun other hother => ?_, ?_, fun item' hitem' hwaits => ?_⟩
    · -- The inbox is kept by rank, and different keys have different ranks.
      have hranks : Ranked.rank digest ≠ Ranked.rank other := fun heq =>
        hother (Ranked.rank_injective heq).symm
      exact (SortedMap.get?_insert ..).trans (if_neg hranks)
    · rw [hrecorded, hitem]
      rfl
    · -- The transfer waits, so the votes are known to be the same as well.
      cases hitem.symm.trans hitem'
      have hsame := hvotes ?_
      · rw [Manager.votes_of_get? hrecorded, Manager.votes_of_get? hitem] at hsame
        cases hsame
        exact hrecorded
      · rintro ⟨_, hreleased, hstatus⟩
        cases hitem.symm.trans hreleased
        exact hwaits hstatus

end Book.Alike

/-- Transceivers that are distinct and enabled have ids of their own. -/
theorem Manager.Numbered.unheard {m : Manager} (h : m.Numbered) {ts : List Transceiver}
    (hdistinct : ts.Nodup) (henabled : ∀ t ∈ ts, m.Enables t)
    (hnew : ∀ t ∈ ts, ¬ (m.votes digest).Mem t.id) : m.Unheard digest ts := by
  refine ⟨henabled, hdistinct.map_on fun t ht u hu hid => ?_, hnew⟩
  have haddress := h.address_eq (henabled t ht).1 (henabled u hu).1 hid
  exact Option.some_inj.mp
    ((henabled t ht).1.symm.trans (haddress ▸ (henabled u hu).1))

theorem Manager.Unheard.perm {m : Manager} {ts us : List Transceiver} (h : m.Unheard digest ts)
    (horder : us.Perm ts) : m.Unheard digest us where
  enabled t ht := h.enabled t (horder.mem_iff.mp ht)
  ids := (horder.map Transceiver.id).nodup_iff.mpr h.ids
  unvoted t ht := h.unvoted t (horder.mem_iff.mp ht)

/-- **The order of attestations does not matter.** In every state that a new manager comes to, let
distinct enabled transceivers that have not voted for a message redeem it one after another at one
time. If all of these calls succeed, then in any other order the calls are told the same in turn,
and the book afterwards is the same but for the votes for this message, which are the same as well
unless its transfer was released. -/
theorem Book.order_irrelevant (hfresh : b.Fresh) (events : List Event) (now : Timestamp)
    (source : ChainId) (delivery : Delivery TokenTransfer) {digest : Digest}
    (hdigest : delivery.message.digest TokenTransfer.wire source = .ok digest)
    {ts us : List Transceiver} (hdistinct : ts.Nodup)
    (henabled : ∀ t ∈ ts, (b.run events).manager.Enables t)
    (hnew : ∀ t ∈ ts, ¬ ((b.run events).manager.votes digest).Mem t.id) (horder : us.Perm ts)
    (hsucceeds : ∀ s ∈ (b.run events).trace (attestations now source delivery ts),
      s.succeeded = true) :
    ((b.run events).trace (attestations now source delivery us)).map Step.outcome =
        ((b.run events).trace (attestations now source delivery ts)).map Step.outcome ∧
      ((b.run events).run (attestations now source delivery ts)).SameButVotes digest
        ((b.run events).run (attestations now source delivery us)) := by
  have hts := Manager.Numbered.unheard (run_staffed hfresh events).ids hdistinct henabled hnew
  have hus := hts.perm horder
  generalize b.run events = current at hts hus hsucceeds ⊢
  have hself : current.Alike digest current := ⟨.same, rfl⟩
  obtain ⟨houtcomes, hrun⟩ := hself.run hdigest now horder.length_eq hts hus
  -- Calls that are told the same succeed alike.
  have hsucceeds' : ∀ s ∈ current.trace (attestations now source delivery us),
      s.succeeded = true := by
    intro s hs
    have hmem : s.outcome ∈ (current.trace (attestations now source delivery ts)).map
        Step.outcome := houtcomes ▸ List.mem_map_of_mem hs
    obtain ⟨s', hs', houtcome⟩ := List.mem_map.mp hmem
    rw [Step.succeeded, ← houtcome]
    exact hsucceeds s' hs'
  -- If the transfer waits in the end, every call was a vote, whatever the order.
  refine ⟨houtcomes, hrun.sameButVotes fun hwaits => ?_⟩
  have hvotes := (votes_of_attestations hdigest now hts hsucceeds).resolve_left hwaits
  have hvotes' := (votes_of_attestations hdigest now hus hsucceeds').resolve_left
    (hwaits ∘ hrun.hasReleased)
  apply Bitmap.ext_mem
  intro id
  simp only [hvotes, hvotes', horder.mem_iff]

namespace Sample

/-- Three transceivers are registered, and two of them have to vouch. -/
def trioEvents : List Event :=
  [⟨0, .execute (address 9) (.registerTransceiver (address 31))⟩,
   ⟨0, .execute (address 9) (.registerTransceiver (address 32))⟩,
   ⟨0, .execute (address 9) (.registerTransceiver (address 33))⟩,
   ⟨0, .execute (address 9) (.setThreshold 2)⟩,
   ⟨0, .execute (address 9) (.setPeer ⟨⟨1⟩, address 11, 1000000000, 9⟩)⟩]

def trio : List Transceiver := [⟨0, address 31⟩, ⟨1, address 32⟩, ⟨2, address 33⟩]

/-- The last of the three comes first. -/
def trioRotated : List Transceiver := [⟨2, address 33⟩, ⟨0, address 31⟩, ⟨1, address 32⟩]

theorem trio_enabled : ∀ t ∈ trio, (away.run trioEvents).manager.Enables t := by
  unfold Manager.Enables Bitmap.Mem
  decide +kernel

theorem trio_new : ∀ t ∈ trio, ¬ ((away.run trioEvents).manager.votes key).Mem t.id := by
  unfold Bitmap.Mem
  decide +kernel

/-- The second call pays the recipient, and the third comes too late to count. -/
theorem trio_outcomes :
    ((away.run trioEvents).trace (attestations 3 ⟨1⟩ Sample.delivery trio)).map Step.outcome =
      [.ok (.redeemed ⟨key, 1, .notApproved⟩), .ok (.redeemed ⟨key, 2, .released⟩),
        .ok (.redeemed ⟨key, 2, .alreadyReleased⟩)] := by
  decide +kernel

theorem trio_succeeds :
    ∀ s ∈ (away.run trioEvents).trace (attestations 3 ⟨1⟩ Sample.delivery trio),
      s.succeeded = true := by
  intro s hs
  have houtcome := List.mem_map_of_mem (f := Step.outcome) hs
  rw [trio_outcomes] at houtcome
  simp only [List.mem_cons, List.not_mem_nil, or_false] at houtcome
  rcases houtcome with houtcome | houtcome | houtcome <;>
    rw [Step.succeeded, houtcome, Except.toBool]

theorem trio_either_order :
    away.Fresh ∧ trioRotated.Perm trio ∧
      ((away.run trioEvents).trace
          (attestations 3 ⟨1⟩ Sample.delivery trioRotated)).map Step.outcome =
        [.ok (.redeemed ⟨key, 1, .notApproved⟩), .ok (.redeemed ⟨key, 2, .released⟩),
          .ok (.redeemed ⟨key, 2, .alreadyReleased⟩)] ∧
      ((away.run trioEvents).run (attestations 3 ⟨1⟩ Sample.delivery trio)).SameButVotes key
        ((away.run trioEvents).run (attestations 3 ⟨1⟩ Sample.delivery trioRotated)) := by
  have horder : trioRotated.Perm trio := by decide
  obtain ⟨houtcomes, hsame⟩ :=
    Book.order_irrelevant away_fresh trioEvents 3 ⟨1⟩ Sample.delivery key_eq (by decide)
      trio_enabled trio_new horder trio_succeeds
  exact ⟨away_fresh, horder, houtcomes.trans trio_outcomes, hsame⟩

end Sample

end CrossChain
