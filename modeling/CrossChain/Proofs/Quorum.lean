import CrossChain.Proofs.Inbound

/-!
# Every credit has its quorum

The votes that an inbound transfer has collected are traced back to the redemptions that cast
them, and its approval to the call that found them sufficient. The configuration may change
between the votes, the approval and the credit; what counts is what held at each of these moments.

## Main statements

* `Attributed`, `Attributed.step`: the invariant. Each vote is attributed to a redemption, each
  approval to a call that found a quorum of votes.
* `Book.credited_by_quorum`: before each credit there was an approval with its quorum.
-/

namespace CrossChain

/-! ## §1 Attestations and approvals -/

/-- A transceiver is registered and enabled. -/
def Manager.Enables (m : Manager) (t : Transceiver) : Prop :=
  m.transceiver? t.address = some t ∧ m.config.enabled.Mem t.id

namespace Step

/-- A step in which an enabled transceiver redeems a message under a key, which names the peer on
its chain as its source and this manager on this chain as its recipient. -/
def Attests (s : Step) (t : Transceiver) (digest : Digest) : Prop :=
  ∃ a, s.Redeems a digest ∧ a.transceiver = t.address ∧ s.before.manager.Enables t ∧
    (∃ peer, s.before.manager.peers.get? a.source = some peer ∧
      peer.address = a.delivery.sourceManager) ∧
    a.delivery.recipientManager = s.before.manager.config.address ∧
    a.delivery.message.payload.recipientChain = s.before.manager.config.chain

/-- A call after which an inbound transfer is approved that was not before. -/
def Approves (s : Step) (digest : Digest) : Prop :=
  s.event.action.subject? = some digest ∧ (∃ answer, s.outcome = .ok answer) ∧
    (∀ item, s.before.manager.inbox.get? digest = some item → item.approved = false) ∧
    ∃ item, s.after.manager.inbox.get? digest = some item ∧ item.approved = true

/-- At least as many transceivers as the threshold asks for, and at least one, are enabled now
and have attested by now. -/
def HasQuorum (s : Step) (earlier : List Step) (digest : Digest) : Prop :=
  1 ≤ s.before.manager.config.threshold.toNat ∧ ∃ voters : Finset Transceiver,
    s.before.manager.config.threshold.toNat ≤ voters.card ∧
    ∀ t ∈ voters, s.before.manager.Enables t ∧ ∃ v ∈ earlier ++ [s], v.Attests t digest

end Step

variable {b after : Book} {action : Action} {digest : Digest} {voted item : InboxItem}
  {answer : Answer} {s : Step}

theorem Manager.Enables.enabledTransceiver {m : Manager} {t : Transceiver} (h : m.Enables t) :
    m.enabledTransceiver t.address = .ok t.id :=
  Manager.enabledTransceiver_eq_ok.mpr ⟨t, h.1, rfl, h.2⟩

theorem Manager.enables_of_accepts {a : Arrival} {id : UInt8}
    (h : b.manager.Accepts a.transceiver a.source a.delivery digest id) :
    b.manager.Enables ⟨id, a.transceiver⟩ := by
  obtain ⟨t, ht, rfl, henabled⟩ := Manager.enabledTransceiver_eq_ok.mp h.enabled
  have haddress : t.address = a.transceiver := by simpa using List.find?_some ht
  rw [← haddress] at ht ⊢
  exact ⟨ht, henabled⟩

namespace Moves

/-- **A vote** of a transfer that is moved on was there before, or the caller casts it now. -/
theorem mem_votes (h : Moves s.before s.event.action digest voted item answer s.after)
    (hok : s.outcome = .ok answer) {id : UInt8} (hid : voted.votes.Mem id) :
    (∃ old, s.before.manager.inbox.get? digest = some old ∧ old.votes.Mem id) ∨
      ∃ address, s.before.manager.Enables ⟨id, address⟩ ∧ s.Attests ⟨id, address⟩ digest := by
  cases h.vote with
  | none _ hfound => exact .inl ⟨voted, hfound, hid⟩
  | @vote a id' receipt harrival haccepts hattest hanswer hdigest =>
    obtain ⟨_, votes, hset, rfl⟩ := InboxItem.attest_eq_ok hattest
    rcases (Bitmap.mem_set? hset id).mp hid with rfl | hid
    · -- The vote that is cast now.
      have henables := Manager.enables_of_accepts haccepts
      exact .inr ⟨a.transceiver, henables, a,
        ⟨harrival, haccepts.digest, receipt, by rw [hok, hanswer], hdigest⟩, rfl, henables,
        haccepts.peer, haccepts.recipient, haccepts.chain⟩
    · cases hfound : s.before.manager.inbox.get? digest with
      | some old =>
        simp only [Manager.inbound, hfound, Option.getD_some] at hid
        exact .inl ⟨old, rfl, hid⟩
      | none =>
        simp only [Manager.inbound, hfound, Option.getD_none] at hid
        exact absurd hid (Bitmap.not_mem_empty id)

/-- The vote of the caller by itself approves nothing. -/
theorem approved_voted (h : Moves b action digest voted item answer after) :
    voted.approved = (b.manager.inbox.get? digest).elim false (·.approved) := by
  cases h.vote with
  | none _ hfound => rw [hfound, Option.elim_some]
  | vote _ _ hattest =>
    obtain ⟨_, _, _, rfl⟩ := InboxItem.attest_eq_ok hattest
    cases hfound : b.manager.inbox.get? digest with
    | some old => simp only [Manager.inbound, hfound, Option.getD_some, Option.elim_some]
    | none => simp only [Manager.inbound, hfound, Option.getD_none, Option.elim_none, InboxItem.new]

end Moves

/-! ## §2 The invariant -/

/-- Every vote is the vote of a registered transceiver that attested the transfer. -/
def Cast (history : List Step) (m : Manager) (digest : Digest) (votes : Bitmap) : Prop :=
  ∀ id, votes.Mem id → ∃ address, m.transceiver? address = some ⟨id, address⟩ ∧
    ∃ v ∈ history, v.Attests ⟨id, address⟩ digest

/-- **The quorum of an approval**: the votes that reach the threshold were cast by as many
transceivers, since no two of them have one id. -/
theorem Moves.hasQuorum (h : Moves s.before s.event.action digest voted item answer s.after)
    {earlier : List Step} (hcast : Cast (earlier ++ [s]) s.before.manager digest voted.votes)
    (hnot : voted.approved = false) (happroved : item.approved = true) :
    s.HasQuorum earlier digest := by
  obtain ⟨status, rfl⟩ := h.approval
  have hreached : 1 ≤ s.before.manager.config.threshold.toNat ∧
      s.before.manager.config.threshold.toNat ≤
        voted.votes.countCommon s.before.manager.config.enabled := by
    rcases voted.tryApprove_cases s.before.manager.config.threshold
      s.before.manager.config.enabled with heq | ⟨_, hpos, hcount, _⟩
    · rw [heq] at happroved
      cases hnot.symm.trans happroved
    · exact ⟨hpos, hcount⟩
  have hvoter (id : UInt8)
      (hid : id ∈ (voted.votes.inter s.before.manager.config.enabled).members) :
      ∃ address, s.before.manager.Enables ⟨id, address⟩ ∧
        ∃ v ∈ earlier ++ [s], v.Attests ⟨id, address⟩ digest := by
    obtain ⟨hvote, henabled⟩ := Bitmap.mem_inter.mp (Bitmap.mem_members.mp hid)
    obtain ⟨address, ht, hattests⟩ := hcast id hvote
    exact ⟨address, ⟨ht, henabled⟩, hattests⟩
  -- An id determines its transceiver, so there are as many voters as ids.
  choose voter hvoter using hvoter
  let members := (voted.votes.inter s.before.manager.config.enabled).members
  let voters := members.attach.image fun id => Transceiver.mk id.1 (voter id.1 id.2)
  have hcard : voters.card = members.card := by
    rw [Finset.card_image_of_injective, Finset.card_attach]
    intro x y hxy
    exact Subtype.ext (congrArg Transceiver.id hxy)
  refine ⟨hreached.1, voters, ?_, ?_⟩
  · rw [hcard, ← Bitmap.count_eq_card]
    exact hreached.2
  · intro t ht
    obtain ⟨id, _, rfl⟩ := Finset.mem_image.mp ht
    exact hvoter id.1 id.2

/-- Where the votes and the approvals in the inbox come from. -/
structure Attributed (history : List Step) (b : Book) : Prop where
  /-- Every vote was cast. -/
  votes : ∀ digest item, b.manager.inbox.get? digest = some item →
    Cast history b.manager digest item.votes
  /-- Every approval had its quorum. -/
  approvals : ∀ digest item, b.manager.inbox.get? digest = some item → item.approved = true →
    ∃ earlier q later, history = earlier ++ q :: later ∧ q.Approves digest ∧
      q.HasQuorum earlier digest

theorem attributed_nil (hinbox : b.manager.inbox = .empty) : Attributed [] b where
  votes digest item h := by
    rw [hinbox, SortedMap.get?_empty] at h
    cases h
  approvals digest item h := by
    rw [hinbox, SortedMap.get?_empty] at h
    cases h

theorem Cast.mono {history more : List Step} {m m' : Manager} {votes : Bitmap}
    (h : Cast history m digest votes)
    (hm : ∀ address t, m.transceiver? address = some t → m'.transceiver? address = some t) :
    Cast (history ++ more) m' digest votes := by
  intro id hid
  obtain ⟨address, ht, v, hv, hattests⟩ := h id hid
  exact ⟨address, hm _ _ ht, v, List.mem_append_left _ hv, hattests⟩

namespace Attributed

variable {history : List Step}

/-- Helper: the votes of a transfer that is moved on, the vote of the caller among them. -/
private theorem cast_voted (h : Attributed history s.before)
    (hmoves : Moves s.before s.event.action digest voted item answer s.after)
    (hok : s.outcome = .ok answer) :
    Cast (history ++ [s]) s.before.manager digest voted.votes := by
  intro id hid
  rcases hmoves.mem_votes hok hid with ⟨old, hold, hid⟩ | ⟨address, henables, hattests⟩
  · exact (h.votes digest old hold).mono (fun _ _ ht => ht) id hid
  · exact ⟨address, henables.1, s, List.mem_concat_self, hattests⟩

/-- Helper: a transfer that is approved when it is moved on was approved before, or finds its
quorum now. -/
private theorem approved_or_quorum (h : Attributed history s.before)
    (hmoves : Moves s.before s.event.action digest voted item answer s.after)
    (hok : s.outcome = .ok answer) (happroved : item.approved = true) :
    (∃ old, s.before.manager.inbox.get? digest = some old ∧ old.approved = true) ∨
      (s.Approves digest ∧ s.HasQuorum history digest) := by
  have hvoted := hmoves.approved_voted
  cases hwas : voted.approved with
  | true =>
    rw [hwas] at hvoted
    cases hold : s.before.manager.inbox.get? digest with
    | none => simp [hold] at hvoted
    | some old =>
      rw [hold, Option.elim_some] at hvoted
      exact .inl ⟨old, rfl, hvoted.symm⟩
  | false =>
    have hbefore (old : InboxItem) (hold : s.before.manager.inbox.get? digest = some old) :
        old.approved = false := by
      rw [hwas, hold, Option.elim_some] at hvoted
      exact hvoted.symm
    exact .inr ⟨⟨hmoves.subject, ⟨answer, hok⟩, hbefore, item, hmoves.get?_inbox, happroved⟩,
      hmoves.hasQuorum (h.cast_voted hmoves hok) hwas happroved⟩

/-- Every step keeps the attribution of the votes and the approvals. -/
theorem step (h : Attributed history b) (event : Event) :
    Attributed (history ++ [b.step event]) (b.step event).after := by
  have htransition := b.step_transition event
  have hvotes (digest : Digest) (item : InboxItem)
      (hitem : b.manager.inbox.get? digest = some item) :
      Cast (history ++ [b.step event]) (b.step event).after.manager digest item.votes :=
    (h.votes digest item hitem).mono fun _ _ ht => htransition.transceiver? ht
  have happrovals (digest : Digest) (item : InboxItem)
      (hitem : b.manager.inbox.get? digest = some item) (happroved : item.approved = true) :
      ∃ earlier q later, history ++ [b.step event] = earlier ++ q :: later ∧ q.Approves digest ∧
        q.HasQuorum earlier digest := by
    obtain ⟨earlier, q, later, rfl, hq⟩ := h.approvals digest item hitem happroved
    exact ⟨earlier, q, later ++ [b.step event], by simp, hq⟩
  rcases htransition.inbox_eq_or_moves with hinbox | ⟨moved, voted, new, answer, hok, hmoves⟩
  · exact ⟨fun digest item hitem => hvotes digest item (hinbox ▸ hitem),
      fun digest item hitem => happrovals digest item (hinbox ▸ hitem)⟩
  · refine ⟨fun digest item hitem => ?_, fun digest item hitem happroved => ?_⟩
    · rw [hmoves.inbox, SortedMap.get?_insert_eq_some] at hitem
      rcases hitem with ⟨rfl, rfl⟩ | ⟨_, hitem⟩
      · obtain ⟨status, rfl⟩ := hmoves.approval
        obtain ⟨_, _, _, hframe⟩ :=
          voted.tryApprove_frame b.manager.config.threshold b.manager.config.enabled
        intro id hid
        -- The approval itself adds no vote.
        obtain ⟨address, ht, hattests⟩ :=
          h.cast_voted (s := b.step event) hmoves hok id (hframe ▸ hid)
        exact ⟨address, htransition.transceiver? ht, hattests⟩
      · exact hvotes digest item hitem
    · rw [hmoves.inbox, SortedMap.get?_insert_eq_some] at hitem
      rcases hitem with ⟨rfl, rfl⟩ | ⟨_, hitem⟩
      · rcases h.approved_or_quorum (s := b.step event) hmoves hok happroved with
          ⟨old, hold, happroved⟩ | hquorum
        · exact happrovals digest old hold happroved
        · exact ⟨history, b.step event, [], rfl, hquorum⟩
      · exact happrovals digest item hitem happroved

end Attributed

/-! ## §3 Runs -/

/-- The steps up to one of the first steps of a run are the first steps of the run. -/
theorem mem_of_take_eq {steps earlier later : List Step} {i : ℕ} {q : Step}
    (h : steps.take (i + 1) = earlier ++ q :: later) :
    earlier.length ≤ i ∧ steps[earlier.length]? = some q ∧
      ∀ v ∈ earlier ++ [q], ∃ j ≤ earlier.length, steps[j]? = some v := by
  have hlength : earlier.length ≤ i := by
    have hle := congrArg List.length h
    rw [List.length_take, List.length_append, List.length_cons] at hle
    omega
  have hfirst : steps.take (earlier.length + 1) = earlier ++ [q] := by
    have htake := congrArg (List.take (earlier.length + 1)) h
    rwa [List.take_take, min_eq_left (Nat.succ_le_succ hlength), List.append_cons,
      List.take_left' (by simp)] at htake
  refine ⟨hlength, ?_, fun v hv => Book.exists_le_of_mem_take (hfirst ▸ hv)⟩
  have hat := congrArg (·[earlier.length]?) h
  simpa [Nat.lt_succ_of_le hlength] using hat

namespace Book

variable {events : List Event} {i : ℕ}

/-- **Votes and approvals are attributed** in every run. -/
theorem attributed_at (hfresh : b.Fresh) (hs : (b.trace events)[i]? = some s) :
    Attributed ((b.trace events).take (i + 1)) s.after :=
  invariant_at (attributed_nil hfresh.empty.1) (fun _ _ event h => h.step event) hs

/-- **Every credit has its quorum**: whenever a step credits tokens under a key, there is a step,
this one or one before it, that approved the transfer. At that moment the threshold was at least
one, and at least as many transceivers as it asks for were registered and enabled and had each, by
then, redeemed a message under the key while enabled, a message that named as its source the peer
that was registered then for its chain, and as its recipient this manager on this chain. -/
theorem credited_by_quorum (hfresh : b.Fresh) (events : List Event) {i : ℕ} {s : Step}
    (hs : (b.trace events)[i]? = some s) {digest : Digest} (hcredit : s.Credits digest) :
    ∃ k ≤ i, ∃ q : Step, (b.trace events)[k]? = some q ∧ q.Approves digest ∧
      1 ≤ q.before.manager.config.threshold.toNat ∧
      ∃ voters : Finset Transceiver,
        q.before.manager.config.threshold.toNat ≤ voters.card ∧
        ∀ t ∈ voters, q.before.manager.Enables t ∧
          ∃ j ≤ k, ∃ v : Step, (b.trace events)[j]? = some v ∧ v.Attests t digest := by
  obtain ⟨_, item, _, _, hmoves, _, happroved, _⟩ := (transition_at hs).moves_of_credits hcredit
  -- What is paid for is approved, so the approval lies in the steps up to this one.
  obtain ⟨earlier, q, later, htake, happroves, hpos, voters, hcard, hvoters⟩ :=
    (attributed_at hfresh hs).approvals digest item hmoves.get?_inbox happroved
  obtain ⟨hk, hq, hindex⟩ := mem_of_take_eq htake
  refine ⟨earlier.length, hk, q, hq, happroves, hpos, voters, hcard, fun t ht => ?_⟩
  obtain ⟨henables, v, hv, hattests⟩ := hvoters t ht
  obtain ⟨j, hj, hvj⟩ := hindex v hv
  exact ⟨henables, j, hj, v, hvj, hattests⟩

end Book

namespace Sample

/-- The payment on the second chain has its quorum. -/
theorem payment_has_quorum :
    ∃ k ≤ 3, ∃ q : Step, (away.trace awayEvents)[k]? = some q ∧ q.Approves key ∧
      1 ≤ q.before.manager.config.threshold.toNat ∧
      ∃ voters : Finset Transceiver,
        q.before.manager.config.threshold.toNat ≤ voters.card ∧
        ∀ t ∈ voters, q.before.manager.Enables t ∧
          ∃ j ≤ k, ∃ v : Step, (away.trace awayEvents)[j]? = some v ∧ v.Attests t key :=
  Book.credited_by_quorum away_fresh awayEvents payment_at payment_credits

end Sample

end CrossChain
