import CrossChain.Proofs.Codec
import CrossChain.Proofs.Transition

/-!
# Inbound transfers over a run

Where the entries of the inbox come from and what happens to them. An entry is made by the first
redemption of its message and keeps what that message says; it is credited when it becomes
released, and it never leaves that status.

## The hash

The inbox knows a message by a hash. `NoCollision` says that no two of the messages that were
redeemed have one hash; everything that speaks of the message of an entry assumes it.

## Main statements

* `NoCollision.same_message`: one key, one message.
* `Transition.moves_of_credits`: how a step credits.
* `Remembers`, `Book.remembers`: the invariant on the inbox.
-/

namespace CrossChain

/-! ## §1 Messages and keys -/

namespace Arrival

variable {a c : Arrival} {digest : Digest}

/-- The bytes that the key of a message is the hash of. -/
def hashed (a : Arrival) : Except WireError Bytes :=
  (bytesBE 2 a.source.number.toNat ++ ·) <$>
    (ManagerMessage.wire TokenTransfer.wire).write a.delivery.message

theorem digest_eq_ok :
    a.digest = .ok digest ↔ ∃ bytes, a.hashed = .ok bytes ∧ Keccak.hash bytes = digest := by
  simp only [Arrival.digest, ManagerMessage.digest, ManagerMessage.digestOfBytes, hashed,
    bind_eq_ok, pure_eq_ok, map_eq_ok]
  constructor
  · rintro ⟨bytes, hbytes, hdigest⟩
    exact ⟨_, ⟨bytes, hbytes, rfl⟩, hdigest⟩
  · rintro ⟨_, ⟨bytes, hbytes, rfl⟩, hdigest⟩
    exact ⟨bytes, hbytes, hdigest⟩

/-- The bytes tell the chain and the message. -/
theorem hashed_injective {bytes : Bytes} (ha : a.hashed = .ok bytes) (hc : c.hashed = .ok bytes) :
    a.source = c.source ∧ a.delivery.message = c.delivery.message := by
  simp only [hashed, map_eq_ok] at ha hc
  obtain ⟨message, hmessage, rfl⟩ := ha
  obtain ⟨message', hmessage', hbytes⟩ := hc
  -- The number of the chain always takes two bytes, so the two parts can be told apart.
  obtain ⟨hchain, rfl⟩ := List.append_inj hbytes (by simp only [length_bytesBE])
  have hnumber : c.source.number.toNat = a.source.number.toNat := by
    have hcount : numeralCount 2 = 2 ^ 16 := rfl
    have h := congrArg natOfBE hchain
    rw [natOfBE_bytesBE, natOfBE_bytesBE, hcount] at h
    rwa [Nat.mod_eq_of_lt c.source.number.toNat_lt, Nat.mod_eq_of_lt a.source.number.toNat_lt] at h
  exact ⟨Ranked.rank_injective hnumber.symm,
    (ManagerMessage.wire_exact TokenTransfer.wire_exact).injective hmessage hmessage'⟩

/-- The transfer that a message asks for. -/
def Names (a : Arrival) (item : InboxItem) : Prop :=
  item.sourceChain = a.source ∧ item.amount = a.delivery.message.payload.amount ∧
    item.recipient = a.delivery.message.payload.recipient

end Arrival

/-- A message is redeemed in some step. -/
def Redeemed (steps : List Step) (a : Arrival) : Prop :=
  ∃ s ∈ steps, ∃ digest, s.Redeems a digest

/-- No two messages that are redeemed differ in the bytes that are hashed and have one hash. -/
def NoCollision (steps : List Step) : Prop :=
  ∀ a c bytes bytes', Redeemed steps a → Redeemed steps c → a.hashed = .ok bytes →
    c.hashed = .ok bytes' → Keccak.hash bytes = Keccak.hash bytes' → bytes = bytes'

/-- **One key, one message**: what is redeemed under one key is one message from one chain. -/
theorem NoCollision.same_message {steps : List Step} (h : NoCollision steps) {s t : Step}
    (hs : s ∈ steps) (ht : t ∈ steps) {a c : Arrival} {digest : Digest} (ha : s.Redeems a digest)
    (hc : t.Redeems c digest) : a.source = c.source ∧ a.delivery.message = c.delivery.message := by
  obtain ⟨bytes, hbytes, hhash⟩ := Arrival.digest_eq_ok.mp ha.2.1
  obtain ⟨bytes', hbytes', hhash'⟩ := Arrival.digest_eq_ok.mp hc.2.1
  have hsame := h a c bytes bytes' ⟨s, hs, digest, ha⟩ ⟨t, ht, digest, hc⟩ hbytes hbytes'
    (hhash.trans hhash'.symm)
  subst hsame
  exact Arrival.hashed_injective hbytes hbytes'

/-! ## §2 Steps -/

variable {b after : Book} {now : Timestamp} {action : Action} {outcome : Outcome}
  {digest : Digest} {voted item : InboxItem} {answer : Answer}

/-- A vote for a transfer that is recorded leaves it where it is. -/
theorem Voted.of_entry (h : Voted b action digest answer voted) {old : InboxItem}
    (hold : b.manager.inbox.get? digest = some old) :
    voted.sourceChain = old.sourceChain ∧ voted.status = old.status := by
  cases h with
  | none _ hitem =>
    cases hitem.symm.trans hold
    exact ⟨rfl, rfl⟩
  | vote _ _ hattest =>
    obtain ⟨_, _, _, rfl⟩ := InboxItem.attest_eq_ok hattest
    simp only [Manager.inbound, hold, Option.getD_some, and_self]

namespace Moves

theorem get?_inbox (h : Moves b action digest voted item answer after) :
    after.manager.inbox.get? digest = some item := by
  rw [h.inbox, SortedMap.get?_insert_self]

/-- A transfer that is moved on was not released. -/
theorem not_released (h : Moves b action digest voted item answer after) {old : InboxItem}
    (hold : b.manager.inbox.get? digest = some old) : old.status ≠ .released := by
  rw [← (h.vote.of_entry hold).2]
  exact h.waits

/-- A transfer that is moved on is what it was before, or what the message of the caller says. -/
theorem origin {s : Step} (h : Moves s.before s.event.action digest voted item answer s.after)
    (hok : s.outcome = .ok answer) :
    (∃ old, s.before.manager.inbox.get? digest = some old ∧ item.sourceChain = old.sourceChain ∧
        item.amount = old.amount ∧ item.recipient = old.recipient) ∨
      ∃ a, s.Redeems a digest ∧ a.Names item := by
  obtain ⟨status, hitem⟩ := h.approval
  obtain ⟨hchain, hamount, hrecipient, _⟩ :=
    voted.tryApprove_frame s.before.manager.config.threshold s.before.manager.config.enabled
  subst hitem
  cases h.vote with
  | none _ hfound => exact .inl ⟨voted, hfound, hchain, hamount, hrecipient⟩
  | @vote a id receipt harrival haccepts hattest hanswer hdigest =>
    obtain ⟨_, votes, _, rfl⟩ := InboxItem.attest_eq_ok hattest
    -- A vote for a transfer that is recorded uses the record, not the message.
    cases hfound : s.before.manager.inbox.get? digest with
    | some old =>
      refine .inl ⟨old, rfl, ?_⟩
      simp only [Manager.inbound, hfound, Option.getD_some] at hchain hamount hrecipient ⊢
      exact ⟨hchain, hamount, hrecipient⟩
    | none =>
      refine .inr ⟨a, ⟨harrival, haccepts.digest, receipt, by rw [hok, hanswer], hdigest⟩, ?_⟩
      simp only [Manager.inbound, hfound, Option.getD_none] at hchain hamount hrecipient ⊢
      exact ⟨hchain, hamount, hrecipient⟩

end Moves

namespace Transition

/-- **A step that credits** moves the transfer on to its release, and pays what it is worth to
its recipient. -/
theorem moves_of_credits (h : Transition b now action outcome after)
    (hcredit : (Step.mk b ⟨now, action⟩ outcome after).Credits digest) :
    ∃ voted item answer, outcome = .ok answer ∧ Moves b action digest voted item answer after ∧
      item.status = .released ∧ item.approved = true ∧
      ∃ amount, item.amount.untrim b.manager.config.tokenDecimals = .ok amount ∧
        (Step.mk b ⟨now, action⟩ outcome after).Pays item.recipient amount := by
  obtain ⟨hsubject, hcredit⟩ := hcredit
  cases h with
  | refused => rcases hcredit with hstatus | htoken <;> contradiction
  | repeated _ _ _ hanswer =>
    rcases hcredit with hstatus | htoken
    · cases hanswer.symm.trans hstatus
    · contradiction
  | @moved _ _ voted item answer _ hmoves =>
    cases hmoves.subject.symm.trans hsubject
    rcases hmoves.payment with ⟨hreleased, happroved, _, amount, huntrim, hpays⟩ |
      ⟨_, hstatus, htoken⟩
    · exact ⟨voted, item, answer, rfl, hmoves, hreleased, happroved, amount, huntrim, hpays⟩
    · exact (hcredit.elim (hstatus ·) (· htoken)).elim
  | waiting haction => cases (Action.subject?_of_pickUp? haction).symm.trans hsubject
  | pickedUp haction => cases (Action.subject?_of_pickUp? haction).symm.trans hsubject
  | configured haction => cases (Action.subject?_of_administers haction).symm.trans hsubject
  | transferred => cases hsubject
  | cancelled => cases hsubject
  | external => cases hsubject

/-- A call that brings a message and credits tokens redeems that message. -/
theorem redeems_of_credits (h : Transition b now action outcome after)
    (hcredit : (Step.mk b ⟨now, action⟩ outcome after).Credits digest) {a : Arrival}
    (harrival : action.arrival? = some a) :
    (Step.mk b ⟨now, action⟩ outcome after).Redeems a digest := by
  obtain ⟨_, _, answer, rfl, hmoves, _⟩ := h.moves_of_credits hcredit
  cases hmoves.vote with
  | none hnone => cases hnone.symm.trans harrival
  | @vote _ _ receipt harrival' haccepts _ hanswer hdigest =>
    cases harrival'.symm.trans harrival
    exact ⟨harrival, haccepts.digest, receipt, by rw [hanswer], hdigest⟩

/-- Every step leaves the inbox alone or moves one transfer on. -/
theorem inbox_eq_or_moves (h : Transition b now action outcome after) :
    after.manager.inbox = b.manager.inbox ∨
      ∃ digest voted item answer, outcome = .ok answer ∧
        Moves b action digest voted item answer after := by
  cases h with
  | moved hmoves => exact .inr ⟨_, _, _, _, rfl, hmoves⟩
  | configured _ _ hconfigures => exact .inl hconfigures.inbox
  | _ => exact .inl rfl

/-- **A released transfer** is left alone by every step, and a call that is about it fails or
finds that it was released before. -/
theorem of_released (h : Transition b now action outcome after) {item : InboxItem}
    (hitem : b.manager.inbox.get? digest = some item) (hreleased : item.status = .released)
    (hsubject : action.subject? = some digest) :
    after = b ∧ ((Step.mk b ⟨now, action⟩ outcome after).inboundStatus? = some .alreadyReleased ∨
      ∃ failure, outcome = .error failure) := by
  cases h with
  | refused => exact ⟨rfl, .inr ⟨_, rfl⟩⟩
  | repeated _ _ _ hanswer => exact ⟨rfl, .inl hanswer⟩
  | moved hmoves =>
    cases hmoves.subject.symm.trans hsubject
    exact absurd hreleased (hmoves.not_released hitem)
  | waiting haction => cases (Action.subject?_of_pickUp? haction).symm.trans hsubject
  | pickedUp haction => cases (Action.subject?_of_pickUp? haction).symm.trans hsubject
  | configured haction => cases (Action.subject?_of_administers haction).symm.trans hsubject
  | transferred => cases hsubject
  | cancelled => cases hsubject
  | external => cases hsubject

/-- An entry of the inbox that is released stays as it is. -/
theorem released_stays (h : Transition b now action outcome after) {item : InboxItem}
    (hitem : b.manager.inbox.get? digest = some item) (hreleased : item.status = .released) :
    after.manager.inbox.get? digest = some item := by
  rcases h.inbox_eq_or_moves with hinbox | ⟨moved, _, _, _, _, hmoves⟩
  · rw [hinbox, hitem]
  · rw [hmoves.inbox, SortedMap.get?_insert_eq_some]
    refine .inr ⟨?_, hitem⟩
    rintro rfl
    exact hmoves.not_released hitem hreleased

end Transition

/-! ## §3 Runs -/

/-- What the inbox remembers of the steps so far. -/
structure Remembers (history : List Step) (b : Book) : Prop where
  /-- Every entry is what a redeemed message says. -/
  named : ∀ digest item, b.manager.inbox.get? digest = some item →
    ∃ s ∈ history, ∃ a, s.Redeems a digest ∧ a.Names item
  /-- What was credited is released. -/
  released : ∀ s ∈ history, ∀ digest, s.Credits digest →
    ∃ item, b.manager.inbox.get? digest = some item ∧ item.status = .released
  /-- Nothing was credited twice. -/
  once : history.Pairwise fun s t => ∀ digest, s.Credits digest → ¬ t.Credits digest

theorem remembers_nil (hinbox : b.manager.inbox = .empty) : Remembers [] b where
  named digest item h := by
    rw [hinbox, SortedMap.get?_empty] at h
    cases h
  released s hs := nomatch hs
  once := .nil

/-- Every step keeps what the inbox remembers. -/
theorem Remembers.step {history : List Step} (h : Remembers history b) (event : Event) :
    Remembers (history ++ [b.step event]) (b.step event).after := by
  have htransition := b.step_transition event
  refine ⟨fun digest item hitem => ?_, fun s hs digest hcredit => ?_, ?_⟩
  · -- Whatever the step does to an entry, what the message says stays.
    have hold (old : InboxItem) (hold : b.manager.inbox.get? digest = some old)
        (hchain : item.sourceChain = old.sourceChain) (hamount : item.amount = old.amount)
        (hrecipient : item.recipient = old.recipient) :
        ∃ s ∈ history ++ [b.step event], ∃ a, s.Redeems a digest ∧ a.Names item := by
      obtain ⟨s, hs, a, ha, hnames⟩ := h.named digest old hold
      exact ⟨s, List.mem_append_left _ hs, a, ha, hchain.trans hnames.1,
        hamount.trans hnames.2.1, hrecipient.trans hnames.2.2⟩
    rcases htransition.inbox_eq_or_moves with hinbox | ⟨moved, voted, item', answer, hok, hmoves⟩
    · rw [hinbox] at hitem
      exact hold item hitem rfl rfl rfl
    · rw [hmoves.inbox, SortedMap.get?_insert_eq_some] at hitem
      rcases hitem with ⟨rfl, rfl⟩ | ⟨_, hitem⟩
      · rcases hmoves.origin (s := b.step event) hok with
          ⟨old, hfound, hchain, hamount, hrecipient⟩ | ⟨a, hredeems, hnames⟩
        · exact hold old hfound hchain hamount hrecipient
        · exact ⟨b.step event, List.mem_concat_self, a, hredeems, hnames⟩
      · exact hold item hitem rfl rfl rfl
  · rcases List.mem_append.mp hs with hs | hs
    · obtain ⟨item, hitem, hreleased⟩ := h.released s hs digest hcredit
      exact ⟨item, htransition.released_stays hitem hreleased, hreleased⟩
    · rw [List.mem_singleton.mp hs] at hcredit
      obtain ⟨_, item, _, _, hmoves, hreleased, _⟩ := htransition.moves_of_credits hcredit
      exact ⟨item, hmoves.get?_inbox, hreleased⟩
  · refine List.pairwise_append.mpr ⟨h.once, List.pairwise_singleton _ _, ?_⟩
    intro s hs t ht digest hcredit hcredit'
    rw [List.mem_singleton.mp ht] at hcredit'
    -- What was credited before is released, and a step that credits finds it unreleased.
    obtain ⟨old, hold, hreleased⟩ := h.released s hs digest hcredit
    obtain ⟨_, _, _, _, hmoves, _⟩ := htransition.moves_of_credits hcredit'
    exact hmoves.not_released hold hreleased

namespace Book

variable {events : List Event} {i j : ℕ} {s t : Step}

/-- **The inbox remembers** the messages and the credits of a run. -/
theorem remembers (hfresh : b.Fresh) (events : List Event) :
    Remembers (b.trace events) (b.run events) :=
  run_induction (remembers_nil hfresh.empty.1) (fun _ _ event h => h.step event) events

theorem remembers_at (hfresh : b.Fresh) (hs : (b.trace events)[i]? = some s) :
    Remembers ((b.trace events).take (i + 1)) s.after :=
  invariant_at (remembers_nil hfresh.empty.1) (fun _ _ event h => h.step event) hs

/-- A step that brings a message and credits tokens redeems that message. -/
theorem redeems_of_credits (hs : (b.trace events)[i]? = some s) (hcredit : s.Credits digest)
    {a : Arrival} (harrival : s.event.action.arrival? = some a) : s.Redeems a digest :=
  (transition_at hs).redeems_of_credits hcredit harrival

/-- A released transfer stays as it is for the rest of a run. -/
theorem released_later (hs : (b.trace events)[i]? = some s) (ht : (b.trace events)[j]? = some t)
    (hij : i ≤ j) {item : InboxItem} (hitem : s.before.manager.inbox.get? digest = some item)
    (hreleased : item.status = .released) : t.before.manager.inbox.get? digest = some item := by
  -- By induction on the later place: every step in between leaves the entry alone.
  induction j generalizing t with
  | zero =>
    cases Nat.le_zero.mp hij
    cases hs.symm.trans ht
    exact hitem
  | succ j ih =>
    rcases Nat.lt_or_ge i (j + 1) with hlt | hge
    · obtain ⟨u, hu⟩ : ∃ u, (b.trace events)[j]? = some u := by
        obtain ⟨hlen, _⟩ := List.getElem?_eq_some_iff.mp ht
        exact ⟨_, List.getElem?_eq_getElem (by omega)⟩
      have hbefore := ih hu (Nat.le_of_lt_succ hlt)
      rw [before_succ hu ht]
      exact (transition_at hu).released_stays hbefore hreleased
    · cases Nat.le_antisymm hij hge
      cases hs.symm.trans ht
      exact hitem

end Book

/-! ## §4 A credit in the sample run -/

namespace Sample

/-- The step that pays for the message. -/
def payment : Step :=
  (away.run (awayEvents.take 3)).step ⟨3, .redeem (address 31) ⟨1⟩ delivery⟩

theorem payment_at : (away.trace awayEvents)[3]? = some payment :=
  Book.trace_getElem? away awayEvents 3

theorem payment_credits : payment.Credits key :=
  ⟨by rw [Action.subject?_of_arrival? rfl, Arrival.digest, key_eq]; rfl,
    .inl (by decide +kernel)⟩

theorem payment_redeems : payment.Redeems ⟨address 31, ⟨1⟩, delivery⟩ key :=
  Book.redeems_of_credits payment_at payment_credits rfl

end Sample

end CrossChain
