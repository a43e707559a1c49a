import CrossChain.Proofs.Forward
import CrossChain.Proofs.Privilege
import CrossChain.Proofs.Redemption

/-!
# Transfers do not disturb each other

All transfers share one outbox, one inbox and two limits for each peer, and every call works on
copies of an entry and of the limits and writes them back. What it writes back is about the one
transfer that the call is about: every other transfer is left alone, and so are the accounts that
have no part in it. The limits are shared by design. A transfer is charged to them when it passes,
in the one call that lets it pass, and however often it is asked for before or afterwards.

Every call about a transfer has a chain, and touches the limits of no other chain. An inbound
transfer is known by the hash of its message, and its chain by the message that came first. Two
messages from two chains with one hash would share an entry, and the chain of the later call would
not be the one that is recorded. So it is assumed that no two messages collide where a message
arrives for a transfer that is recorded already, and nowhere else.

## Main statements

* `Isolated`, `Handles.isolated`: what a call for a transfer leaves alone.
* `Action.chain?`, `Handles.otherLimits`: the limits of other chains than that of a call.
* `Handles.chain?`: the chain of a call and that of the transfer.
* `Book.transfers_isolated`: every call in every run, and that a transfer passes once.
-/

namespace CrossChain

/-! ## §1 Transfers -/

/-- A transfer: an inbound one is known by the key of its message, an outbound one by its number. -/
inductive TransferKey where
  | inbound (digest : Digest)
  | outbound (sequence : UInt64)
deriving DecidableEq

/-- What an inbound and an outbound transfer have in common: what is moved, between which account
here and which other chain, and how far it has come. -/
structure LedgerEntry where
  amount : TrimmedAmount
  account : Address
  chain : ChainId
  status : ReleaseStatus
deriving DecidableEq

def InboxItem.entry (item : InboxItem) : LedgerEntry :=
  ⟨item.amount, item.recipient, item.sourceChain, item.status⟩

def OutboxItem.entry (item : OutboxItem) : LedgerEntry :=
  ⟨item.amount, item.sender, item.recipientChain, item.status⟩

/-- The transfer that an action is about; a new one gets the next number. -/
def Action.key? (m : Manager) : Action → Option TransferKey
  | transfer _ _ => some (.outbound m.nextSequence)
  | releaseOutbound _ sequence _ | publish _ _ sequence _ | cancelOutbound _ sequence =>
    some (.outbound sequence)
  | action => action.subject?.map .inbound

namespace Action

variable {action : Action} {m : Manager}

theorem key?_of_subject? {digest : Digest} (h : action.subject? = some digest) :
    action.key? m = some (.inbound digest) := by
  cases action <;> first | exact congrArg (Option.map TransferKey.inbound) h | cases h

theorem key?_of_pickUp? {transceiver : Address} {sequence : UInt64} {strict : Bool}
    (h : action.pickUp? = some (transceiver, sequence, strict)) :
    action.key? m = some (.outbound sequence) := by
  cases action <;> cases h <;> rfl

theorem pickUp?_of_subject? {digest : Digest} (h : action.subject? = some digest) :
    action.pickUp? = none := by
  cases action <;> first | rfl | cases h

end Action

namespace Manager

/-- What a manager remembers of a transfer. -/
def lookup? (m : Manager) : TransferKey → Option LedgerEntry
  | .inbound digest => (m.inbox.get? digest).map InboxItem.entry
  | .outbound sequence => (m.outbox.get? sequence).map OutboxItem.entry

/-- Whether a transfer is known to have passed. -/
def HasPassed (m : Manager) (key : TransferKey) : Prop :=
  ∃ entry, m.lookup? key = some entry ∧ entry.status = .released

/-- The amount is exchanged between the two limits of a transfer: it takes from the limit of its
own direction and gives to the opposite one. -/
def Exchanges (m m' : Manager) (amount : TrimmedAmount) (now : Timestamp)
    (limit limit' : RateLimit) : TransferKey → Prop
  | .inbound _ => RateLimit.Exchange amount now limit limit' m.outboundLimit m'.outboundLimit
  | .outbound _ => RateLimit.Exchange amount now m.outboundLimit m'.outboundLimit limit limit'

end Manager

/-- A step moves a transfer into the status in which it has passed. -/
def Book.Releases (b : Book) (key : TransferKey) (after : Book) : Prop :=
  ¬ b.manager.HasPassed key ∧ after.manager.HasPassed key

/-- **What a call about one transfer leaves alone.** -/
structure Isolated (b : Book) (event : Event) (key : TransferKey) (after : Book) : Prop where
  inbox : ∀ digest, key ≠ .inbound digest →
    after.manager.inbox.get? digest = b.manager.inbox.get? digest
  outbox : ∀ sequence, key ≠ .outbound sequence →
    after.manager.outbox.get? sequence = b.manager.outbox.get? sequence
  /-- Also what every limit is set to. -/
  settings : b.manager.SameSettings after.manager
  balances : ∀ account,
    (∀ entry, after.manager.lookup? key = some entry → account ≠ entry.account) →
      after.token.balanceOf account = b.token.balanceOf account
  pickUps : event.action.pickUp?.isSome → after.token = b.token
  waits : ¬ b.Releases key after → after.manager.outboundLimit = b.manager.outboundLimit ∧
    after.manager.inboundLimits = b.manager.inboundLimits
  /-- The amount is exchanged once. -/
  passes : b.Releases key after → ∃ entry chain limit limit',
    after.manager.lookup? key = some entry ∧ b.manager.inboundLimits.get? chain = some limit ∧
      after.manager.inboundLimits = b.manager.inboundLimits.insert chain limit' ∧
      b.manager.Exchanges after.manager entry.amount event.now limit limit' key

/-- The limits of all chains but that of the transfer are left alone. -/
def KeepsOtherLimits (b : Book) (key : TransferKey) (after : Book) : Prop :=
  ∀ chain, (∀ entry, after.manager.lookup? key = some entry → chain ≠ entry.chain) →
    after.manager.inboundLimits.get? chain = b.manager.inboundLimits.get? chain

/-! ## §2 The limits -/

namespace Manager

/-- The limits after a transfer was moved on: the amount is exchanged if it passes, and otherwise
they are the same. -/
structure Charges (m m' : Manager) (amount : TrimmedAmount) (now : Timestamp) (key : TransferKey)
    (passes : Prop) : Prop where
  waits : ¬ passes → m'.outboundLimit = m.outboundLimit ∧ m'.inboundLimits = m.inboundLimits
  passed : passes → ∃ chain limit limit', m.inboundLimits.get? chain = some limit ∧
    m'.inboundLimits = m.inboundLimits.insert chain limit' ∧
    m.Exchanges m' amount now limit limit' key

section Charges

variable {m m' : Manager} {amount : TrimmedAmount} {now : Timestamp} {key : TransferKey}
  {passes passes' : Prop} {chain : ChainId} {limit limit' : RateLimit}

theorem Charges.congr (h : m.Charges m' amount now key passes) (hiff : passes' ↔ passes) :
    m.Charges m' amount now key passes' := by
  rw [propext hiff]
  exact h

theorem charges_same (hout : m'.outboundLimit = m.outboundLimit)
    (hin : m'.inboundLimits = m.inboundLimits) (hnot : ¬ passes) :
    m.Charges m' amount now key passes :=
  ⟨fun _ => ⟨hout, hin⟩, fun hpasses => absurd hpasses hnot⟩

theorem charges_outbound {sequence : UInt64} (hlimit : m.inboundLimits.get? chain = some limit)
    (hin : m'.inboundLimits = m.inboundLimits.insert chain limit')
    (h : RateLimit.Charged amount now passes m.outboundLimit m'.outboundLimit limit limit') :
    m.Charges m' amount now (.outbound sequence) passes := by
  refine ⟨fun hnot => ?_, fun hpasses => ⟨chain, limit, limit', hlimit, hin, h.passed hpasses⟩⟩
  obtain ⟨hout, hsame⟩ := h.waits hnot
  rw [hin, hsame, SortedMap.insert_self hlimit]
  exact ⟨hout, rfl⟩

theorem charges_inbound {digest : Digest} (hlimit : m.inboundLimits.get? chain = some limit)
    (hin : m'.inboundLimits = m.inboundLimits.insert chain limit')
    (h : RateLimit.Charged amount now passes limit limit' m.outboundLimit m'.outboundLimit) :
    m.Charges m' amount now (.inbound digest) passes := by
  refine ⟨fun hnot => ?_, fun hpasses => ⟨chain, limit, limit', hlimit, hin, h.passed hpasses⟩⟩
  obtain ⟨hsame, hout⟩ := h.waits hnot
  rw [hin, hsame, SortedMap.insert_self hlimit]
  exact ⟨hout, rfl⟩

end Charges

theorem hasPassed_iff {m : Manager} {key : TransferKey} {entry : LedgerEntry}
    (h : m.lookup? key = some entry) : m.HasPassed key ↔ entry.status = .released := by
  simp only [HasPassed, h, Option.some.injEq, exists_eq_left']

/-- A manager remembers of a transfer what was recorded. -/
theorem lookup?_inbound {m m' : Manager} {digest : Digest} {item : InboxItem}
    (h : m'.inbox = m.inbox.insert digest item) :
    m'.lookup? (.inbound digest) = some item.entry := by
  rw [lookup?, h, SortedMap.get?_insert_self, Option.map_some]

theorem lookup?_outbound {m m' : Manager} {sequence : UInt64} {item : OutboxItem}
    (h : m'.outbox = m.outbox.insert sequence item) :
    m'.lookup? (.outbound sequence) = some item.entry := by
  rw [lookup?, h, SortedMap.get?_insert_self, Option.map_some]

end Manager

/-! ## §3 Steps -/

variable {b after : Book} {now : Timestamp} {action : Action} {event : Event} {key : TransferKey}
  {answer : Answer}

theorem Isolated.refl (b : Book) (event : Event) (key : TransferKey) : Isolated b event key b where
  inbox _ _ := rfl
  outbox _ _ := rfl
  settings := .refl _
  balances _ _ := rfl
  pickUps _ := rfl
  waits _ := ⟨rfl, rfl⟩
  passes h := absurd h.2 h.1

theorem Book.releases_iff {entry : LedgerEntry} (h : after.manager.lookup? key = some entry) :
    b.Releases key after ↔ ¬ b.manager.HasPassed key ∧ entry.status = .released := by
  rw [Releases, Manager.hasPassed_iff h]

/-- Helper: an inbound transfer that is recorded. -/
private theorem isolated_inbound {digest : Digest} {item : InboxItem}
    (hsettings : b.manager.SameSettings after.manager)
    (hinbox : after.manager.inbox = b.manager.inbox.insert digest item)
    (houtbox : after.manager.outbox = b.manager.outbox)
    (hbalances : ∀ account, account ≠ item.recipient →
      after.token.balanceOf account = b.token.balanceOf account)
    (hpickUp : event.action.pickUp? = none)
    (hcharges : b.manager.Charges after.manager item.amount event.now (.inbound digest)
      (¬ b.manager.HasPassed (.inbound digest) ∧ item.status = .released)) :
    Isolated b event (.inbound digest) after := by
  have hentry : after.manager.lookup? (.inbound digest) = some item.entry :=
    Manager.lookup?_inbound hinbox
  have hcharges := hcharges.congr (Book.releases_iff hentry)
  refine ⟨fun other hother => ?_, fun _ _ => by rw [houtbox], hsettings, fun account hnot => ?_,
    fun hsome => ?_, hcharges.waits, fun hpasses => ?_⟩
  · rw [hinbox]
    exact SortedMap.get?_insert_of_ne item fun hsame => hother (hsame ▸ rfl)
  · exact hbalances account (hnot item.entry hentry)
  · rw [hpickUp] at hsome
    cases hsome
  · obtain ⟨chain, limit, limit', hlimits⟩ := hcharges.passed hpasses
    exact ⟨item.entry, chain, limit, limit', hentry, hlimits⟩

/-- Helper: an outbound transfer that is recorded. -/
private theorem isolated_outbound {sequence : UInt64} {item : OutboxItem}
    (hsettings : b.manager.SameSettings after.manager)
    (hinbox : after.manager.inbox = b.manager.inbox)
    (houtbox : after.manager.outbox = b.manager.outbox.insert sequence item)
    (hbalances : ∀ account, account ≠ item.sender →
      after.token.balanceOf account = b.token.balanceOf account)
    (hpickUps : event.action.pickUp?.isSome → after.token = b.token)
    (hcharges : b.manager.Charges after.manager item.amount event.now (.outbound sequence)
      (¬ b.manager.HasPassed (.outbound sequence) ∧ item.status = .released)) :
    Isolated b event (.outbound sequence) after := by
  have hentry : after.manager.lookup? (.outbound sequence) = some item.entry :=
    Manager.lookup?_outbound houtbox
  have hcharges := hcharges.congr (Book.releases_iff hentry)
  refine ⟨fun _ _ => by rw [hinbox], fun other hother => ?_, hsettings, fun account hnot => ?_,
    hpickUps, hcharges.waits, fun hpasses => ?_⟩
  · rw [houtbox]
    exact SortedMap.get?_insert_of_ne item fun hsame => hother (hsame ▸ rfl)
  · exact hbalances account (hnot item.entry hentry)
  · obtain ⟨chain, limit, limit', hlimits⟩ := hcharges.passed hpasses
    exact ⟨item.entry, chain, limit, limit', hentry, hlimits⟩

/-- Helper: an inbound transfer that a call moves on has not passed. -/
private theorem not_hasPassed_of_voted {digest : Digest} {voted : InboxItem}
    (h : Voted b action digest answer voted) (hwaits : voted.status ≠ .released) :
    ¬ b.manager.HasPassed (.inbound digest) := by
  rintro ⟨entry, hentry, hstatus⟩
  obtain ⟨old, hold, rfl⟩ := Option.map_eq_some_iff.mp hentry
  exact hwaits ((h.of_entry hold).2.trans hstatus)

/-- Helper: the number of a new transfer was not given out before. -/
private theorem not_hasPassed_of_sends {sender : Address} {request : TransferRequest}
    {plan : TransferPlan} (hsound : b.manager.OutboxSound)
    (hsends : b.manager.Sends sender now request plan) :
    ¬ b.manager.HasPassed (.outbound plan.item.sequence) := by
  rintro ⟨entry, hentry, _⟩
  obtain ⟨old, hold, _⟩ := Option.map_eq_some_iff.mp hentry
  have hbelow := (hsound.keys _).mp (Option.isSome_iff_exists.mpr ⟨old, hold⟩)
  rw [hsends.sequence.1] at hbelow
  exact UInt64.lt_irrefl _ hbelow

/-- **A call for a transfer** leaves all others alone. -/
theorem Handles.isolated (h : Handles b now action answer after)
    (hsound : b.manager.OutboxSound) :
    ∃ key, action.key? b.manager = some key ∧ Isolated b ⟨now, action⟩ key after := by
  have hsettings := h.sameSettings
  cases h with
  | repeated hsubject => exact ⟨_, Action.key?_of_subject? hsubject, .refl b _ _⟩
  | voted hsubject _ hwaits hitem =>
    refine ⟨_, Action.key?_of_subject? hsubject, ?_⟩
    apply isolated_inbound hsettings rfl rfl (fun _ _ => rfl) (Action.pickUp?_of_subject? hsubject)
    have hnot := hitem ▸ InboxItem.tryApprove_ne_released hwaits
    exact Manager.charges_same rfl rfl fun hpasses => hnot hpasses.2
  | settled hsubject hvoted hwaits hitem _ hsettles hpaid =>
    obtain ⟨limit, hlimit, hcharged⟩ :=
      hsettles.charged (hitem ▸ InboxItem.tryApprove_ne_released hwaits)
    refine ⟨_, Action.key?_of_subject? hsubject, ?_⟩
    apply isolated_inbound hsettings rfl rfl ?_ (Action.pickUp?_of_subject? hsubject)
    · exact (Manager.charges_inbound hlimit rfl hcharged).congr
        (and_iff_right (not_hasPassed_of_voted hvoted hwaits))
    · intro account hother
      unfold Settlement.Paid at hpaid
      split at hpaid
      next => exact Token.balanceOf_other_of_credit hpaid hother
      next => rw [hpaid]
  | transferred hsends hdebit =>
    obtain ⟨limit, hlimit, hcharged⟩ := hsends.charged
    refine ⟨.outbound b.manager.nextSequence, rfl, ?_⟩
    rw [← hsends.sequence.1]
    apply isolated_outbound hsettings rfl rfl ?_ (by rintro ⟨⟩)
    · exact (Manager.charges_outbound hlimit rfl hcharged).congr
        (and_iff_right (not_hasPassed_of_sends hsound hsends))
    · rw [hsends.sender]
      exact fun account hother => Token.balanceOf_of_debit hdebit hother
  | waiting haction _ hitem _ hwaits =>
    obtain ⟨limit, time, gate, _, ⟨time', hqueued⟩, hpasses, rfl⟩ := hwaits.queued
    refine ⟨_, Action.key?_of_pickUp? haction, ?_⟩
    apply isolated_outbound hsettings rfl rfl (fun _ _ => rfl) (fun _ => rfl)
    refine Manager.charges_same rfl rfl fun hpassed => ?_
    cases (hpasses.eq_released (by simp [hqueued])).mp hpassed.2
  | @pickedUp _ _ _ _ _ item _ _ _ _ haction _ _ hitem _ hhands =>
    obtain ⟨limit, hlimit, hcharged⟩ := hhands.charged
    obtain ⟨_, released, _, rfl⟩ := hhands.pickedUp
    refine ⟨_, Action.key?_of_pickUp? haction, ?_⟩
    apply isolated_outbound hsettings rfl rfl (fun _ _ => rfl) (fun _ => rfl)
    -- It has passed now, so this call let it pass unless it had passed before.
    apply (Manager.charges_outbound hlimit rfl hcharged).congr
    have hentry : b.manager.lookup? (.outbound _) = some item.entry :=
      Option.map_eq_some_iff.mpr ⟨_, hitem, rfl⟩
    rw [Manager.hasPassed_iff hentry]
    exact and_iff_left rfl
  | cancelled hitem _ _ hqueued _ hcredit =>
    obtain ⟨time, hqueued⟩ := hqueued
    refine ⟨.outbound _, rfl, ?_⟩
    apply isolated_outbound hsettings rfl rfl
      (fun _ hother => Token.balanceOf_other_of_credit hcredit hother) (by rintro ⟨⟩)
    refine Manager.charges_same rfl rfl fun hpassed => ?_
    cases hqueued.symm.trans hpassed.2

/-! ## §4 The limits of other chains -/

/-- The chain of a call about a transfer: the one that a sender names, that a message comes from, or
that was recorded with the transfer. -/
def Action.chain? (m : Manager) : Action → Option ChainId
  | transfer _ request => some request.recipientChain
  | releaseOutbound _ sequence _ | publish _ _ sequence _ | cancelOutbound _ sequence =>
    (m.outbox.get? sequence).map OutboxItem.recipientChain
  | releaseInbound digest _ => (m.inbox.get? digest).map InboxItem.sourceChain
  | action => action.arrival?.map Arrival.source

namespace Action

variable {m : Manager}

theorem chain?_of_arrival? {a : Arrival} (h : action.arrival? = some a) :
    action.chain? m = some a.source := by
  cases action <;> first | exact congrArg (Option.map Arrival.source) h | cases h

theorem chain?_of_subject? {digest : Digest} (harrival : action.arrival? = none)
    (hsubject : action.subject? = some digest) :
    action.chain? m = (m.inbox.get? digest).map InboxItem.sourceChain := by
  cases action with
  | releaseInbound _ _ =>
    cases hsubject
    rfl
  | _ =>
    -- Only a message that arrives tells the key of an inbound transfer otherwise.
    simp [subject?, harrival] at hsubject

theorem chain?_of_pickUp? {transceiver : Address} {sequence : UInt64} {strict : Bool}
    (h : action.pickUp? = some (transceiver, sequence, strict)) :
    action.chain? m = (m.outbox.get? sequence).map OutboxItem.recipientChain := by
  cases action <;> cases h <;> rfl

end Action

/-- The chain of a call for an inbound transfer is the one through whose limit the transfer is moved
on. -/
theorem Voted.chain? {digest : Digest} {voted item : InboxItem}
    (h : Voted b action digest answer voted) (hsubject : action.subject? = some digest)
    (hitem : item.sourceChain = voted.sourceChain) :
    action.chain? b.manager = some (action.chainOf item) := by
  cases h with
  | vote harrival =>
    rw [Action.chain?_of_arrival? harrival, Action.chainOf, harrival]
    rfl
  | none harrival hvoted =>
    rw [Action.chain?_of_subject? harrival hsubject, hvoted, Action.chainOf, harrival,
      Option.map_some, ← hitem]
    rfl

/-- **A call for a transfer** leaves the limits of other chains than its own alone. -/
theorem Handles.otherLimits (h : Handles b now action answer after) {chain : ChainId}
    (hchain : action.chain? b.manager ≠ some chain) :
    after.manager.inboundLimits.get? chain = b.manager.inboundLimits.get? chain := by
  cases h with
  | repeated | voted | waiting | cancelled => rfl
  | @settled _ digest voted item s _ _ hsubject hvoted _ hitem _ hsettles =>
    have hsame := (voted.tryApprove_frame b.manager.config.threshold b.manager.config.enabled).1
    rw [hvoted.chain? hsubject (hitem ▸ hsame), ← hsettles.via] at hchain
    exact SortedMap.get?_insert_of_ne _ fun hother => hchain (hother ▸ rfl)
  | transferred hsends =>
    have hvia := hsends.chain.2
    exact SortedMap.get?_insert_of_ne _ fun hother =>
      hchain (congrArg some (hvia.symm.trans hother.symm))
  | pickedUp haction _ _ hitem _ hout =>
    obtain ⟨_, released, _, rfl⟩ := hout.pickedUp
    rw [Action.chain?_of_pickUp? haction, hitem] at hchain
    exact SortedMap.get?_insert_of_ne _ fun hother => hchain (hother ▸ rfl)

/-- A step that redeems a message finds it recorded as coming from where it comes from. -/
def Step.SameChain (s : Step) : Prop :=
  ∀ a digest old, s.Redeems a digest → s.before.manager.inbox.get? digest = some old →
    old.sourceChain = a.source

/-- Helper: the chain of a call for an inbound transfer is recorded with it. -/
private theorem chain?_eq_recorded {digest : Digest} {voted : InboxItem}
    (h : Voted b action digest answer voted) (hsubject : action.subject? = some digest)
    (hsame : (Step.mk b ⟨now, action⟩ (.ok answer) after).SameChain) :
    action.chain? b.manager = some voted.sourceChain := by
  cases h with
  | none harrival hvoted =>
    rw [Action.chain?_of_subject? harrival hsubject, hvoted, Option.map_some]
  | @vote a _ receipt harrival haccepts hattest hanswer hdigest =>
    rw [Action.chain?_of_arrival? harrival]
    obtain ⟨_, votes, _, rfl⟩ := InboxItem.attest_eq_ok hattest
    -- A message that comes first is recorded with its chain.
    unfold Manager.inbound
    cases hfound : b.manager.inbox.get? digest with
    | none => rfl
    | some old =>
      have hredeems : (Step.mk b ⟨now, action⟩ (.ok answer) after).Redeems a digest :=
        ⟨harrival, haccepts.digest, receipt, by rw [hanswer], hdigest⟩
      exact congrArg some (hsame a digest old hredeems hfound).symm

/-- **The chain of a call** that changes something is that of the transfer. -/
theorem Handles.chain? (h : Handles b now action answer after)
    (hkey : action.key? b.manager = some key) (hchanged : after ≠ b)
    (hsame : (Step.mk b ⟨now, action⟩ (.ok answer) after).SameChain) :
    ∃ entry, after.manager.lookup? key = some entry ∧
      action.chain? b.manager = some entry.chain := by
  cases h with
  | repeated => exact absurd rfl hchanged
  -- A vote does not change where a transfer came from, whether it approves it or not.
  | @voted _ _ voted _ _ hsubject hvoted _ hitem =>
    cases (Action.key?_of_subject? hsubject).symm.trans hkey
    have hframe := (voted.tryApprove_frame b.manager.config.threshold b.manager.config.enabled).1
    refine ⟨_, Manager.lookup?_inbound rfl, ?_⟩
    rw [chain?_eq_recorded hvoted hsubject hsame, ← hframe, ← hitem]
    rfl
  | @settled _ _ voted _ _ _ _ hsubject hvoted _ hitem _ hsettles =>
    cases (Action.key?_of_subject? hsubject).symm.trans hkey
    obtain ⟨_, _, _, _, hs, _⟩ := hsettles.gate
    have hframe := (voted.tryApprove_frame b.manager.config.threshold b.manager.config.enabled).1
    refine ⟨_, Manager.lookup?_inbound rfl, ?_⟩
    rw [chain?_eq_recorded hvoted hsubject hsame, ← hframe, ← hitem, hs]
    rfl
  | @transferred _ _ plan _ hsends =>
    have hentry : (b.manager.recordTransfer plan).lookup? (.outbound plan.item.sequence) =
        some plan.item.entry := Manager.lookup?_outbound rfl
    rw [hsends.sequence.1] at hentry
    cases hkey
    exact ⟨_, hentry, congrArg some hsends.chain.2.symm⟩
  -- A transfer that was sent before keeps the chain that it goes to.
  | waiting haction _ hitem _ hwaits =>
    cases (Action.key?_of_pickUp? haction).symm.trans hkey
    obtain ⟨_, _, _, _, _, _, rfl⟩ := hwaits.queued
    refine ⟨_, Manager.lookup?_outbound rfl, ?_⟩
    rw [Action.chain?_of_pickUp? haction, hitem]
    rfl
  | pickedUp haction _ _ hitem _ hout =>
    cases (Action.key?_of_pickUp? haction).symm.trans hkey
    obtain ⟨_, _, _, rfl⟩ := hout.pickedUp
    refine ⟨_, Manager.lookup?_outbound rfl, ?_⟩
    rw [Action.chain?_of_pickUp? haction, hitem]
    rfl
  | cancelled hitem =>
    cases hkey
    refine ⟨_, Manager.lookup?_outbound rfl, ?_⟩
    rw [Action.chain?, hitem]
    rfl

/-! ## §5 Runs -/

/-- What has passed stays so. -/
theorem Manager.Forward.hasPassed {m m' : Manager} {times : List Timestamp}
    (h : m.Forward times m') (hpassed : m.HasPassed key) : m'.HasPassed key := by
  obtain ⟨entry, hentry, hstatus⟩ := hpassed
  cases key with
  | inbound digest =>
    obtain ⟨item, hitem, rfl⟩ := Option.map_eq_some_iff.mp hentry
    obtain ⟨item', hitem', hforward⟩ := h.inbox digest item hitem
    exact ⟨item'.entry, Option.map_eq_some_iff.mpr ⟨item', hitem', rfl⟩,
      hforward.status.released hstatus⟩
  | outbound sequence =>
    obtain ⟨item, hitem, rfl⟩ := Option.map_eq_some_iff.mp hentry
    obtain ⟨item', hitem', hforward⟩ := h.outbox sequence item hitem
    exact ⟨item'.entry, Option.map_eq_some_iff.mpr ⟨item', hitem', rfl⟩,
      hforward.status.released hstatus⟩

/-- A message arrives for an inbound transfer that is recorded already. -/
def Step.Recurs (s : Step) (key : TransferKey) : Prop :=
  ∃ a digest old, s.event.action.arrival? = some a ∧ key = .inbound digest ∧
    s.before.manager.inbox.get? digest = some old

/-- A call about a transfer changes a limit. -/
def Step.Consumes (s : Step) (key : TransferKey) : Prop :=
  s.event.action.MovesValue ∧ s.event.action.key? s.before.manager = some key ∧
    ¬ (s.after.manager.outboundLimit = s.before.manager.outboundLimit ∧
      s.after.manager.inboundLimits = s.before.manager.inboundLimits)

namespace Book

variable {events : List Event} {i j : ℕ} {s t : Step}

/-- A message that is redeemed is recorded as coming from where it comes from, unless it collides
with another one. -/
theorem sameChain (hfresh : b.Fresh) (hcollision : NoCollision (b.trace events))
    (hs : s ∈ b.trace events) : s.SameChain := by
  obtain ⟨i, hi⟩ := List.mem_iff_getElem?.mp hs
  intro a digest old hredeems hold
  rw [before_eq hi] at hold
  obtain ⟨t, ht, c, hc, hnames⟩ := (remembers hfresh (events.take i)).named digest old hold
  rw [← take_trace] at ht
  obtain ⟨hsource, _⟩ := hcollision.same_message (List.mem_of_mem_take ht) hs hc hredeems
  exact hnames.1.trans hsource

/-- **A transfer passes once**, in whichever call. -/
theorem released_once (hfresh : b.Fresh) (hs : (b.trace events)[i]? = some s)
    (ht : (b.trace events)[j]? = some t) (hs' : s.before.Releases key s.after)
    (ht' : t.before.Releases key t.after) : i = j := by
  -- Of two steps the later one finds that the transfer has passed.
  have hlater {i j : ℕ} {s t : Step} (hs : (b.trace events)[i]? = some s)
      (ht : (b.trace events)[j]? = some t) (hij : i < j) (hs' : s.before.Releases key s.after) :
      ¬ t.before.Releases key t.after := by
    obtain ⟨between, hbetween⟩ := before_eq_run hs ht hij
    have hsound : s.after.manager.Sound := after_eq hs ▸ hfresh.sound_run _
    have hpassed := (hsound.forward_run between).hasPassed hs'.2
    exact fun ht' => ht'.1 (hbetween ▸ hpassed)
  rcases Nat.lt_trichotomy i j with hij | hij | hij
  · exact absurd ht' (hlater hs ht hij hs')
  · exact hij
  · exact absurd hs' (hlater ht hs hij ht')

/-- A call in a run is refused, or does what a call can do to a manager that is sound. -/
theorem handled_at (hfresh : b.Fresh) (hs : s ∈ b.trace events)
    (hvalue : s.event.action.MovesValue) :
    s.after = s.before ∨ ∃ answer, s.outcome = .ok answer ∧ s.before.manager.Sound ∧
      Handles s.before s.event.now s.event.action answer s.after := by
  obtain ⟨i, hi⟩ := List.mem_iff_getElem?.mp hs
  rw [trace_getElem?, Option.map_eq_some_iff] at hi
  obtain ⟨event, _, rfl⟩ := hi
  rcases (b.run (events.take i)).step_handled hvalue with hrefused | ⟨answer, hok, hhandles⟩
  · exact .inl hrefused
  · exact .inr ⟨answer, hok, hfresh.sound_run _, hhandles⟩

/-- A call about a transfer, at any point of a run. -/
theorem isolated_at (hfresh : b.Fresh) (hs : s ∈ b.trace events)
    (hvalue : s.event.action.MovesValue)
    (hkey : s.event.action.key? s.before.manager = some key) :
    Isolated s.before s.event key s.after := by
  rcases handled_at hfresh hs hvalue with hsame | ⟨answer, _, hsound, hhandles⟩
  · rw [hsame]
    exact .refl _ _ _
  · obtain ⟨_, hkey', hisolated⟩ := hhandles.isolated hsound.outbox
    cases hkey.symm.trans hkey'
    exact hisolated

/-- A call in a run leaves the limits of other chains than its own alone. -/
theorem otherLimits_at (hfresh : b.Fresh) (hs : s ∈ b.trace events)
    (hvalue : s.event.action.MovesValue) {chain : ChainId}
    (hchain : s.event.action.chain? s.before.manager ≠ some chain) :
    s.after.manager.inboundLimits.get? chain = s.before.manager.inboundLimits.get? chain := by
  rcases handled_at hfresh hs hvalue with hrefused | ⟨answer, _, _, hhandles⟩
  · rw [hrefused]
  · exact hhandles.otherLimits hchain

/-- A call in a run that changes something is about the chain that is recorded with the transfer. -/
theorem chain?_at (hfresh : b.Fresh) (hs : s ∈ b.trace events)
    (hcollision : s.Recurs key → NoCollision (b.trace events))
    (hvalue : s.event.action.MovesValue)
    (hkey : s.event.action.key? s.before.manager = some key) (hchanged : s.after ≠ s.before) :
    ∃ entry, s.after.manager.lookup? key = some entry ∧
      s.event.action.chain? s.before.manager = some entry.chain := by
  have hsame : s.SameChain := by
    intro a digest old hredeems hold
    have hsubject : s.event.action.subject? = some digest := by
      rw [Action.subject?_of_arrival? hredeems.1, hredeems.2.1]
      rfl
    cases (Action.key?_of_subject? hsubject).symm.trans hkey
    have hrecurs : s.Recurs (.inbound digest) := ⟨a, digest, old, hredeems.1, rfl, hold⟩
    exact sameChain hfresh (hcollision hrecurs) hs a digest old hredeems hold
  rcases handled_at hfresh hs hvalue with hrefused | ⟨answer, hok, _, hhandles⟩
  · exact absurd hrefused hchanged
  · refine hhandles.chain? hkey hchanged ?_
    rw [← hok]
    exact hsame

theorem keepsOtherLimits_at (hfresh : b.Fresh) (hs : s ∈ b.trace events)
    (hcollision : s.Recurs key → NoCollision (b.trace events))
    (hvalue : s.event.action.MovesValue)
    (hkey : s.event.action.key? s.before.manager = some key) :
    KeepsOtherLimits s.before key s.after := by
  intro chain hother
  by_cases hchanged : s.after = s.before
  · rw [hchanged]
  · obtain ⟨entry, hentry, hown⟩ := chain?_at hfresh hs hcollision hvalue hkey hchanged
    refine otherLimits_at hfresh hs hvalue fun hchain => ?_
    exact hother entry hentry (Option.some.inj (hchain.symm.trans hown))

theorem unchanged_of_none (hfresh : b.Fresh) (hs : s ∈ b.trace events)
    (hvalue : s.event.action.MovesValue)
    (hnone : s.event.action.key? s.before.manager = none) : s.after = s.before := by
  rcases handled_at hfresh hs hvalue with hrefused | ⟨answer, _, hsound, hhandles⟩
  · exact hrefused
  · obtain ⟨key, hkey, _⟩ := hhandles.isolated hsound.outbox
    cases hnone.symm.trans hkey

/-- **Transfers do not disturb each other.** In every run of a manager that was just created, and
for every call that can move value, whoever makes it and whenever,

* a call that is about no transfer changes nothing;
* a call that is about a transfer leaves alone every other transfer in the inbox and the outbox,
  whatever every limit is set to, every balance but that of the transfer's own account, and all
  tokens if a transceiver picks the transfer up;
* the limits stay the same unless the call lets the transfer pass; then its amount is taken once
  from one limit and given back once to the opposite one;
* the limits of all chains but that of the call stay the same. The chain of a call that changes
  something is that of the transfer, so that the limits of all other chains stay the same; only if a
  message arrives for a transfer that is recorded already must it not collide with another one;
* one step at most lets a transfer pass, so one call at most consumes capacity for it. -/
theorem transfers_isolated (hfresh : b.Fresh) (events : List Event) :
    (∀ s ∈ b.trace events, s.event.action.MovesValue →
      (s.event.action.key? s.before.manager = none → s.after = s.before) ∧
      (∀ chain, s.event.action.chain? s.before.manager ≠ some chain →
        s.after.manager.inboundLimits.get? chain = s.before.manager.inboundLimits.get? chain) ∧
      ∀ key, s.event.action.key? s.before.manager = some key →
        Isolated s.before s.event key s.after ∧
        ((s.Recurs key → NoCollision (b.trace events)) →
          (s.after ≠ s.before → ∃ entry, s.after.manager.lookup? key = some entry ∧
            s.event.action.chain? s.before.manager = some entry.chain) ∧
          KeepsOtherLimits s.before key s.after)) ∧
    (∀ (i j : ℕ) (s t : Step) (key : TransferKey), (b.trace events)[i]? = some s →
      (b.trace events)[j]? = some t → s.before.Releases key s.after →
      t.before.Releases key t.after → i = j) ∧
    ∀ (i j : ℕ) (s t : Step) (key : TransferKey), (b.trace events)[i]? = some s →
      (b.trace events)[j]? = some t → s.Consumes key → t.Consumes key → i = j := by
  -- Who takes from a limit lets the transfer pass, which happens once.
  have hconsumes {s : Step} {key : TransferKey} (hs : s ∈ b.trace events)
      (h : s.Consumes key) : s.before.Releases key s.after := by
    obtain ⟨hvalue, hkey, hchanged⟩ := h
    by_contra hnot
    exact hchanged ((isolated_at hfresh hs hvalue hkey).waits hnot)
  refine ⟨fun s hs hvalue => ⟨fun hnone => ?_, fun chain hchain => ?_,
      fun key hkey => ⟨?_, fun hcollision => ⟨fun hchanged => ?_, ?_⟩⟩⟩,
    fun i j s t key hs ht => released_once hfresh hs ht, fun i j s t key hs ht hs' ht' => ?_⟩
  · exact unchanged_of_none hfresh hs hvalue hnone
  · exact otherLimits_at hfresh hs hvalue hchain
  · exact isolated_at hfresh hs hvalue hkey
  · exact chain?_at hfresh hs hcollision hvalue hkey hchanged
  · exact keepsOtherLimits_at hfresh hs hcollision hvalue hkey
  · exact released_once hfresh hs ht (hconsumes (List.mem_of_getElem? hs) hs')
      (hconsumes (List.mem_of_getElem? ht) ht')

end Book

namespace Sample

/-- The step that pays for the message on the second chain leaves the limits of other chains and the
outbox alone, and is the only one that consumes capacity for it. -/
theorem payment_isolated :
    KeepsOtherLimits payment.before (.inbound Sample.key) payment.after ∧
      (∀ sequence, payment.after.manager.outbox.get? sequence =
        payment.before.manager.outbox.get? sequence) ∧
      ∀ (j : ℕ) (t : Step), (away.trace awayEvents)[j]? = some t →
        t.Consumes (.inbound Sample.key) → j = 3 := by
  obtain ⟨hcalls, _, honce⟩ := Book.transfers_isolated away_fresh awayEvents
  have hkey : payment.event.action.key? payment.before.manager = some (.inbound Sample.key) :=
    Action.key?_of_subject? payment_credits.1
  obtain ⟨_, _, hisolated⟩ := hcalls payment (List.mem_of_getElem? payment_at) trivial
  obtain ⟨hpayment, hothers⟩ := hisolated (.inbound Sample.key) hkey
  have hconsumes : payment.Consumes (.inbound Sample.key) :=
    ⟨trivial, hkey, fun hsame => absurd hsame.1 (by decide +kernel)⟩
  exact ⟨(hothers fun _ => away_noCollision).2, fun sequence => hpayment.outbox sequence nofun,
    fun j t ht hconsumed => honce j 3 t payment _ ht payment_at hconsumed hconsumes⟩

end Sample

end CrossChain
