import CrossChain.Proofs.Canonical
import CrossChain.Proofs.Delivery
import CrossChain.Proofs.Limits

/-!
# What a manager may remember

The operations of a manager write to one state, and each relies on what the others leave: a transfer
may be recorded because its number is free, taken back because nobody has picked it up, moved on
because its chain has a limit. What they rely on is one invariant of the whole state, and every
operation keeps all of it.

An item of the inbox or the outbox refers to the peers and the transceivers of the manager. Those
are never forgotten, so an item that nobody touches stays as good as it was.

## Main statements

* `OutboxItem.ProperFor`, `InboxItem.ProperFor`: what holds of an item.
* `Manager.Sound`, `Manager.Sound.step`: what holds of a manager, and that a step keeps it.
* `Book.run_sound`: runs.
-/

namespace CrossChain

/-! ## §1 Instructions for transceivers -/

namespace Instructions

/-- What the check of a list asks for of the indices. -/
theorem ascending_of_checkFrom {previous : Option UInt8} {entries : List Instruction} {u : Unit}
    (h : checkFrom previous entries = .ok u) :
    (∀ last, previous = some last → ∀ entry ∈ entries, last < entry.index) ∧
      entries.Pairwise fun a b => a.index < b.index := by
  -- The index before the list is that of the entry that was checked last.
  induction entries generalizing previous with
  | nil =>
    refine ⟨?_, .nil⟩
    intro _ _ entry hentry
    cases hentry
  | cons entry rest ih =>
    simp only [checkFrom, guard_eq_ok] at h
    obtain ⟨_, h⟩ := h
    cases previous with
    | none =>
      obtain ⟨habove, hrest⟩ := ih h
      refine ⟨?_, .cons (habove entry.index rfl) hrest⟩
      intro _ hlast
      cases hlast
    | some last =>
      rw [guard_eq_ok] at h
      obtain ⟨habove, hrest⟩ := ih h.2
      have hlast : last < entry.index := UInt8.not_le.mp h.1
      refine ⟨?_, .cons (habove entry.index rfl) hrest⟩
      intro _ hsame other hother
      cases hsame
      rcases List.mem_cons.mp hother with rfl | hother
      · exact hlast
      · exact UInt8.lt_trans hlast (habove entry.index rfl other hother)

/-- A list for registered transceivers, in strictly ascending order. -/
structure AscendingBelow (list : Instructions) (next : UInt8) : Prop where
  ascending : list.entries.Pairwise fun a b => a.index < b.index
  below : ∀ entry ∈ list.entries, entry.index.toNat < next.toNat

/-- The last index of a list is its greatest. -/
theorem index_le_last {list : Instructions} {index : UInt8}
    (hascending : list.entries.Pairwise fun a b => a.index < b.index)
    (hlast : list.lastIndex? = some index) : ∀ entry ∈ list.entries, entry.index ≤ index := by
  obtain ⟨last, hfound, rfl⟩ := Option.map_eq_some_iff.mp hlast
  obtain ⟨init, hinit⟩ := List.getLast?_eq_some_iff.mp hfound
  rw [hinit] at hascending ⊢
  intro entry hentry
  rcases List.mem_append.mp hentry with hbefore | hsame
  · have hless := (List.pairwise_append.mp hascending).2.2 entry hbefore last
      (List.mem_singleton_self last)
    exact UInt8.le_of_lt hless
  · rw [List.mem_singleton.mp hsame]
    exact UInt8.le_refl _

/-- **The instructions of a request** that passed the checks. -/
theorem ascendingBelow_of_read {bytes : Bytes} {registered : UInt8} {list : Instructions}
    (h : readInstructions bytes registered = .ok list) : list.AscendingBelow registered := by
  unfold readInstructions at h
  split at h
  next =>
    cases h
    refine ⟨.nil, ?_⟩
    intro entry hentry
    cases hentry
  next =>
    split at h
    next => cases h
    next read hread =>
      rw [Wire.decode, Format.decode_eq_ok_iff_read, read_eq_ok, ofList_eq_ok] at hread
      have hascending : read.entries.Pairwise fun a b => a.index < b.index := by
        have hcheck := hread.1
        rw [check, guard_eq_ok] at hcheck
        exact (ascending_of_checkFrom hcheck.2).2
      split at h
      next hnone =>
        cases h
        have hempty : list.entries = [] := by simpa [lastIndex?] using hnone
        exact ⟨hascending, by simp [hempty]⟩
      -- The last index is the greatest, so one check bounds them all.
      next index hlast =>
        rw [guard_eq_ok] at h
        obtain ⟨hbelow, h⟩ := h
        cases h
        refine ⟨hascending, ?_⟩
        intro entry hentry
        have hle := index_le_last hascending hlast entry hentry
        rw [UInt8.not_le, UInt8.lt_iff_toNat_lt] at hbelow
        exact lt_of_le_of_lt (UInt8.le_iff_toNat_le.mp hle) hbelow

end Instructions

/-! ## §2 Items -/

/-- What a manager lets an outbound transfer be. -/
structure OutboxItem.ProperFor (item : OutboxItem) (m : Manager) : Prop where
  amount : item.amount.amount ≠ 0
  decimals : item.amount.decimals.toNat ≤ m.precision
  recipient : item.recipient ≠ Address.zero
  peer : ∃ peer, m.peers.get? item.recipientChain = some peer
  status : (∃ time, item.status = .queued time) ∨ item.status = .released
  /-- Who took a transfer back did so while it waited. -/
  cancelled : item.cancelled = true → ∃ time, item.status = .queued time
  released : ∀ id, item.released.Mem id →
    item.status = .released ∧ ∃ t ∈ m.transceivers, t.id = id
  instructions : item.instructions.AscendingBelow m.config.nextTransceiver

/-- The approval of an inbound transfer and its gate go together. -/
def InboxItem.Staged (item : InboxItem) : Prop :=
  (item.approved = false ∧ item.status = .notApproved) ∨
    (item.approved = true ∧ ((∃ time, item.status = .queued time) ∨ item.status = .released))

/-- What a manager lets an inbound transfer be. -/
structure InboxItem.ProperFor (item : InboxItem) (m : Manager) : Prop where
  voted : ∃ id, item.votes.Mem id
  votes : ∀ id, item.votes.Mem id → ∃ t ∈ m.transceivers, t.id = id
  peer : ∃ peer, m.peers.get? item.sourceChain = some peer
  stage : item.Staged

section Items

variable {m m' : Manager} {now : Timestamp}

/-- **An outbound transfer that nobody touches** stays proper, whatever else a step does. -/
theorem OutboxItem.ProperFor.mono {item : OutboxItem} (h : item.ProperFor m)
    (hchanges : m.Changes now m') : item.ProperFor m' where
  amount := h.amount
  decimals := by
    rw [Manager.precision, hchanges.akin.tokenDecimals]
    exact h.decimals
  recipient := h.recipient
  peer := by
    obtain ⟨_, hpeer⟩ := h.peer
    exact hchanges.peer_kept hpeer
  status := h.status
  cancelled := h.cancelled
  released := by
    intro id hid
    obtain ⟨hstatus, t, ht, htid⟩ := h.released id hid
    exact ⟨hstatus, t, hchanges.enrols.transceivers.mem ht, htid⟩
  instructions := by
    refine ⟨h.instructions.ascending, fun entry hentry => ?_⟩
    exact lt_of_lt_of_le (h.instructions.below entry hentry) hchanges.enrols.next_le

theorem InboxItem.ProperFor.mono {item : InboxItem} (h : item.ProperFor m)
    (hchanges : m.Changes now m') : item.ProperFor m' where
  voted := h.voted
  votes := by
    intro id hid
    obtain ⟨t, ht, htid⟩ := h.votes id hid
    exact ⟨t, hchanges.enrols.transceivers.mem ht, htid⟩
  peer := by
    obtain ⟨_, hpeer⟩ := h.peer
    exact hchanges.peer_kept hpeer
  stage := h.stage

end Items

/-! ## §3 The outbox -/

namespace Manager

variable {m m' : Manager} {now : Timestamp}

/-- Whoever is enabled is registered. -/
theorem registered_of_enabled {address : Address} {id : UInt8}
    (h : m.enabledTransceiver address = .ok id) : ∃ t ∈ m.transceivers, t.id = id := by
  obtain ⟨t, ht, hid, _⟩ := enabledTransceiver_eq_ok.mp h
  exact ⟨t, (transceiver?_eq_some ht).1, hid⟩

/-- **A transfer that passed all checks** is proper. -/
theorem Sends.properFor {sender : Address} {request : TransferRequest} {plan : TransferPlan}
    (h : m.Sends sender now request plan) : plan.item.ProperFor m := by
  obtain ⟨peer, hpeer, _, htrim⟩ := h.trimmed
  obtain ⟨hrecipient, hsame⟩ := h.recipient
  obtain ⟨hdecimals, _⟩ := trimOutbound_eq_ok htrim
  obtain ⟨limit, gate, _, hpasses, hstatus, _⟩ := h.limits
  obtain ⟨hreleased, hcancelled⟩ := h.fresh
  constructor
  · simpa [TrimmedAmount.isZero] using h.nonzero
  · rw [hdecimals, TrimmedAmount.toNat_commonDecimals, precision]
    exact Nat.min_le_left _ _
  · rw [hsame]
    exact hrecipient
  · rw [h.chain.2]
    exact ⟨peer, hpeer⟩
  · rw [hstatus]
    exact hpasses.queued_or_released
  · rw [hcancelled]
    intro htaken
    cases htaken
  · rw [hreleased]
    exact fun id hid => absurd hid (Bitmap.not_mem_empty id)
  · exact Instructions.ascendingBelow_of_read h.instructions

/-- A transfer that still waits. -/
theorem Waits.properFor {item item' : OutboxItem} (h : m.Waits now item item')
    (hitem : item.ProperFor m) (hcancelled : item.cancelled = false) : item'.ProperFor m := by
  obtain ⟨limit, time, gate, _, ⟨_, hqueued⟩, hpasses, rfl⟩ := h.queued
  refine ⟨hitem.amount, hitem.decimals, hitem.recipient, hitem.peer, hpasses.queued_or_released,
    ?_, ?_, hitem.instructions⟩
  · intro htaken
    cases hcancelled.symm.trans htaken
  · intro id hid
    -- Nobody has picked up a transfer that waits.
    obtain ⟨hreleased, _⟩ := hitem.released id hid
    cases hqueued.symm.trans hreleased

/-- A transfer that a transceiver picks up. -/
theorem HandsOut.properFor {transceiver : Address} {id : UInt8} {item item' : OutboxItem}
    {outboundLimit inboundLimit : RateLimit}
    (h : m.HandsOut id now item item' outboundLimit inboundLimit) (hitem : item.ProperFor m)
    (hid : m.enabledTransceiver transceiver = .ok id) (hcancelled : item.cancelled = false) :
    item'.ProperFor m := by
  obtain ⟨_, released, hset, rfl⟩ := h.pickedUp
  refine ⟨hitem.amount, hitem.decimals, hitem.recipient, hitem.peer, .inr rfl, ?_, ?_,
    hitem.instructions⟩
  · intro htaken
    cases hcancelled.symm.trans htaken
  · intro other hother
    rcases (Bitmap.mem_set? hset other).mp hother with rfl | hbefore
    · exact ⟨rfl, registered_of_enabled hid⟩
    · exact ⟨rfl, (hitem.released other hbefore).2⟩

/-- The outbound transfers are numbered without a gap, and all of them are proper. -/
structure OutboxSound (m : Manager) : Prop where
  keys : ∀ n, m.outbox.contains n = true ↔ n < m.nextSequence
  sequence : ∀ n item, m.outbox.get? n = some item → item.sequence = n
  items : ∀ n item, m.outbox.get? n = some item → item.ProperFor m

namespace OutboxSound

/-- Helper: what was recorded before a step stays proper. -/
private theorem items_kept (h : m.OutboxSound) (hchanges : m.Changes now m') :
    ∀ n item, m.outbox.get? n = some item → item.ProperFor m' := by
  intro n item hitem
  exact (h.items n item hitem).mono hchanges

/-- Helper: a step that touches no outbound transfer. -/
private theorem congr (h : m.OutboxSound) (hchanges : m.Changes now m')
    (houtbox : m'.outbox = m.outbox) (hnext : m'.nextSequence = m.nextSequence) :
    m'.OutboxSound := by
  constructor
  · rw [houtbox, hnext]
    exact h.keys
  · rw [houtbox]
    exact h.sequence
  · rw [houtbox]
    exact h.items_kept hchanges

/-- Helper: a step that changes one of the outbound transfers. -/
private theorem replace (h : m.OutboxSound) (hchanges : m.Changes now m') {n : UInt64}
    {item item' : OutboxItem} (hitem : m.outbox.get? n = some item)
    (houtbox : m'.outbox = m.outbox.insert n item') (hnext : m'.nextSequence = m.nextSequence)
    (hsequence : item'.sequence = item.sequence) (hproper : item'.ProperFor m) :
    m'.OutboxSound := by
  constructor
  · intro other
    rw [houtbox, hnext, SortedMap.contains_insert_of_entry hitem, h.keys]
  · rw [houtbox]
    exact SortedMap.forall_insert (hsequence.trans (h.sequence n item hitem)) h.sequence
  · rw [houtbox]
    exact SortedMap.forall_insert (hproper.mono hchanges) (h.items_kept hchanges)

/-- Helper: a new transfer. -/
private theorem transfer (h : m.OutboxSound) {sender : Address} {request : TransferRequest}
    {plan : TransferPlan} (hsends : m.Sends sender now request plan) :
    (m.recordTransfer plan).OutboxSound := by
  have hchanges : m.Changes now (m.recordTransfer plan) := .transferred hsends
  obtain ⟨hsequence, hnext⟩ := hsends.sequence
  constructor
  · intro n
    show (m.outbox.insert plan.item.sequence plan.item).contains n = true ↔ n < plan.nextSequence
    rw [SortedMap.contains_insert, h.keys, hsequence, UInt64.lt_iff_toNat_lt,
      UInt64.lt_iff_toNat_lt, hnext, ← UInt64.toNat_inj]
    omega
  · exact SortedMap.forall_insert rfl h.sequence
  · exact SortedMap.forall_insert (hsends.properFor.mono hchanges) (h.items_kept hchanges)

/-- **A step** keeps the outbox sound. -/
theorem step (h : m.OutboxSound) (hchanges : m.Changes now m') : m'.OutboxSound := by
  have hall := hchanges
  cases hchanges with
  | same | voted | settled => exact h.congr hall rfl rfl
  | transferred hsends => exact h.transfer hsends
  -- Neither an attempt nor a pick-up changes what a transfer is.
  | waiting hitem hcancelled hwaits =>
    have hproper := hwaits.properFor (h.items _ _ hitem) hcancelled
    obtain ⟨_, _, _, _, _, _, rfl⟩ := hwaits.queued
    exact h.replace hall hitem rfl rfl rfl hproper
  | pickedUp hid hitem hcancelled hout =>
    have hproper := hout.properFor (h.items _ _ hitem) hid hcancelled
    obtain ⟨_, _, _, rfl⟩ := hout.pickedUp
    exact h.replace hall hitem rfl rfl rfl hproper
  | cancelled hitem _ _ hqueued =>
    have hproper := h.items _ _ hitem
    exact h.replace hall hitem rfl rfl rfl
      ⟨hproper.amount, hproper.decimals, hproper.recipient, hproper.peer, hproper.status,
        fun _ => hqueued, hproper.released, hproper.instructions⟩
  | executed hexecutes =>
    have hconfigures := hexecutes.configures
    exact h.congr hall hconfigures.outbox hconfigures.nextSequence

end OutboxSound

/-! ## §4 The inbox -/

/-- All inbound transfers are proper. -/
def InboxSound (m : Manager) : Prop :=
  ∀ digest item, m.inbox.get? digest = some item → item.ProperFor m

/-- Helper: **an inbound transfer in the hands of a call** is proper. -/
private theorem Presents.properFor {digest : Digest} {voted : InboxItem}
    (h : m.Presents digest voted) (hinbox : m.InboxSound) : voted.ProperFor m := by
  cases h with
  | found hitem => exact hinbox digest voted hitem
  | @vote _ source delivery id _ haccepts hattest =>
    obtain ⟨_, votes, hset, rfl⟩ := InboxItem.attest_eq_ok hattest
    -- All but the vote holds of the transfer as it was, also if it is new.
    have hbefore : (∀ other, (m.inbound source delivery digest).votes.Mem other →
          ∃ t ∈ m.transceivers, t.id = other) ∧
        (∃ peer, m.peers.get? (m.inbound source delivery digest).sourceChain = some peer) ∧
        (m.inbound source delivery digest).Staged := by
      unfold inbound
      cases hitem : m.inbox.get? digest with
      | some item =>
        have hproper := hinbox digest item hitem
        exact ⟨hproper.votes, hproper.peer, hproper.stage⟩
      | none =>
        obtain ⟨peer, hpeer, _⟩ := haccepts.peer
        refine ⟨?_, ⟨peer, hpeer⟩, .inl ⟨rfl, rfl⟩⟩
        intro other hother
        exact absurd hother (Bitmap.not_mem_empty other)
    obtain ⟨hvotes, hpeer, hstage⟩ := hbefore
    refine ⟨⟨id, (Bitmap.mem_set? hset id).mpr (.inl rfl)⟩, ?_, hpeer, hstage⟩
    intro other hother
    rcases (Bitmap.mem_set? hset other).mp hother with rfl | hother
    · exact registered_of_enabled haccepts.enabled
    · exact hvotes other hother

/-- Helper: a transfer that the votes do not suffice for. -/
private theorem tryApprove_properFor {item : InboxItem} (h : item.ProperFor m)
    (hnot : (item.tryApprove m.config.threshold m.config.enabled).approved = false) :
    (item.tryApprove m.config.threshold m.config.enabled).ProperFor m := by
  rcases item.tryApprove_cases m.config.threshold m.config.enabled with hsame | ⟨_, _, _, heq⟩
  · rw [hsame]
    exact h
  · rw [heq] at hnot
    cases hnot

/-- Helper: a transfer that was moved on. -/
private theorem Settles.properFor {item : InboxItem} {chain : ChainId} {s : Settlement}
    (hitem : item.ProperFor m)
    (happroved : (item.tryApprove m.config.threshold m.config.enabled).approved = true)
    (h : m.Settles chain (item.tryApprove m.config.threshold m.config.enabled) now s) :
    s.item.ProperFor m := by
  obtain ⟨limit, gate, _, hpasses, hs, _⟩ := h.gate
  obtain ⟨hchain, _, _, hvotes⟩ := item.tryApprove_frame m.config.threshold m.config.enabled
  rw [hs]
  -- Neither the approval nor the gate touches the votes and the chain.
  constructor
  · show ∃ id, (item.tryApprove _ _).votes.Mem id
    rw [hvotes]
    exact hitem.voted
  · show ∀ id, (item.tryApprove _ _).votes.Mem id → _
    rw [hvotes]
    exact hitem.votes
  · show ∃ peer, m.peers.get? (item.tryApprove _ _).sourceChain = some peer
    rw [hchain]
    exact hitem.peer
  · exact .inr ⟨happroved, hpasses.queued_or_released⟩

namespace InboxSound

/-- Helper: what was recorded before a step stays proper. -/
private theorem items_kept (h : m.InboxSound) (hchanges : m.Changes now m') :
    ∀ digest item, m.inbox.get? digest = some item → item.ProperFor m' := by
  intro digest item hitem
  exact (h digest item hitem).mono hchanges

/-- Helper: a step that touches no inbound transfer. -/
private theorem congr (h : m.InboxSound) (hchanges : m.Changes now m')
    (hinbox : m'.inbox = m.inbox) : m'.InboxSound := by
  rw [InboxSound, hinbox]
  exact h.items_kept hchanges

/-- Helper: a step that records an inbound transfer. -/
private theorem record (h : m.InboxSound) (hchanges : m.Changes now m') {digest : Digest}
    {item : InboxItem} (hinbox : m'.inbox = m.inbox.insert digest item)
    (hproper : item.ProperFor m) : m'.InboxSound := by
  rw [InboxSound, hinbox]
  exact SortedMap.forall_insert (hproper.mono hchanges) (h.items_kept hchanges)

/-- **A step** keeps the inbox sound. -/
theorem step (h : m.InboxSound) (hchanges : m.Changes now m') : m'.InboxSound := by
  have hall := hchanges
  cases hchanges with
  | same | transferred | waiting | pickedUp | cancelled => exact h.congr hall rfl
  | voted hpresents _ hnot =>
    exact h.record hall rfl (tryApprove_properFor (hpresents.properFor h) hnot)
  | settled hpresents _ happroved hsettles =>
    exact h.record hall rfl (Settles.properFor (hpresents.properFor h) happroved hsettles)
  | executed hexecutes => exact h.congr hall hexecutes.configures.inbox

end InboxSound

/-! ## §5 All of it -/

/-- What holds of all that a manager remembers. -/
structure Sound (m : Manager) : Prop where
  outbox : m.OutboxSound
  inbox : m.InboxSound
  limits : m.Metered

/-- **A step** keeps all of it. -/
theorem Sound.step (h : m.Sound) (hchanges : m.Changes now m') : m'.Sound :=
  ⟨h.outbox.step hchanges, h.inbox.step hchanges, h.limits.step hchanges⟩

end Manager

variable {b : Book}

/-- A new manager remembers no transfers. -/
theorem Book.Fresh.sound (h : b.Fresh) : b.manager.Sound := by
  have hblank := h.blank
  refine ⟨⟨?_, ?_, ?_⟩, ?_, h.metered⟩
  · rw [hblank.outbox, hblank.nextSequence]
    intro n
    exact iff_of_false Bool.false_ne_true UInt64.not_lt_zero
  · rw [hblank.outbox]
    intro n item hitem
    cases hitem
  · rw [hblank.outbox]
    intro n item hitem
    cases hitem
  · rw [Manager.InboxSound, hblank.inbox]
    intro digest item hitem
    cases hitem

/-- **What a manager remembers is always sound.** Whatever happens to a new manager, at whatever
times,

* its outbound transfers have the numbers below the next one, each its own; every one has an amount
  in a precision of the token, a recipient, a peer to go to, and ascending instructions for
  registered transceivers; it waits or has passed, only one that waits was taken back, and only one
  that has passed was picked up, by registered transceivers;
* its inbound transfers have votes, all of registered transceivers, and a peer they come from; each
  waits for its approval, or is approved and waits or has passed;
* its peers are the chains that it has inbound limits for, none of them its own, each with an
  address and decimals; all limits are in the precision and of the duration that were configured,
  and no more than the limit is stored. -/
theorem Book.run_sound (hfresh : b.Fresh) (events : List Event) : (b.run events).manager.Sound :=
  run_induction (motive := fun _ current => current.manager.Sound) hfresh.sound
    (fun _ current event h => h.step (current.step_changes event)) events

namespace Sample

/-- A transfer with instructions for both transceivers is picked up by one of them, another one is
above the limit and taken back, and the limit is lowered. -/
def storeEvents : List Event :=
  [⟨0, .execute (address 9) (.registerTransceiver (address 30))⟩,
   ⟨0, .execute (address 9) (.registerTransceiver (address 31))⟩,
   ⟨0, .execute (address 9) (.setPeer ⟨⟨2⟩, address 12, 1000000000, 7⟩)⟩,
   ⟨1, .transfer (address 20) ⟨123456789, ⟨2⟩, address 22, false, [2, 0, 1, 7, 1, 0]⟩⟩,
   ⟨2, .releaseOutbound (address 30) 0 true⟩,
   ⟨3, .transfer (address 20) ⟨2000000000, ⟨2⟩, address 22, true, []⟩⟩,
   ⟨2, .cancelOutbound (address 20) 1⟩,
   ⟨1, .execute (address 9) (.setOutboundLimit 5000000)⟩]

theorem store_sound :
    home.Fresh ∧ (home.run storeEvents).manager.Sound ∧
      (home.run storeEvents).manager.nextSequence = 2 ∧
      ((home.run storeEvents).manager.outbox.get? 1).map OutboxItem.cancelled = some true ∧
      away.Fresh ∧ (away.run awayEvents).manager.Sound :=
  ⟨home_fresh, Book.run_sound home_fresh storeEvents, by decide +kernel, by decide +kernel,
    away_fresh, Book.run_sound away_fresh awayEvents⟩

end Sample

end CrossChain
