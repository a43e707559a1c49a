import CrossChain.Proofs.Outbound

/-!
# What transceivers get to carry

Every transceiver that a manager knows picks up the message of an outbound transfer at most once,
and all of them get the same message, however far apart the calls are and whatever the owner
changes in between. If two of them carried different bytes, their votes would count for different
transfers on the other side.

The number of times is read off the transfer itself: a bit tells whether a transceiver has picked
it up. This is right only because ids are not shared, so the proof also follows the transceivers
that are registered.

## Main statements

* `Step.handover?`, `Step.parcel?`: to whom a step hands a message over, and which.
* `Book.published_iff`: which posts count.
* `Deliveries`, `Book.deliveries`: the invariant.
* `Book.delivered_once`: once for each transceiver, and the same for all.
-/

namespace CrossChain

/-! ## §1 Handovers -/

/-- What a transceiver is to carry, and where to. -/
structure Parcel where
  message : ManagerMessage TokenTransfer
  recipientChain : ChainId
  recipientManager : Address
deriving DecidableEq

/-- What a transfer is to be carried as. -/
def OutboxItem.parcel (item : OutboxItem) (sourceToken : Address) : Parcel :=
  ⟨item.message sourceToken, item.recipientChain, item.recipientManager⟩

namespace Answer

/-- Whether an answer brings a message, as it is or in a post that the bridge took. -/
def delivers : Answer → Bool
  | handedOut release => release.isSome
  | published publication => publication.isSome
  | _ => false

/-- What an answer brings. -/
def parcel? : Answer → Option Parcel
  | handedOut release => release.map fun r => ⟨r.message, r.recipientChain, r.recipientManager⟩
  | published publication => do
    let delivery ← Envelope.delivery? (← publication).post.payload
    return ⟨delivery.message, delivery.message.payload.recipientChain, delivery.recipientManager⟩
  | _ => none

theorem delivers_of_inboundStatus? {answer : Answer} {status : InboundStatus}
    (h : answer.inboundStatus? = some status) : answer.delivers = false := by
  cases answer <;> first | rfl | cases h

end Answer

namespace Step

/-- The transceiver that a step hands a message over to, and the number of the transfer. -/
def handover? (s : Step) : Option (Address × UInt64) :=
  if s.outcome.toOption.any Answer.delivers then
    s.event.action.pickUp?.map fun call => (call.1, call.2.1)
  else none

/-- What a step hands over. -/
def parcel? (s : Step) : Option Parcel :=
  s.outcome.toOption.bind Answer.parcel?

theorem handover?_eq_none {s : Step} (h : ∀ answer, s.outcome = .ok answer →
    answer.delivers = false) : s.handover? = none := by
  unfold handover?
  cases hresult : s.outcome with
  | error failure => rfl
  | ok answer =>
    rw [if_neg]
    simp [Except.toOption, h answer hresult]

end Step

/-- The messages that some steps hand over, in order. -/
def handovers (steps : List Step) : List (Address × UInt64) :=
  steps.filterMap Step.handover?

namespace Manager

/-- A transfer was picked up under an id. -/
def ReleasedTo (m : Manager) (sequence : UInt64) (id : UInt8) : Prop :=
  ∃ item, m.outbox.get? sequence = some item ∧ item.released.Mem id

/-- A transceiver has picked up a transfer: its bit is set. -/
def PickedUp (m : Manager) (transceiver : Address) (sequence : UInt64) : Prop :=
  ∃ t, m.transceiver? transceiver = some t ∧ m.ReleasedTo sequence t.id

variable {m m' : Manager} {sequence : UInt64} {id : UInt8} {item : OutboxItem}

theorem releasedTo_of_entry (hitem : m.outbox.get? sequence = some item) :
    m.ReleasedTo sequence id ↔ item.released.Mem id := by
  simp [ReleasedTo, hitem]

theorem releasedTo_of_insert {changed : UInt64}
    (houtbox : m'.outbox = m.outbox.insert changed item) :
    m'.ReleasedTo sequence id ↔ sequence = changed ∧ item.released.Mem id ∨
      sequence ≠ changed ∧ m.ReleasedTo sequence id := by
  unfold ReleasedTo
  simp only [houtbox, SortedMap.get?_insert_eq_some]
  constructor
  · rintro ⟨found, ⟨hsame, rfl⟩ | ⟨hother, hfound⟩, hmem⟩
    · exact .inl ⟨hsame, hmem⟩
    · exact .inr ⟨hother, found, hfound, hmem⟩
  · rintro (⟨hsame, hmem⟩ | ⟨hother, found, hfound, hmem⟩)
    · exact ⟨item, .inl ⟨hsame, rfl⟩, hmem⟩
    · exact ⟨found, .inr ⟨hother, hfound⟩, hmem⟩

/-- A change of a transfer that nobody picks it up with. -/
theorem releasedTo_of_kept {changed : UInt64} {item' : OutboxItem}
    (hitem : m.outbox.get? changed = some item)
    (houtbox : m'.outbox = m.outbox.insert changed item')
    (hreleased : item'.released = item.released) :
    m'.ReleasedTo sequence id ↔ m.ReleasedTo sequence id := by
  rw [releasedTo_of_insert houtbox, hreleased]
  by_cases hsame : sequence = changed
  · subst hsame
    simp [releasedTo_of_entry hitem]
  · simp [hsame]

/-- A transfer that is new was not picked up. -/
theorem releasedTo_of_new {changed : UInt64} (hnew : m.outbox.get? changed = none)
    (houtbox : m'.outbox = m.outbox.insert changed item) (hempty : item.released = .empty) :
    m'.ReleasedTo sequence id ↔ m.ReleasedTo sequence id := by
  rw [releasedTo_of_insert houtbox, hempty]
  by_cases hsame : sequence = changed
  · subst hsame
    simp [ReleasedTo, hnew, Bitmap.not_mem_empty]
  · simp [hsame]

/-! ## §2 The transceivers -/

/-- The transceivers are numbered in the order of their registration. -/
def Numbered (m : Manager) : Prop :=
  m.transceivers.map (·.id.toNat) = List.range m.config.nextTransceiver.toNat

theorem transceiver?_eq_some {address : Address} {t : Transceiver}
    (h : m.transceiver? address = some t) : t ∈ m.transceivers ∧ t.address = address :=
  ⟨List.mem_of_find?_eq_some h, by simpa using List.find?_some h⟩

/-- No id is beyond those that were given out. -/
theorem Numbered.lt (h : m.Numbered) {address : Address} {t : Transceiver}
    (ht : m.transceiver? address = some t) : t.id.toNat < m.config.nextTransceiver.toNat := by
  have hmem : t.id.toNat ∈ m.transceivers.map (·.id.toNat) :=
    List.mem_map_of_mem (transceiver?_eq_some ht).1
  rw [h] at hmem
  exact List.mem_range.mp hmem

/-- No two transceivers share an id. -/
theorem Numbered.address_eq (h : m.Numbered) {address other : Address} {t u : Transceiver}
    (ht : m.transceiver? address = some t) (hu : m.transceiver? other = some u)
    (hid : t.id = u.id) : address = other := by
  obtain ⟨htmem, rfl⟩ := transceiver?_eq_some ht
  obtain ⟨humem, rfl⟩ := transceiver?_eq_some hu
  have hnodup : (m.transceivers.map (·.id.toNat)).Nodup := h ▸ List.nodup_range
  exact congrArg _ (List.inj_on_of_nodup_map hnodup htmem humem (congrArg UInt8.toNat hid))

theorem Enrols.numbered (h : m.Enrols m') (hm : m.Numbered) : m'.Numbered := by
  unfold Numbered at hm ⊢
  cases h with
  | same htransceivers hnext => rw [htransceivers, hnext, hm]
  | registered _ htransceivers hnext =>
    rw [htransceivers, hnext, List.range_succ, List.map_append, hm]
    rfl

theorem Enrols.next_le (h : m.Enrols m') :
    m.config.nextTransceiver.toNat ≤ m'.config.nextTransceiver.toNat := by
  cases h with
  | same _ hnext => rw [hnext]
  | registered _ _ hnext => rw [hnext]; exact Nat.le_succ _

/-- A transceiver was registered before, or has the next id now. -/
theorem Enrols.origin (h : m.Enrols m') {address : Address} {t : Transceiver}
    (ht : m'.transceiver? address = some t) :
    m.transceiver? address = some t ∨ t.id = m.config.nextTransceiver := by
  simp only [Manager.transceiver?] at ht ⊢
  cases h with
  | same htransceivers => exact .inl (htransceivers ▸ ht)
  | registered _ htransceivers =>
    rw [htransceivers, List.find?_append, Option.or_eq_some_iff] at ht
    rcases ht with ht | ⟨_, ht⟩
    · exact .inl ht
    · exact .inr (congrArg Transceiver.id (List.mem_singleton.mp (List.mem_of_find?_eq_some ht)))

/-- Whoever is registered only now has picked up nothing. -/
theorem Enrols.pickedUp_iff (h : m.Enrols m')
    (hids : ∀ n id, m.ReleasedTo n id → id.toNat < m.config.nextTransceiver.toNat)
    {address : Address} :
    (∃ t, m'.transceiver? address = some t ∧ m.ReleasedTo sequence t.id) ↔
      m.PickedUp address sequence := by
  constructor
  · rintro ⟨t, ht, hmem⟩
    rcases h.origin ht with ht | hnext
    · exact ⟨t, ht, hmem⟩
    · have hlt := hids sequence t.id hmem
      rw [hnext] at hlt
      exact absurd hlt (lt_irrefl _)
  · rintro ⟨t, ht, hmem⟩
    exact ⟨t, h.transceiver? ht, hmem⟩

end Manager

/-! ## §3 Steps -/

variable {b after : Book} {now : Timestamp} {action : Action} {outcome : Outcome}

/-- A step hands the message of a transfer over to a transceiver that had not picked it up. -/
structure Step.Delivers (s : Step) (transceiver : Address) (sequence : UInt64) (t : Transceiver)
    (item : OutboxItem) : Prop where
  handover : s.handover? = some (transceiver, sequence)
  transceiver : s.before.manager.transceiver? transceiver = some t
  first : ¬ s.before.manager.ReleasedTo sequence t.id
  bits : ∀ n id, s.after.manager.ReleasedTo n id ↔
    s.before.manager.ReleasedTo n id ∨ n = sequence ∧ id = t.id
  entry : s.after.manager.outbox.get? sequence = some item
  passed : item.status = .released ∧ item.cancelled = false
  parcel : s.parcel? = some (item.parcel s.before.manager.config.tokenAddress)

/-- A step hands nothing over, and no transfer counts as picked up for it. -/
structure Step.KeepsBits (s : Step) : Prop where
  handover : s.handover? = none
  bits : ∀ n id, s.after.manager.ReleasedTo n id ↔ s.before.manager.ReleasedTo n id

/-- Helper: a step that leaves the outbox alone. -/
private theorem keepsBits_of_outbox (houtbox : after.manager.outbox = b.manager.outbox)
    (hanswer : ∀ answer, outcome = .ok answer → answer.delivers = false) :
    (Step.mk b ⟨now, action⟩ outcome after).KeepsBits :=
  ⟨Step.handover?_eq_none hanswer, fun n id => by simp only [Manager.ReleasedTo, houtbox]⟩

/-- **A step** hands over the message of one transfer to one transceiver, or none. -/
theorem Transition.delivers_or_keepsBits (h : Transition b now action outcome after)
    (hfresh : b.manager.outbox.get? b.manager.nextSequence = none) :
    (Step.mk b ⟨now, action⟩ outcome after).KeepsBits ∨
      ∃ transceiver sequence t item,
        (Step.mk b ⟨now, action⟩ outcome after).Delivers transceiver sequence t item := by
  cases h with
  | refused => exact .inl (keepsBits_of_outbox rfl (fun _ h => nomatch h))
  | repeated _ _ _ hanswer =>
    refine .inl (keepsBits_of_outbox rfl ?_)
    rintro _ ⟨⟩
    exact Answer.delivers_of_inboundStatus? hanswer
  | moved hmoves =>
    obtain ⟨_, hanswer⟩ := hmoves.answers
    refine .inl (keepsBits_of_outbox hmoves.outbox ?_)
    rintro _ ⟨⟩
    exact Answer.delivers_of_inboundStatus? hanswer
  | transferred hsends =>
    -- The new transfer stands under a number that nothing stood under.
    refine .inl ⟨rfl, fun n id => ?_⟩
    exact Manager.releasedTo_of_new (hsends.sequence.1 ▸ hfresh) rfl hsends.fresh.1
  | waiting _ hanswer hitem _ hwaits =>
    obtain ⟨_, _, _, _, _, _, rfl⟩ := hwaits.queued
    refine .inl ⟨Step.handover?_eq_none ?_, fun n id => ?_⟩
    · rintro _ ⟨⟩
      rcases hanswer with rfl | rfl <;> rfl
    · exact Manager.releasedTo_of_kept hitem rfl rfl
  | @pickedUp _ transceiver sequence _ id item item' _ _ answer haction hanswer hid hitem hcancelled
      hout =>
    obtain ⟨t, ht, rfl, _⟩ := Manager.enabledTransceiver_eq_ok.mp hid
    obtain ⟨hfirst, released, hset, rfl⟩ := hout.pickedUp
    have hdelivers : answer.delivers = true := by
      rcases hanswer with rfl | ⟨_, _, rfl, _⟩ <;> rfl
    refine .inr ⟨transceiver, sequence, t, _, ⟨?_, ht, ?_, fun n id => ?_,
      SortedMap.get?_insert_self _ _ _, ⟨rfl, hcancelled⟩, ?_⟩⟩
    · simp [Step.handover?, Except.toOption, hdelivers, haction]
    · rintro ⟨found, hfound, hmem⟩
      cases hitem.symm.trans hfound
      cases hfirst.symm.trans hmem
    · rw [Manager.releasedTo_of_insert rfl, Bitmap.mem_set? hset]
      by_cases hsame : n = sequence
      · subst hsame
        simp [Manager.releasedTo_of_entry hitem, or_comm]
      · simp [hsame]
    · rcases hanswer with rfl | ⟨_, publication, rfl, hpublish⟩
      · rfl
      · -- What was posted is the envelope of the same message.
        show (Envelope.delivery? publication.post.payload).bind _ = _
        rw [Endpoint.delivery_of_publishRelease hpublish]
        rfl
  | cancelled hitem =>
    exact .inl ⟨rfl, fun n id => Manager.releasedTo_of_kept hitem rfl rfl⟩
  | configured _ hanswer hconfigures =>
    refine .inl (keepsBits_of_outbox hconfigures.outbox ?_)
    rintro _ ⟨⟩
    rcases hanswer with rfl | ⟨_, rfl⟩ <;> rfl
  | external => exact .inl (keepsBits_of_outbox rfl (by rintro _ ⟨⟩; rfl))

/-! ### Posts -/

namespace Endpoint

/-- The post that an endpoint makes of a message that was handed out. -/
def postOf (m : Manager) (release : OutboundRelease) : Except CallError Post := do
  let instruction ← relayInstruction release.instruction
  let payload ← ((Envelope.wire TokenTransfer.wire).write
    ⟨⟨m.config.address, release.recipientManager, release.message⟩, []⟩).mapError .wire
  return ⟨payload, instruction.skipRelayer⟩

/-- The post that an endpoint offers to the bridge when it picks a transfer up, if it comes to
that. -/
def offer? (e : Endpoint) (now : Timestamp) (sequence : UInt64) (strict : Bool) (b : Book) :
    Option Post :=
  match Call.releaseOutbound e.address now sequence strict b with
  | .ok (some release) staged => (postOf staged.manager release).toOption
  | _ => none

variable {bridge : Publisher} {m : Manager} {release : OutboundRelease} {publication : Publication}

/-- The bridge sees one post at most, and has the last word. -/
theorem publishRelease_eq_ok :
    publishRelease bridge m release = .ok publication ↔
      postOf m release = .ok publication.post ∧
      bridge publication.post = .ok publication.number := by
  simp only [publishRelease, publish, postOf, bind_eq_ok, mapError_eq_ok, pure_eq_ok]
  constructor
  · rintro ⟨instruction, hinstruction, payload, hpayload, number, hnumber, rfl⟩
    exact ⟨⟨instruction, hinstruction, payload, hpayload, rfl⟩, hnumber⟩
  · rintro ⟨⟨instruction, hinstruction, payload, hpayload, hpost⟩, hnumber⟩
    rw [← hpost] at hnumber
    exact ⟨instruction, hinstruction, payload, hpayload, _, hnumber, by rw [hpost]⟩

/-- **What is posted** was offered to the bridge, and the bridge took it. What was offered and
taken is posted: nothing fails after that. -/
theorem release_eq_some {e : Endpoint} {now : Timestamp} {sequence : UInt64} {strict : Bool}
    {b : Book} :
    (∃ after, e.release bridge now sequence strict b = .ok (some publication) after) ↔
      e.offer? now sequence strict b = some publication.post ∧
        bridge publication.post = .ok publication.number := by
  rw [release_eq, offer?]
  cases Call.releaseOutbound e.address now sequence strict b with
  | error failure left => simp
  | ok answer staged =>
    cases answer with
    | none => simp
    | some release =>
      have hpost : (postOf staged.manager release).toOption = some publication.post ↔
          postOf staged.manager release = .ok publication.post := by
        cases postOf staged.manager release <;> simp [Except.toOption]
      simp only [hpost, ← publishRelease_eq_ok]
      cases publishRelease bridge staged.manager release <;> simp

end Endpoint

/-- **A post counts** exactly if it was offered to the bridge and the bridge took it. -/
theorem Book.published_iff {events : List Event} {s : Step} (hs : s ∈ b.trace events)
    {endpoint : Endpoint} {bridge : Publisher} {sequence : UInt64} {strict : Bool}
    (haction : s.event.action = .publish endpoint bridge sequence strict)
    (publication : Publication) :
    s.outcome = .ok (.published (some publication)) ↔
      endpoint.offer? s.event.now sequence strict s.before = some publication.post ∧
        bridge publication.post = .ok publication.number := by
  rw [← Endpoint.release_eq_some, ← step_of_mem hs, step, haction, perform]
  cases endpoint.release bridge s.event.now sequence strict s.before <;> simp [observe]

/-! ## §4 The invariant -/

/-- What is known of the handovers so far. -/
structure Deliveries (history : List Step) (b : Book) : Prop where
  numbered : b.manager.Numbered
  /-- Transfers are picked up under ids that were given out. -/
  ids : ∀ n id, b.manager.ReleasedTo n id → id.toNat < b.manager.config.nextTransceiver.toNat
  /-- No transfer was handed over to a transceiver twice. -/
  once : (handovers history).Nodup
  /-- The transfers remember what was handed over. -/
  picked : ∀ transceiver n, (transceiver, n) ∈ handovers history ↔ b.manager.PickedUp transceiver n
  /-- What was handed over is what the outbox still says. -/
  contents : ∀ s ∈ history, ∀ transceiver n, s.handover? = some (transceiver, n) →
    ∃ item, b.manager.outbox.get? n = some item ∧ item.status = .released ∧
      item.cancelled = false ∧
      s.parcel? = some (item.parcel b.manager.config.tokenAddress)

theorem Book.Fresh.numbered (h : b.Fresh) : b.manager.Numbered := by
  obtain ⟨owner, now, settings, h⟩ := h
  simp only [Manager.create, throw_bind, bind_eq_ok, guard_eq_ok, pure_eq_ok] at h
  obtain ⟨_, limit, _, hm⟩ := h
  rw [← hm]
  rfl

theorem Book.Fresh.deliveries (h : b.Fresh) : Deliveries [] b := by
  have houtbox := h.empty.2
  have hnone (n : UInt64) (id : UInt8) : ¬ b.manager.ReleasedTo n id := by
    rintro ⟨item, hitem, _⟩
    rw [houtbox, SortedMap.get?_empty] at hitem
    cases hitem
  refine ⟨h.numbered, fun n id hmem => absurd hmem (hnone n id), List.nodup_nil,
    fun transceiver n => ?_, fun s hs => (List.not_mem_nil hs).elim⟩
  refine iff_of_false List.not_mem_nil ?_
  rintro ⟨t, _, hmem⟩
  exact hnone n t.id hmem

/-- Helper: what was handed over before a step. -/
private theorem Deliveries.contents_step {history : List Step} (h : Deliveries history b)
    (hrecords : Records history b) (event : Event) {s : Step} (hs : s ∈ history)
    {transceiver : Address} {n : UInt64} (hover : s.handover? = some (transceiver, n)) :
    ∃ item, (b.step event).after.manager.outbox.get? n = some item ∧ item.status = .released ∧
      item.cancelled = false ∧
      s.parcel? = some (item.parcel (b.step event).after.manager.config.tokenAddress) := by
  obtain ⟨item, hitem, hreleased, hcancelled, hparcel⟩ := h.contents s hs transceiver n hover
  obtain ⟨item', hitem', hkeeps⟩ := hrecords.kept event hitem
  obtain ⟨hreleased', hcancelled'⟩ := hkeeps.released hreleased hcancelled
  obtain ⟨_, _, _, rfl⟩ := hkeeps.same
  rw [(b.step_transition event).akin.tokenAddress]
  exact ⟨_, hitem', hreleased', hcancelled', hparcel⟩

/-- Helper: a step that hands nothing over. -/
private theorem Deliveries.step_of_keepsBits {history : List Step} (h : Deliveries history b)
    (hrecords : Records history b) {event : Event} (hkeeps : (b.step event).KeepsBits) :
    Deliveries (history ++ [b.step event]) (b.step event).after := by
  have henrols := (b.step_transition event).enrols
  have hsame : handovers (history ++ [b.step event]) = handovers history := by
    simp [handovers, hkeeps.handover]
  refine ⟨henrols.numbered h.numbered, fun n id hmem => ?_, hsame ▸ h.once,
    fun transceiver n => ?_, fun s hs transceiver n hover => ?_⟩
  · exact (h.ids n id ((hkeeps.bits n id).mp hmem)).trans_le henrols.next_le
  · rw [hsame, h.picked, ← henrols.pickedUp_iff h.ids]
    simp only [Manager.PickedUp, hkeeps.bits]
    rfl
  · rcases List.mem_append.mp hs with hs | hs
    · exact h.contents_step hrecords event hs hover
    · rw [List.mem_singleton.mp hs, hkeeps.handover] at hover
      cases hover

/-- Helper: a step that hands a message over. -/
private theorem Deliveries.step_of_delivers {history : List Step} (h : Deliveries history b)
    (hrecords : Records history b) {event : Event} {transceiver : Address} {sequence : UInt64}
    {t : Transceiver} {item : OutboxItem}
    (hdelivers : (b.step event).Delivers transceiver sequence t item) :
    Deliveries (history ++ [b.step event]) (b.step event).after := by
  have htransition := b.step_transition event
  have henrols := htransition.enrols
  have hnumbered := henrols.numbered h.numbered
  have ht : b.manager.transceiver? transceiver = some t := hdelivers.transceiver
  have happend : handovers (history ++ [b.step event]) =
      handovers history ++ [(transceiver, sequence)] := by
    simp [handovers, hdelivers.handover]
  refine ⟨hnumbered, fun n id hmem => ?_, ?_, fun other n => ?_, fun s hs other n hover => ?_⟩
  · rcases (hdelivers.bits n id).mp hmem with hmem | ⟨_, rfl⟩
    · exact (h.ids n id hmem).trans_le henrols.next_le
    · exact (h.numbered.lt ht).trans_le henrols.next_le
  · -- Had it been handed over before, the bit would be set.
    have hnew : (transceiver, sequence) ∉ handovers history := by
      intro hmem
      obtain ⟨u, hu, hbit⟩ := (h.picked transceiver sequence).mp hmem
      cases ht.symm.trans hu
      exact hdelivers.first hbit
    rw [happend]
    exact h.once.append (List.nodup_singleton _) (List.disjoint_singleton.mpr hnew)
  · -- One pair is new and so is one bit, and an id belongs to one address.
    rw [happend, List.mem_append, List.mem_singleton, h.picked, Prod.mk.injEq,
      ← henrols.pickedUp_iff h.ids]
    simp only [Manager.PickedUp, hdelivers.bits]
    constructor
    · rintro (⟨u, hu, hmem⟩ | ⟨rfl, rfl⟩)
      · exact ⟨u, hu, .inl hmem⟩
      · exact ⟨t, henrols.transceiver? ht, .inr ⟨rfl, rfl⟩⟩
    · rintro ⟨u, hu, hmem | ⟨rfl, hid⟩⟩
      · exact .inl ⟨u, hu, hmem⟩
      · exact .inr ⟨hnumbered.address_eq hu (henrols.transceiver? ht) hid, rfl⟩
  · rcases List.mem_append.mp hs with hs | hs
    · exact h.contents_step hrecords event hs hover
    · rw [List.mem_singleton.mp hs, hdelivers.handover] at hover
      cases hover
      rw [List.mem_singleton.mp hs, htransition.akin.tokenAddress]
      exact ⟨item, hdelivers.entry, hdelivers.passed.1, hdelivers.passed.2, hdelivers.parcel⟩

/-- **Every step** keeps what is known of the handovers. -/
theorem Deliveries.step {history : List Step} (h : Deliveries history b)
    (hrecords : Records history b) (event : Event) :
    Deliveries (history ++ [b.step event]) (b.step event).after := by
  rcases (b.step_transition event).delivers_or_keepsBits hrecords.fresh with
    hkeeps | ⟨_, _, _, _, hdelivers⟩
  · exact h.step_of_keepsBits hrecords hkeeps
  · exact h.step_of_delivers hrecords hdelivers

/-! ## §5 Runs -/

theorem Book.deliveries (hfresh : b.Fresh) (events : List Event) :
    Deliveries (b.trace events) (b.run events) :=
  records_induction hfresh hfresh.deliveries (fun _ _ event hrecords h => h.step hrecords event)
    events

/-- **Once for each transceiver, and the same for all**: over a run, a transfer is handed over to a
transceiver at most once, directly or in a post, and exactly if its bit is set in the end. A post
counts exactly if the endpoint offered it to the bridge and the bridge took it, whatever else the
bridge takes or refuses. Whoever gets the message of a transfer gets the same message, for the same
chain and manager, and the messages of different transfers have different ids. -/
theorem Book.delivered_once (hfresh : b.Fresh) (events : List Event) :
    (∀ transceiver sequence,
      (handovers (b.trace events)).count (transceiver, sequence) ≤ 1 ∧
      ((handovers (b.trace events)).count (transceiver, sequence) = 1 ↔
        (b.run events).manager.PickedUp transceiver sequence)) ∧
    (∀ s ∈ b.trace events, ∀ endpoint bridge sequence strict,
      s.event.action = .publish endpoint bridge sequence strict → ∀ publication,
        s.outcome = .ok (.published (some publication)) ↔
          endpoint.offer? s.event.now sequence strict s.before = some publication.post ∧
            bridge publication.post = .ok publication.number) ∧
    ∀ s ∈ b.trace events, ∀ s' ∈ b.trace events, ∀ transceiver transceiver' sequence sequence',
      s.handover? = some (transceiver, sequence) → s'.handover? = some (transceiver', sequence') →
        ∃ parcel parcel', s.parcel? = some parcel ∧ s'.parcel? = some parcel' ∧
          (sequence = sequence' → parcel = parcel') ∧
          (sequence ≠ sequence' → parcel.message.id ≠ parcel'.message.id) := by
  have h := b.deliveries hfresh events
  have hrecords := b.records hfresh events
  refine ⟨fun transceiver sequence => ?_,
    fun s hs _ _ _ _ haction publication => b.published_iff hs haction publication,
    fun s hs s' hs' transceiver transceiver' n n' hover hover' => ?_⟩
  · -- The handovers are without repetition, so to be among them is to be there once.
    have hle := List.nodup_iff_count_le_one.mp h.once (transceiver, sequence)
    refine ⟨hle, ?_⟩
    rw [← h.picked, ← List.count_pos_iff]
    omega
  · -- What was handed over is read off the entry as it is in the end.
    obtain ⟨item, hitem, _, _, hparcel⟩ := h.contents s hs transceiver n hover
    obtain ⟨item', hitem', _, _, hparcel'⟩ := h.contents s' hs' transceiver' n' hover'
    refine ⟨_, _, hparcel, hparcel', ?_, fun hne heq => hne ?_⟩
    · rintro rfl
      cases hitem.symm.trans hitem'
      rfl
    · -- The id tells the number under which the transfer stands.
      rw [← (hrecords.entries n item hitem).number, ← (hrecords.entries n' item' hitem').number]
      exact ManagerMessage.idOfSequence_injective heq

namespace Sample

/-- Two transceivers get the same transfer, one directly and one in a post. In between the owner
says that the manager on the other chain is another one. -/
def relayEvents : List Event :=
  [⟨0, .execute (address 9) (.registerTransceiver (address 30))⟩,
   ⟨0, .execute (address 9) (.registerTransceiver (address 33))⟩,
   ⟨0, .execute (address 9) (.setPeer ⟨⟨2⟩, address 12, 1000000000, 7⟩)⟩,
   ⟨1, .transfer (address 20) ⟨123456789, ⟨2⟩, address 22, false, []⟩⟩,
   ⟨2, .releaseOutbound (address 30) 0 true⟩,
   ⟨3, .execute (address 9) (.setPeer ⟨⟨2⟩, address 13, 1000000000, 8⟩)⟩,
   ⟨4, .publish (.new (address 33)) (fun _ => .ok 7) 0 true⟩]

theorem relay_delivered_once :
    (home.run relayEvents).manager.PickedUp (address 33) 0 ∧
    ∃ s ∈ home.trace relayEvents, ∃ s' ∈ home.trace relayEvents,
      s.handover? = some (address 30, 0) ∧ s'.handover? = some (address 33, 0) ∧
      ∃ parcel, s.parcel? = some parcel ∧ s'.parcel? = some parcel := by
  obtain ⟨honce, _, hsame⟩ := Book.delivered_once home_fresh relayEvents
  refine ⟨(honce (address 33) 0).2.mp (by decide +kernel), ?_⟩
  have hs : (home.trace relayEvents)[4] ∈ home.trace relayEvents := List.getElem_mem _
  have hs' : (home.trace relayEvents)[6] ∈ home.trace relayEvents := List.getElem_mem _
  have hover : (home.trace relayEvents)[4].handover? = some (address 30, 0) := by decide +kernel
  have hover' : (home.trace relayEvents)[6].handover? = some (address 33, 0) := by decide +kernel
  obtain ⟨parcel, parcel', hparcel, hparcel', heq, _⟩ := hsame _ hs _ hs' _ _ 0 0 hover hover'
  cases heq rfl
  exact ⟨_, hs, _, hs', hover, hover', parcel, hparcel, hparcel'⟩

end Sample

end CrossChain
