import CrossChain.Proofs.Store

/-!
# The ledgers only move forward

Every call that touches a transfer reads the entry, works on it and writes it back, and some of
them ask again what was settled before: whether the votes suffice, with a threshold that may be
another one by now, and whether the limit has room, at a time that may be earlier than the last.
Whatever is asked again, an entry stays where it is, keeps what identifies it, and its progress is
never undone.

An entry is related to what becomes of it over the times of the calls in between. One call is the
case of one time; a longer run is put together from its calls.

## Main statements

* `ReleaseStatus.Forward`, `Gate.Passes.forward`: how far a transfer can come.
* `Manager.Sound.forward`: a step.
* `Book.run_forward`: runs.
-/

namespace CrossChain

/-! ## §1 The status -/

/-- How a transfer can have come from one status to another by calls at these times. -/
inductive ReleaseStatus.Forward (times : List Timestamp) :
    ReleaseStatus → ReleaseStatus → Prop where
  | stays (status : ReleaseStatus) : Forward times status status
  | queued (time : Timestamp) : Forward times .notApproved (.queued time)
  | passed : Forward times .notApproved .released
  /-- A transfer that waits may have to wait longer, but not less long. -/
  | delayed {time time' : Timestamp} (hle : time ≤ time') :
      Forward times (.queued time) (.queued time')
  /-- A transfer that waits passes in a call when its time has come. -/
  | matured {time : Timestamp} (hcall : ∃ now ∈ times, time ≤ now) :
      Forward times (.queued time) .released

namespace ReleaseStatus.Forward

variable {times later : List Timestamp} {status status' status'' : ReleaseStatus}

/-- **What has passed** stays so. -/
theorem released (h : Forward times status status') (hpassed : status = .released) :
    status' = .released := by
  subst hpassed
  cases h with
  | stays => rfl

/-- One stretch of time after the other. -/
theorem trans (h : Forward times status status') (h' : Forward later status' status'') :
    Forward (times ++ later) status status'' := by
  cases h with
  | stays =>
    cases h' with
    | stays => exact .stays _
    | queued => exact .queued _
    | passed => exact .passed
    | delayed hle => exact .delayed hle
    | matured hcall =>
      obtain ⟨now, hnow, hle⟩ := hcall
      exact .matured ⟨now, List.mem_append_right _ hnow, hle⟩
  | queued =>
    cases h' with
    | stays | delayed => exact .queued _
    | matured => exact .passed
  | passed =>
    cases h' with
    | stays => exact .passed
  | delayed hle =>
    cases h' with
    | stays => exact .delayed hle
    | delayed hle' => exact .delayed (Int64.le_trans hle hle')
    | matured hcall =>
      -- The time that the transfer waited for in the end is no earlier than the first.
      obtain ⟨now, hnow, hle'⟩ := hcall
      exact .matured ⟨now, List.mem_append_right _ hnow, Int64.le_trans hle hle'⟩
  | matured hcall =>
    cases h' with
    | stays =>
      obtain ⟨now, hnow, hle⟩ := hcall
      exact .matured ⟨now, List.mem_append_left _ hnow, hle⟩

end ReleaseStatus.Forward

/-- A delay lasts for the duration of the limit, or until the end of time. -/
theorem RateLimit.toInt_delayFrom {r : RateLimit} (hduration : 0 < r.duration.toInt)
    (now : Timestamp) :
    (r.delayFrom now).toInt = min (now.toInt + r.duration.toInt) Int64.maxValue.toInt := by
  have hmaximum : Int64.maxValue.toInt = 2 ^ 63 - 1 := by decide
  have hmin := now.le_toInt
  rw [delayFrom, Timestamp.addSat, Timestamp.toInt_clamp, hmaximum]
  omega

/-- A delay does not end before it begins. -/
theorem RateLimit.le_delayFrom {r : RateLimit} (hduration : 0 < r.duration.toInt)
    (now : Timestamp) : now ≤ r.delayFrom now := by
  rw [Int64.le_iff_toInt_le, toInt_delayFrom hduration]
  exact le_min (by omega) now.toInt_le

namespace Gate

variable {gate gate' : Gate} {amount : TrimmedAmount} {now : Timestamp} {mayQueue : Bool}
  {result : Advance}

/-- Helper: a limit that tells a transfer to wait tells it for how long. -/
private theorem Asks.time_eq {time : Timestamp} {limit : RateLimit}
    (h : gate.Asks amount now (.delayed time, limit)) : time = gate.consumed.delayFrom now := by
  rcases h with ⟨_, hconsume⟩ | ⟨_, _, _, hconsume⟩
  · rw [RateLimit.consume_eq, map_eq_ok] at hconsume
    obtain ⟨_, _, hconsume⟩ := hconsume
    split at hconsume <;> cases hconsume
    rfl
  · rw [RateLimit.consumeQueued_eq, map_eq_ok] at hconsume
    obtain ⟨_, _, hconsume⟩ := hconsume
    split at hconsume
    next => cases hconsume
    next => split at hconsume <;> cases hconsume; rfl

/-- **An attempt to move on a transfer that waits**: it passes only when its time has come, and
when the limit has no room then, the new time is no earlier than the old one. -/
theorem Passes.forward (h : gate.Passes amount now mayQueue result gate')
    (hduration : 0 < gate.consumed.duration.toInt) {time : Timestamp}
    (hqueued : gate.status = .queued time) : gate.status.Forward [now] gate'.status := by
  -- Only a transfer whose time has come asks the limit.
  have hasked {answer : Verdict × RateLimit} (hask : gate.Asks amount now answer) : time ≤ now := by
    rcases hask with ⟨hinitiated, _⟩ | ⟨_, hsame, hnot, _⟩
    · cases hqueued.symm.trans hinitiated
    · cases hqueued.symm.trans hsame
      exact Int64.not_lt.mp hnot
  cases h with
  | already | early => exact .stays _
  | delayed hask _ =>
    rw [hqueued, hask.time_eq]
    exact .delayed (Int64.le_trans (hasked hask) (RateLimit.le_delayFrom hduration now))
  | passed hask _ =>
    rw [hqueued]
    exact .matured ⟨now, List.mem_singleton_self now, hasked hask⟩

end Gate

/-! ## §2 Entries -/

/-- What can become of an inbound transfer by calls at these times. -/
structure InboxItem.Forward (times : List Timestamp) (item item' : InboxItem) : Prop where
  sourceChain : item'.sourceChain = item.sourceChain
  amount : item'.amount = item.amount
  recipient : item'.recipient = item.recipient
  votes : ∀ id, item.votes.Mem id → item'.votes.Mem id
  approved : item.approved = true → item'.approved = true
  status : item.status.Forward times item'.status

/-- What can become of an outbound transfer by calls at these times. -/
structure OutboxItem.Forward (times : List Timestamp) (item item' : OutboxItem) : Prop where
  sequence : item'.sequence = item.sequence
  amount : item'.amount = item.amount
  sender : item'.sender = item.sender
  recipientChain : item'.recipientChain = item.recipientChain
  recipientManager : item'.recipientManager = item.recipientManager
  recipient : item'.recipient = item.recipient
  instructions : item'.instructions = item.instructions
  released : ∀ id, item.released.Mem id → item'.released.Mem id
  cancelled : item.cancelled = true → item'.cancelled = true
  status : item.status.Forward times item'.status

section Entries

variable {times later : List Timestamp}

theorem InboxItem.Forward.refl (item : InboxItem) : item.Forward times item :=
  ⟨rfl, rfl, rfl, fun _ => id, id, .stays _⟩

theorem InboxItem.Forward.trans {item item' item'' : InboxItem} (h : item.Forward times item')
    (h' : item'.Forward later item'') : item.Forward (times ++ later) item'' where
  sourceChain := h'.sourceChain.trans h.sourceChain
  amount := h'.amount.trans h.amount
  recipient := h'.recipient.trans h.recipient
  votes id hid := h'.votes id (h.votes id hid)
  approved happroved := h'.approved (h.approved happroved)
  status := h.status.trans h'.status

theorem OutboxItem.Forward.refl (item : OutboxItem) : item.Forward times item :=
  ⟨rfl, rfl, rfl, rfl, rfl, rfl, rfl, fun _ => id, id, .stays _⟩

theorem OutboxItem.Forward.trans {item item' item'' : OutboxItem} (h : item.Forward times item')
    (h' : item'.Forward later item'') : item.Forward (times ++ later) item'' where
  sequence := h'.sequence.trans h.sequence
  amount := h'.amount.trans h.amount
  sender := h'.sender.trans h.sender
  recipientChain := h'.recipientChain.trans h.recipientChain
  recipientManager := h'.recipientManager.trans h.recipientManager
  recipient := h'.recipient.trans h.recipient
  instructions := h'.instructions.trans h.instructions
  released id hid := h'.released id (h.released id hid)
  cancelled hcancelled := h'.cancelled (h.cancelled hcancelled)
  status := h.status.trans h'.status

end Entries

namespace SortedMap

variable {κ α : Type} [Ranked κ] {m m' : SortedMap κ α} {R : α → α → Prop}

/-- Every entry of a map is still there, and is related to what it was. -/
def Kept (R : α → α → Prop) (m m' : SortedMap κ α) : Prop :=
  ∀ key v, m.get? key = some v → ∃ v', m'.get? key = some v' ∧ R v v'

theorem Kept.refl (hrefl : ∀ v, R v v) (m : SortedMap κ α) : Kept R m m :=
  fun _ v hv => ⟨v, hv, hrefl v⟩

/-- **Setting an entry** keeps all of them, if it goes with the one that it replaces. -/
theorem Kept.insert (hrefl : ∀ v, R v v) {key : κ} {new : α}
    (hnew : ∀ old, m.get? key = some old → R old new) : Kept R m (m.insert key new) := by
  intro k v hv
  by_cases hsame : k = key
  · subst hsame
    exact ⟨new, get?_insert_self m k new, hnew v hv⟩
  · exact ⟨v, get?_insert_eq_some.mpr (.inr ⟨hsame, hv⟩), hrefl v⟩

end SortedMap

/-! ## §3 Managers -/

namespace Manager

variable {m m' m'' : Manager} {now : Timestamp} {times later : List Timestamp}

/-- What can become of the ledgers of a manager by calls at these times. -/
structure Forward (times : List Timestamp) (m m' : Manager) : Prop where
  inbox : SortedMap.Kept (InboxItem.Forward times) m.inbox m'.inbox
  outbox : SortedMap.Kept (OutboxItem.Forward times) m.outbox m'.outbox

theorem Forward.refl (m : Manager) : m.Forward times m :=
  ⟨.refl .refl m.inbox, .refl .refl m.outbox⟩

theorem Forward.trans (h : m.Forward times m') (h' : m'.Forward later m'') :
    m.Forward (times ++ later) m'' := by
  constructor
  · intro digest item hitem
    obtain ⟨item', hitem', hforward⟩ := h.inbox digest item hitem
    obtain ⟨item'', hitem'', hforward'⟩ := h'.inbox digest item' hitem'
    exact ⟨item'', hitem'', hforward.trans hforward'⟩
  · intro sequence item hitem
    obtain ⟨item', hitem', hforward⟩ := h.outbox sequence item hitem
    obtain ⟨item'', hitem'', hforward'⟩ := h'.outbox sequence item' hitem'
    exact ⟨item'', hitem'', hforward.trans hforward'⟩

/-- Helper: an inbound transfer in the hands of a call is the one that is recorded, perhaps with a
vote more. -/
private theorem Presents.of_entry {digest : Digest} {voted old : InboxItem}
    (h : m.Presents digest voted) (hold : m.inbox.get? digest = some old) :
    ∃ votes, voted = { old with votes } ∧ ∀ id, old.votes.Mem id → votes.Mem id := by
  cases h with
  | found hitem =>
    cases hold.symm.trans hitem
    exact ⟨_, rfl, fun _ => id⟩
  | vote _ hattest =>
    obtain ⟨_, votes, hset, rfl⟩ := InboxItem.attest_eq_ok hattest
    simp only [inbound, hold, Option.getD_some] at hset ⊢
    exact ⟨votes, rfl, fun id hid => (Bitmap.mem_set? hset id).mpr (.inr hid)⟩

/-- Helper: **a vote that does not suffice**. -/
private theorem forward_of_voted {digest : Digest} {voted old : InboxItem}
    (hold : m.inbox.get? digest = some old) (hpresents : m.Presents digest voted)
    (hnot : (voted.tryApprove m.config.threshold m.config.enabled).approved = false) :
    old.Forward [now] (voted.tryApprove m.config.threshold m.config.enabled) := by
  obtain ⟨votes, rfl, hvotes⟩ := hpresents.of_entry hold
  rcases InboxItem.tryApprove_cases { old with votes } m.config.threshold m.config.enabled with
    hsame | ⟨_, _, _, heq⟩
  · rw [hsame]
    exact ⟨rfl, rfl, rfl, hvotes, id, .stays _⟩
  · rw [heq] at hnot
    cases hnot

/-- Helper: **an approved transfer that is moved on**. It was approved just now and not queued
before, or it was approved earlier and waited, and then the threshold is not looked at again. -/
private theorem forward_of_settled (hlimits : m.Metered) {digest : Digest} {voted old : InboxItem}
    {chain : ChainId} {s : Settlement} (hold : m.inbox.get? digest = some old)
    (hstaged : old.Staged) (hpresents : m.Presents digest voted)
    (hwaits : voted.status ≠ .released)
    (happroved : (voted.tryApprove m.config.threshold m.config.enabled).approved = true)
    (hsettles : m.Settles chain (voted.tryApprove m.config.threshold m.config.enabled) now s) :
    old.Forward [now] s.item := by
  obtain ⟨votes, rfl, hvotes⟩ := hpresents.of_entry hold
  obtain ⟨limit, gate, hlimit, hpasses, hitem, _, _⟩ := hsettles.gate
  have hduration := hlimits.duration_pos (hlimits.inbound chain limit hlimit)
  rw [hitem]
  rcases InboxItem.tryApprove_cases { old with votes } m.config.threshold m.config.enabled with
    hsame | ⟨hunapproved, _, _, heq⟩
  · -- It was approved before, so it waited.
    rw [hsame] at happroved hpasses ⊢
    refine ⟨rfl, rfl, rfl, hvotes, id, ?_⟩
    rcases hstaged with ⟨hfalse, _⟩ | ⟨_, ⟨time, hqueued⟩ | hreleased⟩
    · cases hfalse.symm.trans happroved
    · exact hpasses.forward hduration hqueued
    · exact absurd hreleased hwaits
  · -- It is approved by this call, and asks the limit for the first time.
    rw [heq]
    refine ⟨rfl, rfl, rfl, hvotes, fun _ => rfl, ?_⟩
    rcases hstaged with ⟨_, hstatus⟩ | ⟨htrue, _⟩
    · show old.status.Forward [now] gate.status
      rw [hstatus]
      rcases hpasses.queued_or_released with ⟨time, hqueued⟩ | hreleased
      · rw [hqueued]
        exact .queued time
      · rw [hreleased]
        exact .passed
    · cases hunapproved.symm.trans htrue

/-- Helper: an outbound transfer that a transceiver picks up or finds waiting. -/
private theorem status_forward_of_queued (hlimits : m.Metered) {item : OutboxItem}
    {limit : RateLimit} {result : Advance} {gate : Gate}
    (hqueued : ∃ time, item.status = .queued time)
    (hpasses : Gate.Passes ⟨item.status, m.outboundLimit, some limit⟩ item.amount now true result
      gate) : item.status.Forward [now] gate.status := by
  obtain ⟨time, hqueued⟩ := hqueued
  have hduration := hlimits.duration_pos hlimits.outbound
  exact hpasses.forward hduration hqueued

/-- **A step** moves the ledgers forward. -/
theorem Sound.forward (h : m.Sound) (hchanges : m.Changes now m') : m.Forward [now] m' := by
  cases hchanges with
  | same => exact .refl m
  | voted hpresents _ hnot =>
    refine ⟨.insert .refl fun old hold => ?_, .refl .refl _⟩
    exact forward_of_voted hold hpresents hnot
  | settled hpresents hwaits happroved hsettles =>
    refine ⟨.insert .refl fun old hold => ?_, .refl .refl _⟩
    exact forward_of_settled h.limits hold (h.inbox _ old hold).stage hpresents hwaits happroved
      hsettles
  | transferred hsends =>
    refine ⟨.refl .refl _, .insert .refl fun old hold => ?_⟩
    -- The number of a new transfer was not given out before.
    have hnone := (h.outbox.keys _).mp (Option.isSome_iff_exists.mpr ⟨old, hold⟩)
    rw [hsends.sequence.1] at hnone
    exact absurd hnone (UInt64.lt_irrefl _)
  | waiting hitem _ hwaits =>
    obtain ⟨limit, time, gate, _, hqueued, hpasses, rfl⟩ := hwaits.queued
    refine ⟨.refl .refl _, .insert .refl fun old hold => ?_⟩
    cases hitem.symm.trans hold
    exact ⟨rfl, rfl, rfl, rfl, rfl, rfl, rfl, fun _ => id, id,
      status_forward_of_queued h.limits hqueued hpasses⟩
  | pickedUp _ hitem _ hout =>
    obtain ⟨⟨limit, gate, _, hgate, _, _⟩, _, released, hset, rfl⟩ := hout
    refine ⟨.refl .refl _, .insert .refl fun old hold => ?_⟩
    cases hitem.symm.trans hold
    refine ⟨rfl, rfl, rfl, rfl, rfl, rfl, rfl,
      fun id hid => (Bitmap.mem_set? hset id).mpr (.inr hid), id, ?_⟩
    rcases hgate with ⟨_, hreleased⟩ | ⟨hqueued, hpasses⟩
    · rw [hreleased]
      exact .stays _
    · have hforward := status_forward_of_queued h.limits hqueued hpasses
      rw [hpasses.released.1] at hforward
      exact hforward
  | cancelled hitem _ _ _ =>
    refine ⟨.refl .refl _, .insert .refl fun old hold => ?_⟩
    cases hitem.symm.trans hold
    exact ⟨rfl, rfl, rfl, rfl, rfl, rfl, rfl, fun _ => id, fun _ => rfl, .stays _⟩
  | executed hexecutes =>
    have hconfigures := hexecutes.configures
    constructor
    · rw [hconfigures.inbox]
      exact .refl .refl _
    · rw [hconfigures.outbox]
      exact .refl .refl _

end Manager

/-! ## §4 Runs -/

variable {b : Book}

/-- The manager of a run is sound. -/
theorem Book.Fresh.sound_run (hfresh : b.Fresh) (events : List Event) :
    (b.run events).manager.Sound :=
  run_induction (motive := fun _ current => current.manager.Sound) hfresh.sound
    (fun _ current event h => h.step (current.step_changes event)) events

/-- A run from a sound manager, by induction on its events. -/
theorem Manager.Sound.forward_run (h : b.manager.Sound) (events : List Event) :
    b.manager.Forward (events.map Event.now) (b.run events).manager := by
  induction events generalizing b with
  | nil => exact .refl _
  | cons event rest ih =>
    have hchanges := b.step_changes event
    exact (h.forward hchanges).trans (ih (h.step hchanges))

/-- **The ledgers only move forward.** Whatever has happened to a new manager, and whoever makes
the next call at whatever time,

* no entry of the inbox or the outbox disappears;
* its chain, amount, sender, recipient, recipient manager, number and instructions stay the same;
* votes and pick-ups are only added, and neither the approval nor the mark of a transfer that was
  taken back is lost;
* its status stays, goes from not approved to queued or released, from queued to queued for no
  earlier a time, or from queued to released if the time of the call is no earlier than the one that
  the transfer waits for; what is released stays released.

The same holds from any state to any later one: an approval survives all changes of the threshold
and the transceivers in between, and a transfer that waited has passed only if there was a call
whose time is no earlier than the one it waited for. -/
theorem Book.run_forward (hfresh : b.Fresh) (events : List Event) :
    (∀ event, (b.run events).manager.Forward [event.now]
      ((b.run events).step event).after.manager) ∧
    ∀ more, (b.run events).manager.Forward (more.map Event.now)
      ((b.run events).run more).manager := by
  have hsound := hfresh.sound_run events
  exact ⟨fun event => hsound.forward ((b.run events).step_changes event), hsound.forward_run⟩

namespace Sample

/-- A transfer above the limit is queued until the time 101. -/
def queuedEvents : List Event :=
  [⟨0, .execute (address 9) (.registerTransceiver (address 30))⟩,
   ⟨0, .execute (address 9) (.setPeer ⟨⟨2⟩, address 12, 1000000000, 7⟩)⟩,
   ⟨1, .transfer (address 20) ⟨2000000000, ⟨2⟩, address 22, true, []⟩⟩]

/-- It is asked for too early, and again after the limit was lowered and the clock set back; then
its time comes, and the transceiver that picked it up is disabled. -/
def pickUpEvents : List Event :=
  [⟨100, .releaseOutbound (address 30) 0 false⟩,
   ⟨50, .execute (address 9) (.setOutboundLimit 5000000)⟩,
   ⟨40, .releaseOutbound (address 30) 0 false⟩,
   ⟨150, .releaseOutbound (address 30) 0 true⟩,
   ⟨7, .execute (address 9) (.setTransceiverEnabled 0 false)⟩]

theorem pickUp_forward :
    home.Fresh ∧
      (home.run queuedEvents).manager.Forward (pickUpEvents.map Event.now)
        ((home.run queuedEvents).run pickUpEvents).manager ∧
      ((home.run queuedEvents).manager.outbox.get? 0).map OutboxItem.status = some (.queued 101) ∧
      (((home.run queuedEvents).run pickUpEvents).manager.outbox.get? 0).map OutboxItem.status =
        some .released :=
  ⟨home_fresh, (Book.run_forward home_fresh queuedEvents).2 pickUpEvents, by decide +kernel,
    by decide +kernel⟩

end Sample

end CrossChain
