import CrossChain.Proofs.Canonical
import CrossChain.Proofs.Progress

/-!
# What can be posted

The tokens of a transfer are taken when it is sent, and it is posted later, by an endpoint that
encodes it once more and reads what the sender has told it. Neither the amount nor the recipients
can stand in the way: what the manager accepted has an encoding. The bytes for an endpoint can. The
manager passes them on unread, as it does not know what kind of transceiver they are for, and an
endpoint takes nothing but one byte, zero or one. Given anything else it posts nothing, and the
transfer stays where it is.

## Main statements

* `Instructions.get?_eq_some_iff`: the bisection finds what the sender has attached.
* `Endpoint.publishRelease_ok`, `Endpoint.publishRelease_error`: a post.
* `Manager.planPickUp_of_released`: a transfer that has passed is handed out.
* `Book.released_published`: runs.
-/

namespace CrossChain

/-! ## §1 Instructions for transceivers -/

namespace Instructions

/-- Helper: entries in ascending order. -/
private theorem index_lt_of_lt {entries : Array Instruction}
    (hascending : entries.toList.Pairwise fun a b => a.index < b.index) {i j : ℕ}
    {a c : Instruction} (ha : entries[i]? = some a) (hc : entries[j]? = some c) (hij : i < j) :
    a.index < c.index := by
  rw [← Array.getElem?_toList] at ha hc
  obtain ⟨hi, rfl⟩ := List.getElem?_eq_some_iff.mp ha
  obtain ⟨hj, rfl⟩ := List.getElem?_eq_some_iff.mp hc
  exact List.pairwise_iff_getElem.mp hascending i j hi hj hij

/-- **Bisection** ends at an entry, if it is among those where it starts. -/
theorem bisect_eq {entries : Array Instruction} {entry : Instruction} {position : ℕ}
    (hascending : entries.toList.Pairwise fun a b => a.index < b.index)
    (hentry : entries[position]? = some entry) (base size : ℕ) (hbase : base ≤ position)
    (hsize : position < base + size) : bisect entries entry.index base size = position := by
  -- Whichever half is kept, the entry is in it.
  fun_induction bisect entries entry.index base size with
  | case1 base size hmany half kept ih =>
    have hhalf : half ≤ size - half := by omega
    have hkept : kept = base ∧ position < base + half ∨
        kept = base + half ∧ base + half ≤ position := by
      cases hmiddle : entries[base + half]? with
      | none =>
        have hend := Array.getElem?_eq_none_iff.mp hmiddle
        obtain ⟨hposition, _⟩ := Array.getElem?_eq_some_iff.mp hentry
        exact .inl ⟨by simp [kept, hmiddle], by omega⟩
      | some middle =>
        by_cases hless : entry.index < middle.index
        · refine .inl ⟨by simp [kept, hmiddle, hless], ?_⟩
          by_contra hnot
          rcases Nat.eq_or_lt_of_le (Nat.not_lt.mp hnot) with hsame | hlater
          · cases (hsame ▸ hmiddle).symm.trans hentry
            exact UInt8.lt_irrefl _ hless
          · exact UInt8.lt_asymm hless (index_lt_of_lt hascending hmiddle hentry hlater)
        · refine .inr ⟨by simp [kept, hmiddle, hless], ?_⟩
          by_contra hbefore
          exact hless (index_lt_of_lt hascending hentry hmiddle (Nat.not_le.mp hbefore))
    rcases hkept with ⟨heq, hin⟩ | ⟨heq, hin⟩
    · exact ih (by omega) (by omega)
    · exact ih (by omega) (by omega)
  | case2 => omega

/-- **What is found** in a list in ascending order is what is in it. -/
theorem get?_eq_some_iff {list : Instructions} {index : UInt8} {payload : Bytes}
    (hascending : list.entries.Pairwise fun a b => a.index < b.index) :
    list.get? index = some payload ↔ ⟨index, payload⟩ ∈ list.entries := by
  unfold get?
  constructor
  · intro hfound
    dsimp only at hfound
    split at hfound
    next entry hentry =>
      split at hfound
      next hindex =>
        cases hfound
        cases hindex
        rw [List.getElem?_toArray] at hentry
        exact List.mem_of_getElem? hentry
      next => cases hfound
    next => cases hfound
  · intro hmem
    obtain ⟨position, hposition⟩ := List.mem_iff_getElem?.mp hmem
    obtain ⟨hlength, _⟩ := List.getElem?_eq_some_iff.mp hposition
    have hentry : list.entries.toArray[position]? = some ⟨index, payload⟩ := by
      rw [List.getElem?_toArray, hposition]
    have hbisect := bisect_eq hascending hentry 0 list.entries.toArray.size (Nat.zero_le _)
      (by simpa using hlength)
    simp only [hbisect, hentry, if_true]

end Instructions

/-! ## §2 Posts -/

namespace Endpoint

/-- What an endpoint takes for an instruction: one byte, zero or one. -/
def Understands (payload : Bytes) : Prop := payload = [0] ∨ payload = [1]

theorem understands_iff {payload : Bytes} :
    Understands payload ↔ ∃ instruction, Wire.decode RelayInstruction.wire payload =
      .ok instruction := by
  constructor
  · rintro (rfl | rfl)
    · exact ⟨⟨false⟩, RelayInstruction.wire_exact.decode_eq_ok.mpr rfl⟩
    · exact ⟨⟨true⟩, RelayInstruction.wire_exact.decode_eq_ok.mpr rfl⟩
  · rintro ⟨⟨skipRelayer⟩, hdecode⟩
    cases RelayInstruction.wire_exact.decode_eq_ok.mp hdecode
    cases skipRelayer with
    | false => exact .inl rfl
    | true => exact .inr rfl

/-- **What is handed out can be posted**: whatever the amount and the recipients are, there is an
encoding. -/
theorem publishRelease_ok {bridge : Publisher}
    (haccepts : ∀ post, ∃ number, bridge post = .ok number) (m : Manager)
    (release : OutboundRelease)
    (hunderstands : ∀ payload, release.instruction = some payload → Understands payload) :
    ∃ publication, publishRelease bridge m release = .ok publication ∧
      bridge publication.post = .ok publication.number := by
  have hinstruction : ∃ instruction, relayInstruction release.instruction = .ok instruction := by
    cases hgiven : release.instruction with
    | none => exact ⟨.standard, rfl⟩
    | some payload =>
      obtain ⟨instruction, hdecode⟩ := understands_iff.mp (hunderstands payload hgiven)
      exact ⟨instruction, by rw [relayInstruction, hdecode]; rfl⟩
  obtain ⟨instruction, hinstruction⟩ := hinstruction
  -- The endpoint adds no bytes of its own to the envelope.
  obtain ⟨payload, hpayload⟩ := (Envelope.wire_fits TokenTransfer.wire_compact
    ⟨⟨m.config.address, release.recipientManager, release.message⟩, []⟩).mpr (Nat.zero_le _)
  obtain ⟨number, hnumber⟩ := haccepts ⟨payload, instruction.skipRelayer⟩
  refine ⟨⟨⟨payload, instruction.skipRelayer⟩, number⟩, ?_, hnumber⟩
  simp only [publishRelease, publish, hinstruction, hpayload, hnumber, ok_bind,
    Except.mapError]
  rfl

/-- **An instruction that the endpoint does not understand** leaves nothing to post. -/
theorem publishRelease_error (bridge : Publisher) (m : Manager) (release : OutboundRelease)
    {payload : Bytes} (hgiven : release.instruction = some payload)
    (hnot : ¬ Understands payload) : ∃ e, publishRelease bridge m release = .error (.wire e) := by
  cases hdecode : Wire.decode RelayInstruction.wire payload with
  | ok instruction => exact absurd (understands_iff.mpr ⟨instruction, hdecode⟩) hnot
  | error e =>
    refine ⟨e, ?_⟩
    rw [publishRelease, hgiven, relayInstruction, hdecode]
    rfl

end Endpoint

/-! ## §3 Transfers that have passed -/

/-- **Picking up a transfer that has passed** works for every enabled transceiver that has not
picked it up, however the limits stand. -/
theorem Manager.planPickUp_of_released {m : Manager} {t : Transceiver} {sequence : UInt64}
    {item : OutboxItem} (hlimits : m.Metered) (hrunning : m.config.paused = false)
    (ht : m.Enables t) (hitem : m.outbox.get? sequence = some item) (hproper : item.ProperFor m)
    (hreleased : item.status = .released) (hnot : ¬ item.released.Mem t.id) (now : Timestamp)
    (strict : Bool) :
    ∃ item' outboundLimit inboundLimit, m.planPickUp t.address now sequence strict =
      .ok (.released item' outboundLimit inboundLimit (m.outboundRelease item t.id)) := by
  obtain ⟨limit, hlimit⟩ := hlimits.inboundLimit_of_peer hproper.peer
  -- Only a transfer that waits was taken back.
  have hcancelled : item.cancelled = false := by
    rw [← Bool.not_eq_true]
    intro htaken
    obtain ⟨time, hqueued⟩ := hproper.cancelled htaken
    cases hreleased.symm.trans hqueued
  obtain ⟨released, hhanded⟩ := tryRelease_of_released ht { item with cancelled := false } hreleased
    rfl hnot
  have hadvance : m.advanceQueued item limit now =
      .ok (.alreadyReleased, ⟨item.status, m.outboundLimit, some limit⟩) := by
    simp only [advanceQueued, hreleased]
  have running : m.config.requireRunning = .ok () := requireRunning_eq_ok.mpr hrunning
  simp only [planPickUp, running, ht.enabledTransceiver, outboxItem_eq_ok.mpr hitem, hcancelled,
    inboundLimit_eq_ok.mpr hlimit, hadvance, hhanded, ok_bind, Bool.false_eq_true, if_false]
  exact ⟨_, _, _, rfl⟩

/-! ## §4 Runs -/

variable {b : Book}

/-- **What can be posted.** Whatever has happened to a new manager, as long as it is not paused, a
transfer that has passed and an enabled endpoint that has not picked it up, with a bridge that takes
every post, are in one of two cases:

* if the sender has attached nothing for this endpoint, or one byte that is zero or one, the message
  of the transfer is posted, whatever its amount, its recipients and its other instructions are;
* if the sender has attached anything else for it, the endpoint refuses the bytes, and nothing has
  changed. -/
theorem Book.released_published (hfresh : b.Fresh) (events : List Event)
    (hrunning : (b.run events).manager.config.paused = false) {sequence : UInt64}
    {item : OutboxItem} (hitem : (b.run events).manager.outbox.get? sequence = some item)
    (hreleased : item.status = .released) (endpoint : Endpoint) {id : UInt8}
    (henabled : (b.run events).manager.Enables ⟨id, endpoint.address⟩)
    (hnot : ¬ item.released.Mem id) (bridge : Publisher)
    (haccepts : ∀ post, ∃ number, bridge post = .ok number) (now : Timestamp) (strict : Bool) :
    ((∀ payload, ⟨id, payload⟩ ∈ item.instructions.entries → Endpoint.Understands payload) →
      ∃ publication after,
        endpoint.release bridge now sequence strict (b.run events) = .ok (some publication) after ∧
          bridge publication.post = .ok publication.number ∧
          Envelope.delivery? publication.post.payload =
            some ⟨(b.run events).manager.config.address, item.recipientManager,
              item.message (b.run events).manager.config.tokenAddress⟩) ∧
    ∀ payload, ⟨id, payload⟩ ∈ item.instructions.entries → ¬ Endpoint.Understands payload →
      ∃ e, endpoint.release bridge now sequence strict (b.run events) =
        .error (.wire e) (b.run events) := by
  have hsound := hfresh.sound_run events
  have hproper := hsound.outbox.items sequence item hitem
  have hattached {payload : Bytes} :
      item.instructions.get? id = some payload ↔ ⟨id, payload⟩ ∈ item.instructions.entries :=
    Instructions.get?_eq_some_iff hproper.instructions.ascending
  -- The manager lets the endpoint pick it up, so all that is left is the post.
  obtain ⟨item', outboundLimit, inboundLimit, hplan⟩ :=
    Manager.planPickUp_of_released hsound.limits hrunning henabled hitem hproper hreleased hnot now
      strict
  rw [Endpoint.release_eq, Call.releaseOutbound_eq, hplan]
  simp only
  constructor
  · intro hunderstands
    obtain ⟨publication, hpublished, hnumber⟩ := Endpoint.publishRelease_ok haccepts
      ((b.run events).manager.recordPickUp sequence item' outboundLimit inboundLimit)
      ((b.run events).manager.outboundRelease item id)
      fun payload hgiven => hunderstands payload (hattached.mp hgiven)
    refine ⟨publication, _, by rw [hpublished], hnumber, ?_⟩
    exact Endpoint.delivery_of_publishRelease hpublished
  · intro payload hgiven hnot
    obtain ⟨e, hrefused⟩ := Endpoint.publishRelease_error bridge
      ((b.run events).manager.recordPickUp sequence item' outboundLimit inboundLimit)
      ((b.run events).manager.outboundRelease item id) (hattached.mpr hgiven) hnot
    exact ⟨e, by rw [hrefused]⟩

namespace Sample

/-- On the first chain a transfer is sent whose sender tells the first transceiver one byte. -/
def attachedEvents (flag : UInt8) : List Event :=
  [⟨0, .execute (address 9) (.registerTransceiver (address 30))⟩,
   ⟨0, .execute (address 9) (.setPeer ⟨⟨2⟩, address 12, 1000000000, 7⟩)⟩,
   ⟨1, .transfer (address 20) ⟨123456789, ⟨2⟩, address 22, false, [1, 0, 1, flag]⟩⟩]

/-- The transfer is posted if the byte is a one. -/
theorem attached_published :
    ∃ publication after, (Endpoint.new (address 30)).release (fun _ => .ok 7) 2 0 true
        (home.run (attachedEvents 1)) = .ok (some publication) after ∧ publication.number = 7 := by
  have hfacts : ((home.run (attachedEvents 1)).manager.outbox.get? 0).map (fun item =>
      (item.status, item.released.get? 0, item.instructions.entries)) =
      some (.released, some false, [⟨0, [1]⟩]) := by decide +kernel
  obtain ⟨item, hitem, hitem'⟩ := Option.map_eq_some_iff.mp hfacts
  simp only [Prod.mk.injEq] at hitem'
  obtain ⟨hreleased, hnot, hentries⟩ := hitem'
  have henabled : (home.run (attachedEvents 1)).manager.Enables ⟨0, address 30⟩ :=
    ⟨by decide +kernel, by decide +kernel⟩
  obtain ⟨hposted, _⟩ := Book.released_published home_fresh (attachedEvents 1) (by decide +kernel)
    hitem hreleased (.new (address 30)) henabled (by simp [Bitmap.Mem, hnot]) (fun _ => .ok 7)
    (fun _ => ⟨7, rfl⟩) 2 true
  have hunderstands : ∀ payload, ⟨0, payload⟩ ∈ item.instructions.entries →
      Endpoint.Understands payload := by
    intro payload hpayload
    rw [hentries, List.mem_singleton] at hpayload
    cases hpayload
    exact .inr rfl
  obtain ⟨publication, after, hok, hnumber, _⟩ := hposted hunderstands
  exact ⟨publication, after, hok, (Except.ok.inj hnumber).symm⟩

/-- The transfer is accepted and has passed with any other byte too, and then it cannot be posted
by a transceiver that is enabled and has not picked it up, to a bridge that takes every post. -/
theorem attached_unpublished :
    home.Fresh ∧ (home.run (attachedEvents 2)).manager.config.paused = false ∧
      ((home.run (attachedEvents 2)).manager.outbox.get? 0).map (fun item =>
        (item.status, item.released.get? 0)) = some (.released, some false) ∧
      (home.run (attachedEvents 2)).manager.Enables ⟨0, address 30⟩ ∧
      (∀ post, ∃ number, (fun _ => .ok 7 : Publisher) post = .ok number) ∧
      (perform 2 (home.run (attachedEvents 2))
        (.publish (.new (address 30)) (fun _ => .ok 7) 0 true)).1 =
          .error (.call (.wire (.badRelayerFlag 2))) :=
  ⟨home_fresh, by decide +kernel, by decide +kernel, ⟨by decide +kernel, by decide +kernel⟩,
    fun _ => ⟨7, rfl⟩, by decide +kernel⟩

end Sample

end CrossChain
