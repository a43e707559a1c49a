import CrossChain.Proofs.Change
import CrossChain.Proofs.Delivery

/-!
# The transceivers of a manager and its threshold

The owner registers transceivers, enables and disables them, and sets how many of them have to
vouch for a transfer. These calls come in any order, some of them twice, and several adjust the
threshold by the way. A threshold beyond the number of enabled transceivers would strand every
transfer, and a threshold of zero would leave nobody to vouch, so both numbers are followed
through every call.

## Main statements

* `Quorate`: what relates a threshold to a set of transceivers.
* `Manager.Staffed.step`: a step keeps the transceivers in order.
* `Book.run_staffed`: runs.
-/

namespace CrossChain

/-! ## §1 Numbers of members -/

namespace Bitmap

variable {s s' : Bitmap} {id : UInt8}

theorem count_eq_zero : s.count = 0 ↔ ∀ id, ¬ s.Mem id := by
  rw [count_eq_card, Finset.card_eq_zero, Finset.eq_empty_iff_forall_notMem]
  simp only [mem_members]

/-- A set with more members is no smaller. -/
theorem count_mono (h : ∀ id, s.Mem id → s'.Mem id) : s.count ≤ s'.count := by
  rw [count_eq_card, count_eq_card]
  apply Finset.card_le_card
  intro id hid
  exact mem_members.mpr (h id (mem_members.mp hid))

theorem count_pos (h : s.Mem id) : 0 < s.count := by
  apply Nat.pos_of_ne_zero
  intro hzero
  exact count_eq_zero.mp hzero id h

/-- Removing an id adds none. -/
theorem mem_of_mem_set? {member : Bool} {other : UInt8} (h : s.set? id member = some s')
    (hmem : s'.Mem other) : other = id ∨ s.Mem other := by
  unfold Mem at hmem ⊢
  rw [get?_set? h] at hmem
  by_cases hsame : other = id
  · exact .inl hsame
  · rw [if_neg hsame] at hmem
    exact .inr hmem

theorem not_mem_set?_false (h : s.set? id false = some s') : ¬ s'.Mem id := by
  unfold Mem
  rw [get?_set? h]
  simp

end Bitmap

/-- A threshold that a set of transceivers can reach. It is zero only as long as the set is
empty. -/
structure Quorate (threshold : UInt8) (enabled : Bitmap) : Prop where
  le : threshold.toNat ≤ enabled.count
  zero_iff : threshold = 0 ↔ enabled.count = 0

namespace Quorate

variable {c : Config} {id threshold : UInt8} {enabled members : Bitmap} {member : Bool}

/-- Helper: a threshold is zero as a byte or as a number. -/
private theorem eq_zero_iff : threshold = 0 ↔ threshold.toNat = 0 := by
  rw [← UInt8.toNat_inj]
  rfl

/-- A threshold that is not zero, and no greater than the number of members. -/
theorem of_pos (hpos : threshold ≠ 0) (hle : threshold.toNat ≤ enabled.count) :
    Quorate threshold enabled := by
  have hnot := eq_zero_iff.not.mp hpos
  refine ⟨hle, ?_⟩
  rw [eq_zero_iff]
  omega

/-- **Enabling a transceiver** in the course of its registration. -/
theorem enable (h : Quorate c.threshold c.enabled) (hset : c.enabled.set? id true = some enabled) :
    Quorate (c.enable enabled).threshold enabled := by
  have hpos : 0 < enabled.count := Bitmap.count_pos ((Bitmap.mem_set? hset id).mpr (.inl rfl))
  have hmono : c.enabled.count ≤ enabled.count :=
    Bitmap.count_mono fun other hother => (Bitmap.mem_set? hset other).mpr (.inr hother)
  simp only [Config.enable]
  -- A threshold of zero rises to one, and one member is there by now.
  split
  next hzero => exact of_pos (by decide) hpos
  next hnot => exact of_pos hnot (h.le.trans hmono)

/-- **Enabling or disabling a transceiver** by its id: the threshold follows the number of members
down, and rises to one with the first of them. -/
theorem toggle (h : Quorate c.threshold c.enabled)
    (hset : c.enabled.set? id member = some members)
    (hthreshold : threshold.toNat =
      if member = true ∧ min c.threshold.toNat members.count = 0 then 1
      else min c.threshold.toNat members.count) : Quorate threshold members := by
  cases member with
  | true =>
    have hpos : 0 < members.count := Bitmap.count_pos ((Bitmap.mem_set? hset id).mpr (.inl rfl))
    have hcases : threshold.toNat ≠ 0 ∧ threshold.toNat ≤ members.count := by
      simp only [true_and] at hthreshold
      split at hthreshold <;> omega
    exact of_pos (eq_zero_iff.not.mpr hcases.1) hcases.2
  | false =>
    have hlowered : threshold.toNat = min c.threshold.toNat members.count := by
      rw [hthreshold, if_neg (by simp)]
    -- Where nothing was enabled before, nothing is now.
    have hempty : c.enabled.count = 0 → members.count = 0 := by
      intro hzero
      apply Nat.eq_zero_of_le_zero
      rw [← hzero]
      apply Bitmap.count_mono
      intro other hother
      rcases Bitmap.mem_of_mem_set? hset hother with rfl | hbefore
      · exact absurd hother (Bitmap.not_mem_set?_false hset)
      · exact hbefore
    have hzero := h.zero_iff
    refine ⟨by omega, ?_⟩
    rw [eq_zero_iff] at hzero ⊢
    omega

end Quorate

/-! ## §2 Transceivers in order -/

namespace Manager

variable {m m' : Manager} {now : Timestamp}

/-- The transceivers that are enabled. -/
def enabledTransceivers (m : Manager) : List Transceiver :=
  m.transceivers.filter fun t => m.config.enabled.Mem t.id

/-- An id was given out if and only if a transceiver has it. -/
theorem Numbered.exists_iff (h : m.Numbered) {id : UInt8} :
    (∃ t ∈ m.transceivers, t.id = id) ↔ id.toNat < m.config.nextTransceiver.toNat := by
  rw [← List.mem_range, ← h, List.mem_map]
  simp only [UInt8.toNat_inj]

/-- **The number of enabled transceivers** is the number of members that the manager counts. -/
theorem length_enabledTransceivers (h : m.Numbered)
    (henabled : ∀ id, m.config.enabled.Mem id → ∃ t ∈ m.transceivers, t.id = id) :
    m.enabledTransceivers.length = m.config.enabled.count := by
  have hnodup : (m.transceivers.map Transceiver.id).Nodup := by
    apply List.Nodup.of_map UInt8.toNat
    rw [List.map_map]
    -- The ids are as different as the numbers of a range.
    exact h ▸ List.nodup_range
  have hids : (m.enabledTransceivers.map Transceiver.id).Nodup :=
    hnodup.sublist (List.filter_sublist.map _)
  have hmembers : (m.enabledTransceivers.map Transceiver.id).toFinset =
      m.config.enabled.members := by
    ext id
    rw [List.mem_toFinset, List.mem_map, Bitmap.mem_members]
    constructor
    · intro hid
      obtain ⟨t, ht, rfl⟩ := hid
      simpa using (List.mem_filter.mp ht).2
    · intro hid
      obtain ⟨t, ht, rfl⟩ := henabled id hid
      exact ⟨t, List.mem_filter.mpr ⟨ht, by simpa using hid⟩, rfl⟩
  rw [Bitmap.count_eq_card, ← hmembers, List.toFinset_card_of_nodup hids, List.length_map]

/-- The transceivers of a manager are in order, and its threshold is one that they can reach. -/
structure Staffed (m : Manager) : Prop where
  /-- The ids are given out one after another, and listed so. -/
  ids : m.transceivers.map (·.id.toNat) = List.range m.config.nextTransceiver.toNat
  addresses : (m.transceivers.map Transceiver.address).Nodup
  next_le : m.config.nextTransceiver.toNat ≤ 128
  /-- Who is enabled is registered. -/
  enabled : ∀ id, m.config.enabled.Mem id → ∃ t ∈ m.transceivers, t.id = id
  threshold_le : m.config.threshold.toNat ≤ m.enabledTransceivers.length
  threshold_eq_zero : m.config.threshold = 0 ↔ m.enabledTransceivers = []

namespace Staffed

theorem quorate (h : m.Staffed) : Quorate m.config.threshold m.config.enabled := by
  have hcount := length_enabledTransceivers h.ids h.enabled
  refine ⟨hcount ▸ h.threshold_le, ?_⟩
  rw [h.threshold_eq_zero, ← hcount, List.length_eq_zero_iff]

theorem of_quorate (hids : m.Numbered) (haddresses : (m.transceivers.map Transceiver.address).Nodup)
    (hnext : m.config.nextTransceiver.toNat ≤ 128)
    (henabled : ∀ id, m.config.enabled.Mem id → ∃ t ∈ m.transceivers, t.id = id)
    (hquorate : Quorate m.config.threshold m.config.enabled) : m.Staffed := by
  have hcount := length_enabledTransceivers hids henabled
  refine ⟨hids, haddresses, hnext, henabled, hcount ▸ hquorate.le, ?_⟩
  rw [hquorate.zero_iff, ← hcount, List.length_eq_zero_iff]

/-- Helper: a change of anything else. -/
private theorem congr (h : m.Staffed) (htransceivers : m'.transceivers = m.transceivers)
    (hnext : m'.config.nextTransceiver = m.config.nextTransceiver)
    (henabled : m'.config.enabled = m.config.enabled)
    (hthreshold : m'.config.threshold = m.config.threshold) : m'.Staffed := by
  apply of_quorate
  · rw [Numbered, htransceivers, hnext]
    exact h.ids
  · rw [htransceivers]
    exact h.addresses
  · rw [hnext]
    exact h.next_le
  · rw [htransceivers, henabled]
    exact h.enabled
  · rw [hthreshold, henabled]
    exact h.quorate

/-- Helper: a change of the members that leaves the transceivers alone. -/
private theorem members (h : m.Staffed) {id : UInt8} {member : Bool} {c : Config}
    (hid : ∃ t ∈ m.transceivers, t.id = id)
    (hset : m.config.enabled.set? id member = some c.enabled)
    (hnext : c.nextTransceiver = m.config.nextTransceiver)
    (hquorate : Quorate c.threshold c.enabled) : (m.withConfig c).Staffed := by
  refine of_quorate ?_ h.addresses ?_ ?_ hquorate
  · show m.transceivers.map _ = List.range c.nextTransceiver.toNat
    rw [hnext]
    exact h.ids
  · show c.nextTransceiver.toNat ≤ 128
    rw [hnext]
    exact h.next_le
  · intro other hother
    rcases Bitmap.mem_of_mem_set? hset hother with rfl | hbefore
    · exact hid
    · exact h.enabled other hbefore

/-- Helper: a new transceiver. -/
private theorem registered (h : m.Staffed) {address : Address} {enabled : Bitmap} {next : UInt8}
    (hnew : m.transceiver? address = none) (hroom : m.config.nextTransceiver.toNat < 128)
    (hnext : next.toNat = m.config.nextTransceiver.toNat + 1)
    (hset : m.config.enabled.set? m.config.nextTransceiver true = some enabled) :
    Staffed { m with
      config := { m.config with nextTransceiver := next }.enable enabled
      transceivers := m.transceivers ++ [⟨m.config.nextTransceiver, address⟩] } := by
  have henrols : m.Enrols { m with
      config := { m.config with nextTransceiver := next }.enable enabled
      transceivers := m.transceivers ++ [⟨m.config.nextTransceiver, address⟩] } :=
    .registered hnew rfl hnext
  refine of_quorate (henrols.numbered h.ids) ?_ ?_ ?_ (h.quorate.enable hset)
  -- An address that is not found is not in the list.
  · have hother : ∀ t ∈ m.transceivers, t.address ≠ address := by
      intro t ht
      simpa using List.find?_eq_none.mp hnew t ht
    rw [List.map_append, List.nodup_append]
    refine ⟨h.addresses, List.nodup_singleton _, ?_⟩
    simpa using hother
  · show next.toNat ≤ 128
    omega
  · intro id hid
    rcases (Bitmap.mem_set? hset id).mp hid with rfl | hbefore
    · exact ⟨_, List.mem_append_right _ (List.mem_singleton_self _), rfl⟩
    · obtain ⟨t, ht, htid⟩ := h.enabled id hbefore
      exact ⟨t, List.mem_append_left _ ht, htid⟩

/-- **An instruction** keeps the transceivers in order. -/
theorem execute {caller : Address} {instruction : AdminInstruction} (h : m.Staffed)
    (hexecutes : m.Executes caller now instruction m') : m'.Staffed := by
  cases hexecutes with
  | transferOwnership | claimOwnership | setPaused | setPeer | setOutboundLimit
  | setInboundLimit => exact h.congr rfl rfl rfl rfl
  | enabledAgain _ hknown hset =>
    obtain ⟨hmem, _⟩ := transceiver?_eq_some hknown
    exact h.members ⟨_, hmem, rfl⟩ hset rfl (h.quorate.enable hset)
  | registered _ hnew hroom hnext hset => exact h.registered hnew hroom hnext hset
  | setTransceiverEnabled _ hid hset hthreshold =>
    have hregistered := (Numbered.exists_iff h.ids).mpr hid
    exact h.members hregistered hset rfl (h.quorate.toggle hset hthreshold)
  | setThreshold _ hzero hcount =>
    exact of_quorate h.ids h.addresses h.next_le h.enabled (.of_pos hzero hcount)

/-- **A step** keeps the transceivers in order. -/
theorem step (h : m.Staffed) (hchanges : m.Changes now m') : m'.Staffed := by
  cases hchanges with
  | same | voted | settled | transferred | waiting | pickedUp | cancelled =>
    exact h.congr rfl rfl rfl rfl
  | executed hexecutes => exact h.execute hexecutes

end Staffed

end Manager

/-! ## §3 Runs -/

variable {b : Book}

/-- A new manager has no transceivers. -/
theorem Book.Fresh.staffed (h : b.Fresh) : b.manager.Staffed := by
  have hblank := h.blank
  apply Manager.Staffed.of_quorate h.numbered
  · rw [hblank.transceivers]
    exact List.nodup_nil
  · rw [hblank.nextTransceiver]
    exact Nat.zero_le _
  · rw [hblank.enabled]
    intro id hid
    exact absurd hid (Bitmap.not_mem_empty id)
  · rw [hblank.threshold, hblank.enabled]
    refine ⟨Nat.zero_le _, ?_⟩
    exact iff_of_true rfl (Bitmap.count_eq_zero.mpr Bitmap.not_mem_empty)

/-- **The transceivers are always in order.** Whatever happens to a new manager, its transceivers
have the ids from zero on in the order of the list and addresses of their own, and there are at
most 128 of them; only registered transceivers are enabled; and the threshold is at most the number
of enabled transceivers, and zero if and only if there are none. -/
theorem Book.run_staffed (hfresh : b.Fresh) (events : List Event) :
    (b.run events).manager.Staffed :=
  run_induction (motive := fun _ current => current.manager.Staffed) hfresh.staffed
    (fun _ current event h => h.step (current.step_changes event)) events

namespace Sample

/-- Two transceivers are registered, both have to vouch, and then they are disabled one after the
other; the first is registered again, and nobody but the owner gets to change the threshold. -/
def rosterEvents : List Event :=
  [⟨0, .execute (address 9) (.registerTransceiver (address 30))⟩,
   ⟨0, .register (address 9) (address 31)⟩,
   ⟨0, .execute (address 9) (.setThreshold 2)⟩,
   ⟨1, .execute (address 9) (.setTransceiverEnabled 0 false)⟩,
   ⟨2, .execute (address 9) (.setTransceiverEnabled 1 false)⟩,
   ⟨3, .register (address 9) (address 30)⟩,
   ⟨4, .execute (address 20) (.setThreshold 1)⟩]

theorem roster_staffed :
    home.Fresh ∧ (home.run rosterEvents).manager.Staffed ∧
      (home.run (rosterEvents.take 5)).manager.config.threshold = 0 ∧
      (home.run rosterEvents).manager.config.threshold = 1 :=
  ⟨home_fresh, Book.run_staffed home_fresh rosterEvents, by decide +kernel, by decide +kernel⟩

end Sample

end CrossChain
