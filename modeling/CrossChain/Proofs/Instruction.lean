import CrossChain.Manager.Admin
import CrossChain.Proofs.Ledger
import CrossChain.Proofs.Operations
import CrossChain.Proofs.Plans

/-!
# Instructions to a manager

An instruction changes a manager in place, one field after the other. Each is listed here with what
is checked and what changes, in one lemma for each operation that it is made of.

An instruction that is refused leaves no trace. Most of them check everything before they write
anything. Registering a transceiver does not: it takes the next id before it adds it to the enabled
ones, which could fail. It never does, because an id is only given out if the set has room for it.

## Main statements

* `Manager.Executes`, `Manager.execute_eq_ok`: when a manager accepts an instruction, and the
  manager after it.
* `Manager.execute_atomic`, `Manager.invoke_atomic`: a manager that refuses one is as before.
-/

namespace CrossChain

/-- A configuration with more transceivers enabled: a threshold of zero rises to one. -/
def Config.enable (c : Config) (enabled : Bitmap) : Config :=
  { c with enabled, threshold := if c.threshold = 0 then 1 else c.threshold }

/-- A threshold that does not exceed the number of enabled transceivers. -/
def Config.lowered (c : Config) : UInt8 :=
  if c.enabledCount < c.threshold then c.enabledCount else c.threshold

theorem Config.toNat_lowered (c : Config) :
    c.lowered.toNat = min c.threshold.toNat c.enabled.count := by
  have hcount : c.enabledCount.toNat = c.enabled.count := c.enabled.toNat_countByte
  unfold lowered
  split
  next hlow =>
    have := UInt8.lt_iff_toNat_lt.mp hlow
    omega
  next hlow =>
    have := UInt8.lt_iff_toNat_lt.not.mp hlow
    omega

/-- The threshold after an id was enabled or disabled. -/
def Config.followed (c : Config) (enabled : Bool) : UInt8 :=
  if enabled = true ∧ c.lowered = 0 then 1 else c.lowered

theorem Config.toNat_followed (c : Config) (enabled : Bool) :
    (c.followed enabled).toNat =
      if enabled = true ∧ min c.threshold.toNat c.enabled.count = 0 then 1
      else min c.threshold.toNat c.enabled.count := by
  have hzero : c.lowered = 0 ↔ min c.threshold.toNat c.enabled.count = 0 := by
    rw [← UInt8.toNat_inj, toNat_lowered]
    rfl
  rw [followed, apply_ite UInt8.toNat, toNat_lowered]
  simp only [hzero]
  rfl

namespace Manager

variable {m m' : Manager} {caller : Address} {now : Timestamp} {β : Type} {b : β} {u : Unit}

/-! ## §1 What the instructions are made of -/

theorem trimLimit_eq_ok {limit : UInt64} {trimmed : TrimmedAmount} :
    m.trimLimit limit = .ok trimmed ↔
      TrimmedAmount.trim limit m.config.tokenDecimals m.config.tokenDecimals = .ok trimmed := by
  rw [trimLimit, mapError_eq_ok]

/-- The limit on transfers from a chain when its peer is set: a new one is full. -/
def limitOrFull (m : Manager) (chain : ChainId) (limit : TrimmedAmount) (now : Timestamp) :
    RateLimit :=
  (m.inboundLimits.get? chain).getD (.full limit now m.config.rateLimitDuration)

theorem run_requireOwner_bind {f : Unit → Operation β} :
    (requireOwner caller >>= f) m = .ok b m' ↔ m.config.owner = caller ∧ f () m = .ok b m' := by
  rw [requireOwner, bind_assoc, run_get_bind, run_require_bind]
  simp only [requireOwner_eq_ok]
  exact ⟨fun ⟨_, h⟩ => h, fun h => ⟨(), h⟩⟩

theorem modifyConfig_eq_ok {change : Config → Config} :
    modifyConfig change m = .ok u m' ↔ m' = m.withConfig (change m.config) :=
  run_modify_eq_ok

theorem run_modifyConfig_bind {change : Config → Config} {f : Unit → Operation β} :
    (modifyConfig change >>= f) m = f () (m.withConfig (change m.config)) := rfl

theorem setEnabled_eq_ok {id : UInt8} {enabled : Bool} :
    setEnabled id enabled m = .ok u m' ↔
      ∃ members, m.config.enabled.set? id enabled = some members ∧
      m' = m.withConfig { m.config with enabled := members } := by
  rw [setEnabled, run_get_bind]
  cases m.config.enabled.set? id enabled with
  | none => simp [run_throw]
  | some members => simp [modifyConfig_eq_ok]

theorem raiseThreshold_eq_ok :
    raiseThreshold m = .ok u m' ↔ m' = m.withConfig
      { m.config with threshold := if m.config.threshold = 0 then 1 else m.config.threshold } := by
  rw [raiseThreshold, run_get_bind]
  by_cases hzero : m.config.threshold = 0
  · rw [if_pos hzero, if_pos hzero, modifyConfig_eq_ok]
  · rw [if_neg hzero, if_neg hzero]
    exact run_pure_eq_ok

/-- After an id was enabled or disabled, the threshold rises only if the id was enabled. -/
theorem raiseThreshold_if_eq_ok {enabled : Bool} :
    (if enabled = true then raiseThreshold else pure ()) m = .ok u m' ↔ m' = m.withConfig
      { m.config with
        threshold :=
          if enabled = true ∧ m.config.threshold = 0 then 1 else m.config.threshold } := by
  cases enabled with
  | false =>
    rw [if_neg Bool.false_ne_true, if_neg (fun h => Bool.false_ne_true h.1)]
    exact run_pure_eq_ok
  | true => simp only [if_true, true_and, raiseThreshold_eq_ok]

theorem lowerThreshold_eq_ok :
    lowerThreshold m = .ok u m' ↔
      m' = m.withConfig { m.config with threshold := m.config.lowered } := by
  rw [lowerThreshold, run_get_bind, run_get_bind, Config.lowered]
  by_cases hlow : m.config.enabledCount < m.config.threshold
  · rw [if_pos hlow, if_pos hlow, modifyConfig_eq_ok]
  · rw [if_neg hlow, if_neg hlow]
    exact run_pure_eq_ok

/-- A manager with one more transceiver registered, which is not enabled yet. -/
def enlist (m : Manager) (address : Address) : Manager :=
  { m with
    config := { m.config with nextTransceiver := m.config.nextTransceiver + 1 }
    transceivers := m.transceivers ++ [⟨m.config.nextTransceiver, address⟩] }

/-- **The id of a transceiver**: its own if it is known, or else the next one. -/
theorem enrol_eq_ok {address : Address} {id : UInt8} :
    enrol address m = .ok id m' ↔
      (∃ known, m.transceiver? address = some known ∧ id = known.id ∧ m' = m) ∨
      m.transceiver? address = none ∧ id = m.config.nextTransceiver ∧ id.toNat < 128 ∧
        m' = m.enlist address := by
  rw [enrol, run_get_bind]
  cases hknown : m.transceiver? address with
  | some known => simp [run_pure, eq_comm]
  | none =>
    have hroom : ¬ Bitmap.capacity ≤ m.config.nextTransceiver ↔
        m.config.nextTransceiver.toNat < 128 := UInt8.not_le.trans UInt8.lt_iff_toNat_lt
    simp only [run_refuseIf_bind, run_modify_bind, run_modifyConfig_bind, run_pure, hroom,
      EStateM.Result.ok.injEq, reduceCtorEq, false_and, exists_false, false_or, true_and]
    constructor
    · rintro ⟨hlt, rfl, rfl⟩
      exact ⟨rfl, hlt, rfl⟩
    · rintro ⟨rfl, hlt, rfl⟩
      exact ⟨hlt, rfl, rfl⟩

/-! ## §2 What an instruction does -/

/-- What holds when a manager accepts an instruction from an account, and the manager after it. -/
inductive Executes (m : Manager) (caller : Address) (now : Timestamp) :
    AdminInstruction → Manager → Prop where
  | transferOwnership {newOwner : Address} (howner : m.config.owner = caller) :
      Executes m caller now (.transferOwnership newOwner)
        (m.withConfig { m.config with pendingOwner := some newOwner })
  | claimOwnership (hpending : m.config.pendingOwner = some caller) :
      Executes m caller now .claimOwnership
        (m.withConfig { m.config with owner := caller, pendingOwner := none })
  | setPaused {paused : Bool} (howner : m.config.owner = caller) :
      Executes m caller now (.setPaused paused) (m.withConfig { m.config with paused })
  | setPeer {spec : PeerSpec} {limit : TrimmedAmount} {changed : RateLimit}
      (howner : m.config.owner = caller) (hchain : spec.chain ≠ m.config.chain)
      (haddress : spec.address ≠ Address.zero) (hdecimals : spec.tokenDecimals ≠ 0)
      (hlimit : TrimmedAmount.trim spec.limit m.config.tokenDecimals m.config.tokenDecimals =
        .ok limit)
      (hchanged : (m.limitOrFull spec.chain limit now).setLimit limit now = .ok changed) :
      Executes m caller now (.setPeer spec)
        { m with
          peers := m.peers.insert spec.chain ⟨spec.address, spec.tokenDecimals⟩
          inboundLimits := m.inboundLimits.insert spec.chain changed }
  /-- Whoever is registered already is enabled again under its old id. -/
  | enabledAgain {address : Address} {known : Transceiver} {enabled : Bitmap}
      (howner : m.config.owner = caller) (hknown : m.transceiver? address = some known)
      (henabled : m.config.enabled.set? known.id true = some enabled) :
      Executes m caller now (.registerTransceiver address)
        (m.withConfig (m.config.enable enabled))
  /-- A transceiver gets the next id, unless all are given out. -/
  | registered {address : Address} {enabled : Bitmap} {next : UInt8}
      (howner : m.config.owner = caller) (hnew : m.transceiver? address = none)
      (hroom : m.config.nextTransceiver.toNat < 128)
      (hnext : next.toNat = m.config.nextTransceiver.toNat + 1)
      (henabled : m.config.enabled.set? m.config.nextTransceiver true = some enabled) :
      Executes m caller now (.registerTransceiver address)
        { m with
          config := { m.config with nextTransceiver := next }.enable enabled
          transceivers := m.transceivers ++ [⟨m.config.nextTransceiver, address⟩] }
  /-- The threshold follows the number of enabled transceivers. -/
  | setTransceiverEnabled {id threshold : UInt8} {enabled : Bool} {members : Bitmap}
      (howner : m.config.owner = caller) (hid : id.toNat < m.config.nextTransceiver.toNat)
      (hmembers : m.config.enabled.set? id enabled = some members)
      (hthreshold : threshold.toNat =
        if enabled = true ∧ min m.config.threshold.toNat members.count = 0 then 1
        else min m.config.threshold.toNat members.count) :
      Executes m caller now (.setTransceiverEnabled id enabled)
        (m.withConfig { m.config with enabled := members, threshold })
  | setThreshold {threshold : UInt8} (howner : m.config.owner = caller) (hzero : threshold ≠ 0)
      (hcount : threshold.toNat ≤ m.config.enabled.count) :
      Executes m caller now (.setThreshold threshold) (m.withConfig { m.config with threshold })
  | setOutboundLimit {limit : UInt64} {trimmed : TrimmedAmount} {outboundLimit : RateLimit}
      (howner : m.config.owner = caller)
      (hlimit : TrimmedAmount.trim limit m.config.tokenDecimals m.config.tokenDecimals =
        .ok trimmed)
      (hchanged : m.outboundLimit.setLimit trimmed now = .ok outboundLimit) :
      Executes m caller now (.setOutboundLimit limit) { m with outboundLimit }
  | setInboundLimit {chain : ChainId} {limit : UInt64} {trimmed : TrimmedAmount}
      {current changed : RateLimit} (howner : m.config.owner = caller)
      (hlimit : TrimmedAmount.trim limit m.config.tokenDecimals m.config.tokenDecimals =
        .ok trimmed)
      (hcurrent : m.inboundLimits.get? chain = some current)
      (hchanged : current.setLimit trimmed now = .ok changed) :
      Executes m caller now (.setInboundLimit chain limit)
        { m with inboundLimits := m.inboundLimits.insert chain changed }

theorem setPeer_eq_ok {spec : PeerSpec} :
    setPeer caller now spec m = .ok u m' ↔
      m.config.owner = caller ∧ spec.chain ≠ m.config.chain ∧ spec.address ≠ Address.zero ∧
      spec.tokenDecimals ≠ 0 ∧
      ∃ limit, TrimmedAmount.trim spec.limit m.config.tokenDecimals m.config.tokenDecimals =
        .ok limit ∧
      ∃ changed, (m.limitOrFull spec.chain limit now).setLimit limit now = .ok changed ∧
        m' = { m with
          peers := m.peers.insert spec.chain ⟨spec.address, spec.tokenDecimals⟩
          inboundLimits := m.inboundLimits.insert spec.chain changed } := by
  simp only [setPeer, run_requireOwner_bind, run_get_bind, run_refuseIf_bind, run_require_bind,
    run_modify_bind, run_modify_eq_ok, trimLimit_eq_ok, mapError_eq_ok, limitOrFull, ne_eq]

/-- Registering a transceiver gives it an id, enables it, and raises a threshold of zero. -/
theorem registerTransceiver_eq_ok {address : Address} {id : UInt8} :
    registerTransceiver caller address m = .ok id m' ↔
      m.config.owner = caller ∧ ∃ enlisted enabled, enrol address m = .ok id enlisted ∧
        enlisted.config.enabled.set? id true = some enabled ∧
        m' = enlisted.withConfig (enlisted.config.enable enabled) := by
  rw [registerTransceiver, run_requireOwner_bind]
  simp only [run_bind_eq_ok, setEnabled_eq_ok, raiseThreshold_eq_ok, run_pure, exists_const,
    EStateM.Result.ok.injEq]
  constructor
  · rintro ⟨howner, _, enlisted, hid, _, ⟨enabled, henabled, rfl⟩, _, rfl, rfl, rfl⟩
    exact ⟨howner, enlisted, enabled, hid, henabled, rfl⟩
  · rintro ⟨howner, enlisted, enabled, hid, henabled, rfl⟩
    exact ⟨howner, id, enlisted, hid, _, ⟨enabled, henabled, rfl⟩, _, rfl, rfl, rfl⟩

/-- Enabling or disabling a transceiver lowers the threshold and then raises it. -/
theorem setTransceiverEnabled_eq_ok {id : UInt8} {enabled : Bool} :
    setTransceiverEnabled caller id enabled m = .ok u m' ↔
      m.config.owner = caller ∧ id.toNat < m.config.nextTransceiver.toNat ∧
      ∃ members, m.config.enabled.set? id enabled = some members ∧
        m' = m.withConfig { m.config with
          enabled := members
          threshold := { m.config with enabled := members }.followed enabled } := by
  have hid : ¬ m.config.nextTransceiver ≤ id ↔ id.toNat < m.config.nextTransceiver.toNat :=
    UInt8.not_le.trans UInt8.lt_iff_toNat_lt
  rw [setTransceiverEnabled, run_requireOwner_bind, run_get_bind, run_refuseIf_bind, hid]
  simp only [run_bind_eq_ok, setEnabled_eq_ok, lowerThreshold_eq_ok, raiseThreshold_if_eq_ok,
    Config.followed, exists_const, exists_eq_left]
  refine and_congr_right fun howner => and_congr_right fun hlt => ?_
  constructor
  · rintro ⟨_, ⟨members, hmembers, rfl⟩, rfl⟩
    exact ⟨members, hmembers, rfl⟩
  · rintro ⟨members, hmembers, rfl⟩
    exact ⟨_, ⟨members, hmembers, rfl⟩, rfl⟩

/-- Changing a limit in place makes of it what changing a copy does. -/
theorem relimit_eq_ok {r changed : RateLimit} {limit : TrimmedAmount} :
    RateLimit.relimit limit now r = .ok u changed ↔ r.setLimit limit now = .ok changed :=
  applied_eq_ok.symm

theorem setOutboundLimit_eq_ok {limit : UInt64} :
    setOutboundLimit caller now limit m = .ok u m' ↔
      m.config.owner = caller ∧
      ∃ trimmed, TrimmedAmount.trim limit m.config.tokenDecimals m.config.tokenDecimals =
        .ok trimmed ∧
      ∃ outboundLimit, m.outboundLimit.setLimit trimmed now = .ok outboundLimit ∧
        m' = { m with outboundLimit } := by
  simp only [setOutboundLimit, run_requireOwner_bind, run_get_bind, run_require_bind,
    trimLimit_eq_ok, run_within, relimit_eq_ok, @eq_comm _ _ m']

theorem setInboundLimit_eq_ok {chain : ChainId} {limit : UInt64} :
    setInboundLimit caller now chain limit m = .ok u m' ↔
      m.config.owner = caller ∧
      ∃ trimmed, TrimmedAmount.trim limit m.config.tokenDecimals m.config.tokenDecimals =
        .ok trimmed ∧
      ∃ current, m.inboundLimits.get? chain = some current ∧
      ∃ changed, current.setLimit trimmed now = .ok changed ∧
        m' = { m with inboundLimits := m.inboundLimits.insert chain changed } := by
  simp only [setInboundLimit, run_requireOwner_bind, run_get_bind, run_require_bind,
    trimLimit_eq_ok, inboundLimit_eq_ok, run_within, relimit_eq_ok, @eq_comm _ _ m']

theorem setThreshold_eq_ok {threshold : UInt8} :
    setThreshold caller threshold m = .ok u m' ↔
      m.config.owner = caller ∧ threshold ≠ 0 ∧ threshold.toNat ≤ m.config.enabled.count ∧
        m' = m.withConfig { m.config with threshold } := by
  have hcount : m.config.enabledCount.toNat = m.config.enabled.count :=
    m.config.enabled.toNat_countByte
  rw [setThreshold, run_requireOwner_bind, run_refuseIf_bind, run_get_bind, run_refuseIf_bind,
    modifyConfig_eq_ok, UInt8.not_lt, UInt8.le_iff_toNat_le, hcount]

/-- The number after one that there is room for. -/
theorem toNat_succ_of_lt {id : UInt8} (hroom : id.toNat < 128) :
    (id + 1).toNat = id.toNat + 1 := by
  have hfits : id.toNat + 1 < 2 ^ 8 := Nat.lt_trans (Nat.succ_lt_succ hroom) (by decide)
  rw [UInt8.toNat_add]
  exact Nat.mod_eq_of_lt hfits

/-- **An instruction that a manager accepts** passed its checks and did what it asks for. -/
theorem executes_of_execute {instruction : AdminInstruction}
    (h : execute caller now instruction m = .ok u m') : m.Executes caller now instruction m' := by
  cases instruction with
  | transferOwnership newOwner =>
    rw [execute, transferOwnership, run_requireOwner_bind, modifyConfig_eq_ok] at h
    obtain ⟨howner, rfl⟩ := h
    exact .transferOwnership howner
  | claimOwnership =>
    rw [execute, claimOwnership, run_get_bind, run_refuseIf_bind, not_not, run_modifyConfig_bind,
      modifyConfig_eq_ok] at h
    obtain ⟨hpending, rfl⟩ := h
    exact .claimOwnership hpending
  | setPaused paused =>
    rw [execute, setPaused, run_requireOwner_bind, modifyConfig_eq_ok] at h
    obtain ⟨howner, rfl⟩ := h
    exact .setPaused howner
  | setPeer spec =>
    obtain ⟨howner, hchain, haddress, hdecimals, limit, hlimit, changed, hchanged, rfl⟩ :=
      setPeer_eq_ok.mp h
    exact .setPeer howner hchain haddress hdecimals hlimit hchanged
  | registerTransceiver address =>
    obtain ⟨id, h⟩ := run_discard.mp h
    obtain ⟨howner, enlisted, enabled, hid, henabled, rfl⟩ := registerTransceiver_eq_ok.mp h
    rcases enrol_eq_ok.mp hid with ⟨known, hknown, rfl, rfl⟩ | ⟨hnew, rfl, hroom, rfl⟩
    · exact .enabledAgain howner hknown henabled
    · -- There is room for less than 128, so the numbers do not start over.
      exact .registered howner hnew hroom (toNat_succ_of_lt hroom) henabled
  | setTransceiverEnabled id enabled =>
    obtain ⟨howner, hid, members, hmembers, rfl⟩ := setTransceiverEnabled_eq_ok.mp h
    exact .setTransceiverEnabled howner hid hmembers (Config.toNat_followed _ enabled)
  | setThreshold threshold =>
    obtain ⟨howner, hzero, hcount, rfl⟩ := setThreshold_eq_ok.mp h
    exact .setThreshold howner hzero hcount
  | setOutboundLimit limit =>
    obtain ⟨howner, trimmed, hlimit, outboundLimit, hchanged, rfl⟩ := setOutboundLimit_eq_ok.mp h
    exact .setOutboundLimit howner hlimit hchanged
  | setInboundLimit chain limit =>
    obtain ⟨howner, trimmed, hlimit, current, hcurrent, changed, hchanged, rfl⟩ :=
      setInboundLimit_eq_ok.mp h
    exact .setInboundLimit howner hlimit hcurrent hchanged

/-- **What passes the checks is accepted**, by the call that answers the new manager. -/
theorem Executes.execute {instruction : AdminInstruction}
    (h : m.Executes caller now instruction m') :
    Manager.execute caller now instruction m = .ok u m' := by
  cases h with
  | transferOwnership howner =>
    rw [Manager.execute, Manager.transferOwnership, run_requireOwner_bind, modifyConfig_eq_ok]
    exact ⟨howner, rfl⟩
  | claimOwnership hpending =>
    rw [Manager.execute, Manager.claimOwnership, run_get_bind, run_refuseIf_bind, not_not]
    exact ⟨hpending, rfl⟩
  | setPaused howner =>
    rw [Manager.execute, Manager.setPaused, run_requireOwner_bind, modifyConfig_eq_ok]
    exact ⟨howner, rfl⟩
  | setPeer howner hchain haddress hdecimals hlimit hchanged =>
    exact setPeer_eq_ok.mpr
      ⟨howner, hchain, haddress, hdecimals, _, hlimit, _, hchanged, rfl⟩
  | enabledAgain howner hknown henabled =>
    exact run_discard.mpr ⟨_, registerTransceiver_eq_ok.mpr ⟨howner, m, _,
      enrol_eq_ok.mpr (.inl ⟨_, hknown, rfl, rfl⟩), henabled, rfl⟩⟩
  | @registered address enabled next howner hnew hroom hnext henabled =>
    have hsame : next = m.config.nextTransceiver + 1 :=
      UInt8.toNat_inj.mp (hnext.trans (toNat_succ_of_lt hroom).symm)
    subst hsame
    exact run_discard.mpr ⟨_, registerTransceiver_eq_ok.mpr ⟨howner, m.enlist address, enabled,
      enrol_eq_ok.mpr (.inr ⟨hnew, rfl, hroom, rfl⟩), henabled, rfl⟩⟩
  -- The threshold is told as a number, and as that number it is the one that is written.
  | @setTransceiverEnabled id threshold enabled members howner hid hmembers hthreshold =>
    have hfollowed := Config.toNat_followed { m.config with enabled := members } enabled
    have hsame : threshold = { m.config with enabled := members }.followed enabled :=
      UInt8.toNat_inj.mp (hthreshold.trans hfollowed.symm)
    subst hsame
    exact setTransceiverEnabled_eq_ok.mpr ⟨howner, hid, members, hmembers, rfl⟩
  | setThreshold howner hzero hcount =>
    exact setThreshold_eq_ok.mpr ⟨howner, hzero, hcount, rfl⟩
  | setOutboundLimit howner hlimit hchanged =>
    exact setOutboundLimit_eq_ok.mpr ⟨howner, _, hlimit, _, hchanged, rfl⟩
  | setInboundLimit howner hlimit hcurrent hchanged =>
    exact setInboundLimit_eq_ok.mpr ⟨howner, _, hlimit, _, hcurrent, _, hchanged, rfl⟩

/-- **When a manager accepts an instruction**, and the manager after it. -/
theorem execute_eq_ok {instruction : AdminInstruction} :
    execute caller now instruction m = .ok u m' ↔ m.Executes caller now instruction m' :=
  ⟨executes_of_execute, Executes.execute⟩

/-! ## §3 Instructions that are refused -/

theorem checks_requireOwner (caller : Address) : Checks (requireOwner caller) :=
  checks_get.bind fun _ => checks_require _

theorem succeeds_modifyConfig (change : Config → Config) : Succeeds (modifyConfig change) :=
  succeeds_modify _

theorem succeeds_raiseThreshold : Succeeds raiseThreshold :=
  fun _ => ⟨(), _, raiseThreshold_eq_ok.mpr rfl⟩

theorem succeeds_lowerThreshold : Succeeds lowerThreshold :=
  fun _ => ⟨(), _, lowerThreshold_eq_ok.mpr rfl⟩

theorem relimit_atomic (limit : TrimmedAmount) (now : Timestamp) :
    Atomic (RateLimit.relimit limit now) :=
  checks_get.bind_atomic fun _ => (checks_require _).bind_atomic fun _ =>
    ((succeeds_modify _).bind fun _ => succeeds_modify _).atomic

theorem setEnabled_atomic (id : UInt8) (enabled : Bool) : Atomic (setEnabled id enabled) := by
  refine checks_get.bind_atomic fun m => ?_
  cases m.config.enabled.set? id enabled with
  | none => exact (checks_throw _).atomic
  | some members => exact (succeeds_modifyConfig _).atomic

theorem enrol_atomic (address : Address) : Atomic (enrol address) := by
  refine checks_get.bind_atomic fun m => ?_
  cases m.transceiver? address with
  | some known => exact (succeeds_pure _).atomic
  | none =>
    exact (checks_refuseIf _ _).bind_atomic fun _ => Succeeds.atomic <|
      (succeeds_modify _).bind fun _ => (succeeds_modifyConfig _).bind fun _ => succeeds_pure _

/-- **Registering a transceiver** writes before its last check, which never fails: a known
transceiver is enabled before anything was written, and a new one has an id that is in bounds. -/
theorem registerTransceiver_atomic (caller address : Address) :
    Atomic (registerTransceiver caller address) := by
  refine (checks_requireOwner caller).bind_atomic fun _ m e m' h => ?_
  rcases run_bind_eq_error.mp h with h | ⟨id, enlisted, hid, h⟩
  · exact enrol_atomic address m e m' h
  · have henable : setEnabled id true enlisted = .error e m' := by
      rcases run_bind_eq_error.mp h with h | ⟨u, left, _, h⟩
      · exact h
      · exact ((succeeds_raiseThreshold.bind fun _ => succeeds_pure _).not_error h).elim
    rcases enrol_eq_ok.mp hid with ⟨known, _, rfl, rfl⟩ | ⟨_, _, hroom, rfl⟩
    · exact setEnabled_atomic _ true _ e m' henable
    · obtain ⟨enabled, henabled⟩ :=
        Bitmap.set?_of_lt hroom (m.enlist address).config.enabled true
      cases henable.symm.trans (setEnabled_eq_ok (u := ()).mpr ⟨enabled, henabled, rfl⟩)

/-- **A manager that refuses an instruction** is as before. -/
theorem execute_atomic (caller : Address) (now : Timestamp) (instruction : AdminInstruction) :
    Atomic (execute caller now instruction) := by
  cases instruction with
  | transferOwnership newOwner =>
    exact (checks_requireOwner caller).bind_atomic fun _ => (succeeds_modifyConfig _).atomic
  | claimOwnership =>
    exact checks_get.bind_atomic fun _ => (checks_refuseIf _ _).bind_atomic fun _ =>
      ((succeeds_modifyConfig _).bind fun _ => succeeds_modifyConfig _).atomic
  | setPaused paused =>
    exact (checks_requireOwner caller).bind_atomic fun _ => (succeeds_modifyConfig _).atomic
  | setPeer spec =>
    -- The limit is changed on a copy, so a limit that cannot be changed is found out first.
    exact (checks_requireOwner caller).bind_atomic fun _ => checks_get.bind_atomic fun _ =>
      (checks_refuseIf _ _).bind_atomic fun _ => (checks_refuseIf _ _).bind_atomic fun _ =>
      (checks_refuseIf _ _).bind_atomic fun _ => (checks_require _).bind_atomic fun _ =>
      (checks_require _).bind_atomic fun _ =>
      ((succeeds_modify _).bind fun _ => succeeds_modify _).atomic
  | registerTransceiver address => exact (registerTransceiver_atomic caller address).discard
  | setTransceiverEnabled id enabled =>
    refine (checks_requireOwner caller).bind_atomic fun _ => checks_get.bind_atomic fun _ =>
      (checks_refuseIf _ _).bind_atomic fun _ => (setEnabled_atomic id enabled).bind_succeeds
        fun _ => succeeds_lowerThreshold.bind fun _ => ?_
    exact fun _ => ⟨(), _, raiseThreshold_if_eq_ok.mpr rfl⟩
  | setThreshold threshold =>
    exact (checks_requireOwner caller).bind_atomic fun _ => (checks_refuseIf _ _).bind_atomic
      fun _ => checks_get.bind_atomic fun _ => (checks_refuseIf _ _).bind_atomic fun _ =>
      (succeeds_modifyConfig _).atomic
  | setOutboundLimit limit =>
    refine (checks_requireOwner caller).bind_atomic fun _ => checks_get.bind_atomic fun _ =>
      (checks_require _).bind_atomic fun trimmed m e m' h => ?_
    exact (relimit_atomic trimmed now).within m rfl h
  | setInboundLimit chain limit =>
    -- What is put back is the limit that was found there.
    refine (checks_requireOwner caller).bind_atomic fun _ m e m' h => ?_
    obtain ⟨_, rfl⟩ | ⟨trimmed, _, h⟩ := run_require_bind_error.mp h
    · rfl
    obtain ⟨_, rfl⟩ | ⟨current, hcurrent, h⟩ := run_require_bind_error.mp h
    · rfl
    have hput := SortedMap.insert_self (inboundLimit_eq_ok.mp hcurrent)
    exact (relimit_atomic trimmed now).within m (by rw [hput]) h

/-- **A manager that refuses an instruction in bytes** is as before. -/
theorem invoke_atomic (caller : Address) (now : Timestamp) (callData : Bytes) :
    Atomic (invoke caller now callData) :=
  (checks_require _).bind_atomic fun instruction => execute_atomic caller now instruction

end Manager

end CrossChain
