import CrossChain.Proofs.Capacity
import CrossChain.Proofs.Change
import CrossChain.Proofs.Scaling

/-!
# The limits and the peers of a manager

A manager has one limit on what goes out and one for each peer on what comes in. Every transfer
touches two of them, and the owner replaces them one by one. A peer without a limit could not be
sent anything, and a limit in a precision of its own would count in other units than the amounts
it is asked for. Neither occurs.

## Main statements

* `Gate.Passes.regular`: moving a transfer on keeps the limits regular.
* `Manager.Metered`, `Manager.Metered.step`: the limits and the peers of a manager.
* `Gate.Passes.charged`: only a transfer that passes takes from one limit and gives to the other.
-/

namespace CrossChain

/-! ## §1 Gates -/

namespace Gate

variable {gate gate' : Gate} {amount : TrimmedAmount} {now : Timestamp} {mayQueue : Bool}
  {result : Advance} {precision : ℕ} {duration : Timestamp}

/-- The limits that a transfer touches are regular. -/
structure Regular (gate : Gate) (precision : ℕ) (duration : Timestamp) : Prop where
  consumed : gate.consumed.Regular precision duration
  backflow : ∀ limit, gate.backflow = some limit → limit.Regular precision duration

theorem Regular.of_limits {status : ReleaseStatus} {consumed opposite : RateLimit}
    (hconsumed : consumed.Regular precision duration)
    (hopposite : opposite.Regular precision duration) :
    Regular ⟨status, consumed, some opposite⟩ precision duration := by
  refine ⟨hconsumed, fun limit hlimit => ?_⟩
  cases hlimit
  exact hopposite

theorem Regular.getD_backflow (h : gate.Regular precision duration) {opposite : RateLimit}
    (hopposite : opposite.Regular precision duration) :
    (gate.backflow.getD opposite).Regular precision duration := by
  cases hback : gate.backflow with
  | none => exact hopposite
  | some limit => exact h.backflow limit hback

/-- Helper: a limit that was asked. -/
private theorem Asks.regular {verdict : Verdict} {limit : RateLimit}
    (h : gate.Asks amount now (verdict, limit)) (hgate : gate.Regular precision duration) :
    limit.Regular precision duration := by
  rcases h with ⟨_, hconsume⟩ | ⟨_, _, _, hconsume⟩
  · exact hgate.consumed.consume hconsume
  · exact hgate.consumed.consumeQueued hconsume

/-- **Moving a transfer on** keeps the limits that it touches regular. -/
theorem Passes.regular (h : gate.Passes amount now mayQueue result gate')
    (hgate : gate.Regular precision duration) : gate'.Regular precision duration := by
  cases h with
  | already | early => exact hgate
  | delayed => exact ⟨hgate.consumed, hgate.backflow⟩
  | passed hask hback =>
    refine ⟨hask.regular hgate, fun limit hlimit => ?_⟩
    subst hlimit
    -- The limit of the opposite direction is the one that the amount was given back to.
    cases hopposite : gate.backflow with
    | none =>
      rw [hopposite] at hback
      cases hback
    | some opposite =>
      rw [hopposite] at hback
      obtain ⟨raised, hrefill, hraised⟩ := hback
      cases hraised
      exact (hgate.backflow opposite hopposite).refill hrefill

/-- **Only a transfer that passes** takes from one limit and gives to the other. -/
theorem Passes.charged {status : ReleaseStatus} {consumed opposite : RateLimit}
    (h : Passes ⟨status, consumed, some opposite⟩ amount now mayQueue result gate')
    (hnot : status ≠ .released) :
    RateLimit.Charged amount now (gate'.status = .released) consumed gate'.consumed opposite
      (gate'.backflow.getD opposite) := by
  have hreleased := h.eq_released hnot
  cases h with
  | already hbefore => exact absurd hbefore hnot
  | early | delayed =>
    refine ⟨fun hpassed => ?_, fun _ => ⟨rfl, rfl⟩⟩
    cases hreleased.mp hpassed
  | passed hask hback =>
    obtain ⟨raised, hrefill, rfl⟩ := hback
    refine ⟨fun _ => ⟨?_, hrefill⟩, fun hwaits => absurd rfl hwaits⟩
    rcases hask with ⟨_, hconsume⟩ | ⟨_, _, _, hconsume⟩
    · exact ⟨_, .inl hconsume⟩
    · exact ⟨_, .inr hconsume⟩

/-- After an attempt to move it on a transfer waits or has passed. -/
theorem Passes.queued_or_released (h : gate.Passes amount now mayQueue result gate') :
    (∃ time, gate'.status = .queued time) ∨ gate'.status = .released := by
  cases h with
  | already hreleased => exact .inr hreleased
  | early hqueued _ => exact .inl ⟨_, hqueued⟩
  | delayed => exact .inl ⟨_, rfl⟩
  | passed => exact .inr rfl

end Gate

/-! ## §2 Managers -/

namespace Manager

variable {m m' : Manager} {now : Timestamp}

/-- The precision that a manager counts in: that of its token, unless that is finer than any
amount on its way. -/
def precision (m : Manager) : ℕ :=
  min 8 m.config.tokenDecimals.toNat

/-- A limit of a manager. -/
def Keeps (m : Manager) (limit : RateLimit) : Prop :=
  limit.Regular m.precision m.config.rateLimitDuration

/-- The limits of a manager count in its precision, and are there for its peers and for nobody
else. -/
structure Metered (m : Manager) : Prop where
  duration : 0 < m.config.rateLimitDuration.toInt
  outbound : m.Keeps m.outboundLimit
  inbound : ∀ chain limit, m.inboundLimits.get? chain = some limit → m.Keeps limit
  keys : ∀ chain, m.inboundLimits.contains chain = true ↔ m.peers.contains chain = true
  peers : ∀ chain peer, m.peers.get? chain = some peer →
    chain ≠ m.config.chain ∧ peer.address ≠ Address.zero ∧ peer.tokenDecimals ≠ 0

/-- A limit takes some time to fill. -/
theorem Metered.duration_pos (h : m.Metered) {limit : RateLimit} (hlimit : m.Keeps limit) :
    0 < limit.duration.toInt := by
  rw [hlimit.duration]
  exact h.duration

/-- A limit as the owner gives it has the precision of the manager. -/
theorem precision_of_trim {limit : UInt64} {trimmed : TrimmedAmount}
    (h : TrimmedAmount.trim limit m.config.tokenDecimals m.config.tokenDecimals = .ok trimmed) :
    trimmed.decimals.toNat = m.precision := by
  obtain ⟨hdecimals, _⟩ := TrimmedAmount.trim_eq_ok.mp h
  rw [hdecimals, TrimmedAmount.toNat_commonDecimals, precision]
  omega

/-- Helper: a limit that is new. -/
private theorem keeps_full {limit : UInt64} {trimmed : TrimmedAmount}
    (h : TrimmedAmount.trim limit m.config.tokenDecimals m.config.tokenDecimals = .ok trimmed) :
    m.Keeps (.full trimmed now m.config.rateLimitDuration) := by
  have hregular := RateLimit.regular_full trimmed now m.config.rateLimitDuration
  rw [precision_of_trim h] at hregular
  exact hregular

/-- Helper: a limit that the owner sets. -/
private theorem Keeps.setLimit {limit : UInt64} {trimmed : TrimmedAmount}
    {current changed : RateLimit} (h : m.Keeps current)
    (hlimit : TrimmedAmount.trim limit m.config.tokenDecimals m.config.tokenDecimals = .ok trimmed)
    (hchanged : current.setLimit trimmed now = .ok changed) : m.Keeps changed := by
  have hregular := RateLimit.Regular.setLimit h hchanged
  rw [precision_of_trim hlimit] at hregular
  exact hregular

namespace Metered

/-- Helper: other limits of the same manager. -/
private theorem of_limits (h : m.Metered) {outbound : RateLimit}
    {inbound : SortedMap ChainId RateLimit} (hconfig : m.config.Akin m'.config)
    (hpeers : m'.peers = m.peers) (houtbound : m'.outboundLimit = outbound)
    (hinbound : m'.inboundLimits = inbound) (hout : m.Keeps outbound)
    (hin : ∀ chain limit, inbound.get? chain = some limit → m.Keeps limit)
    (hkeys : ∀ chain, inbound.contains chain = true ↔ m.peers.contains chain = true) :
    m'.Metered := by
  have hkeeps (limit : RateLimit) : m'.Keeps limit ↔ m.Keeps limit := by
    rw [Keeps, Keeps, precision, precision, hconfig.tokenDecimals, hconfig.rateLimitDuration]
  constructor
  · rw [hconfig.rateLimitDuration]
    exact h.duration
  · rw [hkeeps, houtbound]
    exact hout
  · intro chain limit hlimit
    rw [hinbound] at hlimit
    exact (hkeeps limit).mpr (hin chain limit hlimit)
  · intro chain
    rw [hinbound, hpeers]
    exact hkeys chain
  · rw [hpeers, hconfig.chain]
    exact h.peers

/-- Helper: a change of anything else. -/
private theorem congr (h : m.Metered) (hconfig : m.config.Akin m'.config)
    (hpeers : m'.peers = m.peers) (houtbound : m'.outboundLimit = m.outboundLimit)
    (hinbound : m'.inboundLimits = m.inboundLimits) : m'.Metered :=
  h.of_limits hconfig hpeers houtbound hinbound h.outbound h.inbound h.keys

/-- Helper: other limits for one chain and on what goes out. -/
private theorem replace (h : m.Metered) {chain : ChainId} {old inbound outbound : RateLimit}
    (hconfig : m'.config = m.config) (hpeers : m'.peers = m.peers)
    (houtbound : m'.outboundLimit = outbound)
    (hinbound : m'.inboundLimits = m.inboundLimits.insert chain inbound)
    (hold : m.inboundLimits.get? chain = some old) (hin : m.Keeps inbound)
    (hout : m.Keeps outbound) : m'.Metered := by
  apply h.of_limits (hconfig ▸ .refl _) hpeers houtbound hinbound hout
  · exact SortedMap.forall_insert hin h.inbound
  · intro other
    rw [SortedMap.contains_insert_of_entry hold, h.keys]

/-- Helper: a gate through which the manager moves a transfer. -/
private theorem regular_gate (h : m.Metered) {chain : ChainId} {limit : RateLimit}
    (hlimit : m.inboundLimits.get? chain = some limit) (status : ReleaseStatus) :
    Gate.Regular ⟨status, m.outboundLimit, some limit⟩ m.precision m.config.rateLimitDuration ∧
      Gate.Regular ⟨status, limit, some m.outboundLimit⟩ m.precision m.config.rateLimitDuration :=
  ⟨.of_limits h.outbound (h.inbound chain limit hlimit),
    .of_limits (h.inbound chain limit hlimit) h.outbound⟩

/-- Helper: a peer that the owner sets, with its limit. -/
private theorem setPeer (h : m.Metered) {spec : PeerSpec} {limit : RateLimit}
    (hchain : spec.chain ≠ m.config.chain) (haddress : spec.address ≠ Address.zero)
    (hdecimals : spec.tokenDecimals ≠ 0) (hlimit : m.Keeps limit) :
    Metered { m with
      peers := m.peers.insert spec.chain ⟨spec.address, spec.tokenDecimals⟩
      inboundLimits := m.inboundLimits.insert spec.chain limit } := by
  refine ⟨h.duration, h.outbound, SortedMap.forall_insert hlimit h.inbound, ?_,
    SortedMap.forall_insert ⟨hchain, haddress, hdecimals⟩ h.peers⟩
  intro chain
  rw [SortedMap.contains_insert, SortedMap.contains_insert, h.keys]

/-- **An instruction** keeps the limits and the peers in order. -/
theorem execute {caller : Address} {instruction : AdminInstruction} (h : m.Metered)
    (hexecutes : m.Executes caller now instruction m') : m'.Metered := by
  have hconfig := hexecutes.configures.config
  cases hexecutes with
  | transferOwnership | claimOwnership | setPaused | enabledAgain | registered
  | setTransceiverEnabled | setThreshold => exact h.congr hconfig rfl rfl rfl
  | setPeer _ hchain haddress hdecimals hlimit hchanged =>
    refine h.setPeer hchain haddress hdecimals (Keeps.setLimit ?_ hlimit hchanged)
    -- The limit that is set is the one that the chain has, or a full one.
    unfold limitOrFull
    cases hcurrent : m.inboundLimits.get? _ with
    | some current => exact h.inbound _ current hcurrent
    | none => exact keeps_full hlimit
  | setOutboundLimit _ hlimit hchanged =>
    exact h.of_limits hconfig rfl rfl rfl (h.outbound.setLimit hlimit hchanged) h.inbound h.keys
  | setInboundLimit _ hlimit hcurrent hchanged =>
    have hinbound := (h.inbound _ _ hcurrent).setLimit hlimit hchanged
    exact h.replace rfl rfl rfl rfl hcurrent hinbound h.outbound

/-- **A step** keeps the limits and the peers in order. -/
theorem step (h : m.Metered) (hchanges : m.Changes now m') : m'.Metered := by
  cases hchanges with
  | same | voted | waiting | cancelled => exact h.congr (.refl _) rfl rfl rfl
  | settled _ _ _ hsettles =>
    obtain ⟨rfl, ⟨limit, gate, hlimit, hpasses, _, hin, hout⟩, _⟩ := hsettles
    have hregular := hpasses.regular (h.regular_gate hlimit _).2
    exact h.replace rfl rfl hout (by rw [recordSettlement, hin]) hlimit hregular.consumed
      (hregular.getD_backflow h.outbound)
  | transferred hsends =>
    obtain ⟨limit, gate, hlimit, hpasses, _, hout, hin⟩ := hsends.limits
    have hregular := hpasses.regular (h.regular_gate hlimit _).1
    -- The transfer goes to the chain that was asked for.
    rw [← hsends.chain.2] at hlimit
    exact h.replace rfl rfl hout (by rw [recordTransfer, hin]) hlimit
      (hregular.getD_backflow (h.inbound _ limit hlimit)) hregular.consumed
  | pickedUp _ _ _ hout =>
    obtain ⟨⟨limit, gate, hlimit, hgate, hout, hin⟩, _, _, _, rfl⟩ := hout
    -- A transfer that had passed before touches no limit.
    have hregular : gate.Regular m.precision m.config.rateLimitDuration := by
      rcases hgate with ⟨rfl, _⟩ | ⟨_, hpasses⟩
      · exact (h.regular_gate hlimit _).1
      · exact hpasses.regular (h.regular_gate hlimit _).1
    exact h.replace rfl rfl hout (by rw [recordPickUp, hin]) hlimit
      (hregular.getD_backflow (h.inbound _ limit hlimit)) hregular.consumed
  | executed hexecutes => exact h.execute hexecutes

end Metered

/-! ## §3 What a transfer does to the limits

An outbound transfer takes from the outbound limit and gives back to that of its chain, an inbound
one the other way round. -/

theorem Sends.charged {sender : Address} {request : TransferRequest} {plan : TransferPlan}
    (h : m.Sends sender now request plan) :
    ∃ limit, m.inboundLimits.get? plan.item.recipientChain = some limit ∧
      RateLimit.Charged plan.item.amount now (plan.item.status = .released) m.outboundLimit
        plan.outboundLimit limit plan.inboundLimit := by
  obtain ⟨limit, gate, hlimit, hpasses, hstatus, hout, hin⟩ := h.limits
  rw [h.chain.2, hstatus, hout, hin]
  exact ⟨limit, hlimit, hpasses.charged (by simp)⟩

/-- A transfer that had passed before touches no limit when it is picked up. -/
theorem HandsOut.charged {id : UInt8} {item item' : OutboxItem}
    {outboundLimit inboundLimit : RateLimit}
    (h : m.HandsOut id now item item' outboundLimit inboundLimit) :
    ∃ limit, m.inboundLimits.get? item.recipientChain = some limit ∧
      RateLimit.Charged item.amount now (item.status ≠ .released) m.outboundLimit outboundLimit
        limit inboundLimit := by
  obtain ⟨limit, gate, hlimit, hgate, rfl, rfl⟩ := h.limits
  refine ⟨limit, hlimit, ?_⟩
  rcases hgate with ⟨rfl, hreleased⟩ | ⟨_, hpasses⟩
  · exact ⟨fun hwaits => absurd hreleased hwaits, fun _ => ⟨rfl, rfl⟩⟩
  · obtain ⟨hpassed, hwaits⟩ := hpasses.released
    exact ⟨fun _ => (hpasses.charged hwaits).passed hpassed, fun hnot => absurd hwaits hnot⟩

theorem Settles.charged {chain : ChainId} {item : InboxItem} {s : Settlement}
    (h : m.Settles chain item now s) (hwaits : item.status ≠ .released) :
    ∃ limit, m.inboundLimits.get? s.chain = some limit ∧
      RateLimit.Charged s.item.amount now (s.item.status = .released) limit s.inboundLimit
        m.outboundLimit s.outboundLimit := by
  obtain ⟨limit, gate, hlimit, hpasses, hitem, hin, hout⟩ := h.gate
  rw [h.via, hitem, hin, hout]
  exact ⟨limit, hlimit, hpasses.charged hwaits⟩

end Manager

/-- A new manager has one limit and no peers. -/
theorem Book.Fresh.metered {b : Book} (h : b.Fresh) : b.manager.Metered := by
  have hblank := h.blank
  refine ⟨hblank.duration, ?_, ?_, ?_, ?_⟩
  · obtain ⟨amount, limit, now, hlimit, hfull⟩ := hblank.outboundLimit
    rw [hfull]
    exact Manager.keeps_full hlimit
  · rw [hblank.inboundLimits]
    intro chain limit hlimit
    cases hlimit
  · rw [hblank.inboundLimits, hblank.peers]
    exact fun _ => Iff.rfl
  · rw [hblank.peers]
    intro chain peer hpeer
    cases hpeer

end CrossChain
