import CrossChain.Proofs.Privilege
import CrossChain.Proofs.Store

/-!
# Changing the limits

The owner sets the limits of a manager in three ways: the one on what goes out, the one on what
comes from a chain, and the latter again whenever the peer of the chain is set. If one of them
filled the limit that it sets, the owner could let more pass than any of the limits says, and a
peer that is set twice would be a way around its limit. None does. A limit that is there keeps the
capacity of the moment, cut off at the new limit, so that of several changes at one moment the
lowest counts, and raising the limit again gives nothing back.

A limit that is not there yet starts full. This happens once for each chain, when its peer is set
for the first time.

## Main statements

* `RateLimit.Regular.cut`: what setting a limit does to it.
* `Manager.Executes.relimits`: what an instruction does to the limits.
* `Manager.Adjusts`: what changes at one moment come to, for one step and for any number.
* `Book.limits_adjusted`: in every state that a new manager can reach.
-/

namespace CrossChain

/-! ## §1 One limit -/

namespace RateLimit

variable {r r' : RateLimit} {limit : TrimmedAmount} {precision : ℕ} {now duration : Timestamp}

/-- **Setting a limit** cuts the capacity of the moment off at the new limit. -/
theorem Regular.cut (h : r.Regular precision duration) (hduration : 0 < duration.toInt)
    (hlimit : limit.decimals.toNat = precision) (hset : r.setLimit limit now = .ok r') :
    r'.limit = limit ∧
      r'.capacityAt now = ⟨min (r.capacityAt now).amount limit.amount, limit.decimals⟩ := by
  have hsame : r.stored.decimals = limit.decimals :=
    UInt8.toNat_inj.mp (h.stored.trans hlimit.symm)
  cases (setLimit_of_decimals hsame now).symm.trans hset
  refine ⟨rfl, ?_⟩
  rw [← h.duration] at hduration
  apply capacityAt_withCapacity (r := { r with limit }) hduration
  rw [UInt64.le_iff_toNat_le, Word.toNat_min]
  exact Nat.min_le_right _ _

/-- A full limit has the capacity of the limit. -/
theorem capacityAt_full (hduration : 0 < duration.toInt) :
    (full limit now duration).capacityAt now = limit :=
  capacityAt_withCapacity (r := full limit now duration) hduration (UInt64.le_refl _)
    limit.decimals now

end RateLimit

/-! ## §2 The limits of a manager -/

/-- A limit that a manager has: on what goes out, or on what comes from a chain. -/
inductive Limiter where
  | outbound
  | inbound (chain : ChainId)
deriving DecidableEq

/-- The limit that an instruction sets, and what it sets it to. -/
def AdminInstruction.limited? : AdminInstruction → Option (Limiter × UInt64)
  | setPeer spec => some (.inbound spec.chain, spec.limit)
  | setOutboundLimit limit => some (.outbound, limit)
  | setInboundLimit chain limit => some (.inbound chain, limit)
  | _ => none

namespace Manager

variable {m m' m'' : Manager} {caller : Address} {now : Timestamp} {key : Limiter}
  {instruction : AdminInstruction}

/-- A limit of a manager, if it has it. -/
def limiter? (m : Manager) : Limiter → Option RateLimit
  | .outbound => some m.outboundLimit
  | .inbound chain => m.inboundLimits.get? chain

/-- What a limit is set to. -/
def limitOf? (m : Manager) (key : Limiter) : Option TrimmedAmount :=
  (m.limiter? key).map RateLimit.limit

/-- What a limit lets pass at a time. -/
def capacity? (m : Manager) (key : Limiter) (now : Timestamp) : Option TrimmedAmount :=
  (m.limiter? key).map (·.capacityAt now)

theorem Metered.keeps (h : m.Metered) {r : RateLimit} (hr : m.limiter? key = some r) :
    m.Keeps r := by
  cases key with
  | outbound =>
    cases hr
    exact h.outbound
  | inbound chain => exact h.inbound chain r hr

/-- A limit is set, as the manager goes from `m` to `m'`. -/
structure Relimits (m : Manager) (key : Limiter) (limit : TrimmedAmount) (now : Timestamp)
    (m' : Manager) : Prop where
  set : m'.limitOf? key = some limit
  /-- A limit that was there keeps its capacity, cut off at the new limit. -/
  kept : ∀ capacity, m.capacity? key now = some capacity →
    m'.capacity? key now = some ⟨min capacity.amount limit.amount, limit.decimals⟩
  /-- One that was not starts full. -/
  full : m.limiter? key = none → m'.capacity? key now = some limit
  others : ∀ other, other ≠ key → m'.limiter? other = m.limiter? other

/-- Helper: the limit that is set is the one that was there, or a full one. -/
private theorem Relimits.of_setLimit (hm : m.Metered) {amount : UInt64} {limit : TrimmedAmount}
    {changed : RateLimit}
    (hlimit : TrimmedAmount.trim amount m.config.tokenDecimals m.config.tokenDecimals = .ok limit)
    (hchanged : ((m.limiter? key).getD
      (.full limit now m.config.rateLimitDuration)).setLimit limit now = .ok changed)
    (hkey : m'.limiter? key = some changed)
    (hothers : ∀ other, other ≠ key → m'.limiter? other = m.limiter? other) :
    m.Relimits key limit now m' := by
  have hprecision := precision_of_trim hlimit
  have hkeeps : m.Keeps ((m.limiter? key).getD (.full limit now m.config.rateLimitDuration)) := by
    cases hr : m.limiter? key with
    | some r => exact hm.keeps hr
    | none =>
      have hregular := RateLimit.regular_full limit now m.config.rateLimitDuration
      rwa [hprecision] at hregular
  obtain ⟨hset, hcapacity⟩ := RateLimit.Regular.cut hkeeps hm.duration hprecision hchanged
  constructor
  · rw [limitOf?, hkey, Option.map_some, hset]
  · intro capacity hbefore
    obtain ⟨r, hr, rfl⟩ := Option.map_eq_some_iff.mp hbefore
    rw [capacity?, hkey, Option.map_some, hcapacity, hr, Option.getD_some]
  · intro hnone
    have hself : min limit.amount limit.amount = limit.amount := by
      rw [← UInt64.toNat_inj, Word.toNat_min, Nat.min_self]
    rw [capacity?, hkey, Option.map_some, hcapacity, hnone, Option.getD_none,
      RateLimit.capacityAt_full hm.duration, hself]
  · exact hothers

/-- Helper: the limits of the other chains. -/
private theorem limiter?_of_insert {chain : ChainId} {changed : RateLimit}
    {peers : SortedMap ChainId Peer} {other : Limiter} (hother : other ≠ .inbound chain) :
    limiter? { m with peers, inboundLimits := m.inboundLimits.insert chain changed } other =
      m.limiter? other := by
  cases other with
  | outbound => rfl
  | inbound c =>
    apply SortedMap.get?_insert_of_ne
    rintro rfl
    exact hother rfl

/-- **An instruction that sets a limit** cuts it off, or sets it anew, and touches no other. -/
theorem Executes.relimits (h : m.Executes caller now instruction m') (hm : m.Metered)
    {amount : UInt64} (hlimited : instruction.limited? = some (key, amount)) :
    ∃ limit, m.trimLimit amount = .ok limit ∧ m.Relimits key limit now m' := by
  cases h with
  | setPeer _ _ _ _ hlimit hchanged =>
    cases hlimited
    exact ⟨_, trimLimit_eq_ok.mpr hlimit, .of_setLimit hm hlimit hchanged
      (SortedMap.get?_insert_self _ _ _) fun _ => limiter?_of_insert⟩
  | setOutboundLimit _ hlimit hchanged =>
    cases hlimited
    refine ⟨_, trimLimit_eq_ok.mpr hlimit,
      .of_setLimit hm hlimit hchanged rfl fun other hother => ?_⟩
    cases other with
    | outbound => exact absurd rfl hother
    | inbound chain => rfl
  | setInboundLimit _ hlimit hcurrent hchanged =>
    cases hlimited
    refine ⟨_, trimLimit_eq_ok.mpr hlimit, .of_setLimit hm hlimit ?_
      (SortedMap.get?_insert_self _ _ _) fun _ => limiter?_of_insert⟩
    rwa [limiter?, hcurrent, Option.getD_some]
  | transferOwnership | claimOwnership | setPaused | enabledAgain | registered
  | setTransceiverEnabled | setThreshold => cases hlimited

/-- Any other instruction touches no limit. -/
theorem Executes.limiter?_eq (h : m.Executes caller now instruction m')
    (hlimited : instruction.limited? = none) (key : Limiter) :
    m'.limiter? key = m.limiter? key := by
  cases h with
  | setPeer | setOutboundLimit | setInboundLimit => cases hlimited
  | transferOwnership | claimOwnership | setPaused | enabledAgain | registered
  | setTransceiverEnabled | setThreshold => cases key <;> rfl

/-! ## §3 Changes at one moment -/

/-- The least of some numbers and of those that follow, found in two parts. -/
theorem min?_toList_append (front back : List UInt64) :
    (front.min?.toList ++ back).min? = (front ++ back).min? := by
  cases front with
  | nil => rfl
  | cons a front =>
    simp only [List.min?_cons', Option.toList_some, List.cons_append, List.nil_append,
      List.foldl_append]

/-- **Changes of a limit at one moment**: of the capacity that there was and the limits that it was
set to, the least is the capacity and the last is the limit. -/
structure Adjusts (m : Manager) (key : Limiter) (now : Timestamp) (limits : List TrimmedAmount)
    (m' : Manager) : Prop where
  capacity : (m'.capacity? key now).map TrimmedAmount.amount =
    (((m.capacity? key now).toList ++ limits).map TrimmedAmount.amount).min?
  limit : m'.limitOf? key = ((m.limitOf? key).toList ++ limits).getLast?
  untouched : limits = [] → m'.limiter? key = m.limiter? key

namespace Adjusts

theorem of_eq (h : m'.limiter? key = m.limiter? key) : m.Adjusts key now [] m' := by
  refine ⟨?_, ?_, fun _ => h⟩
  · rw [capacity?, capacity?, h]
    cases m.limiter? key <;> rfl
  · rw [limitOf?, limitOf?, h]
    cases m.limiter? key <;> rfl

theorem of_relimits {limit : TrimmedAmount} (h : m.Relimits key limit now m') :
    m.Adjusts key now [limit] m' := by
  refine ⟨?_, ?_, fun hnone => nomatch hnone⟩
  · cases hbefore : m.capacity? key now with
    | some capacity =>
      rw [h.kept capacity hbefore]
      rfl
    | none =>
      rw [h.full (Option.map_eq_none_iff.mp hbefore)]
      rfl
  · rw [h.set, List.getLast?_concat]

theorem trans {limits later : List TrimmedAmount} (h : m.Adjusts key now limits m')
    (h' : m'.Adjusts key now later m'') : m.Adjusts key now (limits ++ later) m'' := by
  constructor
  · rw [h'.capacity, List.map_append, ← Option.toList_map, h.capacity, min?_toList_append,
      ← List.map_append, List.append_assoc]
  · have htwice (o : Option TrimmedAmount) : o.toList.getLast? = o := by cases o <;> rfl
    rw [h'.limit, h.limit, List.getLast?_append, htwice, ← List.getLast?_append, List.append_assoc]
  · intro hnone
    obtain ⟨hlimits, hlater⟩ := List.append_eq_nil_iff.mp hnone
    exact (h'.untouched hlater).trans (h.untouched hlimits)

end Adjusts

end Manager

/-! ## §4 Steps -/

/-- What a step sets a limit to, if it does. -/
def Step.limitSet? (s : Step) (key : Limiter) : Option TrimmedAmount :=
  match s.outcome, s.event.action.instruction? with
  | .ok _, some (_, instruction) =>
    instruction.limited?.bind fun (set, amount) =>
      if set = key then (s.before.manager.trimLimit amount).toOption else none
  | _, _ => none

/-- A step sets the peer on a chain. -/
def Step.SetsPeer (s : Step) (chain : ChainId) : Prop :=
  (∃ answer, s.outcome = .ok answer) ∧ ∃ caller spec,
    s.event.action.instruction? = some (caller, .setPeer spec) ∧ spec.chain = chain

namespace Book

variable {b : Book} {now : Timestamp} {action : Action}

/-- **A call that sets a limit**, and is accepted. -/
theorem relimits_of_ok (hm : b.manager.Metered) {caller : Address} {instruction : AdminInstruction}
    {key : Limiter} {amount : UInt64} {answer : Answer}
    (hinstruction : action.instruction? = some (caller, instruction))
    (hlimited : instruction.limited? = some (key, amount))
    (hok : (perform now b action).1 = .ok answer) :
    ∃ limit, b.manager.trimLimit amount = .ok limit ∧
      b.manager.Relimits key limit now (perform now b action).2.manager := by
  have hadmin : action.Administers := by
    cases action <;> trivial
  have h := perform_administered hadmin now b
  generalize perform now b action = result at h hok ⊢
  cases h with
  | refused => cases hok
  | executed hsame _ hexecutes =>
    cases hinstruction.symm.trans hsame
    exact hexecutes.relimits hm hlimited

/-- **A change of the configuration** adjusts every limit by what it sets it to. -/
theorem step_adjusts (hm : b.manager.Metered) {event : Event} (hadmin : event.action.Administers)
    (key : Limiter) :
    b.manager.Adjusts key event.now ((b.step event).limitSet? key).toList
      (b.step event).after.manager := by
  have h := perform_administered hadmin event.now b
  simp only [step, Step.limitSet?]
  generalize perform event.now b event.action = result at h ⊢
  cases h with
  | refused => exact .of_eq rfl
  | @executed answer caller instruction m hinstruction _ hexecutes =>
    simp only [hinstruction]
    cases hlimited : instruction.limited? with
    | none => exact .of_eq (hexecutes.limiter?_eq hlimited key)
    | some target =>
      obtain ⟨set, amount⟩ := target
      obtain ⟨limit, hlimit, hrelimits⟩ := hexecutes.relimits hm hlimited
      simp only [Option.bind_some]
      split
      next hsame =>
        subst hsame
        rw [hlimit]
        exact .of_relimits hrelimits
      next hother => exact .of_eq (hrelimits.others key (Ne.symm hother))

/-- A call that is accepted sets the peer that its instruction names. -/
theorem setsPeer_iff {answer : Answer} {after : Book} {caller : Address}
    {instruction : AdminInstruction} (chain : ChainId)
    (hinstruction : action.instruction? = some (caller, instruction)) :
    Step.SetsPeer ⟨b, ⟨now, action⟩, .ok answer, after⟩ chain ↔
      ∃ spec, instruction = .setPeer spec ∧ spec.chain = chain := by
  constructor
  · rintro ⟨_, _, spec, hsame, hchain⟩
    cases hinstruction.symm.trans hsame
    exact ⟨spec, rfl, hchain⟩
  · rintro ⟨spec, rfl, hchain⟩
    exact ⟨⟨answer, rfl⟩, caller, spec, hinstruction, hchain⟩

/-- **A step** makes a peer of the chain that it sets, and of no other. -/
theorem step_peers (b : Book) (event : Event) (chain : ChainId) :
    (b.step event).after.manager.peers.contains chain = true ↔
      b.manager.peers.contains chain = true ∨ (b.step event).SetsPeer chain := by
  obtain ⟨now, action⟩ := event
  -- All but one of the steps set no peer and leave the peers as they were.
  have hkept {outcome : Outcome} {after : Book} (hpeers : after.manager.peers = b.manager.peers)
      (hnot : ¬ Step.SetsPeer ⟨b, ⟨now, action⟩, outcome, after⟩ chain) :
      after.manager.peers.contains chain = true ↔ b.manager.peers.contains chain = true ∨
        Step.SetsPeer ⟨b, ⟨now, action⟩, outcome, after⟩ chain := by
    rw [hpeers, or_iff_left hnot]
  simp only [step]
  rcases action.kinds with hvalue | hadmin | ⟨token, rfl⟩
  · have h := perform_handled hvalue now b
    generalize perform now b action = result at h ⊢
    apply hkept
    · cases h with
      | refused => rfl
      | handled _ hhandles => exact hhandles.sameSettings.peers
    · rintro ⟨_, caller, spec, hinstruction, _⟩
      cases action <;> first | exact hvalue | cases hinstruction
  · have h := perform_administered hadmin now b
    generalize perform now b action = result at h ⊢
    cases h with
    | refused =>
      apply hkept rfl
      rintro ⟨⟨answer, hok⟩, _⟩
      cases hok
    | executed hinstruction _ hexecutes =>
      cases hexecutes with
      | @setPeer spec =>
        rw [setsPeer_iff chain hinstruction, SortedMap.contains_insert, or_comm]
        simp only [AdminInstruction.setPeer.injEq, exists_eq_left', eq_comm (a := chain)]
      | transferOwnership | claimOwnership | setPaused | enabledAgain | registered
      | setTransceiverEnabled | setThreshold | setOutboundLimit | setInboundLimit =>
        apply hkept rfl
        rw [setsPeer_iff chain hinstruction]
        rintro ⟨spec, hother, _⟩
        cases hother
  · apply hkept rfl
    rintro ⟨_, caller, spec, hinstruction, _⟩
    cases hinstruction

/-! ## §5 Runs -/

theorem run_adjusts (hm : b.manager.Metered) {changes : List Event}
    (hchanges : ∀ event ∈ changes, event.now = now ∧ event.action.Administers) (key : Limiter) :
    b.manager.Adjusts key now ((b.trace changes).filterMap (·.limitSet? key))
      (b.run changes).manager := by
  induction changes generalizing b with
  | nil => exact .of_eq rfl
  | cons event rest ih =>
    obtain ⟨⟨rfl, hadmin⟩, hrest⟩ := List.forall_mem_cons.mp hchanges
    have hfirst := step_adjusts hm hadmin key
    have hlater := ih (hm.step (b.step_changes event)) hrest
    have hsplit : (b.trace (event :: rest)).filterMap (·.limitSet? key) =
        ((b.step event).limitSet? key).toList ++
          ((b.step event).after.trace rest).filterMap (·.limitSet? key) := by
      rw [trace, List.filterMap_cons]
      cases (b.step event).limitSet? key <;> rfl
    rw [hsplit]
    exact hfirst.trans hlater

/-- The chains of the peers are those whose peer was set. -/
theorem Fresh.contains_peer (hfresh : b.Fresh) (events : List Event) (chain : ChainId) :
    (b.run events).manager.peers.contains chain = true ↔
      ∃ s ∈ b.trace events, s.SetsPeer chain := by
  refine run_induction (motive := fun history current =>
    current.manager.peers.contains chain = true ↔ ∃ s ∈ history, s.SetsPeer chain) ?_ ?_ events
  · rw [hfresh.blank.peers]
    exact iff_of_false Bool.false_ne_true fun ⟨_, hs, _⟩ => nomatch hs
  · intro history current event ih
    rw [step_peers, ih]
    simp [or_and_right, exists_or]

/-- **Changing limits hands out no capacity.** In every state that a new manager can reach, at
every moment,

* an accepted call that sets a limit makes it the trimmed new one and touches no other; a limit that
  was there keeps the capacity of the moment, cut off at the new limit, and one that was not starts
  full;
* any number of changes of the configuration at one moment, accepted or refused, leave as the
  capacity of each limit the least of what it was and of all that the limit was set to, and leave a
  limit alone that none of them sets;
* a limit on what comes from a chain is there if and only if its peer was set before, so only the
  first time that a peer is set starts from a full limit;
* all limits, capacities and new limits are in one unit. -/
theorem limits_adjusted (hfresh : b.Fresh) (history : List Event) :
    (∀ (now : Timestamp) (action : Action) (caller : Address) (instruction : AdminInstruction)
        (key : Limiter) (amount : UInt64) (answer : Answer),
      action.instruction? = some (caller, instruction) →
      instruction.limited? = some (key, amount) →
      (perform now (b.run history) action).1 = .ok answer →
      ∃ limit, (b.run history).manager.trimLimit amount = .ok limit ∧
        (b.run history).manager.Relimits key limit now
          (perform now (b.run history) action).2.manager) ∧
    (∀ (now : Timestamp) (changes : List Event) (key : Limiter),
      (∀ event ∈ changes, event.now = now ∧ event.action.Administers) →
      (b.run history).manager.Adjusts key now
        (((b.run history).trace changes).filterMap (·.limitSet? key))
        ((b.run history).run changes).manager) ∧
    (∀ chain : ChainId,
      (((b.run history).manager.limiter? (.inbound chain)).isSome = true ↔
        (b.run history).manager.peers.contains chain = true) ∧
      ((b.run history).manager.peers.contains chain = true ↔
        ∃ s ∈ b.trace history, s.SetsPeer chain)) ∧
    ∀ (key : Limiter) (limiter : RateLimit),
      (b.run history).manager.limiter? key = some limiter →
      ∀ (amount : UInt64) (limit : TrimmedAmount),
        (b.run history).manager.trimLimit amount = .ok limit →
        limiter.limit.decimals = limit.decimals ∧ limiter.stored.decimals = limit.decimals := by
  have hm := (run_sound hfresh history).limits
  refine ⟨fun now action caller instruction key amount answer => relimits_of_ok hm,
    fun now changes key hchanges => run_adjusts hm hchanges key,
    fun chain => ⟨hm.keys chain, hfresh.contains_peer history chain⟩, ?_⟩
  intro key limiter hlimiter amount limit hlimit
  have hprecision := Manager.precision_of_trim (Manager.trimLimit_eq_ok.mp hlimit)
  -- Every limit is kept in one unit, and what the owner gives is trimmed to it.
  obtain ⟨hset, hstored, _, _⟩ := hm.keeps hlimiter
  exact ⟨UInt8.toNat_inj.mp (hset.trans hprecision.symm),
    UInt8.toNat_inj.mp (hstored.trans hprecision.symm)⟩

end Book

namespace Sample

/-- At one moment the owner lowers both limits and raises them again, the one on what comes in by
setting the peer twice; somebody else may not. -/
def readjustments : List Event :=
  [⟨5, .execute (address 9) (.setPeer ⟨⟨2⟩, address 12, 500000000, 7⟩)⟩,
   ⟨5, .execute (address 20) (.setOutboundLimit 1)⟩,
   ⟨5, .execute (address 9) (.setOutboundLimit 300)⟩,
   ⟨5, .execute (address 9) (.setPeer ⟨⟨2⟩, address 13, 2000000000, 7⟩)⟩,
   ⟨5, .execute (address 9) (.setOutboundLimit 1000000000)⟩]

/-- The limits end higher than they were, and the capacities are the lowest that was set. -/
theorem readjustments_give_nothing :
    home.Fresh ∧
      (home.run homeEvents).manager.Adjusts (.inbound ⟨2⟩) 5 [⟨50000000, 8⟩, ⟨200000000, 8⟩]
        ((home.run homeEvents).run readjustments).manager ∧
      (((home.run homeEvents).run readjustments).manager.capacity? (.inbound ⟨2⟩) 5).map
        TrimmedAmount.amount = some 50000000 ∧
      (((home.run homeEvents).run readjustments).manager.capacity? .outbound 5).map
        TrimmedAmount.amount = some 30 ∧
      (home.run homeEvents).manager.trimLimit 300 = .ok ⟨30, 8⟩ ∧
      (home.run homeEvents).manager.Relimits .outbound ⟨30, 8⟩ 5
        (perform 5 (home.run homeEvents)
          (.execute (address 9) (.setOutboundLimit 300))).2.manager := by
  obtain ⟨hcalls, hchanges, _⟩ := Book.limits_adjusted home_fresh homeEvents
  have hadmin : ∀ event ∈ readjustments, event.now = 5 ∧ event.action.Administers := by
    simp [readjustments, Action.Administers]
  have hinbound := hchanges 5 readjustments (.inbound ⟨2⟩) hadmin
  have houtbound := hchanges 5 readjustments .outbound hadmin
  have hset : ((home.run homeEvents).trace readjustments).filterMap (·.limitSet? (.inbound ⟨2⟩)) =
      [⟨50000000, 8⟩, ⟨200000000, 8⟩] := by decide +kernel
  rw [hset] at hinbound
  obtain ⟨limit, hlimit, hrelimits⟩ :=
    hcalls 5 (.execute (address 9) (.setOutboundLimit 300)) (address 9) (.setOutboundLimit 300)
      .outbound 300 .done rfl rfl (by decide +kernel)
  have htrimmed : (home.run homeEvents).manager.trimLimit 300 = .ok ⟨30, 8⟩ := by decide +kernel
  cases htrimmed.symm.trans hlimit
  refine ⟨home_fresh, hinbound, ?_, ?_, htrimmed, hrelimits⟩
  · rw [hinbound.capacity]
    decide +kernel
  · rw [houtbound.capacity]
    decide +kernel

end Sample

end CrossChain
