import CrossChain.Proofs.Limits

/-!
# Who may change what, and what a pause stops

A manager keeps two kinds of things. The settings (who owns it, whether it is paused, its
transceivers and peers, how many votes it asks for and how much its limits let pass) belong to the
owner. The transfers (the numbers given out, the inbox, the outbox and the tokens behind them)
belong to those who send and receive. Neither side reaches into the other: a call for a transfer
resets nothing, and a change of the configuration moves nothing. There are four ways to bring an
instruction, and a call for a transfer may come through an endpoint, so the question is asked of
every action that there is.

## Main statements

* `Manager.Permits`: which account may give which instruction.
* `Handles.sameSettings`, `perform_settings`: what becomes of the settings.
* `perform_paused`: a manager that is paused refuses every call that can move value.
* `Book.privileges`: the two sides, in every state, and over every run through a pause.
-/

namespace CrossChain

/-! ## §1 Settings and transfers -/

namespace Manager

variable {m m' m'' : Manager} {caller : Address} {now : Timestamp}
  {instruction : AdminInstruction}

/-- What belongs to the owner is the same: the configuration, the transceivers, the peers, and what
the limits are set to. -/
structure SameSettings (m m' : Manager) : Prop where
  config : m'.config = m.config
  transceivers : m'.transceivers = m.transceivers
  peers : m'.peers = m.peers
  outboundLimit : m'.outboundLimit.terms = m.outboundLimit.terms
  inboundLimits : ∀ chain, (m'.inboundLimits.get? chain).map RateLimit.terms =
    (m.inboundLimits.get? chain).map RateLimit.terms

theorem SameSettings.refl (m : Manager) : m.SameSettings m :=
  ⟨rfl, rfl, rfl, rfl, fun _ => rfl⟩

/-- What a manager knows of the transfers is the same. -/
structure SameTransfers (m m' : Manager) : Prop where
  nextSequence : m'.nextSequence = m.nextSequence
  inbox : m'.inbox = m.inbox
  outbox : m'.outbox = m.outbox

theorem SameTransfers.refl (m : Manager) : m.SameTransfers m := ⟨rfl, rfl, rfl⟩

theorem SameTransfers.trans (h : m.SameTransfers m') (h' : m'.SameTransfers m'') :
    m.SameTransfers m'' :=
  ⟨h'.nextSequence.trans h.nextSequence, h'.inbox.trans h.inbox, h'.outbox.trans h.outbox⟩

/-- Every limit is still there and takes as long to fill as it did. -/
structure SameDurations (m m' : Manager) : Prop where
  outbound : m'.outboundLimit.duration = m.outboundLimit.duration
  inbound : ∀ chain limit, m.inboundLimits.get? chain = some limit →
    ∃ limit', m'.inboundLimits.get? chain = some limit' ∧ limit'.duration = limit.duration

theorem SameDurations.refl (m : Manager) : m.SameDurations m :=
  ⟨rfl, fun _ limit hlimit => ⟨limit, hlimit, rfl⟩⟩

theorem SameDurations.trans (h : m.SameDurations m') (h' : m'.SameDurations m'') :
    m.SameDurations m'' := by
  refine ⟨h'.outbound.trans h.outbound, fun chain limit hlimit => ?_⟩
  obtain ⟨limit', hlimit', hduration⟩ := h.inbound chain limit hlimit
  obtain ⟨limit'', hlimit'', hduration'⟩ := h'.inbound chain limit' hlimit'
  exact ⟨limit'', hlimit'', hduration'.trans hduration⟩

theorem SameSettings.sameDurations (h : m.SameSettings m') : m.SameDurations m' := by
  refine ⟨congrArg Prod.snd h.outboundLimit, fun chain limit hlimit => ?_⟩
  have hterms := h.inboundLimits chain
  rw [hlimit, Option.map_some, Option.map_eq_some_iff] at hterms
  obtain ⟨limit', hlimit', hsame⟩ := hterms
  exact ⟨limit', hlimit', congrArg Prod.snd hsame⟩

/-! ## §2 Instructions -/

/-- Whether an account may give an instruction: the ownership is claimed by the account that it was
offered to, and everything else is for the owner. -/
def Permits (m : Manager) (caller : Address) : AdminInstruction → Prop
  | .claimOwnership => m.config.pendingOwner = some caller
  | _ => m.config.owner = caller

/-- A manager whose ownership was claimed. -/
def claimedBy (m : Manager) (caller : Address) : Manager :=
  m.withConfig { m.config with owner := caller, pendingOwner := none }

theorem Executes.permits (h : m.Executes caller now instruction m') :
    m.Permits caller instruction := by
  cases h with
  | claimOwnership hpending => exact hpending
  | transferOwnership howner | setPaused howner | setPeer howner | enabledAgain howner
  | registered howner | setTransceiverEnabled howner | setThreshold howner
  | setOutboundLimit howner | setInboundLimit howner => exact howner

theorem Executes.claimed (h : m.Executes caller now instruction m')
    (hclaim : instruction = .claimOwnership) : m' = m.claimedBy caller := by
  subst hclaim
  cases h with
  | claimOwnership => rfl

theorem Executes.sameTransfers (h : m.Executes caller now instruction m') : m.SameTransfers m' :=
  ⟨h.configures.nextSequence, h.configures.inbox, h.configures.outbox⟩

/-- Helper: setting the limit of one chain. -/
private theorem sameDurations_insert {chain : ChainId} {changed : RateLimit}
    {peers : SortedMap ChainId Peer}
    (h : ∀ limit, m.inboundLimits.get? chain = some limit → changed.duration = limit.duration) :
    m.SameDurations { m with peers, inboundLimits := m.inboundLimits.insert chain changed } := by
  refine ⟨rfl, fun other limit hlimit => ?_⟩
  by_cases hsame : other = chain
  · subst hsame
    exact ⟨changed, SortedMap.get?_insert_self _ _ _, h limit hlimit⟩
  · exact ⟨limit, (SortedMap.get?_insert_of_ne changed hsame).trans hlimit, rfl⟩

/-- No instruction changes how long a limit takes to fill. -/
theorem Executes.sameDurations (h : m.Executes caller now instruction m') :
    m.SameDurations m' := by
  cases h with
  | @setPeer spec trimmed changed _ _ _ _ _ hchanged =>
    refine sameDurations_insert fun limit hlimit => ?_
    -- A limit that exists is not replaced by a full one.
    rw [limitOrFull, hlimit, Option.getD_some] at hchanged
    exact RateLimit.duration_setLimit hchanged
  | @setInboundLimit chain _ _ current changed _ _ hcurrent hchanged =>
    refine sameDurations_insert fun limit hlimit => ?_
    cases hcurrent.symm.trans hlimit
    exact RateLimit.duration_setLimit hchanged
  | setOutboundLimit _ _ hchanged =>
    exact ⟨RateLimit.duration_setLimit hchanged, fun _ limit hlimit => ⟨limit, hlimit, rfl⟩⟩
  | _ => exact ⟨rfl, fun _ limit hlimit => ⟨limit, hlimit, rfl⟩⟩

end Manager

/-! ## §3 Steps -/

variable {b after : Book} {now : Timestamp} {action : Action}

/-- **A call for a transfer** resets nothing that belongs to the owner. -/
theorem Handles.sameSettings {answer : Answer} (h : Handles b now action answer after) :
    b.manager.SameSettings after.manager := by
  cases h with
  | repeated | voted | waiting | cancelled => exact ⟨rfl, rfl, rfl, rfl, fun _ => rfl⟩
  | settled _ _ hwaits hitem _ hsettles =>
    obtain ⟨limit, hlimit, hcharged⟩ :=
      hsettles.charged (hitem ▸ InboxItem.tryApprove_ne_released hwaits)
    obtain ⟨hin, hout⟩ := hcharged.terms
    exact ⟨rfl, rfl, rfl, hout, SortedMap.map_get?_insert hlimit hin⟩
  | transferred hsends =>
    obtain ⟨limit, hlimit, hcharged⟩ := hsends.charged
    obtain ⟨hout, hin⟩ := hcharged.terms
    exact ⟨rfl, rfl, rfl, hout, SortedMap.map_get?_insert hlimit hin⟩
  | pickedUp _ _ _ _ _ hhands =>
    obtain ⟨_, _, _, rfl⟩ := hhands.pickedUp
    obtain ⟨limit, hlimit, hcharged⟩ := hhands.charged
    obtain ⟨hout, hin⟩ := hcharged.terms
    exact ⟨rfl, rfl, rfl, hout, SortedMap.map_get?_insert hlimit hin⟩

/-- What comes of the settings in a step: nothing, or what an instruction says that its caller may
give. -/
def Book.SettingsKept (b : Book) (action : Action) (after : Book) : Prop :=
  b.manager.SameSettings after.manager ∨
    ∃ caller instruction, action.instruction? = some (caller, instruction) ∧
      b.manager.Permits caller instruction ∧
      (instruction = .claimOwnership → after.manager = b.manager.claimedBy caller)

theorem perform_settings (now : Timestamp) (b : Book) (action : Action) :
    b.SettingsKept action (perform now b action).2 := by
  rcases action.kinds with hvalue | hadmin | ⟨token, rfl⟩
  · have h := perform_handled hvalue now b
    generalize perform now b action = result at h
    cases h with
    | refused => exact .inl (.refl _)
    | handled _ hhandles => exact .inl hhandles.sameSettings
  · have h := perform_administered hadmin now b
    generalize perform now b action = result at h
    cases h with
    | refused => exact .inl (.refl _)
    | executed hinstruction _ hexecutes =>
      exact .inr ⟨_, _, hinstruction, hexecutes.permits, hexecutes.claimed⟩
  · exact .inl (.refl _)

/-- **A change of the configuration** moves nothing. -/
theorem perform_administers (hadmin : action.Administers) (now : Timestamp) (b : Book) :
    (perform now b action).2.token = b.token ∧
      b.manager.SameTransfers (perform now b action).2.manager := by
  have h := perform_administered hadmin now b
  generalize perform now b action = result at h
  cases h with
  | refused => exact ⟨rfl, .refl _⟩
  | executed _ _ hexecutes => exact ⟨rfl, hexecutes.sameTransfers⟩

/-- **A manager that is paused** refuses every call that can move value. -/
theorem perform_paused (hvalue : action.MovesValue) (hpaused : b.manager.config.paused = true)
    (now : Timestamp) : ∃ failure, perform now b action = (.error failure, b) := by
  have h := perform_handled hvalue now b
  generalize perform now b action = result at h ⊢
  cases h with
  | refused => exact ⟨_, rfl⟩
  | handled hrunning => cases hpaused.symm.trans hrunning

/-- While a manager is paused, no action does anything to the transfers, and no call to the
tokens. -/
theorem sameTransfers_of_paused (hpaused : b.manager.config.paused = true) (now : Timestamp)
    (action : Action) :
    b.manager.SameTransfers (perform now b action).2.manager ∧
      (action.IsCall → (perform now b action).2.token = b.token) := by
  rcases action.kinds with hvalue | hadmin | ⟨token, rfl⟩
  · obtain ⟨failure, hrefused⟩ := perform_paused hvalue hpaused now
    rw [hrefused]
    exact ⟨.refl _, fun _ => rfl⟩
  · obtain ⟨htoken, hsame⟩ := perform_administers hadmin now b
    exact ⟨hsame, fun _ => htoken⟩
  · exact ⟨.refl _, False.elim⟩

/-- No step changes how long a limit takes to fill. -/
theorem perform_sameDurations (now : Timestamp) (b : Book) (action : Action) :
    b.manager.SameDurations (perform now b action).2.manager := by
  rcases perform_settings now b action with hsame | ⟨caller, instruction, hinstruction, _⟩
  · exact hsame.sameDurations
  · have hadmin : action.Administers := by
      cases action <;> trivial
    have h := perform_administered hadmin now b
    generalize perform now b action = result at h
    cases h with
    | refused => exact .refl _
    | executed _ _ hexecutes => exact hexecutes.sameDurations

/-! ## §4 Runs -/

namespace Book

theorem run_sameDurations (b : Book) (events : List Event) :
    b.manager.SameDurations (b.run events).manager :=
  run_induction (motive := fun _ current => b.manager.SameDurations current.manager) (.refl _)
    (fun _ current event h => h.trans (perform_sameDurations event.now current event.action)) events

/-- Over a run in which the manager is always paused nothing happens to the transfers, by induction
on the events. -/
theorem run_sameTransfers {events : List Event}
    (hpaused : ∀ s ∈ b.trace events, s.before.manager.config.paused = true) :
    b.manager.SameTransfers (b.run events).manager ∧
      ((∀ event ∈ events, event.action.IsCall) → (b.run events).token = b.token) := by
  induction events generalizing b with
  | nil => exact ⟨.refl _, fun _ => rfl⟩
  | cons event rest ih =>
    rw [trace, List.forall_mem_cons] at hpaused
    have hstep := sameTransfers_of_paused hpaused.1 event.now event.action
    obtain ⟨hrest, htoken⟩ := ih hpaused.2
    refine ⟨hstep.1.trans hrest, fun hcalls => ?_⟩
    rw [List.forall_mem_cons] at hcalls
    exact (htoken hcalls.2).trans (hstep.2 hcalls.1)

/-- **Privileges and pause**, from any state of a manager and its token:

* the owner, the account that may claim the ownership, the pause, the threshold, the enabled and the
  registered transceivers, the peers and what each limit lets pass stay as they are in every step,
  unless the action carries an instruction that its caller may give, which is the owner, or for a
  claim of the ownership the account that it was offered to; a claim changes nothing but these two;
* a change of the configuration touches neither the tokens nor the transfers;
* what was fixed when the manager was created, and how long each limit takes to fill, never changes;
* over every run in which the manager is paused before each step, no call by anyone changes the
  tokens or the transfers. -/
theorem privileges (b : Book) :
    (∀ now action, b.SettingsKept action (perform now b action).2 ∧
      (action.Administers → (perform now b action).2.token = b.token ∧
        b.manager.SameTransfers (perform now b action).2.manager)) ∧
    (∀ events, b.manager.config.Akin (b.run events).manager.config ∧
      b.manager.SameDurations (b.run events).manager) ∧
    ∀ events, (∀ s ∈ b.trace events, s.before.manager.config.paused = true) →
      (∀ s ∈ b.trace events, s.before.manager.SameTransfers s.after.manager ∧
        (s.event.action.IsCall → s.after.token = s.before.token)) ∧
      b.manager.SameTransfers (b.run events).manager ∧
      ((∀ event ∈ events, event.action.IsCall) → (b.run events).token = b.token) := by
  refine ⟨fun now action => ⟨perform_settings now b action, fun hadmin => ?_⟩, fun events => ?_,
    fun events hpaused => ⟨fun s hs => ?_, run_sameTransfers hpaused⟩⟩
  · exact perform_administers hadmin now b
  · exact ⟨b.run_akin events, b.run_sameDurations events⟩
  · obtain ⟨i, hi⟩ := List.mem_iff_getElem?.mp hs
    have hbefore := hpaused s hs
    rw [trace_getElem?, Option.map_eq_some_iff] at hi
    obtain ⟨event, _, rfl⟩ := hi
    exact sameTransfers_of_paused hbefore event.now event.action

end Book

namespace Sample

/-- The first chain, paused while a transfer can be picked up. -/
def halted : Book := home.run (homeEvents.take 3 ++ [⟨2, .execute (address 9) (.setPaused true)⟩])

/-- While it is paused an account sends more, a transceiver wants to pick the transfer up, and the
manager changes hands. -/
def haltedEvents : List Event :=
  [⟨3, .transfer (address 20) ⟨123456789, ⟨2⟩, address 22, false, []⟩⟩,
   ⟨4, .releaseOutbound (address 30) 0 true⟩,
   ⟨5, .execute (address 9) (.transferOwnership (address 40))⟩,
   ⟨6, .execute (address 40) .claimOwnership⟩,
   ⟨7, .execute (address 40) (.setOutboundLimit 5000)⟩]

/-- The manager changes hands and what it knows of the transfers is the same. -/
theorem halted_keeps_transfers :
    (halted.run haltedEvents).manager.config.owner = address 40 ∧
      halted.manager.SameTransfers (halted.run haltedEvents).manager ∧
      (halted.run haltedEvents).token = halted.token ∧
      (perform 5 halted (.execute (address 9) (.transferOwnership (address 40)))).2.token =
        halted.token := by
  obtain ⟨hsteps, _, hpaused⟩ := halted.privileges
  obtain ⟨_, hoffer⟩ := hsteps 5 (.execute (address 9) (.transferOwnership (address 40)))
  obtain ⟨_, hsame, htoken⟩ := hpaused haltedEvents (by decide +kernel)
  refine ⟨by decide +kernel, hsame, htoken ?_, (hoffer trivial).1⟩
  simp only [haltedEvents, List.forall_mem_cons, Action.IsCall, List.not_mem_nil, true_and,
    implies_true, false_implies]

end Sample

end CrossChain
