import CrossChain.Proofs.Instruction
import CrossChain.Proofs.Run

/-!
# What a change of the configuration does

Four of the calls change the configuration: an instruction is given as it is, as a registration, in
bytes, or in the post of a governance contract. All of them come to one thing, an instruction that
a caller gives. If it is refused the call leaves everything as it was, because the manager does.

## Main statements

* `Manager.Configures`: what no change of the configuration touches.
* `Governance.run_execute`, `Governance.execute_atomic`: what a governance contract asks of the
  manager, and that nothing comes of it if the manager refuses.
* `perform_administered`: every call that changes the configuration carries out the instruction that
  it carries, or is refused.
-/

namespace CrossChain

variable {m m' : Manager} {caller : Address} {now : Timestamp}

/-! ## §1 What stays -/

namespace Config

/-- Two configurations of one manager: what is fixed when it is created is the same. -/
structure Akin (c c' : Config) : Prop where
  address : c'.address = c.address
  tokenAddress : c'.tokenAddress = c.tokenAddress
  tokenDecimals : c'.tokenDecimals = c.tokenDecimals
  mode : c'.mode = c.mode
  chain : c'.chain = c.chain
  dustPolicy : c'.dustPolicy = c.dustPolicy
  rateLimitDuration : c'.rateLimitDuration = c.rateLimitDuration

theorem Akin.refl (c : Config) : c.Akin c := ⟨rfl, rfl, rfl, rfl, rfl, rfl, rfl⟩

theorem Akin.trans {c c' c'' : Config} (h : c.Akin c') (h' : c'.Akin c'') : c.Akin c'' where
  address := h'.address.trans h.address
  tokenAddress := h'.tokenAddress.trans h.tokenAddress
  tokenDecimals := h'.tokenDecimals.trans h.tokenDecimals
  mode := h'.mode.trans h.mode
  chain := h'.chain.trans h.chain
  dustPolicy := h'.dustPolicy.trans h.dustPolicy
  rateLimitDuration := h'.rateLimitDuration.trans h.rateLimitDuration

end Config

namespace Manager

/-- What can become of the transceivers that are registered. -/
inductive Enrols (m m' : Manager) : Prop where
  | same (htransceivers : m'.transceivers = m.transceivers)
      (hnext : m'.config.nextTransceiver = m.config.nextTransceiver) : Enrols m m'
  /-- One more is registered, under the next id. -/
  | registered {address : Address} (hnew : m.transceiver? address = none)
      (htransceivers : m'.transceivers = m.transceivers ++ [⟨m.config.nextTransceiver, address⟩])
      (hnext : m'.config.nextTransceiver.toNat = m.config.nextTransceiver.toNat + 1) :
      Enrols m m'

theorem Enrols.transceivers (h : m.Enrols m') : m.transceivers <+: m'.transceivers := by
  cases h with
  | same htransceivers => rw [htransceivers]
  | registered _ htransceivers =>
    rw [htransceivers]
    exact List.prefix_append _ _

/-- A transceiver that is registered keeps its id. -/
theorem Enrols.transceiver? (h : m.Enrols m') {address : Address} {t : Transceiver}
    (ht : m.transceiver? address = some t) : m'.transceiver? address = some t :=
  h.transceivers.find?_eq_some ht

/-- What a change of the configuration leaves alone: the transfers, what was fixed when the
manager was created, and the transceivers that are registered. -/
structure Configures (m m' : Manager) : Prop where
  config : m.config.Akin m'.config
  inbox : m'.inbox = m.inbox
  outbox : m'.outbox = m.outbox
  nextSequence : m'.nextSequence = m.nextSequence
  enrols : m.Enrols m'

theorem Executes.configures {instruction : AdminInstruction}
    (h : m.Executes caller now instruction m') : m.Configures m' := by
  cases h with
  | registered _ hnew _ hnext _ =>
    exact ⟨⟨rfl, rfl, rfl, rfl, rfl, rfl, rfl⟩, rfl, rfl, rfl, .registered hnew rfl hnext⟩
  | _ => exact ⟨⟨rfl, rfl, rfl, rfl, rfl, rfl, rfl⟩, rfl, rfl, rfl, .same rfl rfl⟩

end Manager

/-! ## §2 Governance -/

theorem Manager.invoke_eq_ok_iff {callData : Bytes} {u : Unit} :
    Manager.invoke caller now callData m = .ok u m' ↔ ∃ instruction,
      Wire.decode AdminInstruction.wire callData = .ok instruction ∧
        Manager.execute caller now instruction m = .ok u m' := by
  rw [Manager.invoke, run_require_bind]
  simp only [mapError_eq_ok]

namespace Governance

variable {post : SignedPost} {s after : Governed} {u : Unit}

/-- The contract after it carried out a post. -/
def consume (g : Governance) (digest : Digest) : Governance :=
  { g with consumed := g.consumed.insert digest () }

/-- **A post that is carried out** passed the checks of the contract, and the manager accepted what
it asks for. -/
theorem run_execute :
    execute now post s = .ok u after ↔ ∃ callData m',
      s.governance.authorize s.manager.config.address post = .ok callData ∧
        Manager.invoke s.governance.address now callData s.manager = .ok () m' ∧
        after = ⟨s.governance.consume post.digest, m'⟩ := by
  rw [execute, run_get_bind, run_require_bind]
  simp only [run_bind_eq_ok, run_within, run_modify_eq_ok]
  constructor
  · rintro ⟨callData, hcallData, _, _, ⟨m', hinvoke, rfl⟩, rfl⟩
    exact ⟨callData, m', hcallData, hinvoke, rfl⟩
  · rintro ⟨callData, m', hcallData, hinvoke, rfl⟩
    exact ⟨callData, hcallData, (), _, ⟨m', hinvoke, rfl⟩, rfl⟩

/-- **A post that is not carried out** leaves the contract and the manager alone. The key is only
marked when the manager has accepted the call, and a manager that refuses one is as before. -/
theorem execute_atomic (now : Timestamp) (post : SignedPost) : Atomic (execute now post) := by
  refine checks_get.bind_atomic fun contract => (checks_require _).bind_atomic fun callData =>
    Atomic.bind_succeeds (fun s e after h => ?_) fun _ => succeeds_modify _
  exact (Manager.invoke_atomic contract.governance.address now callData).within s rfl h

end Governance

/-! ## §3 Calls -/

/-- The account that an action acts for, and the change of the configuration that it asks for. -/
def Action.instruction? : Action → Option (Address × AdminInstruction)
  | execute caller instruction => some (caller, instruction)
  | register caller address => some (caller, .registerTransceiver address)
  | invoke caller callData =>
    (Wire.decode AdminInstruction.wire callData).toOption.map (caller, ·)
  | govern contract post =>
    (Wire.decode GovernanceMessage.wire post.payload).toOption.bind fun message =>
      (Wire.decode AdminInstruction.wire message.callData).toOption.map (contract.address, ·)
  | _ => none

/-- **What comes of a call** that changes the configuration. -/
inductive Administered (b : Book) (now : Timestamp) (action : Action) : Outcome × Book → Prop where
  | refused {failure : Failure} : Administered b now action (.error failure, b)
  | executed {answer : Answer} {caller : Address} {instruction : AdminInstruction} {m : Manager}
      (hinstruction : action.instruction? = some (caller, instruction))
      (hanswer : answer = .done ∨ ∃ id, answer = .registered id)
      (hexecutes : b.manager.Executes caller now instruction m) :
      Administered b now action (.ok answer, { b with manager := m })

variable {b : Book} {action : Action}

/-- **An operation on the manager** that is atomic succeeds, or leaves the book alone. -/
theorem observe_onManager {α : Type} {operation : Manager.Operation α} (h : Atomic operation)
    (answer : α → Answer) (b : Book) :
    (∃ value m, operation b.manager = .ok value m ∧
      observe answer (Call.onManager operation b) = (.ok (answer value), { b with manager := m })) ∨
    ∃ failure, observe answer (Call.onManager operation b) = (.error failure, b) := by
  cases hresult : Call.onManager operation b with
  | error e left =>
    rw [h.within b rfl hresult]
    exact .inr ⟨.call e, rfl⟩
  | ok value left =>
    obtain ⟨m, hm, rfl⟩ := run_within.mp hresult
    exact .inl ⟨value, m, hm, rfl⟩

/-- **Every call that changes the configuration** carries out the instruction in it, or is
refused. -/
theorem perform_administered (hadmin : action.Administers) (now : Timestamp) (b : Book) :
    Administered b now action (perform now b action) := by
  cases action with
  | execute caller instruction =>
    rw [perform, Call.execute]
    obtain ⟨_, m, hm, hresult⟩ | ⟨failure, hresult⟩ := observe_onManager
      (Manager.execute_atomic caller now instruction) (fun _ => .done) b
    · rw [hresult]
      exact .executed rfl (.inl rfl) (Manager.execute_eq_ok.mp hm)
    · rw [hresult]
      exact .refused
  | register caller address =>
    rw [perform, Call.registerTransceiver]
    obtain ⟨id, m, hm, hresult⟩ | ⟨failure, hresult⟩ := observe_onManager
      (Manager.registerTransceiver_atomic caller address) .registered b
    · have hexecute :
          Manager.execute caller now (.registerTransceiver address) b.manager = .ok () m :=
        run_discard.mpr ⟨id, hm⟩
      rw [hresult]
      exact .executed rfl (.inr ⟨id, rfl⟩) (Manager.execute_eq_ok.mp hexecute)
    · rw [hresult]
      exact .refused
  | invoke caller callData =>
    rw [perform, Call.invoke]
    obtain ⟨_, m, hm, hresult⟩ | ⟨failure, hresult⟩ := observe_onManager
      (Manager.invoke_atomic caller now callData) (fun _ => .done) b
    · obtain ⟨instruction, hdecode, hexecute⟩ := Manager.invoke_eq_ok_iff.mp hm
      have hinstruction : (Action.invoke caller callData).instruction? =
          some (caller, instruction) := by
        simp [Action.instruction?, hdecode, Except.toOption]
      rw [hresult]
      exact .executed hinstruction (.inl rfl) (Manager.execute_eq_ok.mp hexecute)
    · rw [hresult]
      exact .refused
  | govern contract post =>
    rw [perform]
    cases hresult : Governance.execute now post ⟨contract, b.manager⟩ with
    | error e after =>
      rw [Governance.execute_atomic now post _ _ _ hresult]
      exact .refused
    | ok _ after =>
      -- The contract calls like any account, with the bytes that the message carries.
      obtain ⟨callData, m, hauthorize, hm, rfl⟩ := Governance.run_execute.mp hresult
      obtain ⟨instruction, hdecode, hexecute⟩ := Manager.invoke_eq_ok_iff.mp hm
      simp only [Governance.authorize, throw_bind, bind_eq_ok, guard_eq_ok, mapError_eq_ok,
        pure_eq_ok] at hauthorize
      obtain ⟨message, hmessage, _, _, _, _, _, _, _, rfl⟩ := hauthorize
      have hinstruction : (Action.govern contract post).instruction? =
          some (contract.address, instruction) := by
        simp [Action.instruction?, hmessage, hdecode, Except.toOption]
      exact .executed hinstruction (.inl rfl) (Manager.execute_eq_ok.mp hexecute)
  | transfer | redeem | receive | releaseInbound | releaseOutbound | publish | cancelOutbound
  | external => exact hadmin.elim

end CrossChain
