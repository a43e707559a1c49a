import CrossChain.Proofs.Atomicity

/-!
# Governance carries out each message once

A governance contract and the manager that it governs are two machines. Posts of any content
arrive at the contract in any order and any number of times, and between them anything may happen
to the manager without the contract. Whatever happens, a post is carried out exactly when it is
authentic, was not carried out before, and asks for something that the manager allows the contract
to do at that moment. A post that the manager refuses is not used up.

## Main statements

* `Governance.execute_eq_ok`: when one post is carried out, and what changes.
* `Jurisdiction.isConsumed_run`: the contract has consumed what was carried out, and nothing else.
* `Jurisdiction.executed_once`: runs.
-/

namespace CrossChain

/-! ## §1 One post -/

namespace Governance

variable {g : Governance} {governed : Address} {post : SignedPost} {now : Timestamp}

/-- A post comes from the trusted emitter, and its payload is exactly a message to this contract
on this chain about the governed contract. -/
structure Authentic (g : Governance) (governed : Address) (post : SignedPost)
    (message : GovernanceMessage) : Prop where
  payload : Wire.decode GovernanceMessage.wire post.payload = .ok message
  moduleTag : message.moduleTag = GovernanceMessage.generalModule
  action : message.action = 1
  chain : message.chain = g.chain
  contract : message.governanceContract = g.address
  emitter : post.emitterChain = g.trustedChain ∧ post.emitter = g.trustedEmitter
  governed : message.governedContract = governed

/-- The call data of a message is exactly an instruction that a manager accepts from an account;
`m'` is the manager after it. -/
def Accepted (m : Manager) (caller : Address) (now : Timestamp) (callData : Bytes)
    (m' : Manager) : Prop :=
  ∃ instruction, Wire.decode AdminInstruction.wire callData = .ok instruction ∧
    Manager.execute caller now instruction m = .ok () m'

theorem authorize_eq_ok {callData : Bytes} :
    g.authorize governed post = .ok callData ↔
      ∃ message, g.Authentic governed post message ∧ g.isConsumed post.digest = false ∧
        callData = message.callData := by
  simp only [authorize, throw_bind, bind_eq_ok, mapError_eq_ok, guard_eq_ok, pure_eq_ok, not_not,
    Bool.not_eq_true, Bool.or_eq_false_iff, decide_eq_false_iff_not]
  constructor
  · intro h
    obtain ⟨message, hpayload, hmodule, haction, hchain, hemitter, hcontract, hfresh, hgoverned,
      hcallData⟩ := h
    exact ⟨message, ⟨hpayload, hmodule, haction, hchain, hcontract, hemitter, hgoverned⟩, hfresh,
      hcallData.symm⟩
  · intro h
    obtain ⟨message, hauthentic, hfresh, hcallData⟩ := h
    exact ⟨message, hauthentic.payload, hauthentic.moduleTag, hauthentic.action, hauthentic.chain,
      hauthentic.emitter, hauthentic.contract, hfresh, hauthentic.governed, hcallData.symm⟩

/-- The checks of the contract itself fail for reasons of its own. -/
theorem authorize_ne_dispatch {e : CallError} :
    g.authorize governed post ≠ .error (.dispatch e) := by
  intro h
  cases hpayload : Wire.decode GovernanceMessage.wire post.payload with
  | error failure => simp [authorize, hpayload, Except.mapError, bind, Except.bind] at h
  | ok message =>
    have hmessage : Except.mapError GovernanceError.wire (.ok message) =
        (pure message : Except GovernanceError GovernanceMessage) := rfl
    simp only [authorize, hpayload, hmessage, pure_bind, throw_bind, guard_eq_error, reduceCtorEq,
      and_false, false_or] at h
    cases h.2.2.2.2.2.2.2

theorem invoke_eq_ok {m m' : Manager} {caller : Address} {callData : Bytes} :
    Manager.invoke caller now callData m = .ok () m' ↔ Accepted m caller now callData m' :=
  Manager.invoke_eq_ok_iff

theorem isConsumed_consume {digest other : Digest} :
    (g.consume digest).isConsumed other = true ↔ other = digest ∨ g.isConsumed other = true :=
  SortedMap.contains_insert

/-- **One post** is carried out exactly when it is authentic, was not carried out before, and the
manager accepts what it asks for from the contract. -/
theorem execute_eq_ok {s after : Governed} :
    execute now post s = .ok () after ↔
      ∃ message m', s.governance.Authentic s.manager.config.address post message ∧
        s.governance.isConsumed post.digest = false ∧
        Accepted s.manager s.governance.address now message.callData m' ∧
        after = ⟨s.governance.consume post.digest, m'⟩ := by
  rw [run_execute]
  constructor
  · intro h
    obtain ⟨callData, m', hauthorize, hinvoke, rfl⟩ := h
    obtain ⟨message, hauthentic, hfresh, rfl⟩ := authorize_eq_ok.mp hauthorize
    exact ⟨message, m', hauthentic, hfresh, invoke_eq_ok.mp hinvoke, rfl⟩
  · intro h
    obtain ⟨message, m', hauthentic, hfresh, haccepted, rfl⟩ := h
    exact ⟨message.callData, m', authorize_eq_ok.mpr ⟨message, hauthentic, hfresh, rfl⟩,
      invoke_eq_ok.mpr haccepted, rfl⟩

end Governance

/-! ## §2 Runs -/

/-- A governance contract, and the book of the manager that it governs. -/
structure Jurisdiction where
  contract : Governance
  book : Book

namespace Jurisdiction

/-- What happens to a contract and the manager that it governs. -/
inductive Event where
  /-- A post arrives at the contract. -/
  | deliver (now : Timestamp) (post : SignedPost)
  /-- Something happens to the manager or its token without the contract. -/
  | other (event : CrossChain.Event)

/-- A post arrives at the contract. -/
def deliver (j : Jurisdiction) (now : Timestamp) (post : SignedPost) :
    Except GovernanceError Unit × Jurisdiction :=
  match Governance.execute now post ⟨j.contract, j.book.manager⟩ with
  | .ok _ after => (.ok (), ⟨after.governance, { j.book with manager := after.manager }⟩)
  | .error e after => (.error e, ⟨after.governance, { j.book with manager := after.manager }⟩)

/-- The contract and the book after an event. -/
def after (j : Jurisdiction) : Event → Jurisdiction
  | .deliver now post => (j.deliver now post).2
  | .other event => { j with book := (j.book.step event).after }

/-- The contract and the book after a list of events. -/
def run (j : Jurisdiction) : List Event → Jurisdiction
  | [] => j
  | event :: rest => (j.after event).run rest

/-- The key of the post that an event carries out. -/
def executed? (j : Jurisdiction) : Event → Option Digest
  | .deliver now post => if (j.deliver now post).1.toBool then some post.digest else none
  | .other _ => none

/-- The keys of the posts that a list of events carries out, in order. -/
def executed (j : Jurisdiction) : List Event → List Digest
  | [] => []
  | event :: rest => (j.executed? event).toList ++ (j.after event).executed rest

variable {j : Jurisdiction} {now : Timestamp} {post : SignedPost} {event : Event}

/-! ### Steps -/

theorem deliver_ok (h : (j.deliver now post).1 = .ok ()) :
    ∃ message, j.contract.Authentic j.book.manager.config.address post message ∧
      j.contract.isConsumed post.digest = false ∧
      Governance.Accepted j.book.manager j.contract.address now message.callData
        (j.deliver now post).2.book.manager ∧
      (j.deliver now post).2.contract = j.contract.consume post.digest ∧
      (j.deliver now post).2.book.token = j.book.token := by
  simp only [deliver] at h ⊢
  cases hresult : Governance.execute now post ⟨j.contract, j.book.manager⟩ with
  | error e after => simp [hresult] at h
  | ok u after =>
    obtain ⟨message, m', hauthentic, hfresh, haccepted, rfl⟩ := Governance.execute_eq_ok.mp hresult
    exact ⟨message, hauthentic, hfresh, haccepted, rfl, rfl⟩

theorem deliver_error {e : GovernanceError} (h : (j.deliver now post).1 = .error e) :
    (j.deliver now post).2 = j := by
  simp only [deliver] at h ⊢
  cases hresult : Governance.execute now post ⟨j.contract, j.book.manager⟩ with
  | ok u after => simp [hresult] at h
  | error failure after => rw [Governance.execute_atomic now post _ _ _ hresult]

/-- A post that the manager refuses is authentic, and was not carried out before. -/
theorem deliver_dispatch {e : CallError} (h : (j.deliver now post).1 = .error (.dispatch e)) :
    ∃ message, j.contract.Authentic j.book.manager.config.address post message ∧
      j.contract.isConsumed post.digest = false := by
  cases hcall : j.contract.authorize j.book.manager.config.address post with
  | error failure =>
    have hrefused : (j.deliver now post).1 = .error failure := by
      rw [deliver, Governance.execute, run_get_bind, hcall]
      rfl
    cases h.symm.trans hrefused
    exact absurd hcall Governance.authorize_ne_dispatch
  | ok callData =>
    obtain ⟨message, hauthentic, hfresh, _⟩ := Governance.authorize_eq_ok.mp hcall
    exact ⟨message, hauthentic, hfresh⟩

theorem deliver_eq_ok :
    (j.deliver now post).1 = .ok () ↔
      ∃ message m', j.contract.Authentic j.book.manager.config.address post message ∧
        j.contract.isConsumed post.digest = false ∧
        Governance.Accepted j.book.manager j.contract.address now message.callData m' := by
  constructor
  · intro h
    obtain ⟨message, hauthentic, hfresh, haccepted, _⟩ := deliver_ok h
    exact ⟨message, _, hauthentic, hfresh, haccepted⟩
  · intro h
    obtain ⟨message, m', hauthentic, hfresh, haccepted⟩ := h
    have hresult := Governance.execute_eq_ok (s := ⟨j.contract, j.book.manager⟩).mpr
      ⟨message, m', hauthentic, hfresh, haccepted, rfl⟩
    simp only [deliver, hresult]

/-- What no event changes: the address and the chain of the contract, the emitter that it trusts,
and the address of the manager. -/
structure Akin (j j' : Jurisdiction) : Prop where
  contract : ∃ consumed, j'.contract = { j.contract with consumed }
  manager : j'.book.manager.config.address = j.book.manager.config.address

/-- **An event** carries out a post that was not consumed and consumes it, or leaves the contract
alone. -/
theorem after_cases (j : Jurisdiction) (event : Event) :
    (j.executed? event = none ∧ (j.after event).contract = j.contract) ∨
      ∃ digest, j.executed? event = some digest ∧ j.contract.isConsumed digest = false ∧
        (j.after event).contract = j.contract.consume digest := by
  cases event with
  | other event => exact .inl ⟨rfl, rfl⟩
  | deliver now post =>
    cases hresult : (j.deliver now post).1 with
    | error e =>
      refine .inl ⟨?_, ?_⟩
      · simp [executed?, hresult, Except.toBool]
      · rw [after, deliver_error hresult]
    | ok u =>
      obtain ⟨message, _, hfresh, _, hcontract, _⟩ := deliver_ok hresult
      refine .inr ⟨post.digest, ?_, hfresh, hcontract⟩
      simp [executed?, hresult, Except.toBool]

theorem address_after (j : Jurisdiction) (event : Event) :
    (j.after event).book.manager.config.address = j.book.manager.config.address := by
  cases event with
  | other event => exact (j.book.step_transition event).akin.address
  | deliver now post =>
    cases hresult : (j.deliver now post).1 with
    | error e => rw [after, deliver_error hresult]
    | ok u =>
      obtain ⟨_, _, _, ⟨instruction, _, hexecute⟩, _⟩ := deliver_ok hresult
      exact (Manager.execute_eq_ok.mp hexecute).configures.config.address

theorem akin_after (j : Jurisdiction) (event : Event) : j.Akin (j.after event) := by
  refine ⟨?_, j.address_after event⟩
  rcases j.after_cases event with ⟨_, hcontract⟩ | ⟨digest, _, _, hcontract⟩
  · exact ⟨j.contract.consumed, hcontract⟩
  · exact ⟨j.contract.consumed.insert digest (), hcontract⟩

/-! ### Invariants -/

theorem akin_run (j : Jurisdiction) (events : List Event) : j.Akin (j.run events) := by
  induction events generalizing j with
  | nil => exact ⟨⟨j.contract.consumed, rfl⟩, rfl⟩
  | cons event rest ih =>
    obtain ⟨⟨consumed, hfirst⟩, haddress⟩ := j.akin_after event
    obtain ⟨⟨consumed', hrest⟩, haddress'⟩ := ih (j.after event)
    refine ⟨⟨consumed', ?_⟩, haddress'.trans haddress⟩
    rw [run, hrest, hfirst]

/-- Helper: what is consumed after an event. -/
private theorem isConsumed_after (j : Jurisdiction) (event : Event) (digest : Digest) :
    (j.after event).contract.isConsumed digest = true ↔
      j.contract.isConsumed digest = true ∨ digest ∈ (j.executed? event).toList := by
  rcases j.after_cases event with ⟨hnone, hcontract⟩ | ⟨done, hdone, _, hcontract⟩
  · simp [hnone, hcontract]
  · rw [hcontract, hdone, Governance.isConsumed_consume, Option.toList_some, List.mem_singleton,
      or_comm]

/-- **The contract has consumed** what it had consumed before a run, and what the run carried
out. -/
theorem isConsumed_run (j : Jurisdiction) (events : List Event) (digest : Digest) :
    (j.run events).contract.isConsumed digest = true ↔
      j.contract.isConsumed digest = true ∨ digest ∈ j.executed events := by
  induction events generalizing j with
  | nil => simp [run, executed]
  | cons event rest ih => rw [run, ih, isConsumed_after, executed, List.mem_append, or_assoc]

/-- No run carries out a post that was consumed before. -/
theorem not_mem_executed (j : Jurisdiction) (events : List Event) {digest : Digest}
    (hconsumed : j.contract.isConsumed digest = true) : digest ∉ j.executed events := by
  induction events generalizing j with
  | nil => exact List.not_mem_nil
  | cons event rest ih =>
    have hrest := ih (j.after event) ((isConsumed_after j event digest).mpr (.inl hconsumed))
    rw [executed, List.mem_append, not_or]
    refine ⟨?_, hrest⟩
    rcases j.after_cases event with ⟨hnone, _⟩ | ⟨done, hdone, hfresh, _⟩
    · simp [hnone]
    · rw [hdone, Option.toList_some, List.mem_singleton]
      intro hsame
      subst hsame
      cases hconsumed.symm.trans hfresh

theorem nodup_executed (j : Jurisdiction) (events : List Event) : (j.executed events).Nodup := by
  induction events generalizing j with
  | nil => exact List.nodup_nil
  | cons event rest ih =>
    rw [executed]
    rcases j.after_cases event with ⟨hnone, _⟩ | ⟨done, hdone, _, hcontract⟩
    · rw [hnone]
      exact ih _
    · -- What was just carried out is consumed, so nothing later carries it out.
      have hconsumed : (j.after event).contract.isConsumed done = true := by
        rw [hcontract]
        exact Governance.isConsumed_consume.mpr (.inl rfl)
      rw [hdone]
      exact List.nodup_cons.mpr ⟨not_mem_executed _ rest hconsumed, ih _⟩

/-- Helper: what is authentic stays so. -/
private theorem authentic_run (j : Jurisdiction) (events : List Event) (post : SignedPost)
    (message : GovernanceMessage) :
    (j.run events).contract.Authentic (j.run events).book.manager.config.address post message ↔
      j.contract.Authentic j.book.manager.config.address post message := by
  obtain ⟨⟨consumed, hcontract⟩, hmanager⟩ := j.akin_run events
  rw [hcontract, hmanager]
  constructor
  · exact fun h => ⟨h.1, h.2, h.3, h.4, h.5, h.6, h.7⟩
  · exact fun h => ⟨h.1, h.2, h.3, h.4, h.5, h.6, h.7⟩

theorem deliver_run_eq_ok (j : Jurisdiction) (events : List Event) (now : Timestamp)
    (post : SignedPost) :
    ((j.run events).deliver now post).1 = .ok () ↔
      ∃ message m', j.contract.Authentic j.book.manager.config.address post message ∧
        (j.run events).contract.isConsumed post.digest = false ∧
        Governance.Accepted (j.run events).book.manager j.contract.address now message.callData
          m' := by
  obtain ⟨⟨consumed, hcontract⟩, _⟩ := j.akin_run events
  have haddress : (j.run events).contract.address = j.contract.address := by rw [hcontract]
  rw [deliver_eq_ok]
  simp only [authentic_run, haddress]

/-- **A post that the manager refused** is not used up: later it is carried out as soon as the
manager accepts it, unless another post with its key was carried out before that. -/
theorem deliver_after_dispatch (j : Jurisdiction) {events more : List Event} {e : CallError}
    (h : ((j.run events).deliver now post).1 = .error (.dispatch e))
    (hfresh : post.digest ∉ j.executed (events ++ more)) (later : Timestamp) :
    ((j.run (events ++ more)).deliver later post).1 = .ok () ↔
      ∃ message m', Wire.decode GovernanceMessage.wire post.payload = .ok message ∧
        Governance.Accepted (j.run (events ++ more)).book.manager j.contract.address later
          message.callData m' := by
  obtain ⟨message, hauthentic, hunused⟩ := deliver_dispatch h
  rw [authentic_run] at hauthentic
  have hunused' : (j.run (events ++ more)).contract.isConsumed post.digest = false := by
    apply Bool.eq_false_of_not_eq_true
    intro hconsumed
    rcases (j.isConsumed_run _ _).mp hconsumed with hbefore | hsince
    · have hused := (j.isConsumed_run events _).mpr (.inl hbefore)
      cases hused.symm.trans hunused
    · exact hfresh hsince
  rw [deliver_run_eq_ok]
  constructor
  · intro h
    obtain ⟨message, m', hpost, _, haccepted⟩ := h
    exact ⟨message, m', hpost.payload, haccepted⟩
  · intro h
    obtain ⟨found, m', hfound, haccepted⟩ := h
    cases hauthentic.payload.symm.trans hfound
    exact ⟨message, m', hauthentic, hunused', haccepted⟩

/-- **Each message is carried out once, and only if it is authentic.** After any events, a post
that arrives at the contract is carried out if and only if

* its payload is exactly a message of the right kind to this contract on this chain about this
  manager, and it comes from the trusted emitter;
* its key is not consumed: the consumed keys are those of the beginning and those of the posts
  that were carried out since;
* its call data is exactly an instruction that the manager accepts from the contract.

Then the manager is as after that instruction, the contract has consumed this key besides the
others, and nothing else has changed. Otherwise nothing changes, and a post that only the manager
refused is carried out later if the manager accepts it then. No key is carried out twice, and none
that was consumed in the beginning. -/
theorem executed_once (j : Jurisdiction) (events : List Event) :
    (∀ (now : Timestamp) (post : SignedPost),
      ((j.run events).deliver now post).1 = .ok () ↔
        ∃ message m', j.contract.Authentic j.book.manager.config.address post message ∧
          (j.run events).contract.isConsumed post.digest = false ∧
          Governance.Accepted (j.run events).book.manager j.contract.address now message.callData
            m') ∧
      (∀ (now : Timestamp) (post : SignedPost), ((j.run events).deliver now post).1 = .ok () →
        ∃ message, Wire.decode GovernanceMessage.wire post.payload = .ok message ∧
          Governance.Accepted (j.run events).book.manager j.contract.address now message.callData
            ((j.run events).deliver now post).2.book.manager ∧
          ((j.run events).deliver now post).2.book.token = (j.run events).book.token ∧
          (∃ consumed, ((j.run events).deliver now post).2.contract =
            { j.contract with consumed }) ∧
          ∀ digest, ((j.run events).deliver now post).2.contract.isConsumed digest = true ↔
            digest = post.digest ∨ (j.run events).contract.isConsumed digest = true) ∧
      (∀ (now : Timestamp) (post : SignedPost) (e : GovernanceError),
        ((j.run events).deliver now post).1 = .error e →
          ((j.run events).deliver now post).2 = j.run events) ∧
      (∀ (now later : Timestamp) (post : SignedPost) (e : CallError) (more : List Event),
        ((j.run events).deliver now post).1 = .error (.dispatch e) →
          post.digest ∉ j.executed (events ++ more) →
          (((j.run (events ++ more)).deliver later post).1 = .ok () ↔
            ∃ message m', Wire.decode GovernanceMessage.wire post.payload = .ok message ∧
              Governance.Accepted (j.run (events ++ more)).book.manager j.contract.address later
                message.callData m')) ∧
      (∀ digest, (j.run events).contract.isConsumed digest = true ↔
        j.contract.isConsumed digest = true ∨ digest ∈ j.executed events) ∧
      (j.executed events).Nodup ∧
      ∀ digest ∈ j.executed events, j.contract.isConsumed digest = false := by
  -- Nothing of the contract but its consumed keys changes over a run.
  obtain ⟨⟨consumed, hcontract⟩, _⟩ := j.akin_run events
  have haddress : (j.run events).contract.address = j.contract.address := by rw [hcontract]
  refine ⟨j.deliver_run_eq_ok events, ?_, fun _ _ _ h => deliver_error h,
    fun _ later _ _ _ h hfresh => j.deliver_after_dispatch h hfresh later,
    j.isConsumed_run events, j.nodup_executed events, ?_⟩
  · intro now post h
    obtain ⟨message, hpost, _, haccepted, hafter, htoken⟩ := deliver_ok h
    refine ⟨message, hpost.payload, haddress ▸ haccepted, htoken, ?_, fun digest => ?_⟩
    · refine ⟨(j.run events).contract.consumed.insert post.digest (), ?_⟩
      rw [hafter, hcontract]
      rfl
    · rw [hafter]
      exact Governance.isConsumed_consume
  · -- A key that is consumed in the beginning stays so, and no post with it is carried out.
    intro digest hdigest
    apply Bool.eq_false_of_not_eq_true
    intro hconsumed
    exact j.not_mem_executed events hconsumed hdigest

end Jurisdiction

namespace Sample

/-- The contract, and the manager on the first chain, which it does not own yet. -/
def office : Jurisdiction := ⟨bystander, home⟩

/-- The request to pause arrives, then the contract becomes the owner, and the request arrives
twice more. -/
def officeEvents : List Jurisdiction.Event :=
  [.deliver 1 pausePost,
   .other ⟨2, .execute (address 9) (.transferOwnership (address 40))⟩,
   .other ⟨3, .execute (address 40) .claimOwnership⟩,
   .deliver 4 pausePost,
   .deliver 5 pausePost]

/-- The request is refused at first, carried out when the contract owns the manager, and never
again. -/
theorem pause_executed_once :
    (office.deliver 1 pausePost).1 = .error (.dispatch .invalidOwner) ∧
      ((office.run (officeEvents.take 3)).deliver 4 pausePost).1 = .ok () ∧
      ((office.run (officeEvents.take 4)).deliver 5 pausePost).1 ≠ .ok () := by
  have hrefused : (office.deliver 1 pausePost).1 = .error (.dispatch .invalidOwner) := rfl
  obtain ⟨_, _, _, hlater, _⟩ := office.executed_once []
  have hnone : office.executed (officeEvents.take 3) = [] := rfl
  have haccepted :
      Governance.Accepted (office.run (officeEvents.take 3)).book.manager (address 40) 4
        pauseRequest.callData _ := ⟨.setPaused true, by decide +kernel, rfl⟩
  have hcarried := (hlater 1 4 pausePost .invalidOwner (officeEvents.take 3) hrefused
    (by rw [List.nil_append, hnone]; exact List.not_mem_nil)).mpr
    ⟨pauseRequest, _, by decide +kernel, haccepted⟩
  refine ⟨hrefused, hcarried, ?_⟩
  intro hagain
  -- The key is consumed by now, as the first clause and the second one say.
  obtain ⟨_, hconsumes, _⟩ := office.executed_once (officeEvents.take 3)
  obtain ⟨hdecides, _⟩ := office.executed_once (officeEvents.take 4)
  obtain ⟨_, _, _, _, _, hconsumed⟩ := hconsumes 4 pausePost hcarried
  obtain ⟨_, _, _, hunused, _⟩ := (hdecides 5 pausePost).mp hagain
  have hused : (office.run (officeEvents.take 4)).contract.isConsumed pausePost.digest = true :=
    (hconsumed _).mpr (.inl rfl)
  cases hused.symm.trans hunused

end Sample

end CrossChain
