import CrossChain.Manager.Create
import CrossChain.Proofs.LimitChange
import CrossChain.Proofs.Trimming

/-!
# What settings deploy

A manager that is deployed from settings is configured by the calls that its owner would make: the
transceivers are registered, the peers are set, then the threshold, then the pause. Each of the
calls looks at what the calls before it left. A transceiver that is listed twice is enabled again,
the second entry for a chain replaces the peer and cuts its limit off, and the threshold that may be
set depends on who was registered. The document does not show any of this, so it has to be said what
a document comes to: which documents are accepted, and what manager they give.

Each of the two loops keeps an equation for the whole manager, in terms of the entries that it has
been through.

## Main statements

* `Yields`: when a computation succeeds and with what, and how this goes through a loop.
* `Manager.execute_register_yields`, `Manager.execute_setPeer_yields`: one entry.
* `Manager.deploy_yields`: all of them.
* `Manager.deployment_laws`: which settings can be deployed, what they give, and which order of the
  peers matters.
-/

namespace CrossChain

/-! ## §1 Computations that may fail -/

/-- A computation succeeds exactly if something is admissible, and then its result has a
property. -/
structure Yields {ε α : Type} (x : Except ε α) (admissible : Prop) (post : α → Prop) : Prop where
  ok_iff : (∃ a, x = .ok a) ↔ admissible
  post : ∀ a, x = .ok a → post a

namespace Yields

variable {ε α β σ : Type} {x : Except ε α} {f : α → Except ε β} {admissible also : Prop}
  {post : α → Prop} {a : α} {e : ε}

theorem of_eq_ok (hx : x = .ok a) (hadmissible : admissible) (hpost : post a) :
    Yields x admissible post := by
  subst hx
  refine ⟨iff_of_true ⟨a, rfl⟩ hadmissible, ?_⟩
  intro other hother
  cases hother
  exact hpost

theorem of_eq_error (hx : x = .error e) (hnot : ¬ admissible) : Yields x admissible post := by
  subst hx
  exact ⟨iff_of_false (fun ⟨_, h⟩ => nomatch h) hnot, fun _ h => nomatch h⟩

theorem mono {post' : α → Prop} (h : Yields x admissible post) (hiff : admissible ↔ also)
    (hpost : ∀ a, post a → post' a) : Yields x also post' :=
  ⟨h.ok_iff.trans hiff, fun a ha => hpost a (h.post a ha)⟩

theorem bind (result : β → Prop) (h : Yields x admissible post)
    (hf : ∀ a, admissible → post a → Yields (f a) also result) :
    Yields (x >>= f) (admissible ∧ also) result := by
  have hnext {a : α} (hx : x = .ok a) : Yields (f a) also result :=
    hf a (h.ok_iff.mp ⟨a, hx⟩) (h.post a hx)
  -- Both succeed, or the first does and the second does not, or the first fails already.
  constructor
  · simp only [bind_eq_ok]
    constructor
    · rintro ⟨b, a, hx, hb⟩
      exact ⟨h.ok_iff.mp ⟨a, hx⟩, (hnext hx).ok_iff.mp ⟨b, hb⟩⟩
    · rintro ⟨hadmissible, halso⟩
      obtain ⟨a, hx⟩ := h.ok_iff.mpr hadmissible
      obtain ⟨b, hb⟩ := (hnext hx).ok_iff.mpr halso
      exact ⟨b, a, hx, hb⟩
  · intro b hb
    obtain ⟨a, hx, hb⟩ := bind_eq_ok.mp hb
    exact (hnext hx).post b hb

/-- **A loop** whose state is told by the entries that it has been through. -/
theorem foldlM {step : σ → α → Except ε σ} {start : σ} (allowed : List α → Prop)
    (state : List α → σ → Prop) (hnil : allowed []) (hstart : state [] start)
    (hshorter : ∀ done entry, allowed (done ++ [entry]) → allowed done)
    (hstep : ∀ done entry s, allowed done → state done s →
      Yields (step s entry) (allowed (done ++ [entry])) (state (done ++ [entry])))
    (entries : List α) : Yields (entries.foldlM step start) (allowed entries) (state entries) := by
  -- The state is told by what lies behind, so the induction adds entries at the end.
  induction entries using List.reverseRecOn with
  | nil => exact of_eq_ok rfl hnil hstart
  | append_singleton done entry ih =>
    simp only [List.foldlM_append, List.foldlM_cons, List.foldlM_nil, bind_pure]
    exact (ih.bind _ (hstep done entry)).mono (and_iff_right_of_imp (hshorter done entry))
      fun _ h => h

end Yields

/-! ## §2 Transceivers -/

namespace Manager

variable {m m' : Manager} {owner : Address} {now : Timestamp}

/-- The transceivers with some addresses, numbered in the order of the list. -/
def numbered (addresses : List Address) : List Transceiver :=
  addresses.mapIdx fun i address => ⟨UInt8.ofNat i, address⟩

/-- A manager without transceivers after some addresses were registered. -/
def enrolled (m : Manager) (addresses : List Address) (enabled : Bitmap) : Manager :=
  { m with
    config := { m.config with
      nextTransceiver := UInt8.ofNat addresses.eraseDups.length
      threshold := if addresses = [] then 0 else 1
      enabled }
    transceivers := numbered addresses.eraseDups }

theorem map_address_numbered (addresses : List Address) :
    (numbered addresses).map Transceiver.address = addresses := by
  apply List.ext_getElem
  · simp [numbered]
  · simp [numbered]

theorem transceiver?_enrolled_eq_none (m : Manager) {addresses : List Address} (enabled : Bitmap)
    {address : Address} :
    (m.enrolled addresses enabled).transceiver? address = none ↔ address ∉ addresses := by
  have haddresses : (∀ t ∈ numbered addresses.eraseDups, t.address ≠ address) ↔
      address ∉ (numbered addresses.eraseDups).map Transceiver.address := by
    simp
  rw [transceiver?, List.find?_eq_none]
  simp only [decide_eq_true_eq, enrolled]
  rw [haddresses, map_address_numbered, List.mem_eraseDups]

theorem id_lt_of_mem_numbered {addresses : List Address} {t : Transceiver}
    (h : t ∈ numbered addresses) (hlength : addresses.length ≤ 128) :
    t.id.toNat < addresses.length := by
  obtain ⟨i, hi, rfl⟩ := List.mem_mapIdx.mp h
  rw [Bitmap.toNat_ofNat_of_lt (by omega)]
  exact hi

/-- The ids that are given out are the first ones. -/
theorem exists_mem_numbered {addresses : List Address} (hlength : addresses.length ≤ 128)
    {id : UInt8} : (∃ t ∈ numbered addresses, t.id = id) ↔ id.toNat < addresses.length := by
  constructor
  · rintro ⟨t, ht, rfl⟩
    exact id_lt_of_mem_numbered ht hlength
  · intro hid
    refine ⟨_, List.mem_mapIdx.mpr ⟨id.toNat, hid, rfl⟩, ?_⟩
    exact UInt8.ofNat_toNat

/-- Carrying out an instruction on a copy, which is dropped if it is refused. -/
theorem applied_execute_eq_ok {instruction : AdminInstruction} :
    applied (execute owner now instruction) m = .ok m' ↔ m.Executes owner now instruction m' :=
  applied_eq_ok.trans execute_eq_ok

/-- An instruction that is never accepted fails. -/
theorem yields_of_not_executes {instruction : AdminInstruction} {admissible : Prop}
    {post : Manager → Prop} (h : ∀ m', ¬ m.Executes owner now instruction m')
    (hnot : ¬ admissible) : Yields (applied (execute owner now instruction) m) admissible post := by
  cases hresult : applied (execute owner now instruction) m with
  | error e => exact .of_eq_error rfl hnot
  | ok m' => exact absurd (applied_execute_eq_ok.mp hresult) (h m')

/-- What registering some addresses makes of a manager without transceivers. -/
def Enrolled (m : Manager) (addresses : List Address) (m' : Manager) : Prop :=
  ∃ enabled : Bitmap, (∀ id, enabled.Mem id ↔ id.toNat < addresses.eraseDups.length) ∧
    m' = m.enrolled addresses enabled

theorem eraseDups_concat (addresses : List Address) (address : Address) :
    (addresses ++ [address]).eraseDups =
      if address ∈ addresses then addresses.eraseDups else addresses.eraseDups ++ [address] := by
  rw [List.eraseDups_append]
  split
  next hmem => simp [List.removeAll, hmem]
  next hnot => simp [List.removeAll, hnot]; rfl

/-- **One entry**: a new address gets the next id, if there is one left. -/
theorem execute_register_yields {addresses : List Address} {address : Address}
    (howner : m.config.owner = owner) (hlength : addresses.eraseDups.length ≤ 128)
    (h : m.Enrolled addresses m') :
    Yields (applied (execute owner now (.registerTransceiver address)) m')
      ((addresses ++ [address]).eraseDups.length ≤ 128) (m.Enrolled (addresses ++ [address])) := by
  obtain ⟨enabled, henabled, rfl⟩ := h
  have hnext : (UInt8.ofNat addresses.eraseDups.length).toNat = addresses.eraseDups.length :=
    UInt8.toNat_ofNat_of_lt' (lt_of_le_of_lt hlength (by decide))
  by_cases hmem : address ∈ addresses
  · -- It is known, so it keeps the id that it got where it occurred first.
    obtain ⟨known, hknown⟩ := Option.ne_none_iff_exists'.mp
      (mt (transceiver?_enrolled_eq_none m enabled).mp (not_not_intro hmem))
    have hid := id_lt_of_mem_numbered (transceiver?_eq_some hknown).1 hlength
    obtain ⟨enabled', hset⟩ := Bitmap.set?_of_mem ((henabled known.id).mpr hid) enabled true
    refine .of_eq_ok (applied_execute_eq_ok.mpr (.enabledAgain howner hknown hset)) ?_
      ⟨enabled', ?_, ?_⟩
    · rwa [eraseDups_concat, if_pos hmem]
    · intro id
      rw [Bitmap.mem_set? hset, henabled, eraseDups_concat, if_pos hmem]
      -- It is one of those that are enabled already.
      exact or_iff_right_of_imp fun hsame => hsame ▸ hid
    · have hsome : addresses ≠ [] := List.ne_nil_of_mem hmem
      simp [enrolled, withConfig, Config.enable, eraseDups_concat, hmem, hsome]
  · -- It is new, so there is one more address, and one more id is needed.
    have hnew := (transceiver?_enrolled_eq_none m enabled).mpr hmem
    have hgrows : (addresses ++ [address]).eraseDups.length = addresses.eraseDups.length + 1 := by
      rw [eraseDups_concat, if_neg hmem, List.length_append, List.length_singleton]
    rcases Nat.lt_or_eq_of_le hlength with hroom | hfull
    · obtain ⟨enabled', hset⟩ := Bitmap.set?_of_lt (hnext.trans_lt hroom) enabled true
      have hexecutes : (m.enrolled addresses enabled).Executes owner now
          (.registerTransceiver address) _ :=
        .registered howner hnew (hnext.trans_lt hroom)
          (toNat_succ_of_lt (hnext.trans_lt hroom)) hset
      refine .of_eq_ok (applied_execute_eq_ok.mpr hexecutes) ?_ ⟨enabled', ?_, ?_⟩
      · omega
      · -- The next id is the first that was not enabled.
        intro id
        rw [Bitmap.mem_set? hset, henabled, hgrows, ← UInt8.toNat_inj, hnext]
        omega
      · simp [enrolled, Config.enable, eraseDups_concat, hmem, numbered, List.mapIdx_append,
          UInt8.ofNat_add]
    · -- All ids are given out, and the address is not one of those that have one.
      refine yields_of_not_executes (fun m' hexecutes => ?_) (by omega)
      cases hexecutes with
      | enabledAgain _ hknown _ => cases hnew.symm.trans hknown
      | registered _ _ hroom _ _ => exact absurd (hnext.trans hfull) hroom.ne

end Manager

/-! ## §3 Peers -/

namespace TrimmedAmount

/-- An amount of a token in the precision in which it travels between tokens like it. -/
def trimmedOf (amount : UInt64) (decimals : UInt8) : TrimmedAmount :=
  ⟨.ofNat (amount.toNat / 10 ^ cut decimals decimals), commonDecimals decimals decimals⟩

/-- **The decimals of a token** are what decides whether its amounts can be trimmed. -/
theorem trim_self_eq (amount : UInt64) (decimals : UInt8) :
    trim amount decimals decimals =
      if decimals.toNat ≤ 27 then .ok (trimmedOf amount decimals)
      else .error .exponentOverflow := by
  have hcut : 20 ≤ cut decimals decimals ↔ ¬ decimals.toNat ≤ 27 := by
    rw [cut, toNat_commonDecimals]
    omega
  rw [trim_eq, trimmedOf]
  simp only [hcut, ite_not]

end TrimmedAmount

namespace RateLimit

variable {limit : TrimmedAmount} {limits : List TrimmedAmount} {now duration : Timestamp}

/-- What is left of a limit that was not there and is set several times at one moment. -/
def setTo? (limits : List TrimmedAmount) (now duration : Timestamp) : Option RateLimit :=
  match limits.getLast?, (limits.map TrimmedAmount.amount).min? with
  | some last, some least => some ⟨last, ⟨least, last.decimals⟩, now, duration⟩
  | _, _ => none

theorem setTo?_eq_some {r : RateLimit} :
    setTo? limits now duration = some r ↔ ∃ last least, limits.getLast? = some last ∧
      (limits.map TrimmedAmount.amount).min? = some least ∧
      r = ⟨last, ⟨least, last.decimals⟩, now, duration⟩ := by
  unfold setTo?
  cases limits.getLast? <;> cases (limits.map TrimmedAmount.amount).min? <;> simp [eq_comm]

theorem setTo?_eq_none : setTo? limits now duration = none ↔ limits = [] := by
  cases limits with
  | nil => simp [setTo?]
  | cons first rest => simp [setTo?, List.getLast?_cons]

theorem capacityAt_of_setTo? {r : RateLimit} (hduration : 0 < duration.toInt)
    (h : setTo? limits now duration = some r) : r.capacityAt now = r.stored := by
  obtain ⟨last, least, hlast, hleast, rfl⟩ := setTo?_eq_some.mp h
  have hmem : last.amount ∈ limits.map TrimmedAmount.amount :=
    List.mem_map_of_mem (List.mem_of_getLast? hlast)
  exact capacityAt_withCapacity (r := ⟨last, ⟨least, last.decimals⟩, now, duration⟩) hduration
    ((List.min?_eq_some_iff.mp hleast).2 _ hmem) last.decimals now

/-- **One more change** of a limit at the same moment. -/
theorem setLimit_setTo? (now : Timestamp) (hduration : 0 < duration.toInt)
    (hdecimals : ∀ other ∈ limits, other.decimals = limit.decimals) :
    ∃ r, ((setTo? limits now duration).getD (.full limit now duration)).setLimit limit now = .ok r ∧
      setTo? (limits ++ [limit]) now duration = some r := by
  cases hcurrent : setTo? limits now duration with
  | none =>
    -- The first limit for a chain is made full, and cutting a full limit off changes nothing.
    have hself : min limit.amount limit.amount = limit.amount := by
      rw [← UInt64.toNat_inj, Word.toNat_min, Nat.min_self]
    have hsame : (full limit now duration).stored.decimals = limit.decimals := rfl
    rw [Option.getD_none, setLimit_of_decimals hsame, capacityAt_full hduration, hself,
      setTo?_eq_none.mp hcurrent]
    exact ⟨_, rfl, rfl⟩
  | some r =>
    -- No time has passed since the last change, so the least limit is cut off at the new one.
    have hcapacity := capacityAt_of_setTo? hduration hcurrent
    obtain ⟨last, least, hlast, hleast, rfl⟩ := setTo?_eq_some.mp hcurrent
    rw [Option.getD_some, setLimit_of_decimals (hdecimals last (List.mem_of_getLast? hlast)),
      hcapacity]
    refine ⟨_, rfl, setTo?_eq_some.mpr ⟨limit, _, List.getLast?_concat, ?_, rfl⟩⟩
    rw [List.map_append, ← Manager.min?_toList_append, hleast]
    rfl

end RateLimit

/-- A peer that a manager on the given chain can have. -/
structure PeerSettings.Proper (p : PeerSettings) (chain : ChainId) : Prop where
  chain : p.chain ≠ chain
  address : p.address ≠ Address.zero
  tokenDecimals : p.tokenDecimals ≠ 0

namespace PeerSettings

/-- The entries for one chain. -/
def on (entries : List PeerSettings) (chain : ChainId) : List PeerSettings :=
  entries.filter fun p => p.chain = chain

/-- The limits that some entries ask for, in the precision in which amounts travel. -/
def limits (entries : List PeerSettings) (decimals : UInt8) : List TrimmedAmount :=
  entries.map fun p => TrimmedAmount.trimmedOf p.inboundLimit decimals

variable {entries : List PeerSettings} {p : PeerSettings} {chain : ChainId}

theorem on_concat_self : on (entries ++ [p]) p.chain = on entries p.chain ++ [p] := by
  simp [on]

theorem on_concat_of_ne (h : chain ≠ p.chain) : on (entries ++ [p]) chain = on entries chain := by
  simp [on, h.symm]

end PeerSettings

namespace Manager

variable {m m' : Manager} {owner : Address} {now : Timestamp}

/-- What setting some peers makes of a manager without peers: the last entry for a chain is the
peer, and the limit was set by all of them. -/
def Introduced (m : Manager) (now : Timestamp) (entries : List PeerSettings) (m' : Manager) :
    Prop :=
  ∃ (peers : SortedMap ChainId Peer) (inboundLimits : SortedMap ChainId RateLimit),
    (∀ chain, peers.get? chain = (PeerSettings.on entries chain).getLast?.map fun p =>
      ⟨p.address, p.tokenDecimals⟩) ∧
    (∀ chain, inboundLimits.get? chain =
      RateLimit.setTo? (PeerSettings.limits (PeerSettings.on entries chain) m.config.tokenDecimals)
        now m.config.rateLimitDuration) ∧
    m' = { m with peers, inboundLimits }

/-- What one more entry leaves for each chain. -/
theorem introduced_insert {entries : List PeerSettings} {p : PeerSettings}
    {peers : SortedMap ChainId Peer} {inboundLimits : SortedMap ChainId RateLimit} {r : RateLimit}
    (h : m.Introduced now entries { m with peers, inboundLimits })
    (hset : RateLimit.setTo? (PeerSettings.limits (PeerSettings.on entries p.chain)
      m.config.tokenDecimals ++ [.trimmedOf p.inboundLimit m.config.tokenDecimals]) now
        m.config.rateLimitDuration = some r) :
    m.Introduced now (entries ++ [p]) { m with
      peers := peers.insert p.chain ⟨p.address, p.tokenDecimals⟩
      inboundLimits := inboundLimits.insert p.chain r } := by
  obtain ⟨_, _, hpeers, hlimits, hsame⟩ := h
  cases hsame
  -- Both for the peers and for the limits: the chain of the entry, and then the others.
  refine ⟨_, _, ?_, ?_, rfl⟩
  · intro chain
    by_cases hchain : chain = p.chain
    · subst hchain
      rw [SortedMap.get?_insert_self, PeerSettings.on_concat_self, List.getLast?_concat]
      rfl
    · rw [SortedMap.get?_insert_of_ne _ hchain, hpeers, PeerSettings.on_concat_of_ne hchain]
  · intro chain
    by_cases hchain : chain = p.chain
    · subst hchain
      rw [SortedMap.get?_insert_self, PeerSettings.on_concat_self, ← hset]
      simp [PeerSettings.limits]
    · rw [SortedMap.get?_insert_of_ne _ hchain, hlimits, PeerSettings.on_concat_of_ne hchain]

/-- **One entry**: the peer is replaced and its limit cut off. -/
theorem execute_setPeer_yields {entries : List PeerSettings} {p : PeerSettings}
    (howner : m.config.owner = owner) (hduration : 0 < m.config.rateLimitDuration.toInt)
    (hdecimals : m.config.tokenDecimals.toNat ≤ 27)
    (hproper : ∀ q ∈ entries, q.Proper m.config.chain) (h : m.Introduced now entries m') :
    Yields (applied (execute owner now
        (.setPeer ⟨p.chain, p.address, p.inboundLimit, p.tokenDecimals⟩)) m')
      (∀ q ∈ entries ++ [p], q.Proper m.config.chain) (m.Introduced now (entries ++ [p])) := by
  obtain ⟨peers, inboundLimits, _, hlimits, rfl⟩ := id h
  by_cases hp : p.Proper m.config.chain
  · -- All entries for the chain are trimmed to one precision, so the limit can be changed.
    have htrim : TrimmedAmount.trim p.inboundLimit m.config.tokenDecimals m.config.tokenDecimals =
        .ok (.trimmedOf p.inboundLimit m.config.tokenDecimals) := by
      rw [TrimmedAmount.trim_self_eq, if_pos hdecimals]
    have hsame : ∀ other ∈ PeerSettings.limits (PeerSettings.on entries p.chain)
        m.config.tokenDecimals, other.decimals =
          (TrimmedAmount.trimmedOf p.inboundLimit m.config.tokenDecimals).decimals := by
      simp [PeerSettings.limits, TrimmedAmount.trimmedOf]
    obtain ⟨r, hr, hset⟩ := RateLimit.setLimit_setTo? now hduration hsame
    rw [← hlimits] at hr
    refine .of_eq_ok (applied_execute_eq_ok.mpr ?_) ?_ (introduced_insert h hset)
    · exact .setPeer howner hp.chain hp.address hp.tokenDecimals htrim hr
    · exact List.forall_mem_append.mpr ⟨hproper, List.forall_mem_singleton.mpr hp⟩
  · -- The three checks of an entry are all that can fail.
    have hnot : ¬ ∀ q ∈ entries ++ [p], q.Proper m.config.chain :=
      fun hall => hp (hall p List.mem_concat_self)
    refine yields_of_not_executes (fun m' hexecutes => ?_) hnot
    cases hexecutes with
    | setPeer _ hchain haddress hdecimals => exact hp ⟨hchain, haddress, hdecimals⟩

end Manager

/-! ## §4 Settings -/

/-- The addresses of the transceivers that some settings list, each where it occurs first. -/
def DeploymentSettings.addresses (s : DeploymentSettings) : List Address :=
  (s.transceivers.map (·.address)).eraseDups

/-- Settings that can be deployed for a token. -/
structure DeploymentSettings.Admissible (s : DeploymentSettings) (token : Token) : Prop where
  duration : 0 < s.manager.rateLimitDuration.toInt
  decimals : token.decimals.toNat ≤ 27
  transceivers : s.addresses.length ≤ 128
  peers : ∀ p ∈ s.peers, p.Proper s.manager.chain
  threshold : ∀ t, s.threshold = some t → 1 ≤ t.toNat ∧ t.toNat ≤ s.addresses.length

/-- A limit that some settings set, and nothing else: the last of the limits is what it is set to,
and the least of them is what it lets pass. -/
structure RateLimit.SetTo (r : RateLimit) (limits : List TrimmedAmount)
    (now duration : Timestamp) : Prop where
  limit : limits.getLast? = some r.limit
  capacity : (limits.map TrimmedAmount.amount).min? = some (r.capacityAt now).amount
  stored : r.stored = ⟨(r.capacityAt now).amount, r.limit.decimals⟩
  updatedAt : r.updatedAt = now
  duration : r.duration = duration

/-- The manager of a token that some settings give. -/
structure Manager.Deployed (m : Manager) (token : Token) (now : Timestamp)
    (s : DeploymentSettings) : Prop where
  /-- The transceivers are numbered from zero on. -/
  transceivers : m.transceivers =
    s.addresses.mapIdx fun i address => ⟨UInt8.ofNat i, address⟩
  /-- All of them are enabled. -/
  enabled : ∀ id, m.config.enabled.Mem id ↔ ∃ t ∈ m.transceivers, t.id = id
  config : m.config = {
    address := s.manager.address
    owner := s.owner
    pendingOwner := none
    tokenAddress := token.address
    tokenDecimals := token.decimals
    mode := s.manager.mode
    chain := s.manager.chain
    nextTransceiver := UInt8.ofNat s.addresses.length
    threshold := s.threshold.getD (if s.transceivers = [] then 0 else 1)
    enabled := m.config.enabled
    paused := s.paused
    dustPolicy := s.manager.dustPolicy
    rateLimitDuration := s.manager.rateLimitDuration }
  /-- The last entry for a chain is its peer. -/
  peers : ∀ chain, m.peers.get? chain =
    (PeerSettings.on s.peers chain).getLast?.map fun p => ⟨p.address, p.tokenDecimals⟩
  /-- All entries for a chain set its limit. -/
  inboundLimits : ∀ chain, ∃ limits,
    (PeerSettings.on s.peers chain).mapM
      (fun p => TrimmedAmount.trim p.inboundLimit token.decimals token.decimals) = .ok limits ∧
    ∀ r, m.inboundLimits.get? chain = some r ↔ r.SetTo limits now s.manager.rateLimitDuration
  outboundLimit : ∃ limit,
    TrimmedAmount.trim s.manager.limit token.decimals token.decimals = .ok limit ∧
      m.outboundLimit = .full limit now s.manager.rateLimitDuration
  nextSequence : m.nextSequence = 0
  inbox : m.inbox = .empty
  outbox : m.outbox = .empty

namespace Bitmap

/-- The number of members of a set of the first ids. -/
theorem count_of_mem_iff_lt {s : Bitmap} {n : ℕ} (hn : n ≤ 128)
    (h : ∀ id, s.Mem id ↔ id.toNat < n) : s.count = n := by
  have himage : s.members.image UInt8.toNat = Finset.range n := by
    ext i
    simp only [Finset.mem_image, mem_members, h, Finset.mem_range]
    constructor
    · rintro ⟨id, hid, rfl⟩
      exact hid
    · intro hi
      have hnat := toNat_ofNat_of_lt (lt_of_lt_of_le hi hn)
      exact ⟨UInt8.ofNat i, hnat.symm ▸ hi, hnat⟩
  rw [count_eq_card, ← Finset.card_image_of_injective _ fun _ _ => UInt8.toNat_inj.mp, himage,
    Finset.card_range]

end Bitmap

theorem RateLimit.setTo?_eq_some_iff {r : RateLimit} {limits : List TrimmedAmount}
    {now duration : Timestamp} (hduration : 0 < duration.toInt) :
    setTo? limits now duration = some r ↔ r.SetTo limits now duration := by
  constructor
  · intro h
    have hcapacity := capacityAt_of_setTo? hduration h
    obtain ⟨last, least, hlast, hleast, rfl⟩ := setTo?_eq_some.mp h
    refine ⟨hlast, ?_, ?_, rfl, rfl⟩
    · rw [hcapacity]
      exact hleast
    · rw [hcapacity]
  · intro h
    refine setTo?_eq_some.mpr ⟨r.limit, _, h.limit, h.capacity, ?_⟩
    rw [← h.stored, ← h.updatedAt, ← h.duration]

namespace PeerSettings

theorem mapM_trim {entries : List PeerSettings} {decimals : UInt8} (h : decimals.toNat ≤ 27) :
    entries.mapM (fun p => TrimmedAmount.trim p.inboundLimit decimals decimals) =
      .ok (limits entries decimals) := by
  simp only [TrimmedAmount.trim_self_eq, if_pos h]
  induction entries with
  | nil => rfl
  | cons p rest ih =>
    rw [List.mapM_cons, ok_bind, ih]
    rfl

end PeerSettings

namespace Manager

variable {token : Token} {now : Timestamp} {s : DeploymentSettings} {m m' : Manager}
  {owner : Address}

/-- A manager that nobody has used yet. -/
def founded (token : Token) (owner : Address) (now : Timestamp) (settings : ManagerSettings) :
    Manager where
  config := {
    address := settings.address
    owner
    pendingOwner := none
    tokenAddress := token.address
    tokenDecimals := token.decimals
    mode := settings.mode
    chain := settings.chain
    nextTransceiver := 0
    threshold := 0
    enabled := .empty
    paused := false
    dustPolicy := settings.dustPolicy
    rateLimitDuration := settings.rateLimitDuration }
  nextSequence := 0
  outboundLimit := .full (.trimmedOf settings.limit token.decimals) now settings.rateLimitDuration
  peers := .empty
  inboundLimits := .empty
  transceivers := []
  inbox := .empty
  outbox := .empty

theorem create_yields (token : Token) (owner : Address) (now : Timestamp)
    (settings : ManagerSettings) :
    Yields (create token owner now settings)
      (0 < settings.rateLimitDuration.toInt ∧ token.decimals.toNat ≤ 27)
      (· = founded token owner now settings) := by
  have hpos : settings.rateLimitDuration ≤ 0 ↔ ¬ 0 < settings.rateLimitDuration.toInt := by
    rw [Int64.le_iff_toInt_le, not_lt]
    rfl
  unfold create
  -- The duration is looked at first, then the limit is trimmed to the decimals of the token.
  by_cases hduration : settings.rateLimitDuration ≤ 0
  · simp only [if_pos hduration]
    exact .of_eq_error rfl fun h => hpos.mp hduration h.1
  · simp only [if_neg hduration, TrimmedAmount.trim_self_eq]
    by_cases hdecimals : token.decimals.toNat ≤ 27
    · simp only [if_pos hdecimals]
      exact .of_eq_ok rfl ⟨not_not.mp (hpos.not.mp hduration), hdecimals⟩ rfl
    · simp only [if_neg hdecimals]
      exact .of_eq_error rfl fun h => hdecimals h.2

/-- The threshold that is asked for, if any, must be within reach. -/
theorem setThreshold_yields {n : ℕ} (howner : m.config.owner = owner)
    (hcount : m.config.enabled.count = n) (threshold : Option UInt8) :
    Yields ((threshold.map AdminInstruction.setThreshold).toList.foldlM
        (fun m instruction => applied (execute owner now instruction) m) m)
      (∀ t, threshold = some t → 1 ≤ t.toNat ∧ t.toNat ≤ n)
      (· = m.withConfig { m.config with threshold := threshold.getD m.config.threshold }) := by
  cases threshold with
  | none => exact .of_eq_ok rfl (by simp) rfl
  | some t =>
    have hzero : t ≠ 0 ↔ 1 ≤ t.toNat := by
      rw [Nat.one_le_iff_ne_zero, ne_eq, ← UInt8.toNat_inj]
      rfl
    simp only [Option.map_some, Option.toList_some, List.foldlM_cons, List.foldlM_nil, bind_pure,
      Option.some.injEq, forall_eq', Option.getD_some]
    -- The owner calls, so what is left of the checks are the two bounds.
    have hexecute {m' : Manager} : applied (execute owner now (.setThreshold t)) m = .ok m' ↔
        (1 ≤ t.toNat ∧ t.toNat ≤ n) ∧ m' = m.withConfig { m.config with threshold := t } := by
      rw [applied_eq_ok, execute, setThreshold_eq_ok, hzero, hcount]
      exact ⟨fun h => ⟨⟨h.2.1, h.2.2.1⟩, h.2.2.2⟩, fun h => ⟨howner, h.1.1, h.1.2, h.2⟩⟩
    refine ⟨?_, fun m' hm' => (hexecute.mp hm').2⟩
    simp only [hexecute, exists_and_left, exists_eq, and_true]

/-- Who deploys a manager that starts out paused is its owner. -/
theorem setPaused_yields (howner : m.config.owner = owner) (hpaused : m.config.paused = false)
    (paused : Bool) :
    Yields ((if paused then [AdminInstruction.setPaused true] else []).foldlM
        (fun m instruction => applied (execute owner now instruction) m) m)
      True (· = m.withConfig { m.config with paused }) := by
  cases paused with
  | false =>
    -- A new manager runs, so there is nothing to do.
    refine .of_eq_ok rfl trivial ?_
    rw [← hpaused]
    rfl
  | true =>
    refine .of_eq_ok ?_ trivial rfl
    simp only [if_true, List.foldlM_cons, List.foldlM_nil, bind_pure]
    exact applied_execute_eq_ok.mpr (.setPaused howner)

/-- The instructions in the order in which they are given. -/
theorem deployment_eq (s : DeploymentSettings) :
    deployment s = (s.transceivers.map (·.address)).map .registerTransceiver ++
      s.peers.map (fun p => .setPeer ⟨p.chain, p.address, p.inboundLimit, p.tokenDecimals⟩) ++
      (s.threshold.map .setThreshold).toList ++ if s.paused then [.setPaused true] else [] := by
  rw [deployment, List.map_map]
  rfl

/-- **All transceivers**: registering some addresses, from a manager without transceivers on. -/
theorem register_all_yields (now : Timestamp) (howner : m.config.owner = owner)
    (hblank : m = m.enrolled [] .empty) (addresses : List Address) :
    Yields ((addresses.map AdminInstruction.registerTransceiver).foldlM
        (fun m instruction => applied (execute owner now instruction) m) m)
      (addresses.eraseDups.length ≤ 128) (m.Enrolled addresses) := by
  rw [List.foldlM_map]
  -- Which addresses were listed so far tells the whole manager.
  refine Yields.foldlM (fun done => done.eraseDups.length ≤ 128) m.Enrolled (Nat.zero_le _) ?_ ?_ ?_
    addresses
  · exact ⟨.empty, fun id => iff_of_false (Bitmap.not_mem_empty id) (Nat.not_lt_zero _), hblank⟩
  · -- With an address less there are no more of them.
    intro done address hlength
    rw [eraseDups_concat] at hlength
    split at hlength
    next => exact hlength
    next =>
      rw [List.length_append] at hlength
      exact Nat.le_of_add_right_le hlength
  · intro done address m' hlength h
    exact execute_register_yields howner hlength h

/-- **All peers**: setting some peers, from a manager without peers on. -/
theorem setPeer_all_yields (now : Timestamp) (howner : m.config.owner = owner)
    (hduration : 0 < m.config.rateLimitDuration.toInt)
    (hdecimals : m.config.tokenDecimals.toNat ≤ 27) (hpeers : m.peers = .empty)
    (hlimits : m.inboundLimits = .empty) (entries : List PeerSettings) :
    Yields ((entries.map fun p => AdminInstruction.setPeer
          ⟨p.chain, p.address, p.inboundLimit, p.tokenDecimals⟩).foldlM
        (fun m instruction => applied (execute owner now instruction) m) m)
      (∀ q ∈ entries, q.Proper m.config.chain) (m.Introduced now entries) := by
  rw [List.foldlM_map]
  refine Yields.foldlM (fun done => ∀ q ∈ done, q.Proper m.config.chain) (m.Introduced now)
    (fun q hq => nomatch hq) ⟨.empty, .empty, fun _ => rfl, fun _ => rfl, ?_⟩ ?_ ?_ entries
  · rw [← hpeers, ← hlimits]
  · intro done p h
    exact (List.forall_mem_append.mp h).1
  · intro done p m' hproper h
    exact execute_setPeer_yields howner hduration hdecimals hproper h

/-- A new manager after the transceivers were registered and the peers were set. -/
def Connected (token : Token) (now : Timestamp) (s : DeploymentSettings) (m : Manager) : Prop :=
  ∃ m₁, (founded token s.owner now s.manager).Enrolled (s.transceivers.map (·.address)) m₁ ∧
    m₁.Introduced now s.peers m

/-- What is missing after that are the threshold and the pause. -/
theorem Connected.deployed (hduration : 0 < s.manager.rateLimitDuration.toInt)
    (hdecimals : token.decimals.toNat ≤ 27) (hlength : s.addresses.length ≤ 128)
    (h : Connected token now s m) :
    (m.withConfig { m.config with
      threshold := s.threshold.getD m.config.threshold
      paused := s.paused }).Deployed token now s := by
  obtain ⟨_, ⟨enabled, henabled, rfl⟩, peers, limits, hpeers, hlimits, rfl⟩ := h
  -- The manager is known up to the two maps and the set of ids, each told by its lookups.
  exact {
    transceivers := rfl
    enabled := fun id => (henabled id).trans (exists_mem_numbered hlength).symm
    config := by
      simp [withConfig, enrolled, founded, DeploymentSettings.addresses]
    peers := hpeers
    inboundLimits := by
      intro chain
      refine ⟨_, PeerSettings.mapM_trim hdecimals, fun r => ?_⟩
      rw [← RateLimit.setTo?_eq_some_iff hduration]
      exact iff_of_eq (congrArg (· = some r) (hlimits chain))
    outboundLimit := by
      refine ⟨_, ?_, rfl⟩
      rw [TrimmedAmount.trim_self_eq, if_pos hdecimals]
    nextSequence := rfl
    inbox := rfl
    outbox := rfl }

/-- **All instructions**, one kind after the other. -/
theorem deployment_yields (hduration : 0 < s.manager.rateLimitDuration.toInt)
    (hdecimals : token.decimals.toNat ≤ 27) :
    Yields (applied ((deployment s).forM (execute s.owner now))
        (founded token s.owner now s.manager))
      (((s.addresses.length ≤ 128 ∧ ∀ q ∈ s.peers, q.Proper s.manager.chain) ∧
        ∀ t, s.threshold = some t → 1 ≤ t.toNat ∧ t.toNat ≤ s.addresses.length) ∧ True)
      (·.Deployed token now s) := by
  rw [foldlM_applied, deployment_eq, List.foldlM_append, List.foldlM_append, List.foldlM_append]
  -- Transceivers, peers, threshold and pause, each from the manager that the ones before it leave.
  have hregistered := register_all_yields (m := founded token s.owner now s.manager) now rfl rfl
    (s.transceivers.map (·.address))
  refine ((hregistered.bind (Connected token now s) ?_).bind
    (fun m => ∃ m₂, Connected token now s m₂ ∧
      m = m₂.withConfig { m₂.config with threshold := s.threshold.getD m₂.config.threshold })
    ?_).bind _ ?_
  · rintro m₁ _ ⟨enabled, henabled, rfl⟩
    have hset := setPeer_all_yields (m := (founded token s.owner now s.manager).enrolled
      (s.transceivers.map (·.address)) enabled) now rfl hduration hdecimals rfl rfl s.peers
    exact hset.mono Iff.rfl fun m h => ⟨_, ⟨enabled, henabled, rfl⟩, h⟩
  · intro m₂ hadmissible hm₂
    -- Setting peers enables nobody, so the threshold is measured by the addresses.
    obtain ⟨_, ⟨enabled, henabled, rfl⟩, peers, limits, _, _, rfl⟩ := id hm₂
    refine (setThreshold_yields ?_ ?_ s.threshold).mono Iff.rfl fun m hm => ⟨_, hm₂, hm⟩
    · rfl
    · exact Bitmap.count_of_mem_iff_lt hadmissible.1 henabled
  · rintro m₃ hadmissible ⟨m₂, hm₂, rfl⟩
    have hdeployed := hm₂.deployed hduration hdecimals hadmissible.1.1
    obtain ⟨_, ⟨enabled, henabled, rfl⟩, peers, limits, _, _, rfl⟩ := hm₂
    refine (setPaused_yields ?_ ?_ s.paused).mono Iff.rfl fun m hm => hm ▸ hdeployed
    · rfl
    · rfl

/-- **All entries** of the settings. -/
theorem deploy_yields (token : Token) (now : Timestamp) (s : DeploymentSettings) :
    Yields (deploy token now s) (s.Admissible token) (·.Deployed token now s) := by
  have hdeploy : Yields (deploy token now s) (_ ∧ _) (·.Deployed token now s) :=
    (create_yields token s.owner now s.manager).bind _ fun m hfounded hm =>
      hm ▸ deployment_yields hfounded.1 hfounded.2
  refine hdeploy.mono ⟨?_, ?_⟩ fun _ h => h
  · rintro ⟨⟨hduration, hdecimals⟩, ⟨⟨hlength, hpeers⟩, hthreshold⟩, -⟩
    exact ⟨hduration, hdecimals, hlength, hpeers, hthreshold⟩
  · rintro ⟨hduration, hdecimals, hlength, hpeers, hthreshold⟩
    exact ⟨⟨hduration, hdecimals⟩, ⟨⟨hlength, hpeers⟩, hthreshold⟩, trivial⟩

/-! ## §5 The laws -/

namespace Deployed

/-- Settings give no more than one manager. -/
theorem unique (h : m.Deployed token now s) (h' : m'.Deployed token now s) : m = m' := by
  -- Field by field. The sets and maps are equal because they have the same members and lookups.
  have htransceivers : m.transceivers = m'.transceivers :=
    h.transceivers.trans h'.transceivers.symm
  have henabled : m.config.enabled = m'.config.enabled := by
    apply Bitmap.ext_mem
    intro id
    rw [h.enabled, h'.enabled, htransceivers]
  have hconfig : m.config = m'.config := by
    rw [h.config, h'.config, henabled]
  have hpeers : m.peers = m'.peers :=
    SortedMap.ext_get? fun chain => (h.peers chain).trans (h'.peers chain).symm
  have hinbound : m.inboundLimits = m'.inboundLimits := by
    apply SortedMap.ext_get?
    intro chain
    obtain ⟨limits, hlimits, hset⟩ := h.inboundLimits chain
    obtain ⟨limits', hlimits', hset'⟩ := h'.inboundLimits chain
    cases hlimits.symm.trans hlimits'
    exact Option.ext fun r => (hset r).trans (hset' r).symm
  have houtbound : m.outboundLimit = m'.outboundLimit := by
    obtain ⟨limit, hlimit, hfull⟩ := h.outboundLimit
    obtain ⟨limit', hlimit', hfull'⟩ := h'.outboundLimit
    cases hlimit.symm.trans hlimit'
    exact hfull.trans hfull'.symm
  have hsequence := h.nextSequence.trans h'.nextSequence.symm
  have hinbox := h.inbox.trans h'.inbox.symm
  have houtbox := h.outbox.trans h'.outbox.symm
  cases m
  cases m'
  simp only at htransceivers hconfig hpeers hinbound houtbound hsequence hinbox houtbox
  subst htransceivers hconfig hpeers hinbound houtbound hsequence hinbox houtbox
  rfl

/-- The peers matter for each chain alone. -/
theorem reorder {entries : List PeerSettings} (h : m.Deployed token now s)
    (hentries : ∀ chain, PeerSettings.on entries chain = PeerSettings.on s.peers chain) :
    m.Deployed token now { s with peers := entries } where
  transceivers := h.transceivers
  enabled := h.enabled
  config := h.config
  peers chain := by
    rw [h.peers, hentries]
  inboundLimits chain := by
    rw [hentries]
    exact h.inboundLimits chain
  outboundLimit := h.outboundLimit
  nextSequence := h.nextSequence
  inbox := h.inbox
  outbox := h.outbox

end Deployed

/-- Who has an entry for its chain among some peers is one of them. -/
theorem admissible_reorder {entries : List PeerSettings} (h : s.Admissible token)
    (hentries : ∀ chain, PeerSettings.on entries chain = PeerSettings.on s.peers chain) :
    DeploymentSettings.Admissible { s with peers := entries } token where
  duration := h.duration
  decimals := h.decimals
  transceivers := h.transceivers
  peers p hp := by
    have hown : p ∈ PeerSettings.on entries p.chain := List.mem_filter.mpr ⟨hp, by simp⟩
    rw [hentries] at hown
    exact h.peers p (List.mem_of_mem_filter hown)
  threshold := h.threshold

/-- Helper: other entries, the same for each chain. -/
private theorem deploy_reorder {entries : List PeerSettings}
    (hentries : ∀ chain, PeerSettings.on entries chain = PeerSettings.on s.peers chain)
    (h : deploy token now s = .ok m) : deploy token now { s with peers := entries } = .ok m := by
  have hyields := deploy_yields token now s
  have hyields' := deploy_yields token now { s with peers := entries }
  have hadmissible := admissible_reorder (hyields.ok_iff.mp ⟨m, h⟩) hentries
  obtain ⟨m', hm'⟩ := hyields'.ok_iff.mpr hadmissible
  rw [hm', ((hyields.post m h).reorder hentries).unique (hyields'.post m' hm')]

/-- **What settings deploy.** For every token, moment and settings, with entries that occur twice or
contradict each other,

* a manager is deployed if and only if the settings are admissible;
* its transceivers are the addresses in the order in which they occur first, with the ids from zero
  on, and all enabled; the threshold is the one that was asked for, or else one if there are
  transceivers; the peer of each chain is the last entry for it, and its limit was set to the limits
  of all entries for the chain, so that the last is the limit and the least is the capacity; and
  everything else is as the settings say or as a new manager has it;
* entries for different chains can be listed in any order. -/
theorem deployment_laws (token : Token) (now : Timestamp) (s : DeploymentSettings) :
    ((∃ m, deploy token now s = .ok m) ↔ s.Admissible token) ∧
      (∀ m, deploy token now s = .ok m → m.Deployed token now s) ∧
      ∀ entries : List PeerSettings,
        (∀ chain, PeerSettings.on entries chain = PeerSettings.on s.peers chain) →
        ∀ m, deploy token now { s with peers := entries } = .ok m ↔ deploy token now s = .ok m := by
  have hyields := deploy_yields token now s
  refine ⟨hyields.ok_iff, hyields.post, fun entries hentries m => ?_⟩
  constructor
  · intro h
    exact deploy_reorder (s := { s with peers := entries }) (fun chain => (hentries chain).symm) h
  · intro h
    exact deploy_reorder hentries h

end Manager

namespace Sample

/-- One transceiver is listed twice, and there are two entries for one chain. -/
def repetitive : DeploymentSettings where
  owner := address 9
  manager := settings 1 .locking
  transceivers := [⟨address 30⟩, ⟨address 31⟩, ⟨address 30⟩]
  peers := [⟨⟨2⟩, address 12, 7, 500⟩, ⟨⟨3⟩, address 13, 9, 300⟩, ⟨⟨2⟩, address 14, 8, 2000⟩]
  threshold := some 2
  paused := true

/-- The same peers in another order. -/
def reordered : List PeerSettings :=
  [⟨⟨3⟩, address 13, 9, 300⟩, ⟨⟨2⟩, address 12, 7, 500⟩, ⟨⟨2⟩, address 14, 8, 2000⟩]

/-- The second transceiver counts for the threshold and the repeated one does not; the second entry
for a chain raises the limit and not the capacity. -/
theorem repetitive_deployed :
    ∃ m, Manager.deploy (token 9) 5 repetitive = .ok m ∧ m.Deployed (token 9) 5 repetitive ∧
      Manager.deploy (token 9) 5 { repetitive with peers := reordered } = .ok m ∧
      (¬ ∃ m', Manager.deploy (token 9) 5 { repetitive with threshold := some 3 } = .ok m') ∧
      m.transceivers = [⟨0, address 30⟩, ⟨1, address 31⟩] ∧
      m.inboundLimits.get? ⟨2⟩ = some ⟨⟨200, 8⟩, ⟨50, 8⟩, 5, 100⟩ := by
  obtain ⟨hiff, hdeployed, horder⟩ := Manager.deployment_laws (token 9) 5 repetitive
  have hadmissible : repetitive.Admissible (token 9) := by
    refine ⟨by decide, by decide, by decide, ?_, ?_⟩
    · have hproper : ∀ p ∈ repetitive.peers,
          p.chain ≠ ⟨1⟩ ∧ p.address ≠ Address.zero ∧ p.tokenDecimals ≠ 0 := by decide
      exact fun p hp => ⟨(hproper p hp).1, (hproper p hp).2.1, (hproper p hp).2.2⟩
    · intro t ht
      cases ht
      decide
  obtain ⟨m, hm⟩ := hiff.mpr hadmissible
  have hm' := hdeployed m hm
  refine ⟨m, hm, hm', (horder reordered ?_ m).mpr hm, ?_, hm'.transceivers, ?_⟩
  · -- Only the entries for the second chain have an order to keep.
    intro chain
    by_cases hchain : chain = ⟨2⟩
    · subst hchain
      rfl
    · simp [PeerSettings.on, repetitive, reordered, List.filter_cons, Ne.symm hchain]
  · -- Three entries are two transceivers.
    have hhigh := (Manager.deployment_laws (token 9) 5 { repetitive with threshold := some 3 }).1
    rw [hhigh]
    intro h
    exact absurd (h.threshold 3 rfl).2 (by decide)
  · obtain ⟨limits, hlimits, hset⟩ := hm'.inboundLimits ⟨2⟩
    cases hlimits.symm.trans (show _ = Except.ok [⟨50, 8⟩, ⟨200, 8⟩] by decide +kernel)
    exact (hset _).mpr ⟨rfl, by decide, by decide, rfl, rfl⟩

end Sample

end CrossChain
