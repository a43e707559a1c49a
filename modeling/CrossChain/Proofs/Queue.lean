import CrossChain.Proofs.Forward

/-!
# What waits in the queue

A transfer that does not fit the limit has already been paid for on the way out, and its quorum is
used up on the way in. What moves it on later has to convert its amount to the precision of two
limits, and perhaps to that of the token, and none of these conversions may fail by then.

What they rely on is remembered nowhere. An outbound amount can be expressed in the precision of
the limits because the sender was charged for it in that of the token, which is no coarser. An
inbound amount has been compared with a capacity when it was queued.

## Main statements

* `RateLimit.Rested`, `Gate.Passes.released_of_rested`: a limit that has rested is full, and lets
  any transfer pass whose time has come.
* `Gate.pass_of_queued`: a transfer that waits can always be moved on.
* `Gate.pass_of_initiated`: a new one is refused for want of room and nothing else.
* `TrimmedAmount.countsIn_of_untrim`, `TrimmedAmount.untrim_of_nominal`: conversions that work out.
* `Manager.QueueCounts.step`: the inbound amounts that wait count in the precision of the limits.
-/

namespace CrossChain

/-! ## §1 Limits and gates -/

/-- A limit has been left alone for its whole duration. -/
def RateLimit.Rested (r : RateLimit) (now : Timestamp) : Prop :=
  r.updatedAt.toInt + r.duration.toInt ≤ now.toInt

/-- **A limit that has rested** is full, however little was stored. -/
theorem RateLimit.Rested.capacityAt_eq {r : RateLimit} {now : Timestamp} (h : r.Rested now)
    (hduration : 0 < r.duration.toInt) : (r.capacityAt now).amount = r.limit.amount := by
  have hregained : (r.limit.amount.toNat : ℤ) ≤ r.regained now := by
    rw [regained, Int.le_ediv_iff_mul_le hduration]
    apply mul_le_mul_of_nonneg_left _ (Int.natCast_nonneg _)
    rw [Rested] at h
    omega
  -- What was regained by itself fills the limit, and the capacity stops there.
  have hcapacity := toNat_capacityAt hduration now
  rw [← UInt64.toNat_inj]
  omega

/-- An amount that can be expressed in a precision, and is something there. -/
def TrimmedAmount.CountsIn (value : TrimmedAmount) (precision : ℕ) : Prop :=
  ∀ decimals : UInt8, decimals.toNat = precision →
    ∃ rescaled, value.changeDecimals decimals = .ok rescaled ∧ rescaled.amount ≠ 0

namespace Gate

variable {gate gate' : Gate} {amount : TrimmedAmount} {now time : Timestamp} {mayQueue : Bool}
  {result : Advance} {precision : ℕ} {duration : Timestamp}

/-- Helper: an amount can be given back to a limit of the precision that it counts in. -/
private theorem giveBack_ok (gate : Gate) (now : Timestamp) (hcounts : amount.CountsIn precision)
    (hback : ∀ limit, gate.backflow = some limit → limit.Regular precision duration) :
    ∃ gate', giveBack amount now gate = .ok () gate' := by
  simp only [giveBack, run_bind, run_get]
  cases hlimit : gate.backflow with
  | none => exact ⟨gate, rfl⟩
  | some limit =>
    obtain ⟨rescaled, hrescaled, _⟩ := hcounts _ (hback limit hlimit).stored
    simp only [RateLimit.refill_eq, hrescaled]
    exact ⟨_, rfl⟩

/-- Helper: the answer of a limit can be acted on, unless the transfer would have to wait and may
not. -/
private theorem settle_ok (gate : Gate) (now : Timestamp) (leave : Bool)
    (answer : Verdict × RateLimit) (hcounts : amount.CountsIn precision)
    (hback : ∀ limit, gate.backflow = some limit → limit.Regular precision duration) :
    (∃ result gate', settle amount now leave (.ok answer) gate = .ok result gate') ∨
      (leave = false ∧ ∃ gate', settle amount now leave (.ok answer) gate =
        .error .transferExceedsRateLimit gate') := by
  obtain ⟨time | time, limit⟩ := answer
  · obtain ⟨gate', hgiven⟩ := giveBack_ok { gate with consumed := limit } now hcounts hback
    simp only [settle, run_bind, run_modify, hgiven, run_pure]
    exact .inl ⟨_, _, rfl⟩
  · cases leave with
    | true => exact .inl ⟨_, _, rfl⟩
    | false => exact .inr ⟨rfl, _, rfl⟩

/-- **A transfer that waits** can always be moved on, if only to wait longer. -/
theorem pass_of_queued (gate : Gate) (now : Timestamp) (hqueued : gate.status = .queued time)
    (hgate : gate.Regular precision duration) (hcounts : amount.CountsIn precision) :
    ∃ result gate', gate.pass amount now true = .ok (result, gate') := by
  suffices h : ∃ result gate', advance amount now true gate = .ok result gate' by
    obtain ⟨result, gate', h⟩ := h
    exact ⟨result, gate', by rw [pass, h]⟩
  simp only [advance, run_bind, run_get, hqueued]
  split
  next => exact ⟨_, _, rfl⟩
  next =>
    obtain ⟨rescaled, hrescaled, _⟩ := hcounts _ hgate.consumed.stored
    rw [RateLimit.consumeQueued_eq, hrescaled, map_ok]
    exact (settle_ok gate now true _ hcounts hgate.backflow).resolve_right (by simp)

/-- **A new transfer** can be moved on, unless it would have to wait and may not. -/
theorem pass_of_initiated (gate : Gate) (now : Timestamp) (mayQueue : Bool)
    (hinitiated : gate.status = .initiated) (hgate : gate.Regular precision duration)
    (hcounts : amount.CountsIn precision) :
    (∃ result gate', gate.pass amount now mayQueue = .ok (result, gate')) ∨
      gate.pass amount now mayQueue = .error .transferExceedsRateLimit := by
  obtain ⟨rescaled, hrescaled, _⟩ := hcounts _ hgate.consumed.stored
  obtain ⟨answer, hanswer⟩ : ∃ answer, advance amount now mayQueue gate =
      settle amount now mayQueue (.ok answer) gate := by
    simp only [advance, run_bind, run_get, hinitiated]
    rw [RateLimit.consume_eq, hrescaled, map_ok]
    exact ⟨_, rfl⟩
  rcases settle_ok gate now mayQueue answer hcounts hgate.backflow with
    ⟨result, gate', hsettled⟩ | ⟨_, gate', hrefused⟩
  · exact .inl ⟨result, gate', by rw [pass, hanswer, hsettled]⟩
  · exact .inr (by rw [pass, hanswer, hrefused])

/-- **A limit that has rested** lets every transfer pass whose time has come, even one above the
limit. -/
theorem Passes.released_of_rested (h : gate.Passes amount now mayQueue result gate')
    (hqueued : gate.status = .queued time) (htime : time ≤ now)
    (hduration : 0 < gate.consumed.duration.toInt) (hrested : gate.consumed.Rested now) :
    result = .released := by
  cases h with
  | already hreleased => cases hqueued.symm.trans hreleased
  | early hsame hearly =>
    cases hqueued.symm.trans hsame
    exact absurd hearly (Int64.not_lt.mpr htime)
  | delayed hask =>
    rcases hask with ⟨hinitiated, _⟩ | ⟨_, _, _, hconsume⟩
    · cases hqueued.symm.trans hinitiated
    · -- A full limit delays nothing that has waited.
      rw [RateLimit.consumeQueued_eq, map_eq_ok] at hconsume
      obtain ⟨rescaled, _, hconsume⟩ := hconsume
      rw [if_pos (hrested.capacityAt_eq hduration)] at hconsume
      split at hconsume <;> cases hconsume
  | passed => rfl

/-- An amount that a limit had no room for counts in the precision of the limit. -/
theorem Asks.countsIn {limit : RateLimit} (h : gate.Asks amount now (.delayed time, limit))
    (hregular : gate.consumed.Regular precision duration) : amount.CountsIn precision := by
  have hcounts {rescaled : TrimmedAmount}
      (hrescaled : amount.changeDecimals gate.consumed.stored.decimals = .ok rescaled)
      (habove : ¬ rescaled.amount ≤ (gate.consumed.capacityAt now).amount) :
      amount.CountsIn precision := by
    intro decimals hdecimals
    have hsame : decimals = gate.consumed.stored.decimals := by
      rw [← UInt8.toNat_inj, hdecimals, hregular.stored]
    subst hsame
    refine ⟨rescaled, hrescaled, ?_⟩
    -- Nothing would have fitted.
    intro hzero
    rw [hzero] at habove
    exact habove UInt64.zero_le
  rcases h with ⟨_, hconsume⟩ | ⟨_, _, _, hconsume⟩
  · rw [RateLimit.consume_eq, map_eq_ok] at hconsume
    obtain ⟨rescaled, hrescaled, hconsume⟩ := hconsume
    split at hconsume
    next => cases hconsume
    next habove => exact hcounts hrescaled habove
  · rw [RateLimit.consumeQueued_eq, map_eq_ok] at hconsume
    obtain ⟨rescaled, hrescaled, hconsume⟩ := hconsume
    split at hconsume
    next => cases hconsume
    next habove => exact hcounts hrescaled habove

end Gate

/-! ## §2 Amounts -/

namespace TrimmedAmount

variable {value : TrimmedAmount} {source : UInt8} {x : UInt64}

theorem changeDecimals_eq_ok {decimals : UInt8} {rescaled : TrimmedAmount} :
    value.changeDecimals decimals = .ok rescaled ↔
      rescaled.decimals = decimals ∧ value.untrim decimals = .ok rescaled.amount := by
  unfold changeDecimals
  split
  next hsame =>
    subst hsame
    have hkept : value.untrim value.decimals = .ok value.amount :=
      rescale_eq_ok.mpr (.inl ⟨Nat.le_refl _, by simp, by simp⟩)
    rw [hkept, Except.ok.injEq, Except.ok.injEq]
    constructor
    · rintro rfl
      exact ⟨rfl, rfl⟩
    · rintro ⟨hdecimals, hamount⟩
      cases value
      cases rescaled
      simp_all
  next =>
    simp only [bind_eq_ok, pure_eq_ok]
    constructor
    · rintro ⟨amount, hamount, rfl⟩
      exact ⟨rfl, hamount⟩
    · rintro ⟨rfl, hamount⟩
      exact ⟨rescaled.amount, hamount, rfl⟩

/-- **An amount that was charged for** in a finer precision can be expressed in every one
between. -/
theorem countsIn_of_untrim {precision : ℕ} (h : value.untrim source = .ok x)
    (hamount : value.amount ≠ 0) (hle : value.decimals.toNat ≤ precision)
    (hle' : precision ≤ source.toNat) : value.CountsIn precision := by
  rintro decimals rfl
  have hexact := toNat_untrim_of_le h (hle.trans hle')
  have hpos : 0 < value.amount.toNat := by
    rw [Nat.pos_iff_ne_zero, ← UInt64.toNat_zero, ne_eq, UInt64.toNat_inj]
    exact hamount
  have hpow : 10 ^ (decimals.toNat - value.decimals.toNat) ≤
      10 ^ (source.toNat - value.decimals.toNat) :=
    Nat.pow_le_pow_right (by decide) (Nat.sub_le_sub_right hle' _)
  -- The product is no greater than the one that was charged, so it fits, and so does its factor.
  have hproduct : value.amount.toNat * 10 ^ (decimals.toNat - value.decimals.toNat) <
      UInt64.size := by
    have hx : x.toNat < UInt64.size := x.toNat_lt
    rw [hexact] at hx
    exact lt_of_le_of_lt (Nat.mul_le_mul_left _ hpow) hx
  have hnear : decimals.toNat - value.decimals.toNat < 20 :=
    ten_pow_lt_iff.mp (lt_of_le_of_lt (Nat.le_mul_of_pos_left _ hpos) hproduct)
  have hword : (UInt64.ofNat (value.amount.toNat *
      10 ^ (decimals.toNat - value.decimals.toNat))).toNat =
        value.amount.toNat * 10 ^ (decimals.toNat - value.decimals.toNat) :=
    UInt64.toNat_ofNat_of_lt' hproduct
  refine ⟨⟨.ofNat (value.amount.toNat * 10 ^ (decimals.toNat - value.decimals.toNat)), decimals⟩,
    changeDecimals_eq_ok.mpr ⟨rfl, ?_⟩, ?_⟩
  · rw [untrim, rescale_eq_ok, hword]
    rcases Nat.eq_or_lt_of_le hle with heq | hlt
    · refine .inl ⟨heq.symm.le, by omega, ?_⟩
      simp [heq]
    · exact .inr ⟨hlt, hnear, rfl⟩
  · rw [ne_eq, ← UInt64.toNat_inj, hword]
    exact (Nat.mul_pos hpos (Nat.pow_pos (by decide))).ne'

/-- What an amount comes to in a precision, in exact numbers, rounded down. -/
def nominal (value : TrimmedAmount) (decimals : UInt8) : ℕ :=
  value.amount.toNat * 10 ^ decimals.toNat / 10 ^ value.decimals.toNat

theorem nominal_of_le {decimals : UInt8} (hle : value.decimals.toNat ≤ decimals.toNat) :
    value.nominal decimals = value.amount.toNat * 10 ^ (decimals.toNat - value.decimals.toNat) := by
  have hsplit : 10 ^ decimals.toNat =
      10 ^ (decimals.toNat - value.decimals.toNat) * 10 ^ value.decimals.toNat := by
    rw [← pow_add, Nat.sub_add_cancel hle]
  rw [nominal, hsplit, ← mul_assoc, Nat.mul_div_cancel _ (Nat.pow_pos (by decide))]

theorem nominal_of_ge {decimals : UInt8} (hge : decimals.toNat ≤ value.decimals.toNat) :
    value.nominal decimals = value.amount.toNat / 10 ^ (value.decimals.toNat - decimals.toNat) := by
  have hsplit : 10 ^ value.decimals.toNat =
      10 ^ (value.decimals.toNat - decimals.toNat) * 10 ^ decimals.toNat := by
    rw [← pow_add, Nat.sub_add_cancel hge]
  rw [nominal, hsplit, Nat.mul_div_mul_right _ _ (Nat.pow_pos (by decide))]

/-- **An amount that counts in the precision of a limit** can be paid in that of the token, which
is no coarser, unless the result does not fit a word. -/
theorem untrim_of_nominal {precision : ℕ} {decimals : UInt8} (hcounts : value.CountsIn precision)
    (hle : precision ≤ decimals.toNat) (hx : x.toNat = value.nominal decimals) :
    value.untrim decimals = .ok x := by
  have hword : (UInt8.ofNat precision).toNat = precision :=
    UInt8.toNat_ofNat_of_lt' (lt_of_le_of_lt hle decimals.toNat_lt)
  obtain ⟨rescaled, hrescaled, hnonzero⟩ := hcounts _ hword
  have huntrim := (changeDecimals_eq_ok.mp hrescaled).2
  rw [untrim, rescale_eq_ok, hword] at huntrim
  rw [untrim, rescale_eq_ok]
  rcases Nat.lt_or_ge value.decimals.toNat decimals.toNat with hup | hdown
  · -- The amount is not zero, so a product that fits has a factor that fits.
    have hnear : decimals.toNat - value.decimals.toNat < 20 := by
      have hpos : 0 < value.amount.toNat := by
        apply Nat.pos_of_ne_zero
        intro hzero
        rw [hzero, Nat.zero_div, Nat.zero_mul] at huntrim
        apply hnonzero
        rw [← UInt64.toNat_inj]
        rcases huntrim with ⟨_, _, h⟩ | ⟨_, _, h⟩ <;> exact h
      have hfits : x.toNat < UInt64.size := x.toNat_lt
      rw [hx, nominal_of_le hup.le] at hfits
      exact ten_pow_lt_iff.mp (lt_of_le_of_lt (Nat.le_mul_of_pos_left _ hpos) hfits)
    exact .inr ⟨hup, hnear, hx.trans (nominal_of_le hup.le)⟩
  · -- The way down to the token is part of the way down to the limit.
    refine .inl ⟨hdown, ?_, hx.trans (nominal_of_ge hdown)⟩
    rcases huntrim with ⟨_, hnear, _⟩ | ⟨hup, _, _⟩ <;> omega

end TrimmedAmount

/-! ## §3 Inbound transfers that wait -/

/-- A transfer that was approved is not asked for its votes again. -/
theorem InboxItem.tryApprove_of_approved {item : InboxItem} (h : item.approved = true)
    (threshold : UInt8) (enabled : Bitmap) : item.tryApprove threshold enabled = item := by
  rw [tryApprove, h]
  rfl

namespace Manager

variable {m m' : Manager} {now : Timestamp}

/-- The amounts of the inbound transfers that wait count in the precision of the limits. -/
def QueueCounts (m : Manager) : Prop :=
  ∀ digest item, m.inbox.get? digest = some item →
    (∃ time, item.status = .queued time) → item.amount.CountsIn m.precision

namespace QueueCounts

/-- Helper: a step that touches no inbound transfer. -/
private theorem congr (h : m.QueueCounts) (hchanges : m.Changes now m')
    (hinbox : m'.inbox = m.inbox) : m'.QueueCounts := by
  rw [QueueCounts, hinbox, precision, hchanges.akin.tokenDecimals]
  exact h

/-- Helper: a step that records an inbound transfer. -/
private theorem record (h : m.QueueCounts) (hchanges : m.Changes now m') {digest : Digest}
    {item : InboxItem} (hinbox : m'.inbox = m.inbox.insert digest item)
    (hitem : (∃ time, item.status = .queued time) → item.amount.CountsIn m.precision) :
    m'.QueueCounts := by
  rw [QueueCounts, hinbox, precision, hchanges.akin.tokenDecimals]
  exact SortedMap.forall_insert hitem h

/-- Helper: a transfer in the hands of a call waits only if the one that is recorded does. -/
private theorem of_presents (h : m.QueueCounts) {digest : Digest} {voted : InboxItem}
    (hpresents : m.Presents digest voted) (hqueued : ∃ time, voted.status = .queued time) :
    voted.amount.CountsIn m.precision := by
  cases hpresents with
  | found hitem => exact h digest voted hitem hqueued
  | vote haccepts hattest =>
    obtain ⟨_, votes, _, rfl⟩ := InboxItem.attest_eq_ok hattest
    obtain ⟨time, hqueued⟩ := hqueued
    -- A new transfer has not been queued.
    cases hfound : m.inbox.get? digest with
    | none =>
      simp only [inbound, hfound, Option.getD_none] at hqueued
      cases hqueued
    | some old =>
      simp only [inbound, hfound, Option.getD_some] at hqueued ⊢
      exact h digest old hfound ⟨time, hqueued⟩

/-- **A transfer that is moved on** and has to wait was compared with a capacity, now or when it was
queued. -/
private theorem of_settles (h : m.QueueCounts) (hlimits : m.Metered) {digest : Digest}
    {voted : InboxItem} {chain : ChainId} {s : Settlement} (hpresents : m.Presents digest voted)
    (hsettles : m.Settles chain (voted.tryApprove m.config.threshold m.config.enabled) now s)
    (hqueued : ∃ time, s.item.status = .queued time) : s.item.amount.CountsIn m.precision := by
  obtain ⟨limit, gate, hlimit, hpasses, hitem, _, _⟩ := hsettles.gate
  obtain ⟨_, hamount, _, _⟩ := voted.tryApprove_frame m.config.threshold m.config.enabled
  obtain ⟨time, hqueued⟩ := hqueued
  simp only [hitem] at hqueued ⊢
  -- The index of the relation has to be a variable before the outcomes are told apart.
  generalize s.advance = result at hpasses
  cases hpasses with
  | already hreleased => cases hqueued.symm.trans hreleased
  | early hwaits _ =>
    rw [hamount]
    apply h.of_presents hpresents
    -- Only a transfer that was not approved just now waits already.
    rcases voted.tryApprove_cases m.config.threshold m.config.enabled with hsame | ⟨_, _, _, heq⟩
    · rw [hsame] at hwaits
      exact ⟨_, hwaits⟩
    · rw [heq] at hwaits
      cases hwaits
  | delayed hask _ => exact hask.countsIn (hlimits.inbound chain limit hlimit)
  | passed => cases hqueued

/-- **A step** keeps the amounts that wait countable. -/
theorem step (h : m.QueueCounts) (hlimits : m.Metered) (hchanges : m.Changes now m') :
    m'.QueueCounts := by
  have hall := hchanges
  cases hchanges with
  | same | transferred | waiting | pickedUp | cancelled => exact h.congr hall rfl
  | @voted _ voted hpresents _ hnot =>
    refine h.record hall rfl ?_
    rcases voted.tryApprove_cases m.config.threshold m.config.enabled with hsame | ⟨_, _, _, heq⟩
    · rw [hsame]
      exact h.of_presents hpresents
    · rw [heq] at hnot
      cases hnot
  | settled hpresents _ _ hsettles =>
    exact h.record hall rfl (h.of_settles hlimits hpresents hsettles)
  | executed hexecutes => exact h.congr hall hexecutes.configures.inbox

end QueueCounts

end Manager

variable {b : Book}

theorem Book.Fresh.queueCounts_run (hfresh : b.Fresh) (events : List Event) :
    (b.run events).manager.QueueCounts := by
  have hboth := run_induction
    (motive := fun _ current => current.manager.Sound ∧ current.manager.QueueCounts)
    ⟨hfresh.sound, by
      rw [Manager.QueueCounts, hfresh.empty.1]
      intro digest item hitem
      cases hitem⟩
    (fun _ current event h =>
      have hchanges := current.step_changes event
      ⟨h.1.step hchanges, h.2.step h.1.limits hchanges⟩) events
  exact hboth.2

end CrossChain
