import CrossChain.Proofs.Capacity

/-!
# What passes a rate limit over time

A limit is asked by many transfers at many times, and each answer rounds what has been given back
since the last one. However the calls are spaced, what passes in total is no more than the limit,
what is given back evenly over the whole time, and what is given back by hand.

The stored capacity is the potential: a call removes no more than it takes off the stored
capacity, where the capacity first grows by what the time has given back. Two periods that are
rounded down one by one give no more than both together, so nothing is gained by asking often.

## Main statements

* `RateLimit.after_cases`: a call changes nothing, or stores a capacity that pays for what it
  removes.
* `RateLimit.removed_add_stored_le`: one call against the potential.
* `RateLimit.removed_bounded`: all calls to a limit that starts full.
-/

namespace CrossChain

namespace RateLimit

/-! ## §1 Calls -/

/-- What a limit is asked to do with an amount. -/
inductive Request where
  /-- To let a new transfer pass. -/
  | consume (amount : TrimmedAmount)
  /-- To let a transfer pass that has waited. -/
  | consumeQueued (amount : TrimmedAmount)
  /-- To take an amount back. -/
  | refill (amount : TrimmedAmount)
deriving DecidableEq

/-- A request and when it is made. -/
structure Use where
  now : Timestamp
  request : Request
deriving DecidableEq

/-- What a limit answers, if there is anything to answer, and the limit afterwards. -/
def ask (r : RateLimit) (use : Use) : Except AmountError (Option Verdict × RateLimit) :=
  match use.request with
  | .consume amount => Prod.map some id <$> r.consume amount use.now
  | .consumeQueued amount => Prod.map some id <$> r.consumeQueued amount use.now
  | .refill amount => (none, ·) <$> r.refill amount use.now

/-- The limit after a call; one that fails leaves it as it was. -/
def after (r : RateLimit) (use : Use) : RateLimit :=
  match r.ask use with
  | .ok (_, r') => r'
  | .error _ => r

/-- What a call that lets an amount pass removes from the capacity of that moment. -/
def removed (r : RateLimit) (use : Use) : ℤ :=
  match r.ask use with
  | .ok (some (.consumed _), r') =>
    (r.capacityAt use.now).amount.toNat - (r'.capacityAt use.now).amount.toNat
  | _ => 0

/-- What a call gives back, in the given decimals. -/
def Use.returned (decimals : UInt8) (use : Use) : ℕ :=
  match use.request with
  | .refill amount =>
    match amount.changeDecimals decimals with
    | .ok rescaled => rescaled.amount.toNat
    | .error _ => 0
  | _ => 0

/-- The limit after some calls. -/
def run (r : RateLimit) : List Use → RateLimit
  | [] => r
  | use :: rest => (r.after use).run rest

/-- What some calls remove from the capacity. -/
def totalRemoved (r : RateLimit) : List Use → ℤ
  | [] => 0
  | use :: rest => r.removed use + (r.after use).totalRemoved rest

/-! ## §2 One call -/

variable {r : RateLimit} {use : Use}

/-- A call stores a capacity that pays for what the call removes. -/
def Stores (r : RateLimit) (use : Use) : Prop :=
  ∃ capacity : TrimmedAmount, capacity.amount ≤ r.limit.amount ∧
    capacity.decimals = r.stored.decimals ∧ r.after use = r.withCapacity capacity use.now ∧
    r.removed use + capacity.amount.toNat ≤
      (r.capacityAt use.now).amount.toNat + use.returned r.stored.decimals

/-- Helper: a call that lets an amount pass and leaves no more than there was. -/
private theorem stores_of_consumed (hduration : 0 < r.duration.toInt) {time : Timestamp}
    {left : UInt64} (hleft : left ≤ (r.capacityAt use.now).amount)
    (h : r.ask use = .ok (some (.consumed time),
      r.withCapacity ⟨left, r.stored.decimals⟩ use.now)) : r.Stores use := by
  have hlimit : left ≤ r.limit.amount := UInt64.le_trans hleft (r.capacityAt_le_limit use.now)
  refine ⟨⟨left, r.stored.decimals⟩, hlimit, rfl, ?_, ?_⟩
  · simp only [after, h]
  · have hcapacity := capacityAt_withCapacity hduration hlimit r.stored.decimals use.now
    simp only [removed, h, hcapacity]
    omega

/-- Helper: a call after which the limit is as before. -/
private theorem unchanged_of_ok {verdict : Option Verdict}
    (hverdict : ∀ time, verdict ≠ some (.consumed time)) (h : r.ask use = .ok (verdict, r)) :
    r.after use = r ∧ r.removed use = 0 := by
  refine ⟨by simp only [after, h], ?_⟩
  simp only [removed, h]
  split
  next heq => exact absurd (congrArg Prod.fst (Except.ok.inj heq)) (hverdict _)
  next => rfl

/-- Helper: a call that gives an amount back. -/
private theorem stores_of_refill {now : Timestamp} {amount rescaled : TrimmedAmount}
    (hrescaled : amount.changeDecimals r.stored.decimals = .ok rescaled) {raised : UInt64}
    (hraised : raised.toNat =
      min ((r.capacityAt now).amount.toNat + rescaled.amount.toNat) r.limit.amount.toNat)
    (h : r.ask ⟨now, .refill amount⟩ =
      .ok (none, r.withCapacity ⟨raised, r.stored.decimals⟩ now)) :
    r.Stores ⟨now, .refill amount⟩ := by
  refine ⟨⟨raised, r.stored.decimals⟩, ?_, rfl, by simp only [after, h], ?_⟩
  · rw [UInt64.le_iff_toNat_le, hraised]
    exact Nat.min_le_right _ _
  · simp only [removed, h, Use.returned, hrescaled, hraised]
    omega

/-- Helper: a call fails with its amount, or is answered in the decimals of the limit. -/
private theorem ask_cases {amount : TrimmedAmount}
    {answer : TrimmedAmount → Option Verdict × RateLimit}
    (hask : r.ask use = answer <$> amount.changeDecimals r.stored.decimals) :
    (r.after use = r ∧ r.removed use = 0) ∨
      ∃ rescaled, amount.changeDecimals r.stored.decimals = .ok rescaled ∧
        r.ask use = .ok (answer rescaled) := by
  cases hrescaled : amount.changeDecimals r.stored.decimals with
  | error e =>
    have herror : r.ask use = .error e := by rw [hask, hrescaled]; rfl
    exact .inl ⟨by simp only [after, herror], by simp only [removed, herror]⟩
  | ok rescaled => exact .inr ⟨rescaled, rfl, by rw [hask, hrescaled]; rfl⟩

/-- **A call** changes nothing, or stores a capacity that pays for what it removes. -/
theorem after_cases (hduration : 0 < r.duration.toInt) (use : Use) :
    (r.after use = r ∧ r.removed use = 0) ∨ r.Stores use := by
  obtain ⟨now, request⟩ := use
  cases request with
  | consume amount =>
    have hask : r.ask ⟨now, .consume amount⟩ = Prod.map some id <$> r.consume amount now := rfl
    rw [consume_eq, ← comp_map] at hask
    rcases ask_cases hask with hsame | ⟨rescaled, _, hok⟩
    · exact .inl hsame
    · simp only [Function.comp_apply] at hok
      split at hok
      next hfits => exact .inr (stores_of_consumed hduration (Word.sub_le_self hfits) hok)
      next => exact .inl (unchanged_of_ok (by simp) hok)
  | consumeQueued amount =>
    have hask : r.ask ⟨now, .consumeQueued amount⟩ =
        Prod.map some id <$> r.consumeQueued amount now := rfl
    rw [consumeQueued_eq, ← comp_map] at hask
    rcases ask_cases hask with hsame | ⟨rescaled, _, hok⟩
    · exact .inl hsame
    · simp only [Function.comp_apply] at hok
      split at hok
      next hfits => exact .inr (stores_of_consumed hduration (Word.sub_le_self hfits) hok)
      next =>
        split at hok
        -- A full limit is drained, whatever the amount.
        next => exact .inr (stores_of_consumed hduration UInt64.zero_le hok)
        next => exact .inl (unchanged_of_ok (by simp) hok)
  | refill amount =>
    have hask : r.ask ⟨now, .refill amount⟩ = (none, ·) <$> r.refill amount now := rfl
    rw [refill_eq, ← comp_map] at hask
    rcases ask_cases hask with hsame | ⟨rescaled, hrescaled, hok⟩
    · exact .inl hsame
    · have hlimit : r.limit.amount.toNat < UInt64.size := r.limit.amount.toNat_lt
      exact .inr (stores_of_refill hrescaled (UInt64.toNat_ofNat_of_lt' (by omega)) hok)

/-! ## §3 The potential -/

/-- Two periods that are rounded down one by one give no more than both together. -/
theorem ediv_add_ediv_le {a b d : ℤ} (hd : 0 < d) : a / d + b / d ≤ (a + b) / d := by
  rw [Int.le_ediv_iff_mul_le hd, add_mul]
  have ha := Int.ediv_mul_le a hd.ne'
  have hb := Int.ediv_mul_le b hd.ne'
  omega

/-- **One call against the potential**: what a call removes and leaves is no more than what was
stored, what the time has given back, and what the call gives back. -/
theorem removed_add_stored_le (hduration : 0 < r.duration.toInt)
    (hnow : r.updatedAt.toInt ≤ use.now.toInt) :
    r.removed use + (r.after use).stored.amount.toNat ≤
      r.stored.amount.toNat +
        r.limit.amount.toNat * ((r.after use).updatedAt.toInt - r.updatedAt.toInt) /
          r.duration.toInt +
        use.returned r.stored.decimals := by
  rcases after_cases hduration use with ⟨hafter, hremoved⟩ | ⟨capacity, _, _, hafter, hpaid⟩
  · rw [hafter, hremoved, sub_self, mul_zero, Int.zero_ediv]
    omega
  · have hcapacity := toNat_capacityAt hduration use.now
    have hregained : r.regained use.now =
        r.limit.amount.toNat * (use.now.toInt - r.updatedAt.toInt) / r.duration.toInt := by
      rw [regained, max_eq_right (by omega)]
    rw [hregained] at hcapacity
    rw [hafter]
    simp only [withCapacity]
    omega

/-! ## §4 Any number of calls -/

/-- What no call changes about a limit. -/
theorem after_frame (r : RateLimit) (use : Use) :
    (r.after use).limit = r.limit ∧ (r.after use).duration = r.duration ∧
      (r.after use).stored.decimals = r.stored.decimals := by
  obtain ⟨now, request⟩ := use
  unfold after ask
  cases request with
  | consume amount =>
    simp only [consume_eq]
    cases amount.changeDecimals r.stored.decimals with
    | error e => exact ⟨rfl, rfl, rfl⟩
    | ok rescaled =>
      simp only [map_ok]
      split <;> exact ⟨rfl, rfl, rfl⟩
  | consumeQueued amount =>
    simp only [consumeQueued_eq]
    cases amount.changeDecimals r.stored.decimals with
    | error e => exact ⟨rfl, rfl, rfl⟩
    | ok rescaled =>
      simp only [map_ok]
      split
      next => exact ⟨rfl, rfl, rfl⟩
      next => split <;> exact ⟨rfl, rfl, rfl⟩
  | refill amount =>
    simp only [refill_eq]
    cases amount.changeDecimals r.stored.decimals <;> exact ⟨rfl, rfl, rfl⟩

/-- A call that changes a limit sets its time. -/
theorem updatedAt_after (hduration : 0 < r.duration.toInt) (use : Use) :
    (r.after use).updatedAt = r.updatedAt ∨ (r.after use).updatedAt = use.now := by
  rcases after_cases hduration use with ⟨hafter, _⟩ | ⟨capacity, _, _, hafter, _⟩
  · exact .inl (by rw [hafter])
  · exact .inr (by rw [hafter]; rfl)

theorem run_frame (hduration : 0 < r.duration.toInt) (uses : List Use) :
    (r.run uses).duration = r.duration ∧ (r.run uses).stored.decimals = r.stored.decimals := by
  induction uses generalizing r with
  | nil => exact ⟨rfl, rfl⟩
  | cons use rest ih =>
    obtain ⟨_, hsame, hdecimals⟩ := after_frame r use
    rw [← hsame] at hduration
    obtain ⟨hlast, hdecimals'⟩ := ih hduration
    exact ⟨hlast.trans hsame, hdecimals'.trans hdecimals⟩

/-- **All calls against the potential**, for a limit that stores any capacity. -/
theorem totalRemoved_le (hduration : 0 < r.duration.toInt) {uses : List Use} {finish : ℤ}
    (hascending : (r.updatedAt :: uses.map Use.now).Pairwise (· ≤ ·))
    (hfinish : ∀ time ∈ r.updatedAt :: uses.map Use.now, time.toInt ≤ finish) :
    r.totalRemoved uses ≤
      r.stored.amount.toNat +
        r.limit.amount.toNat * (finish - r.updatedAt.toInt) / r.duration.toInt +
        (uses.map (Use.returned r.stored.decimals)).sum := by
  induction uses generalizing r with
  | nil =>
    have hperiod : 0 ≤ finish - r.updatedAt.toInt :=
      Int.sub_nonneg_of_le (hfinish _ List.mem_cons_self)
    have hregained : 0 ≤ r.limit.amount.toNat * (finish - r.updatedAt.toInt) / r.duration.toInt :=
      Int.ediv_nonneg (Int.mul_nonneg (Int.natCast_nonneg _) hperiod) hduration.le
    simp only [totalRemoved, List.map_nil, List.sum_nil]
    omega
  | cons use rest ih =>
    rw [List.map_cons] at hascending hfinish
    obtain ⟨hfirst, hrest⟩ := List.pairwise_cons.mp hascending
    have hstep := removed_add_stored_le hduration
      (Int64.le_iff_toInt_le.mp (hfirst _ List.mem_cons_self))
    obtain ⟨hlimit, hsame, hdecimals⟩ := after_frame r use
    -- The limit after the call has the time of this call, or still the time of an earlier one.
    have hascending' : ((r.after use).updatedAt :: rest.map Use.now).Pairwise (· ≤ ·) := by
      rcases updatedAt_after hduration use with htime | htime
      · rw [htime]
        apply List.pairwise_cons.mpr
        exact ⟨fun time h => hfirst time (List.mem_cons_of_mem _ h),
          (List.pairwise_cons.mp hrest).2⟩
      · rw [htime]
        exact hrest
    have hfinish' : ∀ time ∈ (r.after use).updatedAt :: rest.map Use.now, time.toInt ≤ finish := by
      intro time htime
      rcases List.mem_cons.mp htime with rfl | htime
      · rcases updatedAt_after hduration use with h | h
        · rw [h]
          exact hfinish _ List.mem_cons_self
        · rw [h]
          exact hfinish _ (List.mem_cons_of_mem _ List.mem_cons_self)
      · exact hfinish _ (List.mem_cons_of_mem _ (List.mem_cons_of_mem _ htime))
    have hlater := ih (hsame ▸ hduration) hascending' hfinish'
    rw [hlimit, hsame, hdecimals] at hlater
    -- The period up to this call and the rest of the time are rounded down one by one.
    have hrounded := ediv_add_ediv_le hduration
      (a := r.limit.amount.toNat * ((r.after use).updatedAt.toInt - r.updatedAt.toInt))
      (b := r.limit.amount.toNat * (finish - (r.after use).updatedAt.toInt))
    have hperiods : (r.limit.amount.toNat : ℤ) *
          ((r.after use).updatedAt.toInt - r.updatedAt.toInt) +
        r.limit.amount.toNat * (finish - (r.after use).updatedAt.toInt) =
        r.limit.amount.toNat * (finish - r.updatedAt.toInt) := by ring
    rw [hperiods] at hrounded
    simp only [totalRemoved, List.map_cons, List.sum_cons]
    omega

/-- A new transfer that passes removes its amount, in the decimals of the limit. -/
theorem removed_of_consumed (hduration : 0 < r.duration.toInt) {amount : TrimmedAmount}
    (hrequest : use.request = .consume amount) {time : Timestamp} {r' : RateLimit}
    (h : r.consume amount use.now = .ok (.consumed time, r')) :
    ∃ rescaled, amount.changeDecimals r.stored.decimals = .ok rescaled ∧
      r.removed use = rescaled.amount.toNat := by
  have hask : r.ask use = .ok (some (.consumed time), r') := by
    simp only [ask, hrequest, h]
    rfl
  rw [consume_eq, map_eq_ok] at h
  obtain ⟨rescaled, hrescaled, h⟩ := h
  refine ⟨rescaled, hrescaled, ?_⟩
  split at h
  next hfits =>
    cases h
    have hlimit : (r.capacityAt use.now).amount - rescaled.amount ≤ r.limit.amount :=
      UInt64.le_trans (Word.sub_le_self hfits) (r.capacityAt_le_limit use.now)
    have hleft := capacityAt_withCapacity hduration hlimit r.stored.decimals use.now
    have hle := UInt64.le_iff_toNat_le.mp hfits
    simp only [removed, hask, hleft, UInt64.toNat_sub_of_le _ _ hfits]
    omega
  next => cases h

/-- The time of the last of some calls. -/
def lastTime (start : Timestamp) (uses : List Use) : Timestamp :=
  (uses.map Use.now).getLastD start

theorem le_lastTime {start : Timestamp} {uses : List Use}
    (hascending : (start :: uses.map Use.now).Pairwise (· ≤ ·)) :
    ∀ time ∈ start :: uses.map Use.now, time.toInt ≤ (lastTime start uses).toInt := by
  induction uses generalizing start with
  | nil =>
    intro time htime
    rw [List.mem_singleton.mp htime]
    exact le_refl _
  | cons use rest ih =>
    rw [List.map_cons] at hascending
    obtain ⟨hfirst, hrest⟩ := List.pairwise_cons.mp hascending
    have hlast : lastTime start (use :: rest) = lastTime use.now rest := by
      simp only [lastTime, List.map_cons, List.getLastD_cons]
    rw [hlast]
    intro time htime
    rcases List.mem_cons.mp htime with rfl | htime
    · have hle := Int64.le_iff_toInt_le.mp (hfirst _ List.mem_cons_self)
      exact hle.trans (ih hrest _ List.mem_cons_self)
    · exact ih hrest time htime

/-- **What passes a limit over time** is bounded: from a limit that starts full, calls at times
that do not go back remove no more than the limit, what it gives back evenly from the start to the
last call, and what the calls themselves give back. A new transfer that passes removes exactly its
amount, in the decimals of the limit. -/
theorem removed_bounded (limit : TrimmedAmount) (start duration : Timestamp)
    (hduration : 0 < duration) (uses : List Use)
    (hascending : (start :: uses.map Use.now).Pairwise (· ≤ ·)) :
    (full limit start duration).totalRemoved uses ≤
        limit.amount.toNat +
          limit.amount.toNat * ((lastTime start uses).toInt - start.toInt) / duration.toInt +
          (uses.map (Use.returned limit.decimals)).sum ∧
      ∀ (i : ℕ) (use : Use) (amount : TrimmedAmount) (time : Timestamp) (r' : RateLimit),
        uses[i]? = some use → use.request = .consume amount →
        ((full limit start duration).run (uses.take i)).consume amount use.now =
          .ok (.consumed time, r') →
        ∃ rescaled, amount.changeDecimals limit.decimals = .ok rescaled ∧
          ((full limit start duration).run (uses.take i)).removed use = rescaled.amount.toNat := by
  have hpositive : 0 < (full limit start duration).duration.toInt :=
    Int64.lt_iff_toInt_lt.mp hduration
  refine ⟨totalRemoved_le hpositive hascending (le_lastTime hascending), ?_⟩
  intro i use amount time r' _ hrequest hconsumed
  obtain ⟨hsame, hdecimals⟩ := run_frame hpositive (uses.take i)
  obtain ⟨rescaled, hrescaled, hremoved⟩ :=
    removed_of_consumed (hsame.symm ▸ hpositive) hrequest hconsumed
  exact ⟨rescaled, hdecimals ▸ hrescaled, hremoved⟩

end RateLimit

namespace Sample

/-- A limit of 1,000 units that fills in 100 seconds is asked six times. -/
def bucket : RateLimit := .full ⟨1000, 8⟩ 0 100

/-- Two of the transfers do not fit, one that waited finds the limit full, and 300 units come
back. -/
def uses : List RateLimit.Use :=
  [⟨10, .consume ⟨900, 8⟩⟩, ⟨15, .refill ⟨3, 6⟩⟩, ⟨17, .consume ⟨5000, 8⟩⟩,
   ⟨45, .consumeQueued ⟨5000, 8⟩⟩, ⟨120, .consumeQueued ⟨5000, 8⟩⟩, ⟨145, .consume ⟨1, 6⟩⟩]

/-- In 145 seconds 2,000 units pass, of at most 2,750; the last of the transfers takes 100. -/
theorem bucket_bounded :
    bucket.totalRemoved uses = 2000 ∧ bucket.totalRemoved uses ≤ 1000 + 1450 + 300 ∧
      (bucket.run (uses.take 5)).removed ⟨145, .consume ⟨1, 6⟩⟩ = 100 := by
  obtain ⟨hbound, hexact⟩ :=
    RateLimit.removed_bounded ⟨1000, 8⟩ 0 100 (by decide) uses (by decide)
  have hpassed : (bucket.run (uses.take 5)).consume ⟨1, 6⟩ 145 =
      .ok (.consumed 145, ⟨⟨1000, 8⟩, ⟨150, 8⟩, 145, 100⟩) := by decide +kernel
  obtain ⟨rescaled, hrescaled, hremoved⟩ := hexact 5 _ _ _ _ rfl rfl hpassed
  have hamount : (⟨1, 6⟩ : TrimmedAmount).changeDecimals 8 = .ok ⟨100, 8⟩ := by decide +kernel
  cases hamount.symm.trans hrescaled
  exact ⟨by decide +kernel, hbound, hremoved⟩

end Sample

end CrossChain
