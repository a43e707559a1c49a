import CrossChain.Proofs.Consumption
import CrossChain.Proofs.Exactness

/-!
# What it costs to touch a limit

A limit is often asked for nothing, or set to what it is set to. Such a call stores the capacity of
the moment and starts the clock again, so that what is given back up to the call and from then on is
rounded down twice instead of once. Less than one unit is lost by that, however the capacity is cut
off at the limit, and nothing is ever gained. Many calls lose at most one unit each.

## Limits in two precisions

Setting a limit restates the capacity in the decimals of the limit. A limit that was made by these
operations has both in the same decimals, and nothing is restated. One that was restored need not:
setting it to what it is set to then changes the number of units that are left, and what they are
worth later.

## Main statements

* `RateLimit.decimals_operateAll`: the precision of limits that operations have made.
* `RateLimit.operate_of_neutral`: what such a call leaves.
* `RateLimit.lags_of_touched`: one call.
* `RateLimit.touches_lose`: any number of calls.
* `Sample.restated_changes`: a limit in two precisions.
-/

namespace CrossChain

namespace RateLimit

variable {r : RateLimit} {now later : Timestamp}

/-! ## §1 Operations that ask for nothing -/

/-- The amount that a request is about. -/
def Request.amount : Request → TrimmedAmount
  | .consume amount => amount
  | .consumeQueued amount => amount
  | .refill amount => amount

/-- An operation that lets nothing pass, gives nothing back and sets nothing anew. -/
def Operation.Neutral (r : RateLimit) : Operation → Prop
  | .ask request => request.amount.amount = 0
  | .setLimit limit => limit = r.limit
  | .setDuration duration => duration = r.duration

/-- An operation that restates no capacity. Only setting the limit does, and not in a limit that
has its capacity in its own decimals. -/
def Operation.KeepsPrecision (r : RateLimit) : Operation → Prop
  | .setLimit _ => r.stored.decimals = r.limit.decimals
  | _ => True

theorem keepsPrecision_of_decimals (h : r.stored.decimals = r.limit.decimals)
    (operation : Operation) : operation.KeepsPrecision r := by
  cases operation with
  | ask request => trivial
  | setLimit limit => exact h
  | setDuration duration => trivial

/-- An operation leaves a limit that has its capacity in its own decimals so. -/
theorem decimals_operate (h : r.stored.decimals = r.limit.decimals) (occasion : Occasion) :
    (r.operate occasion).stored.decimals = (r.operate occasion).limit.decimals := by
  obtain ⟨now, operation⟩ := occasion
  cases operation with
  | ask request =>
    obtain ⟨hlimit, _, hdecimals⟩ := after_frame r ⟨now, request⟩
    show (r.after ⟨now, request⟩).stored.decimals = (r.after ⟨now, request⟩).limit.decimals
    rw [hdecimals, h, hlimit]
  | setLimit limit =>
    simp only [operate, setLimit_eq]
    cases (r.capacityAt now).changeDecimals limit.decimals with
    | error e => exact h
    | ok capacity => rfl
  | setDuration duration =>
    simp only [operate, setDuration]
    split <;> exact h

/-- **Limits that operations have made** have their capacity in their own decimals, whatever the
operations were and whether they failed or not. -/
theorem decimals_operateAll (limit : TrimmedAmount) (start duration : Timestamp)
    (occasions : List Occasion) :
    ((full limit start duration).operateAll occasions).stored.decimals =
      ((full limit start duration).operateAll occasions).limit.decimals := by
  induction occasions using List.reverseRecOn with
  | nil => rfl
  | append_singleton occasions occasion ih =>
    rw [operateAll, List.foldl_append]
    exact decimals_operate ih occasion

/-- An operation whose amount can be expressed in the decimals of a limit. -/
def Operation.Expressible (r : RateLimit) : Operation → Prop
  | .ask request => ∃ rescaled, request.amount.changeDecimals r.stored.decimals = .ok rescaled
  | _ => True

/-- The limit that stores the capacity of a moment and fills again from then on. -/
def touched (r : RateLimit) (now : Timestamp) : RateLimit :=
  r.withCapacity (r.capacityAt now) now

section Nothing

variable {amount : TrimmedAmount} (hzero : amount.amount = 0)

include hzero

/-- Nothing is nothing in all decimals. -/
theorem rescaled_eq_zero {rescaled : TrimmedAmount} {decimals : UInt8}
    (h : amount.changeDecimals decimals = .ok rescaled) : rescaled.amount = 0 := by
  obtain ⟨_, huntrim⟩ := TrimmedAmount.changeDecimals_eq_ok.mp h
  rw [TrimmedAmount.untrim, hzero] at huntrim
  rw [← UInt64.toNat_inj, UInt64.toNat_zero]
  rcases TrimmedAmount.rescale_eq_ok.mp huntrim with ⟨_, _, hdown⟩ | ⟨_, _, hup⟩
  · rw [hdown, UInt64.toNat_zero, Nat.zero_div]
  · rw [hup, UInt64.toNat_zero, Nat.zero_mul]

/-- Helper: what is done with a rescaled amount is done with nothing. -/
private theorem map_nothing {α : Type} {answer : TrimmedAmount → α} {nothing : α}
    {decimals : UInt8}
    (h : ∀ rescaled : TrimmedAmount, rescaled.amount = 0 → answer rescaled = nothing) :
    answer <$> amount.changeDecimals decimals =
      (fun _ => nothing) <$> amount.changeDecimals decimals := by
  cases hrescaled : amount.changeDecimals decimals with
  | error e => rfl
  | ok rescaled => rw [map_ok, map_ok, h rescaled (rescaled_eq_zero hzero hrescaled)]

theorem consume_nothing (r : RateLimit) (now : Timestamp) :
    r.consume amount now =
      (fun _ => (.consumed now, r.touched now)) <$> amount.changeDecimals r.stored.decimals := by
  rw [consume_eq]
  apply map_nothing hzero
  intro rescaled hnothing
  rw [hnothing, if_pos UInt64.zero_le, UInt64.sub_zero]
  rfl

theorem consumeQueued_nothing (r : RateLimit) (now : Timestamp) :
    r.consumeQueued amount now =
      (fun _ => (.consumed now, r.touched now)) <$> amount.changeDecimals r.stored.decimals := by
  rw [consumeQueued_eq]
  apply map_nothing hzero
  intro rescaled hnothing
  rw [hnothing, if_pos UInt64.zero_le, UInt64.sub_zero]
  rfl

theorem refill_nothing (r : RateLimit) (now : Timestamp) :
    r.refill amount now = (fun _ => r.touched now) <$> amount.changeDecimals r.stored.decimals := by
  have hle := UInt64.le_iff_toNat_le.mp (r.capacityAt_le_limit now)
  rw [refill_eq]
  apply map_nothing hzero
  intro rescaled hnothing
  rw [hnothing, UInt64.toNat_zero, Nat.add_zero, Nat.min_eq_left hle, UInt64.ofNat_toNat]
  rfl

end Nothing

/-- A request for nothing, whatever its kind. -/
theorem ask_nothing {request : Request} (hzero : request.amount.amount = 0) (r : RateLimit)
    (now : Timestamp) :
    ∃ verdict, r.ask ⟨now, request⟩ =
      (fun _ => (verdict, r.touched now)) <$>
        request.amount.changeDecimals r.stored.decimals := by
  cases request with
  | consume amount =>
    have hnothing : amount.amount = 0 := hzero
    refine ⟨some (.consumed now), ?_⟩
    show Prod.map some id <$> r.consume amount now = _
    rw [consume_nothing hnothing, ← comp_map]
    rfl
  | consumeQueued amount =>
    have hnothing : amount.amount = 0 := hzero
    refine ⟨some (.consumed now), ?_⟩
    show Prod.map some id <$> r.consumeQueued amount now = _
    rw [consumeQueued_nothing hnothing, ← comp_map]
    rfl
  | refill amount =>
    have hnothing : amount.amount = 0 := hzero
    refine ⟨none, ?_⟩
    show (none, ·) <$> r.refill amount now = _
    rw [refill_nothing hnothing, ← comp_map]
    rfl

/-- Setting a limit to what it is set to, if nothing has to be restated. -/
theorem setLimit_same (hprecision : r.stored.decimals = r.limit.decimals) (now : Timestamp) :
    r.setLimit r.limit now = .ok (r.touched now) := by
  have hle := UInt64.le_iff_toNat_le.mp (r.capacityAt_le_limit now)
  have hmin : min (r.capacityAt now).amount r.limit.amount = (r.capacityAt now).amount := by
    rw [← UInt64.toNat_inj, Word.toNat_min, Nat.min_eq_left hle]
  rw [setLimit_of_decimals hprecision, hmin, ← hprecision]
  rfl

theorem setDuration_same (hduration : 0 < r.duration) (now : Timestamp) :
    r.setDuration r.duration now = .ok (r.touched now) := by
  rw [setDuration, if_neg (Int64.not_le.mpr hduration)]
  rfl

/-- **What an operation leaves** that asks for nothing: the capacity of the moment is stored, unless
the operation fails because its amount cannot be expressed in the decimals of the limit. -/
theorem operate_of_neutral {operation : Operation} (hduration : 0 < r.duration)
    (hneutral : operation.Neutral r) (hprecision : operation.KeepsPrecision r) (now : Timestamp) :
    operation.Expressible r ∧ r.operate ⟨now, operation⟩ = r.touched now ∨
      ¬ operation.Expressible r ∧ r.operate ⟨now, operation⟩ = r := by
  cases operation with
  | ask request =>
    obtain ⟨verdict, hask⟩ := ask_nothing hneutral r now
    cases hrescaled : request.amount.changeDecimals r.stored.decimals with
    | ok rescaled =>
      rw [hrescaled, map_ok] at hask
      exact .inl ⟨⟨rescaled, hrescaled⟩, by simp only [operate, after, hask]⟩
    | error e =>
      rw [hrescaled, map_error] at hask
      refine .inr ⟨?_, by simp only [operate, after, hask]⟩
      rintro ⟨rescaled, hok⟩
      cases hrescaled.symm.trans hok
  | setLimit limit =>
    obtain rfl : limit = r.limit := hneutral
    exact .inl ⟨trivial, by simp only [operate, setLimit_same hprecision]; rfl⟩
  | setDuration duration =>
    obtain rfl : duration = r.duration := hneutral
    exact .inl ⟨trivial, by simp only [operate, setDuration_same hduration]; rfl⟩

/-! ## §2 One call -/

/-- A limit whose capacity at a time is another's, short of at most some units. -/
structure Lags (r' r : RateLimit) (units : ℕ) (time : Timestamp) : Prop where
  decimals : (r'.capacityAt time).decimals = (r.capacityAt time).decimals
  le : (r'.capacityAt time).amount ≤ (r.capacityAt time).amount
  lost : (r.capacityAt time).amount.toNat ≤ (r'.capacityAt time).amount.toNat + units

namespace Lags

variable {r' r'' : RateLimit} {units more : ℕ} {time : Timestamp}

theorem refl (r : RateLimit) (units : ℕ) (time : Timestamp) : r.Lags r units time :=
  ⟨rfl, UInt64.le_refl _, Nat.le_add_right _ _⟩

theorem trans (hlater : r''.Lags r' more time) (h : r'.Lags r units time) :
    r''.Lags r (more + units) time where
  decimals := hlater.decimals.trans h.decimals
  le := UInt64.le_trans hlater.le h.le
  lost := by
    have hmore := hlater.lost
    have hunits := h.lost
    omega

end Lags

/-- What is given back up to now and from now on, rounded down one by one, is at most one unit less
than both together. -/
theorem regained_le_add (hduration : 0 < r.duration.toInt) (hclock : r.updatedAt ≤ now)
    (hlater : now ≤ later) :
    r.regained later ≤ r.regained now + r.givenBack (later.toInt - now.toInt) + 1 := by
  rw [Int64.le_iff_toInt_le] at hlater hclock
  rw [regained, regained, givenBack, max_eq_right (by omega), max_eq_right (by omega)]
  refine le_trans (le_of_eq ?_) (ediv_add_le hduration)
  congr 1
  ring

/-- **One call** loses at most one unit of the capacity of later, and gains none. -/
theorem lags_of_touched (hduration : 0 < r.duration.toInt) (hclock : r.updatedAt ≤ now)
    (hlater : now ≤ later) : (r.touched now).Lags r 1 later := by
  have hnow := toNat_capacityAt hduration now
  have hbefore := toNat_capacityAt hduration later
  have hafter := toNat_capacityAt (r := r.touched now) hduration later
  have hstored : (r.touched now).stored = r.capacityAt now := rfl
  have hlimit : (r.touched now).limit = r.limit := rfl
  rw [hstored, hlimit, touched, regained_withCapacity r _ hlater] at hafter
  have hrounded := regained_add_le hduration hlater hclock
  have hunit := regained_le_add hduration hclock hlater
  have hgiven : 0 ≤ r.givenBack (later.toInt - now.toInt) :=
    givenBack_nonneg hduration (Int.sub_nonneg_of_le (Int64.le_iff_toInt_le.mp hlater))
  -- A capacity that is cut off now is cut off later too.
  refine ⟨rfl, ?_, ?_⟩
  · rw [UInt64.le_iff_toNat_le, touched]
    omega
  · rw [touched]
    omega

/-! ## §3 Any number of calls -/

/-- Helper: an operation that asks for nothing leaves a limit in which the others still do. -/
private theorem neutral_touched {operation : Operation} (now : Timestamp)
    (h : operation.Neutral r ∧ operation.KeepsPrecision r) :
    operation.Neutral (r.touched now) ∧ operation.KeepsPrecision (r.touched now) := by
  cases operation <;> exact h

/-- **Any number of calls**, each of which asks for nothing, lose at most one unit each. -/
theorem lags_of_operateAll {touches : List Occasion} (hduration : 0 < r.duration)
    (hneutral : ∀ touch ∈ touches, touch.operation.Neutral r ∧ touch.operation.KeepsPrecision r)
    (hascending : (r.updatedAt :: touches.map Occasion.now).Pairwise (· ≤ ·))
    (hlater : ∀ touch ∈ touches, touch.now ≤ later) :
    (r.operateAll touches).Lags r touches.length later := by
  -- By induction on the calls, from the limit that the first of them leaves.
  induction touches generalizing r with
  | nil => exact Lags.refl r 0 later
  | cons touch rest ih =>
    rw [List.map_cons] at hascending
    obtain ⟨hfirst, hrest⟩ := List.pairwise_cons.mp hascending
    obtain ⟨hasks, hkeeps⟩ := hneutral touch List.mem_cons_self
    have hlater' := fun other h => hlater other (List.mem_cons_of_mem touch h)
    show ((r.operate touch).operateAll rest).Lags r (rest.length + 1) later
    rcases operate_of_neutral hduration hasks hkeeps touch.now with ⟨_, hleft⟩ | ⟨_, hleft⟩
    · rw [hleft]
      have hone := lags_of_touched (Int64.lt_iff_toInt_lt.mp hduration)
        (hfirst _ List.mem_cons_self) (hlater touch List.mem_cons_self)
      have hneutral' := fun other h =>
        neutral_touched touch.now (hneutral other (List.mem_cons_of_mem touch h))
      exact (ih (r := r.touched touch.now) hduration hneutral' hrest hlater').trans hone
    · rw [hleft]
      have hascending' : (r.updatedAt :: rest.map Occasion.now).Pairwise (· ≤ ·) :=
        List.pairwise_cons.mpr
          ⟨fun time h => hfirst time (List.mem_cons_of_mem _ h), (List.pairwise_cons.mp hrest).2⟩
      have hneutral' := fun other h => hneutral other (List.mem_cons_of_mem touch h)
      exact (ih hduration hneutral' hascending' hlater').trans (Lags.refl r 1 later)

/-- **What touching a limit costs.** In a limit that fills in some time,

* a call that asks for nothing or sets what is set stores the capacity of the moment, unless its
  amount cannot be expressed in the decimals of the limit;
* one such call, not before the last change, leaves at most one unit less of the capacity at any
  time from then on, and no more than there was;
* any number of them, one after the other, leave at most as many units less, and no more.

Setting the limit is such a call if the capacity is in the decimals of the limit, and so it is in
every limit that was full once, whatever it has been asked and however it was changed since. -/
theorem touches_lose (hduration : 0 < r.duration) :
    (∀ (operation : Operation) (now : Timestamp), operation.Neutral r →
      operation.KeepsPrecision r → operation.Expressible r →
      r.operate ⟨now, operation⟩ = r.touched now) ∧
    (∀ (operation : Operation) (now later : Timestamp), operation.Neutral r →
      operation.KeepsPrecision r → r.updatedAt ≤ now → now ≤ later →
      (r.operate ⟨now, operation⟩).Lags r 1 later) ∧
    (∀ (touches : List Occasion) (later : Timestamp),
      (∀ touch ∈ touches, touch.operation.Neutral r ∧ touch.operation.KeepsPrecision r) →
      (r.updatedAt :: touches.map Occasion.now).Pairwise (· ≤ ·) →
      (∀ touch ∈ touches, touch.now ≤ later) →
      (r.operateAll touches).Lags r touches.length later) ∧
    ∀ (limit : TrimmedAmount) (start duration : Timestamp) (earlier : List Occasion),
      r = (full limit start duration).operateAll earlier →
      ∀ operation : Operation, operation.KeepsPrecision r := by
  refine ⟨?_, ?_, fun touches later => lags_of_operateAll hduration, ?_⟩
  · intro operation now hneutral hprecision hexpressible
    rcases operate_of_neutral hduration hneutral hprecision now with ⟨_, hleft⟩ | ⟨hnot, _⟩
    · exact hleft
    · exact absurd hexpressible hnot
  · -- It leaves what a touch leaves, or nothing has happened.
    intro operation now later hneutral hprecision hclock hlater
    rcases operate_of_neutral hduration hneutral hprecision now with ⟨_, hleft⟩ | ⟨_, hleft⟩
    · rw [hleft]
      exact lags_of_touched (Int64.lt_iff_toInt_lt.mp hduration) hclock hlater
    · rw [hleft]
      exact Lags.refl r 1 later
  · rintro limit start duration earlier rfl operation
    exact keepsPrecision_of_decimals (decimals_operateAll limit start duration earlier) operation

end RateLimit

namespace Sample

/-! ## §4 Two limits to look at -/

/-- A limit of seven units that fills in 100 seconds, and is empty at the time zero. -/
def trickle : RateLimit := ⟨⟨7, 8⟩, ⟨0, 8⟩, 0, 100⟩

/-- It is touched five times in 20 seconds, in all the ways there are. One of the calls fails. -/
def strokes : List RateLimit.Occasion :=
  [⟨4, .ask (.consume ⟨0, 8⟩)⟩, ⟨8, .ask (.refill ⟨0, 6⟩)⟩, ⟨12, .setLimit ⟨7, 8⟩⟩,
   ⟨12, .ask (.consumeQueued ⟨0, 200⟩)⟩, ⟨20, .setDuration 100⟩]

/-- Each call that is carried out sets the clock back before the next unit is there, so that none
of the two that there would be after 30 seconds is. -/
theorem trickle_lags :
    (0 : Timestamp) < trickle.duration ∧ (trickle.capacityAt 30).amount = 2 ∧
      ((trickle.operateAll strokes).capacityAt 30).amount = 0 ∧
      (trickle.operateAll strokes).Lags trickle 5 30 := by
  have hduration : (0 : Timestamp) < trickle.duration := by decide
  have hprecision := RateLimit.keepsPrecision_of_decimals (r := trickle) rfl
  obtain ⟨_, _, hruns, _⟩ := RateLimit.touches_lose hduration
  refine ⟨hduration, by decide +kernel, by decide +kernel, hruns strokes 30 ?_ ?_ ?_⟩
  · simp only [strokes, List.mem_cons, List.not_mem_nil, or_false, forall_eq_or_imp, forall_eq]
    exact ⟨⟨rfl, hprecision _⟩, ⟨rfl, hprecision _⟩, ⟨rfl, hprecision _⟩, ⟨rfl, hprecision _⟩,
      ⟨rfl, hprecision _⟩⟩
  · decide
  · decide

/-- A limit of 1,000 units in six decimals that was restored with 150 units in eight. -/
def restated : RateLimit := ⟨⟨1000, 6⟩, ⟨150, 8⟩, 0, 100⟩

/-- **Setting a limit to what it is set to restates its capacity.** The 150 units become one; after
50 seconds there are 501 units where there would be 650, and they are worth more. -/
theorem restated_changes :
    0 < restated.duration ∧ restated.stored.amount ≤ restated.limit.amount ∧
      restated.updatedAt ≤ 0 ∧ (0 : Timestamp) ≤ 50 ∧
      restated.setLimit restated.limit 0 = .ok ⟨⟨1000, 6⟩, ⟨1, 6⟩, 0, 100⟩ ∧
      restated.capacityAt 50 = ⟨650, 8⟩ ∧
      RateLimit.capacityAt ⟨⟨1000, 6⟩, ⟨1, 6⟩, 0, 100⟩ 50 = ⟨501, 6⟩ ∧
      ¬ (restated.capacityAt 50).amount.toNat ≤
        (RateLimit.capacityAt ⟨⟨1000, 6⟩, ⟨1, 6⟩, 0, 100⟩ 50).amount.toNat + 1 ∧
      (⟨501, 6⟩ : TrimmedAmount).changeDecimals 8 = .ok ⟨50100, 8⟩ :=
  ⟨by decide, by decide, by decide, by decide, by decide +kernel, by decide +kernel,
    by decide +kernel, by decide +kernel, by decide +kernel⟩

end Sample

end CrossChain
