import CrossChain.Proofs.Outbound
import CrossChain.Proofs.Redemption

/-!
# From one chain to the other

Two managers on two chains, whose calls interleave in any way. The transceivers deliver to the
second one, as coming from the first one, only messages that the first one handed out; they do so
in any order, any number of times or never. Every credit then belongs to one transfer that the
sender paid for, and creates nothing.

Nothing is asked of calls that fail. Whoever is no enabled transceiver may call with forged
messages, and strangers may post them.

## Main statements

* `Exchange`: the runs of the two managers.
* `Exchange.origin`: a message that was redeemed is the message of exactly one transfer.
* `Exchange.end_to_end`: what holds of every credit.
-/

namespace CrossChain

/-! ## §1 Two managers -/

/-- A message names a manager as its source. -/
def Arrival.From (x : Arrival) (c : Config) : Prop :=
  x.source = c.chain ∧ x.delivery.sourceManager = c.address

/-- What a step accepts as coming from a manager is among the messages that the manager handed
out. -/
def Carried (c : Config) (history : List Step) (t : Step) : Prop :=
  ∀ x digest, t.Redeems x digest → x.From c → ∃ s ∈ history, s.HandsOver x.delivery

/-- The runs of two managers: the steps of each so far, and their books. -/
inductive Exchange (a₀ b₀ : Book) : List Step → List Step → Book → Book → Prop where
  /-- Nothing has happened. -/
  | start : Exchange a₀ b₀ [] [] a₀ b₀
  /-- Something happens on the first chain. -/
  | home {sent received : List Step} {a b : Book} (h : Exchange a₀ b₀ sent received a b)
      (event : Event) :
      Exchange a₀ b₀ (sent ++ [a.step event]) received (a.step event).after b
  /-- Something happens on the second chain. -/
  | away {sent received : List Step} {a b : Book} (h : Exchange a₀ b₀ sent received a b)
      (event : Event) (hcarried : Carried a₀.manager.config sent (b.step event)) :
      Exchange a₀ b₀ sent (received ++ [b.step event]) a (b.step event).after

/-- A step credits tokens for a message that some step of the run redeems. -/
def CreditsFor (steps : List Step) (s : Step) (x : Arrival) : Prop :=
  ∃ digest, s.Credits digest ∧ ∃ t ∈ steps, t.Redeems x digest

/-- An outbound transfer has a message. -/
def Manager.Originates (m : Manager) (x : Arrival) (sequence : UInt64) (item : OutboxItem) : Prop :=
  m.outbox.get? sequence = some item ∧ item.message m.config.tokenAddress = x.delivery.message

namespace Exchange

variable {a₀ b₀ a b : Book} {sent received : List Step}

theorem home_eq (h : Exchange a₀ b₀ sent received a b) :
    ∃ events, sent = a₀.trace events ∧ a = a₀.run events := by
  induction h with
  | start => exact ⟨[], rfl, rfl⟩
  | away _ _ _ ih => exact ih
  | home _ event ih =>
    obtain ⟨events, rfl, rfl⟩ := ih
    exact ⟨events ++ [event], by rw [Book.trace_concat], by rw [Book.run_concat]⟩

theorem away_eq (h : Exchange a₀ b₀ sent received a b) :
    ∃ events, received = b₀.trace events ∧ b = b₀.run events := by
  induction h with
  | start => exact ⟨[], rfl, rfl⟩
  | home _ _ ih => exact ih
  | away _ event _ ih =>
    obtain ⟨events, rfl, rfl⟩ := ih
    exact ⟨events ++ [event], by rw [Book.trace_concat], by rw [Book.run_concat]⟩

/-- The first chain may run first. -/
theorem of_home (a₀ b₀ : Book) (events : List Event) :
    Exchange a₀ b₀ (a₀.trace events) [] (a₀.run events) b₀ :=
  Book.run_induction (motive := fun history current => Exchange a₀ b₀ history [] current b₀)
    .start (fun _ _ event h => h.home event) events

/-- The second chain may run after the first one. -/
theorem of_away (h : Exchange a₀ b₀ sent [] a b₀) (events : List Event)
    (hcarried : ∀ t ∈ b₀.trace events, Carried a₀.manager.config sent t) :
    Exchange a₀ b₀ sent (b₀.trace events) a (b₀.run events) :=
  Book.run_induction_of (motive := fun history current => Exchange a₀ b₀ sent history a current)
    h (fun _ _ event hcarried ih => ih.away event hcarried) hcarried

/-- What was redeemed was handed out. -/
theorem handed_out (h : Exchange a₀ b₀ sent received a b) {t : Step} (ht : t ∈ received)
    {x : Arrival} {digest : Digest} (hx : t.Redeems x digest) (hfrom : x.From a₀.manager.config) :
    ∃ s ∈ sent, s.HandsOver x.delivery := by
  induction h with
  | start => cases ht
  | home _ event ih =>
    obtain ⟨s, hs, hover⟩ := ih ht
    exact ⟨s, List.mem_append_left _ hs, hover⟩
  | away _ event hcarried ih =>
    rcases List.mem_append.mp ht with ht | ht
    · exact ih ht
    · rw [List.mem_singleton.mp ht] at hx
      exact hcarried x digest hx hfrom

/-- **The origin of a message** that was redeemed is exactly one transfer, which is released and
was never taken back. -/
theorem origin (h : Exchange a₀ b₀ sent received a b) (hA : a₀.Fresh) {t : Step}
    (ht : t ∈ received) {x : Arrival} {digest : Digest} (hx : t.Redeems x digest)
    (hfrom : x.From a₀.manager.config) :
    ∃ sequence item, a.manager.Originates x sequence item ∧
      (∀ other item', a.manager.Originates x other item' → other = sequence) ∧
      item.status = .released ∧ item.cancelled = false ∧
      ∀ v ∈ sent, ∀ caller answer, v.event.action = .cancelOutbound caller sequence →
        v.outcome ≠ .ok answer := by
  obtain ⟨s, hs, hover⟩ := h.handed_out ht hx hfrom
  obtain ⟨events, rfl, rfl⟩ := h.home_eq
  have hrecords := Book.records hA events
  obtain ⟨sequence, item, hitem, hreleased, hcancelled, hdelivery⟩ :=
    hrecords.handed s hs x.delivery hover
  refine ⟨sequence, item, ⟨hitem, by rw [hdelivery]⟩, fun other item' horigin => ?_, hreleased,
    hcancelled, fun v hv caller answer haction hok => ?_⟩
  · -- The id in a message is the number of its transfer.
    have hid : ManagerMessage.idOfSequence item'.sequence =
        ManagerMessage.idOfSequence item.sequence := by
      have hmessage := horigin.2
      rw [hdelivery] at hmessage
      exact congrArg ManagerMessage.id hmessage
    rw [← (hrecords.entries other item' horigin.1).number,
      ← (hrecords.entries sequence item hitem).number]
    exact ManagerMessage.idOfSequence_injective hid
  · -- Had it been taken back, its entry would say so.
    obtain ⟨item', hitem', hcancelled'⟩ :=
      hrecords.cancelled v hv caller sequence answer haction hok
    cases hitem.symm.trans hitem'
    cases hcancelled.symm.trans hcancelled'

/-- **End to end**: for every credit that the second manager makes for a message from the first
one there is exactly one transfer with that message in the outbox of the first manager. It is
released and was never taken back, no other step credits it, and what is credited, to the
recipient it names, is worth no more than what was taken from its sender, and as much where the
second token can express its amount. -/
theorem end_to_end (h : Exchange a₀ b₀ sent received a b) (hA : a₀.Fresh) (hB : b₀.Fresh)
    (hcollision : NoCollision received) {i : ℕ} {s : Step} (hs : received[i]? = some s)
    {x : Arrival} (hcredit : CreditsFor received s x) (hfrom : x.From a₀.manager.config) :
    ∃ sequence item, a.manager.Originates x sequence item ∧
      (∀ other item', a.manager.Originates x other item' → other = sequence) ∧
      item.status = .released ∧ item.cancelled = false ∧
      (∀ v ∈ sent, ∀ caller answer, v.event.action = .cancelOutbound caller sequence →
        v.outcome ≠ .ok answer) ∧
      (∀ (j : ℕ) (u : Step) (y : Arrival), received[j]? = some u → CreditsFor received u y →
        y.From a₀.manager.config → a.manager.Originates y sequence item → j = i) ∧
      ∃ v ∈ sent, ∃ receipt credited, v.outcome = .ok (.sent receipt) ∧
        receipt.sequence = sequence ∧ v.Takes item.sender receipt.debited ∧
        s.Pays item.recipient credited ∧
        credited.toNat * 10 ^ a₀.manager.config.tokenDecimals.toNat ≤
          receipt.debited.toNat * 10 ^ b₀.manager.config.tokenDecimals.toNat ∧
        (item.amount.decimals ≤ b₀.manager.config.tokenDecimals →
          credited.toNat * 10 ^ a₀.manager.config.tokenDecimals.toNat =
            receipt.debited.toNat * 10 ^ b₀.manager.config.tokenDecimals.toNat) := by
  obtain ⟨digest, hcredits, t, ht, hx⟩ := hcredit
  obtain ⟨sequence, item, horigin, hunique, hreleased, hcancelled, hnever⟩ :=
    h.origin hA ht hx hfrom
  obtain ⟨eventsB, rfl, rfl⟩ := h.away_eq
  obtain ⟨eventsA, rfl, rfl⟩ := h.home_eq
  refine ⟨sequence, item, horigin, hunique, hreleased, hcancelled, hnever, ?_, ?_⟩
  · rintro j u y hu ⟨digest', hcredits', w, hw, hy⟩ hfrom' horigin'
    -- Both messages are the message of the transfer, so they have one key.
    have hkey : digest' = digest := by
      have hsource : y.source = x.source := hfrom'.1.trans hfrom.1.symm
      have hmessage : y.delivery.message = x.delivery.message := horigin'.2.symm.trans horigin.2
      have hdigest := hy.2.1
      rw [Arrival.digest, hsource, hmessage] at hdigest
      exact Except.ok.inj (hdigest.symm.trans hx.2.1)
    subst hkey
    exact Book.credited_once hB hu hs hcredits' hcredits
  · obtain ⟨_, _, w, hw, y, hy, credited, hcredited, hpays⟩ := Book.credit_pays hB hs hcredits
    -- What is paid is what some message under the key says, and there is only one.
    obtain ⟨_, hsame⟩ := hcollision.same_message (List.mem_of_getElem? hw) ht hy hx
    obtain ⟨_, _, ⟨v, hv, receipt, hok, hsequence, htakes, hdebited⟩, hprecision⟩ :=
      (Book.records hA eventsA).entries sequence item horigin.1
    rw [(a₀.run_akin eventsA).tokenDecimals] at hdebited hprecision
    rw [hsame, ← horigin.2] at hcredited hpays
    refine ⟨v, hv, receipt, credited, hok, hsequence, htakes, hpays,
      TrimmedAmount.untrim_mul_le hdebited hcredited hprecision, fun hle => ?_⟩
    exact TrimmedAmount.untrim_mul_eq hdebited hcredited hprecision (UInt8.le_iff_toNat_le.mp hle)

end Exchange

namespace Sample

/-- The fourth step on the first chain hands the message out. -/
theorem home_handsOver : ∃ s ∈ home.trace homeEvents, s.HandsOver delivery := by
  have hat := Book.trace_getElem? home homeEvents 3
  refine ⟨_, List.mem_of_getElem? hat, .inl ⟨⟨delivery.message, ⟨2⟩, address 12, none⟩, ?_, ?_⟩⟩
  · decide +kernel
  · decide +kernel

theorem exchange : Exchange home away (home.trace homeEvents) (away.trace awayEvents)
    (home.run homeEvents) (away.run awayEvents) := by
  refine (Exchange.of_home home away homeEvents).of_away awayEvents ?_
  intro t ht x digest hx _
  rw [(away_redeems ht hx).2]
  exact home_handsOver

/-- The payment on the second chain belongs to the transfer on the first one, and is worth what
was taken there. -/
theorem payment_end_to_end :
    ∃ sequence item,
      (home.run homeEvents).manager.Originates ⟨address 31, ⟨1⟩, delivery⟩ sequence item ∧
        item.status = .released ∧ item.cancelled = false ∧
        ∃ debited credited : UInt64, payment.Pays item.recipient credited ∧
          credited.toNat * 10 ^ 9 = debited.toNat * 10 ^ 7 := by
  obtain ⟨sequence, item, horigin, _, hreleased, hcancelled, _, _, _, _, receipt, credited, _, _,
    _, hpays, _, hworth⟩ := Exchange.end_to_end exchange home_fresh away_fresh away_noCollision
      payment_at ⟨key, payment_credits, payment, List.mem_of_getElem? payment_at, payment_redeems⟩
      ⟨by decide +kernel, by decide +kernel⟩
  have hamount : item.amount = ⟨1234567, 7⟩ := congrArg (·.payload.amount) horigin.2
  have hle : item.amount.decimals ≤ away.manager.config.tokenDecimals := by
    rw [hamount]
    decide +kernel
  exact ⟨sequence, item, horigin, hreleased, hcancelled, receipt.debited, credited, hpays,
    hworth hle⟩

end Sample

end CrossChain
