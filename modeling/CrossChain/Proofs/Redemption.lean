import CrossChain.Proofs.Inbound

/-!
# A message is paid for once

Over any run of a manager the recipient of a message is paid at most once, what the message says,
and once its transfer is released every call for it leaves everything as it was.

## Main statements

* `Book.credited_once`: no two steps credit one transfer.
* `Book.credit_pays`: a step that credits pays what a message redeemed so far says.
* `Book.redeemed_at_most_once`: all of it, for every message under the key.
-/

namespace CrossChain

namespace Book

variable {b : Book} {events : List Event} {i j : ℕ} {s t : Step} {digest : Digest}

/-- **Credits happen once**: two steps that credit one transfer are the same step. -/
theorem credited_once (hfresh : b.Fresh) (hs : (b.trace events)[i]? = some s)
    (ht : (b.trace events)[j]? = some t) (hcredit : s.Credits digest)
    (hcredit' : t.Credits digest) : i = j := by
  have honce := List.pairwise_iff_getElem.mp (b.remembers hfresh events).once
  obtain ⟨hi, rfl⟩ := List.getElem?_eq_some_iff.mp hs
  obtain ⟨hj, rfl⟩ := List.getElem?_eq_some_iff.mp ht
  rcases Nat.lt_trichotomy i j with hlt | heq | hgt
  · exact absurd hcredit' (honce i j hi hj hlt digest hcredit)
  · exact heq
  · exact absurd hcredit (honce j i hj hi hgt digest hcredit')

/-- **A credit pays what a message says** that was redeemed by then. -/
theorem credit_pays (hfresh : b.Fresh) (hs : (b.trace events)[i]? = some s)
    (hcredit : s.Credits digest) :
    ∃ j ≤ i, ∃ t, (b.trace events)[j]? = some t ∧ ∃ a, t.Redeems a digest ∧
      ∃ amount, a.delivery.message.payload.amount.untrim b.manager.config.tokenDecimals =
        .ok amount ∧ s.Pays a.delivery.message.payload.recipient amount := by
  obtain ⟨_, item, _, _, hmoves, _, _, amount, huntrim, hpays⟩ :=
    (transition_at hs).moves_of_credits hcredit
  obtain ⟨t, ht, a, hredeems, _, hamount, hrecipient⟩ :=
    (remembers_at hfresh hs).named digest item hmoves.get?_inbox
  obtain ⟨j, hj, ht⟩ := exists_le_of_mem_take ht
  rw [hamount, (step_akin hs).tokenDecimals] at huntrim
  rw [hrecipient] at hpays
  exact ⟨j, hj, t, ht, a, hredeems, amount, huntrim, hpays⟩

/-- **At-most-once redemption**: in every run of a manager that was just created, and for every
key,

* at most one step credits tokens for it;
* a message was redeemed under it by then, and whoever redeems a message under it, that step pays
  the recipient in the message exactly what the amount in the message is worth;
* from the moment its entry is released, every redemption and every release of it, by whoever and
  whenever, leaves the manager and the token exactly as they were, and either says that the
  transfer was released before or fails. -/
theorem redeemed_at_most_once (hfresh : b.Fresh) (events : List Event)
    (hcollision : NoCollision (b.trace events)) (digest : Digest) :
    (∀ (i j : ℕ) (s t : Step), (b.trace events)[i]? = some s → (b.trace events)[j]? = some t →
      s.Credits digest → t.Credits digest → i = j) ∧
    (∀ (i : ℕ) (s : Step), (b.trace events)[i]? = some s → s.Credits digest →
      (∃ j ≤ i, ∃ t : Step, (b.trace events)[j]? = some t ∧ ∃ a, t.Redeems a digest) ∧
      ∀ t ∈ b.trace events, ∀ a, t.Redeems a digest →
        ∃ amount, a.delivery.message.payload.amount.untrim b.manager.config.tokenDecimals =
          .ok amount ∧ s.Pays a.delivery.message.payload.recipient amount) ∧
    ∀ (i j : ℕ) (s t : Step) (item : InboxItem), (b.trace events)[i]? = some s →
      (b.trace events)[j]? = some t → i ≤ j →
      s.before.manager.inbox.get? digest = some item → item.status = .released →
      t.event.action.subject? = some digest →
        t.after = t.before ∧
          (t.inboundStatus? = some .alreadyReleased ∨ ∃ failure, t.outcome = .error failure) := by
  refine ⟨fun i j s t hs ht => credited_once hfresh hs ht, ?_, ?_⟩
  · intro i s hs hcredit
    obtain ⟨j, hj, t, ht, a, hredeems, amount, huntrim, hpays⟩ := credit_pays hfresh hs hcredit
    refine ⟨⟨j, hj, t, ht, a, hredeems⟩, ?_⟩
    intro u hu c hc
    -- The message that made the entry is the only one under its key.
    obtain ⟨_, hsame⟩ := hcollision.same_message (List.mem_of_getElem? ht) hu hredeems hc
    rw [← hsame]
    exact ⟨amount, huntrim, hpays⟩
  · intro i j s t item hs ht hij hitem hreleased hsubject
    exact (transition_at ht).of_released (released_later hs ht hij hitem hreleased) hreleased
      hsubject

end Book

namespace Sample

/-- Only one message is redeemed on the second chain. -/
theorem away_redeems {s : Step} (hs : s ∈ away.trace awayEvents) {a : Arrival} {digest : Digest}
    (h : s.Redeems a digest) : a.source = ⟨1⟩ ∧ a.delivery = delivery := by
  have harrival := h.1
  have hevent := Book.event_mem hs
  simp only [awayEvents, List.mem_cons, List.not_mem_nil, or_false] at hevent
  rcases hevent with he | he | he | he | he | he <;> rw [he] at harrival <;>
    cases harrival <;> exact ⟨rfl, rfl⟩

theorem away_noCollision : NoCollision (away.trace awayEvents) := by
  intro a c bytes bytes' ⟨s, hs, _, ha⟩ ⟨t, ht, _, hc⟩ hbytes hbytes' _
  obtain ⟨hsource, hdelivery⟩ := away_redeems hs ha
  obtain ⟨hsource', hdelivery'⟩ := away_redeems ht hc
  rw [Arrival.hashed, hsource, hdelivery] at hbytes
  rw [Arrival.hashed, hsource', hdelivery'] at hbytes'
  exact Except.ok.inj (hbytes.symm.trans hbytes')

/-- On the second chain the fourth step pays for the message, and no other step does. -/
theorem away_redeemed_once :
    payment.Pays (address 22) 1234567 ∧
      ∀ (i : ℕ) (s : Step), (away.trace awayEvents)[i]? = some s → s.Credits key → i = 3 := by
  obtain ⟨honce, hpays, _⟩ :=
    Book.redeemed_at_most_once away_fresh awayEvents away_noCollision key
  obtain ⟨amount, huntrim, hpaid⟩ := (hpays 3 payment payment_at payment_credits).2 payment
    (List.mem_of_getElem? payment_at) _ payment_redeems
  have hamount : amount = 1234567 :=
    Except.ok.inj (huntrim.symm.trans (by decide +kernel))
  rw [hamount] at hpaid
  exact ⟨hpaid, fun i s hs hc => honce i 3 s payment hs payment_at hc payment_credits⟩

end Sample

end CrossChain
