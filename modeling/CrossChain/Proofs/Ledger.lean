import CrossChain.Proofs.Basic
import CrossChain.Token

/-!
# The token ledger in numbers

What each operation on the ledger does, on the sum of all balances, the custody and the supply,
and that an operation that fails leaves the ledger as it was.

The sum runs over the entries of a sorted map, so the first part says what setting one entry does
to the others and to a sum over all.

## Main statements

* `SortedMap.total_insert`: setting an entry changes a sum by the difference of that entry.
* `Token.debit_ok`, `Token.credit_ok`: taking tokens and giving them, in either mode.
* `Token.balanceOf_payer_of_debit`: the account that pays.
* `Token.balanceOf_of_debit`, `Token.balanceOf_other_of_credit`: other accounts.
* `Token.debit_error`, `Token.credit_error`: an operation that fails changes nothing.
-/

namespace CrossChain

/-! ## §1 Entries of a map -/

namespace SortedMap

variable {κ α : Type} [Ranked κ]

/-- The sum of a number for each value of a map. -/
def total (f : α → ℕ) (m : SortedMap κ α) : ℕ :=
  (m.toList.map fun entry => f entry.2).sum

theorem total_empty (f : α → ℕ) : (empty : SortedMap κ α).total f = 0 := rfl

/-- Helper: no entry behind a greater one has the key. -/
private theorem find_above {key : κ} {entries : List (κ × α)}
    (h : ∀ e ∈ entries, rank key < rank e.1) :
    entries.find? (fun e => rank e.1 == rank key) = none := by
  rw [List.find?_eq_none]
  intro e he
  have hlt := h e he
  simp only [beq_iff_eq]
  omega

private theorem sum_insertEntry (f : α → ℕ) (key : κ) (value : α) {entries : List (κ × α)}
    (h : entries.Pairwise fun a b => rank a.1 < rank b.1) :
    ((insertEntry key value entries).map fun e => f e.2).sum +
        ((entries.find? fun e => rank e.1 == rank key).elim 0 fun e => f e.2) =
      (entries.map fun e => f e.2).sum + f value := by
  -- By induction on the entries, which stand in the order of their keys.
  induction entries with
  | nil => simp [insertEntry]
  | cons entry rest ih =>
    obtain ⟨hbelow, htail⟩ := List.pairwise_cons.mp h
    rw [insertEntry]
    split
    next hless =>
      -- The new entry comes first, and no other has its key.
      have hnone : (entry :: rest).find? (fun e => rank e.1 == rank key) = none :=
        find_above fun e he => by
          rcases List.mem_cons.mp he with rfl | he
          · exact hless
          · exact hless.trans (hbelow e he)
      rw [hnone]
      simp only [List.map_cons, List.sum_cons, Option.elim_none]
      omega
    next hnot =>
      split
      next hsame =>
        simp only [List.find?_cons, ← hsame, beq_self_eq_true, Option.elim_some,
          List.map_cons, List.sum_cons]
        omega
      next hdiffers =>
        have hmiss : (rank entry.1 == rank key) = false := by
          simpa using fun h => hdiffers h.symm
        have hrest := ih htail
        simp only [List.find?_cons, hmiss, List.map_cons, List.sum_cons]
        omega

/-- **Setting an entry** changes a sum by the difference of that entry. -/
theorem total_insert (f : α → ℕ) (m : SortedMap κ α) (key : κ) (value : α) :
    (m.insert key value).total f + (m.get? key).elim 0 f = m.total f + f value := by
  have h := sum_insertEntry f key value m.ascending
  have hget : (m.get? key).elim 0 f =
      (m.toList.find? fun e => rank e.1 == rank key).elim 0 fun e => f e.2 := by
    unfold get?
    cases m.toList.find? fun e => rank e.1 == rank key <;> rfl
  rw [hget]
  exact h

theorem get?_insert_self (m : SortedMap κ α) (key : κ) (v : α) :
    (m.insert key v).get? key = some v := by
  rw [get?_insert, if_pos rfl]

/-- **An entry after a change** is the one that was set or was there before. -/
theorem get?_insert_eq_some {m : SortedMap κ α} {key k : κ} {v w : α} :
    (m.insert key v).get? k = some w ↔ k = key ∧ w = v ∨ k ≠ key ∧ m.get? k = some w := by
  rw [get?_insert]
  split
  next heq =>
    cases Ranked.rank_injective heq
    simp [eq_comm]
  next hne =>
    have hother : k ≠ key := fun h => hne (congrArg rank h.symm)
    simp [hother]

theorem contains_insert {m : SortedMap κ α} {key k : κ} {v : α} :
    (m.insert key v).contains k = true ↔ k = key ∨ m.contains k = true := by
  simp only [contains, Option.isSome_iff_exists, get?_insert_eq_some]
  by_cases hsame : k = key <;> simp [hsame]

theorem get?_insert_of_ne {m : SortedMap κ α} {key k : κ} (v : α) (h : k ≠ key) :
    (m.insert key v).get? k = m.get? k := by
  rw [get?_insert, if_neg]
  exact fun hsame => h (Ranked.rank_injective hsame).symm

/-- What an entry keeps when it changes, the map keeps. -/
theorem map_get?_insert {β : Type} {m : SortedMap κ α} {key : κ} {v w : α} {f : α → β}
    (hold : m.get? key = some v) (h : f w = f v) (k : κ) :
    ((m.insert key w).get? k).map f = (m.get? k).map f := by
  by_cases hsame : k = key
  · rw [hsame, get?_insert_self, hold, Option.map_some, Option.map_some, h]
  · rw [get?_insert_of_ne w hsame]

/-- Changing an entry changes no keys. -/
theorem contains_insert_of_entry {m : SortedMap κ α} {key k : κ} {v w : α}
    (h : m.get? key = some w) : (m.insert key v).contains k = true ↔ m.contains k = true := by
  rw [contains_insert]
  apply or_iff_right_of_imp
  intro hsame
  rw [hsame, contains, h, Option.isSome_some]

/-- What holds of the entry that was set and of those that were there holds of every entry. -/
theorem forall_insert {m : SortedMap κ α} {key : κ} {v : α} {P : κ → α → Prop} (hnew : P key v)
    (hold : ∀ k w, m.get? k = some w → P k w) :
    ∀ k w, (m.insert key v).get? k = some w → P k w := by
  intro k w hentry
  rcases get?_insert_eq_some.mp hentry with ⟨rfl, rfl⟩ | ⟨_, hbefore⟩
  · exact hnew
  · exact hold k w hbefore

/-- Setting an entry twice is setting it once. -/
theorem insert_insert (m : SortedMap κ α) (key : κ) (v w : α) :
    (m.insert key v).insert key w = m.insert key w := by
  apply ext_get?
  intro k
  simp only [get?_insert]
  split <;> rfl

/-- Setting an entry to the value it has changes nothing. -/
theorem insert_self {m : SortedMap κ α} {key : κ} {v : α} (h : m.get? key = some v) :
    m.insert key v = m := by
  apply ext_get?
  intro k
  rw [get?_insert]
  split
  next heq => rw [← Ranked.rank_injective heq, h]
  next => rfl

end SortedMap

/-! ## §2 The operations -/

namespace Token

variable {t t' : Token} {owner : Address} {amount : UInt64} {mode : Mode} {e : TokenError}

/-- What all holders have together. -/
def held (t : Token) : ℕ :=
  t.balances.total UInt64.toNat

theorem held_setBalance (t : Token) (owner : Address) (amount : UInt64) :
    (t.setBalance owner amount).held + (t.balanceOf owner).toNat = t.held + amount.toNat := by
  have h := SortedMap.total_insert UInt64.toNat t.balances owner amount
  have hbalance : (t.balanceOf owner).toNat = (t.balances.get? owner).elim 0 UInt64.toNat := by
    unfold balanceOf
    cases t.balances.get? owner <;> rfl
  rw [hbalance]
  exact h

theorem take_result (t : Token) (owner : Address) (amount : UInt64) :
    (∃ e, take owner amount t = .error e t) ∨
      ∃ remaining, remaining.toNat + amount.toNat = (t.balanceOf owner).toNat ∧
        take owner amount t = .ok () (t.setBalance owner remaining) := by
  simp only [take, run_bind, run_get]
  cases hsub : Word.sub? (t.balanceOf owner) amount with
  | none => exact .inl ⟨_, rfl⟩
  | some remaining => exact .inr ⟨remaining, Word.sub?_eq_some.mp hsub, rfl⟩

/-- **Giving tokens** fails only where the holder has an entry already, so the entry that is
made before the sum is checked never stays behind. -/
theorem give_result (t : Token) (owner : Address) (amount : UInt64) :
    (∃ e, give owner amount t = .error e t) ∨
      ∃ raised, raised.toNat = (t.balanceOf owner).toNat + amount.toNat ∧
        give owner amount t = .ok () (t.setBalance owner raised) := by
  simp only [give, run_bind, run_get, run_modify]
  cases hadd : Word.add? (t.balanceOf owner) amount with
  | some raised =>
    refine .inr ⟨raised, Word.add?_eq_some.mp hadd, ?_⟩
    simp only [fitting, run_pure, setBalance, SortedMap.insert_insert]
  | none =>
    -- An absent entry counts as zero, to which any amount can be added.
    have hentry : t.balances.get? owner = some (t.balanceOf owner) := by
      unfold balanceOf at hadd ⊢
      cases hget : t.balances.get? owner with
      | some balance => rfl
      | none =>
        have hsum : Word.add? 0 amount = some amount := Word.add?_eq_some.mpr (by simp)
        rw [hget, Option.getD_none, hsum] at hadd
        cases hadd
    refine .inl ⟨.supplyOverflow, ?_⟩
    simp only [fitting, run_throw, setBalance, SortedMap.insert_self hentry]

theorem lock_result (t : Token) (owner : Address) (amount : UInt64) :
    (∃ e, lock owner amount t = .error e t) ∨
      ∃ remaining custody, remaining.toNat + amount.toNat = (t.balanceOf owner).toNat ∧
        custody.toNat = t.custody.toNat + amount.toNat ∧
        lock owner amount t = .ok () { t.setBalance owner remaining with custody } := by
  simp only [lock, run_bind, run_get, run_modify]
  cases hadd : Word.add? t.custody amount with
  | none => exact .inl ⟨.supplyOverflow, rfl⟩
  | some custody =>
    simp only [fitting, run_pure]
    rcases take_result t owner amount with ⟨e, he⟩ | ⟨remaining, hremaining, htake⟩
    · exact .inl ⟨e, by rw [he]⟩
    · exact .inr ⟨remaining, custody, hremaining, Word.add?_eq_some.mp hadd, by rw [htake]⟩

theorem unlock_result (t : Token) (owner : Address) (amount : UInt64) :
    (∃ e, unlock owner amount t = .error e t) ∨
      ∃ raised custody, raised.toNat = (t.balanceOf owner).toNat + amount.toNat ∧
        custody.toNat + amount.toNat = t.custody.toNat ∧
        unlock owner amount t = .ok () { t.setBalance owner raised with custody } := by
  simp only [unlock, run_bind, run_get]
  cases hsub : Word.sub? t.custody amount with
  | none => exact .inl ⟨_, rfl⟩
  | some custody =>
    simp only [run_bind, run_modify]
    rcases give_result t owner amount with ⟨e, he⟩ | ⟨raised, hraised, hgive⟩
    · exact .inl ⟨e, by rw [he]⟩
    · exact .inr ⟨raised, custody, hraised, Word.sub?_eq_some.mp hsub, by rw [hgive]⟩

theorem burn_result (t : Token) (owner : Address) (amount : UInt64) :
    (∃ e, burn owner amount t = .error e t) ∨
      ∃ remaining supply, remaining.toNat + amount.toNat = (t.balanceOf owner).toNat ∧
        supply.toNat = t.supply.toNat - amount.toNat ∧
        burn owner amount t = .ok () { t.setBalance owner remaining with supply } := by
  simp only [burn, run_bind, run_modify]
  rcases take_result t owner amount with ⟨e, he⟩ | ⟨remaining, hremaining, htake⟩
  · exact .inl ⟨e, by rw [he]⟩
  · exact .inr ⟨remaining, _, hremaining, Word.toNat_subSat _ _, by rw [htake]; rfl⟩

theorem mint_result (t : Token) (owner : Address) (amount : UInt64) :
    (∃ e, mint owner amount t = .error e t) ∨
      ∃ raised supply, raised.toNat = (t.balanceOf owner).toNat + amount.toNat ∧
        supply.toNat = t.supply.toNat + amount.toNat ∧
        mint owner amount t = .ok () { t.setBalance owner raised with supply } := by
  simp only [mint, run_bind, run_get, run_modify]
  cases hadd : Word.add? t.supply amount with
  | none => exact .inl ⟨.supplyOverflow, rfl⟩
  | some supply =>
    simp only [fitting, run_pure]
    rcases give_result t owner amount with ⟨e, he⟩ | ⟨raised, hraised, hgive⟩
    · exact .inl ⟨e, by rw [he]⟩
    · exact .inr ⟨raised, supply, hraised, Word.add?_eq_some.mp hadd, by rw [hgive]⟩

/-! ## §3 Debits and credits -/

/-- **Taking tokens** lowers the sum of the balances by the amount, which goes into custody or
out of the supply. -/
theorem debit_ok (h : debit mode owner amount t = .ok () t') :
    t'.held + amount.toNat = t.held ∧
      match mode with
      | .locking => t'.custody.toNat = t.custody.toNat + amount.toNat ∧ t'.supply = t.supply
      | .burning => t'.supply.toNat = t.supply.toNat - amount.toNat ∧ t'.custody = t.custody := by
  -- In both modes the sender's balance falls by the amount.
  have hsum (remaining : UInt64)
      (hremaining : remaining.toNat + amount.toNat = (t.balanceOf owner).toNat) :
      (t.setBalance owner remaining).held + amount.toNat = t.held := by
    have hheld := held_setBalance t owner remaining
    omega
  cases mode with
  | locking =>
    rcases lock_result t owner amount with ⟨e, he⟩ | ⟨_, custody, hremaining, hcustody, hok⟩
    · cases he.symm.trans h
    · cases hok.symm.trans h
      exact ⟨hsum _ hremaining, hcustody, rfl⟩
  | burning =>
    rcases burn_result t owner amount with ⟨e, he⟩ | ⟨_, supply, hremaining, hsupply, hok⟩
    · cases he.symm.trans h
    · cases hok.symm.trans h
      exact ⟨hsum _ hremaining, hsupply, rfl⟩

/-- **Giving tokens** raises the sum of the balances by the amount, which comes out of custody
or is new in the supply. -/
theorem credit_ok (h : credit mode owner amount t = .ok () t') :
    t'.held = t.held + amount.toNat ∧
      match mode with
      | .locking => t'.custody.toNat + amount.toNat = t.custody.toNat ∧ t'.supply = t.supply
      | .burning => t'.supply.toNat = t.supply.toNat + amount.toNat ∧ t'.custody = t.custody := by
  -- In both modes the recipient's balance rises by the amount.
  have hsum (raised : UInt64)
      (hraised : raised.toNat = (t.balanceOf owner).toNat + amount.toNat) :
      (t.setBalance owner raised).held = t.held + amount.toNat := by
    have hheld := held_setBalance t owner raised
    omega
  cases mode with
  | locking =>
    rcases unlock_result t owner amount with ⟨e, he⟩ | ⟨_, custody, hraised, hcustody, hok⟩
    · cases he.symm.trans h
    · cases hok.symm.trans h
      exact ⟨hsum _ hraised, hcustody, rfl⟩
  | burning =>
    rcases mint_result t owner amount with ⟨e, he⟩ | ⟨_, supply, hraised, hsupply, hok⟩
    · cases he.symm.trans h
    · cases hok.symm.trans h
      exact ⟨hsum _ hraised, hsupply, rfl⟩

theorem balanceOf_setBalance_self (t : Token) (owner : Address) (amount : UInt64) :
    (t.setBalance owner amount).balanceOf owner = amount := by
  rw [balanceOf, setBalance, SortedMap.get?_insert_self]
  rfl

/-- **The account that pays** has as much less as it pays. -/
theorem balanceOf_payer_of_debit (h : debit mode owner amount t = .ok () t') :
    (t'.balanceOf owner).toNat + amount.toNat = (t.balanceOf owner).toNat := by
  cases mode with
  | locking =>
    rcases lock_result t owner amount with ⟨e, he⟩ | ⟨remaining, custody, hremaining, _, hok⟩
    · cases he.symm.trans h
    · cases hok.symm.trans h
      rw [← hremaining]
      exact congrArg (·.toNat + amount.toNat) (balanceOf_setBalance_self t owner remaining)
  | burning =>
    rcases burn_result t owner amount with ⟨e, he⟩ | ⟨remaining, supply, hremaining, _, hok⟩
    · cases he.symm.trans h
    · cases hok.symm.trans h
      rw [← hremaining]
      exact congrArg (·.toNat + amount.toNat) (balanceOf_setBalance_self t owner remaining)

/-- Helper: setting the balance of one account leaves those of all others. -/
private theorem balanceOf_setBalance {account : Address} (t : Token) (amount : UInt64)
    (h : account ≠ owner) :
    (t.setBalance owner amount).balanceOf account = t.balanceOf account := by
  rw [balanceOf, setBalance, SortedMap.get?_insert_of_ne amount h]
  rfl

/-- **Taking tokens** from one account leaves the balances of all others. -/
theorem balanceOf_of_debit {account : Address} (h : debit mode owner amount t = .ok () t')
    (hother : account ≠ owner) : t'.balanceOf account = t.balanceOf account := by
  cases mode with
  | locking =>
    rcases lock_result t owner amount with ⟨e, he⟩ | ⟨remaining, _, _, _, hok⟩
    · cases he.symm.trans h
    · cases hok.symm.trans h
      exact balanceOf_setBalance t remaining hother
  | burning =>
    rcases burn_result t owner amount with ⟨e, he⟩ | ⟨remaining, _, _, _, hok⟩
    · cases he.symm.trans h
    · cases hok.symm.trans h
      exact balanceOf_setBalance t remaining hother

/-- **Giving tokens** to one account leaves the balances of all others. -/
theorem balanceOf_other_of_credit {account : Address} (h : credit mode owner amount t = .ok () t')
    (hother : account ≠ owner) : t'.balanceOf account = t.balanceOf account := by
  cases mode with
  | locking =>
    rcases unlock_result t owner amount with ⟨e, he⟩ | ⟨raised, _, _, _, hok⟩
    · cases he.symm.trans h
    · cases hok.symm.trans h
      exact balanceOf_setBalance t raised hother
  | burning =>
    rcases mint_result t owner amount with ⟨e, he⟩ | ⟨raised, _, _, _, hok⟩
    · cases he.symm.trans h
    · cases hok.symm.trans h
      exact balanceOf_setBalance t raised hother

/-- A debit that fails leaves the ledger as it was. -/
theorem debit_error (h : debit mode owner amount t = .error e t') : t' = t := by
  cases mode with
  | locking =>
    rcases lock_result t owner amount with ⟨_, he⟩ | ⟨_, _, _, _, hok⟩
    · cases he.symm.trans h
      rfl
    · cases hok.symm.trans h
  | burning =>
    rcases burn_result t owner amount with ⟨_, he⟩ | ⟨_, _, _, _, hok⟩
    · cases he.symm.trans h
      rfl
    · cases hok.symm.trans h

/-- A credit that fails leaves the ledger as it was. -/
theorem credit_error (h : credit mode owner amount t = .error e t') : t' = t := by
  cases mode with
  | locking =>
    rcases unlock_result t owner amount with ⟨_, he⟩ | ⟨_, _, _, _, hok⟩
    · cases he.symm.trans h
      rfl
    · cases hok.symm.trans h
  | burning =>
    rcases mint_result t owner amount with ⟨_, he⟩ | ⟨_, _, _, _, hok⟩
    · cases he.symm.trans h
      rfl
    · cases hok.symm.trans h

end Token

end CrossChain
