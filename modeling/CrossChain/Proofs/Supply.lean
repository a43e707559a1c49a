import CrossChain.Proofs.Ledger
import CrossChain.Proofs.Run

/-!
# The supply of the ledger

Any operations on a ledger that nobody holds anything of yet, in any order, some of which fail. The
supply always is what all holders and the custody have together.

Three operations rest on that. A faucet raises the supply before the balance is checked, a burn
stops at a supply of zero, and giving tokens makes an entry before it adds. As no balance is greater
than the supply, the faucet never fails half way, and the burn never stops.

## Main statements

* `Token.Covered.fund_result`: a faucet.
* `Token.Covered.operation_result`: what any operation keeps, and that a failing one changes
  nothing.
* `Token.supply_conserved`: any number of operations.
-/

namespace CrossChain

namespace Token

/-! ## §1 Operations -/

/-- What the ledger is asked to do for a holder. -/
inductive Movement where
  | fund (owner : Address) (amount : UInt64)
  | lock (owner : Address) (amount : UInt64)
  | unlock (recipient : Address) (amount : UInt64)
  | burn (owner : Address) (amount : UInt64)
  | mint (recipient : Address) (amount : UInt64)

/-- The operation that carries it out. -/
def Movement.operation : Movement → Operation Unit
  | .fund owner amount => Token.fund owner amount
  | .lock owner amount => Token.lock owner amount
  | .unlock recipient amount => Token.unlock recipient amount
  | .burn owner amount => Token.burn owner amount
  | .mint recipient amount => Token.mint recipient amount

/-- The ledger as an operation leaves it, whether it fails or not. -/
def after (t : Token) (movement : Movement) : Token :=
  match movement.operation t with
  | .ok _ t' => t'
  | .error _ t' => t'

/-- The ledger after some operations. -/
def afterAll (t : Token) (movements : List Movement) : Token :=
  movements.foldl after t

/-! ## §2 What operations keep -/

/-- The supply is what all holders and the custody have together. -/
def Covered (t : Token) : Prop :=
  t.supply.toNat = t.held + t.custody.toNat

variable {t t' : Token}

@[simp]
theorem setBalance_custody (t : Token) (owner : Address) (amount : UInt64) :
    (t.setBalance owner amount).custody = t.custody := rfl

@[simp]
theorem setBalance_supply (t : Token) (owner : Address) (amount : UInt64) :
    (t.setBalance owner amount).supply = t.supply := rfl

theorem balanceOf_le_held (t : Token) (owner : Address) : (t.balanceOf owner).toNat ≤ t.held := by
  have hheld := held_setBalance t owner 0
  rw [UInt64.toNat_zero] at hheld
  omega

theorem covered_create (address : Address) (decimals : UInt8) :
    (create address decimals).Covered := rfl

/-- Giving tokens succeeds where the sum fits. -/
theorem give_ok {owner : Address} {amount : UInt64}
    (hfits : (t.balanceOf owner).toNat + amount.toNat < UInt64.size) :
    ∃ raised, raised.toNat = (t.balanceOf owner).toNat + amount.toNat ∧
      give owner amount t = .ok () (t.setBalance owner raised) := by
  have hadd : Word.add? (t.balanceOf owner) amount =
      some (UInt64.ofNat ((t.balanceOf owner).toNat + amount.toNat)) := if_pos hfits
  refine ⟨_, Word.add?_eq_some.mp hadd, ?_⟩
  simp only [give, run_bind, run_get, run_modify, hadd, fitting, run_pure, setBalance,
    SortedMap.insert_insert]

namespace Covered

/-- No holder has more than there is. -/
theorem balanceOf_le (h : t.Covered) (owner : Address) :
    (t.balanceOf owner).toNat ≤ t.supply.toNat := by
  have hle := balanceOf_le_held t owner
  rw [h]
  omega

/-- A change of one balance has to be matched by the custody and the supply. -/
theorem setBalance (h : t.Covered) {owner : Address} {balance custody supply : UInt64}
    (hmatched : supply.toNat + (t.balanceOf owner).toNat + t.custody.toNat =
      t.supply.toNat + balance.toNat + custody.toNat) :
    Covered { t.setBalance owner balance with custody, supply } := by
  have hheld := held_setBalance t owner balance
  have hcovered : t.supply.toNat = t.held + t.custody.toNat := h
  show supply.toNat = (t.setBalance owner balance).held + custody.toNat
  omega

/-- **A faucet** fails only with the supply, before anything is changed: a supply that can be raised
leaves room in every balance. -/
theorem fund_result (h : t.Covered) (owner : Address) (amount : UInt64) :
    (∃ e, fund owner amount t = .error e t) ∨
      ∃ raised supply, raised.toNat = (t.balanceOf owner).toNat + amount.toNat ∧
        supply.toNat = t.supply.toNat + amount.toNat ∧
        fund owner amount t = .ok () { t.setBalance owner raised with supply } := by
  simp only [fund, run_bind, run_get, run_modify]
  cases hadd : Word.add? t.supply amount with
  | none => exact .inl ⟨.supplyOverflow, rfl⟩
  | some supply =>
    have hsupply := Word.add?_eq_some.mp hadd
    have hroom : (t.balanceOf owner).toNat + amount.toNat < UInt64.size := by
      have hle := h.balanceOf_le owner
      have hword : supply.toNat < UInt64.size := supply.toNat_lt
      omega
    obtain ⟨raised, hraised, hgive⟩ := give_ok (t := { t with supply }) hroom
    refine .inr ⟨raised, supply, hraised, hsupply, ?_⟩
    simp only [fitting, run_pure]
    exact hgive

/-- **A burn** takes no more than the supply, which it lowers by the amount. -/
theorem burn_ok (h : t.Covered) {owner : Address} {amount : UInt64}
    (hburn : burn owner amount t = .ok () t') :
    amount ≤ t.supply ∧ t'.supply = t.supply - amount := by
  rcases burn_result t owner amount with ⟨e, he⟩ | ⟨remaining, supply, hremaining, hsupply, hok⟩
  · cases he.symm.trans hburn
  · cases hok.symm.trans hburn
    have hle : amount ≤ t.supply := by
      have hbalance := h.balanceOf_le owner
      rw [UInt64.le_iff_toNat_le]
      omega
    refine ⟨hle, ?_⟩
    rw [← UInt64.toNat_inj, UInt64.toNat_sub_of_le _ _ hle]
    exact hsupply

/-- **Any operation** fails and changes nothing, or keeps the supply what all holders and the
custody have together. -/
theorem operation_result (h : t.Covered) (movement : Movement) :
    (∃ e, movement.operation t = .error e t) ∨
      ∃ t', movement.operation t = .ok () t' ∧ t'.Covered := by
  cases movement with
  | fund owner amount =>
    rcases h.fund_result owner amount with hfails | ⟨raised, supply, hraised, hsupply, hok⟩
    · exact .inl hfails
    · exact .inr ⟨_, hok, h.setBalance (by simp only [setBalance_custody]; omega)⟩
  | lock owner amount =>
    rcases lock_result t owner amount with hfails | ⟨remaining, custody, hremaining, hcustody, hok⟩
    · exact .inl hfails
    · exact .inr ⟨_, hok, h.setBalance (by simp only [setBalance_supply]; omega)⟩
  | unlock recipient amount =>
    rcases unlock_result t recipient amount with hfails | ⟨raised, custody, hraised, hcustody, hok⟩
    · exact .inl hfails
    · exact .inr ⟨_, hok, h.setBalance (by simp only [setBalance_supply]; omega)⟩
  | burn owner amount =>
    rcases burn_result t owner amount with hfails | ⟨remaining, supply, hremaining, hsupply, hok⟩
    · exact .inl hfails
    · have hle := h.balanceOf_le owner
      exact .inr ⟨_, hok, h.setBalance (by simp only [setBalance_custody]; omega)⟩
  | mint recipient amount =>
    rcases mint_result t recipient amount with hfails | ⟨raised, supply, hraised, hsupply, hok⟩
    · exact .inl hfails
    · exact .inr ⟨_, hok, h.setBalance (by simp only [setBalance_custody]; omega)⟩

theorem operation_error (h : t.Covered) {movement : Movement} {e : TokenError}
    (herror : movement.operation t = .error e t') : t' = t := by
  rcases h.operation_result movement with ⟨_, hfails⟩ | ⟨_, hok, _⟩
  · cases hfails.symm.trans herror
    rfl
  · cases hok.symm.trans herror

theorem after (h : t.Covered) (movement : Movement) : (t.after movement).Covered := by
  rcases h.operation_result movement with ⟨e, hfails⟩ | ⟨t', hok, hcovered⟩
  · simp only [Token.after, hfails]
    exact h
  · simp only [Token.after, hok]
    exact hcovered

theorem afterAll (h : t.Covered) (movements : List Movement) : (t.afterAll movements).Covered := by
  induction movements generalizing t with
  | nil => exact h
  | cons movement rest ih => exact ih (h.after movement)

end Covered

/-! ## §3 Any operations -/

/-- **The supply is conserved.** After any operations on a ledger that nobody holds anything of yet,
whether they fail or not,

* the supply is the sum of all balances and the custody;
* a burn lowers the supply by its amount, which is no more than there is;
* an operation that fails leaves the ledger as it was, every entry included. -/
theorem supply_conserved (address : Address) (decimals : UInt8) (movements : List Movement) :
    let t := (create address decimals).afterAll movements
    t.supply.toNat = (t.balances.toList.map fun entry => entry.2.toNat).sum + t.custody.toNat ∧
      (∀ owner amount t', burn owner amount t = .ok () t' →
        amount ≤ t.supply ∧ t'.supply = t.supply - amount) ∧
      ∀ (movement : Movement) (e : TokenError) (t' : Token),
        movement.operation t = .error e t' → t' = t := by
  intro t
  have h : t.Covered := (covered_create address decimals).afterAll movements
  exact ⟨h, fun owner amount t' => h.burn_ok, fun movement e t' => h.operation_error⟩

end Token

namespace Sample

/-! ## §4 Some dealings -/

/-- The first account gets the greatest supply there can be, so that neither the manager nor the
faucet can create more until something is burned. Two more of the operations ask for one unit too
many. -/
def dealings : List Token.Movement :=
  [.fund (address 20) 18446744073709551615, .mint (address 21) 1, .fund (address 21) 1,
   .lock (address 20) 700, .unlock (address 21) 701, .unlock (address 21) 300,
   .burn (address 21) 301, .burn (address 21) 100, .mint (address 20) 40]

/-- The ledger after them. -/
def settled : Token := (Token.create (address 1) 6).afterAll dealings

/-- In the end 60 units are gone, 400 are in custody and the rest is with the two accounts. A
further operation that asks the custody for 401 changes nothing, and one that burns 555 takes them
off the supply. -/
theorem settled_conserved :
    settled.supply = 18446744073709551555 ∧ settled.custody = 400 ∧
      settled.supply.toNat =
        (settled.balances.toList.map fun entry => entry.2.toNat).sum + settled.custody.toNat ∧
      settled.after (.unlock (address 21) 401) = settled ∧
      (settled.after (.burn (address 20) 555)).supply = settled.supply - 555 := by
  unfold settled
  obtain ⟨hsum, hburn, herror⟩ := Token.supply_conserved (address 1) 6 dealings
  have hrefused : (Token.Movement.operation (.unlock (address 21) 401)).run'
      ((Token.create (address 1) 6).afterAll dealings) = none := by decide +kernel
  have hcarried : (Token.burn (address 20) 555).run'
      ((Token.create (address 1) 6).afterAll dealings) = some () := by decide +kernel
  refine ⟨by decide +kernel, by decide +kernel, hsum, ?_, ?_⟩
  · cases hresult : Token.Movement.operation (.unlock (address 21) 401)
        ((Token.create (address 1) 6).afterAll dealings) with
    | error e t' =>
      simp only [Token.after, hresult]
      exact herror _ e t' hresult
    | ok _ t' =>
      delta EStateM.run' EStateM.run at hrefused
      rw [hresult] at hrefused
      cases hrefused
  · cases hresult : Token.burn (address 20) 555
        ((Token.create (address 1) 6).afterAll dealings) with
    | ok _ t' =>
      simp only [Token.after, Token.Movement.operation, hresult]
      exact (hburn _ _ t' hresult).2
    | error e t' =>
      delta EStateM.run' EStateM.run at hcarried
      rw [hresult] at hcarried
      cases hcarried

end Sample

end CrossChain
