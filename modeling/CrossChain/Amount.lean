import CrossChain.Word

/-!
# Trimmed amounts

Chains disagree on the precision of a token. An amount on its way between two chains carries
at most eight decimals, and no more than either side can represent; the precision travels
with it. Lowering the precision floors, and the part that is lost is called dust. Raising it
fails when the result does not fit 64 bits.
-/

namespace CrossChain

/-- Why an amount cannot be rescaled. -/
inductive AmountError where
  /-- The power of ten between the two precisions does not fit 64 bits. -/
  | exponentOverflow
  /-- The amount at the higher precision does not fit 64 bits. -/
  | amountOverflow
  /-- The lower precision would lose `dust`, which the caller does not allow. -/
  | hasDust (dust : UInt64)
deriving DecidableEq

/-- The text of an error. -/
def AmountError.message : AmountError → String
  | .exponentOverflow => "Overflow: scaling factor exponent exceeds the max value of u64"
  | .amountOverflow => "Overflow: scaled amount exceeds the max value of u64"
  | .hasDust dust => s!"Amount has dust: {dust} below the trimmed precision"

/-- An amount together with the number of decimals it is expressed in. -/
structure TrimmedAmount where
  /-- The amount, in units of ten to the minus `decimals`. -/
  amount : UInt64
  /-- The precision. -/
  decimals : UInt8
deriving DecidableEq, Inhabited

namespace TrimmedAmount

/-- The precision that no amount on its way exceeds. -/
def maxDecimals : UInt8 := 8

/-- Ten to the power `n`, if it fits 64 bits. -/
def powerOfTen? (n : Nat) : Option UInt64 :=
  let power := Nat.pow 10 n
  if power < UInt64.size then some (UInt64.ofNat power) else none

/-- Expresses an amount with `source` decimals in `target` decimals, rounding down. -/
def rescale (amount : UInt64) (source target : UInt8) : Except AmountError UInt64 :=
  -- The factor has to fit even where the amount is zero.
  let distance := max source.toNat target.toNat - min source.toNat target.toNat
  match powerOfTen? distance with
  | none => .error .exponentOverflow
  | some factor =>
    if target ≤ source then .ok (amount / factor)
    else match Word.mul? amount factor with
      | none => .error .amountOverflow
      | some scaled => .ok scaled

/-- The decimals of an amount on its way between tokens of two precisions. -/
def commonDecimals (source target : UInt8) : UInt8 :=
  min (min maxDecimals source) target

/-- Cuts an amount with `source` decimals down to the precision it can travel with to a
token with `target` decimals. -/
def trim (amount : UInt64) (source target : UInt8) : Except AmountError TrimmedAmount := do
  let decimals := commonDecimals source target
  let trimmed ← rescale amount source decimals
  return ⟨trimmed, decimals⟩

/-- Expresses a trimmed amount in `target` decimals, rounding down. -/
def untrim (value : TrimmedAmount) (target : UInt8) : Except AmountError UInt64 :=
  rescale value.amount value.decimals target

/-- Cuts an amount down, and says which part of it survives in its own precision. -/
def removeDust (amount : UInt64) (source target : UInt8) :
    Except AmountError (TrimmedAmount × UInt64) := do
  let trimmed ← trim amount source target
  let kept ← trimmed.untrim source
  return (trimmed, kept)

/-- Rewrites an amount where it is kept, to the part of it that survives trimming. -/
def dropDust (source target : UInt8) : EStateM AmountError UInt64 TrimmedAmount := do
  let trimmed ← MonadExcept.ofExcept (trim (← get) source target)
  -- Nothing is written before both conversions have succeeded.
  let kept ← MonadExcept.ofExcept (trimmed.untrim source)
  set kept
  return trimmed

/-- Cuts an amount down, refusing an amount that would lose dust. -/
def trimExact (amount : UInt64) (source target : UInt8) :
    Except AmountError TrimmedAmount := do
  let (trimmed, kept) ← removeDust amount source target
  -- Trimming floors, so `kept` is never above `amount`.
  if kept = amount then return trimmed else throw (.hasDust (amount - kept))

/-- The same value with other decimals, rounding down. -/
def changeDecimals (value : TrimmedAmount) (decimals : UInt8) :
    Except AmountError TrimmedAmount :=
  -- Nothing is computed for equal decimals, however many there are.
  if decimals = value.decimals then .ok value
  else do
    let amount ← value.untrim decimals
    return ⟨amount, decimals⟩

/-- Adds an amount after expressing it in the decimals of the first. -/
def add (a b : TrimmedAmount) : Except AmountError TrimmedAmount := do
  let b ← b.changeDecimals a.decimals
  match Word.add? a.amount b.amount with
  | none => throw .amountOverflow
  | some sum => return ⟨sum, a.decimals⟩

/-- Subtracts an amount after expressing it in the decimals of the first; there is no
result when it is the larger one. -/
def sub? (a b : TrimmedAmount) : Except AmountError (Option TrimmedAmount) := do
  let b ← b.changeDecimals a.decimals
  return (Word.sub? a.amount b.amount).map (⟨·, a.decimals⟩)

/-- Whether there is nothing of the token. -/
def isZero (value : TrimmedAmount) : Bool :=
  value.amount = 0

end TrimmedAmount

end CrossChain
