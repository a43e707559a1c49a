import CrossChain.Proofs.Codec

/-!
# How long encodings are, and which values have one

A format announces the size of a value before the value is written. A format is sized when what
it writes has the size that it announced. A value fits a format when it can be written at all:
the only obstacle is a count or a length that its numeral has no room for, so the question goes
down from the whole to the numerals in it.

## Main statements

* `Format.Sized`, with one lemma for each combinator.
* `Format.Fits`, with one rewriting rule for each combinator.
-/

namespace CrossChain

namespace Format

variable {ε α β : Type} {f : Format ε α} {g : Format ε β}

/-! ## §1 Sizes -/

/-- What is written has the announced size. -/
def Sized (f : Format ε α) : Prop :=
  ∀ v out, f.write v = .ok out → out.length = f.size v

namespace Sized

/-- Helper: bytes that do not depend on any check. -/
private theorem of_write (back : α → Bytes) (hwrite : ∀ v, f.write v = .ok (back v))
    (hlength : ∀ v, (back v).length = f.size v) : f.Sized := by
  intro v out h
  rw [hwrite, Except.ok.injEq] at h
  rw [← h, hlength]

theorem block [Truncation ε] (n : ℕ) : (Format.block n : Format ε (Vector UInt8 n)).Sized :=
  of_write Vector.toList (fun _ => rfl) (fun v => by rw [Vector.length_toList]; rfl)

theorem byte [Truncation ε] : (Format.byte : Format ε UInt8).Sized :=
  of_write (fun b => [b]) (fun _ => rfl) (fun _ => rfl)

theorem word16BE [Truncation ε] : (Format.word16BE : Format ε UInt16).Sized :=
  of_write (fun w => bytesBE 2 w.toNat) (fun _ => rfl) (fun _ => length_bytesBE 2 _)

theorem word64BE [Truncation ε] : (Format.word64BE : Format ε UInt64).Sized :=
  of_write (fun w => bytesBE 8 w.toNat) (fun _ => rfl) (fun _ => length_bytesBE 8 _)

theorem flag [Truncation ε] (bad : UInt8 → ε) : (Format.flag bad).Sized :=
  of_write (fun b => [if b then 1 else 0]) (fun _ => rfl) (fun _ => rfl)

theorem numeralBE [Truncation ε] (k : ℕ) (tooLarge : ℕ → ε) :
    (Format.numeralBE k tooLarge).Sized := by
  intro n out h
  simp only [Format.numeralBE] at h
  split at h
  next =>
    rw [Except.ok.injEq] at h
    rw [← h, length_bytesBE]
    rfl
  next => cases h

theorem imap (hf : f.Sized) (forth : α → β) (back : β → α) : (Format.imap f forth back).Sized :=
  fun b out h => hf (back b) out h

theorem checked (hf : f.Sized) (check : α → Except ε Unit) : (Format.checked f check).Sized :=
  fun v out h => hf v out h

theorem pair (hf : f.Sized) (hg : g.Sized) : (Format.pair f g).Sized := by
  intro v out h
  simp only [Format.pair, bind_eq_ok, pure_eq_ok] at h
  obtain ⟨front, hfront, back, hback, rfl⟩ := h
  rw [List.length_append, hf _ _ hfront, hg _ _ hback]
  rfl

theorem tagged [Truncation ε] (hf : f.Sized) (tag : Tag) (wrong : Tag → ε) :
    (Format.tagged tag wrong f).Sized := by
  intro v out h
  obtain ⟨inner, hinner, rfl⟩ := tagged_write_eq_ok.mp h
  rw [List.length_append, Vector.length_toList, hf _ _ hinner]
  rfl

theorem prefixed [Truncation ε] {count : Format ε ℕ} (hcount : count.Sized) :
    (Format.prefixed count).Sized := by
  intro bs out h
  simp only [Format.prefixed, bind_eq_ok, pure_eq_ok] at h
  obtain ⟨front, hfront, rfl⟩ := h
  rw [List.length_append, hcount _ _ hfront]
  rfl

/-- Helper: values laid out one after another. -/
private theorem writeMany (hf : f.Sized) {vs : List α} {out : Bytes}
    (h : Format.writeMany f vs = .ok out) : out.length = sizeMany f vs := by
  induction vs generalizing out with
  | nil =>
    cases h
    rfl
  | cons v vs ih =>
    simp only [Format.writeMany, bind_eq_ok, pure_eq_ok] at h
    obtain ⟨front, hfront, back, hback, rfl⟩ := h
    rw [List.length_append, hf _ _ hfront, ih hback]
    rfl

theorem listOf {count : Format ε ℕ} (hcount : count.Sized) (hf : f.Sized) :
    (Format.listOf count f).Sized := by
  intro vs out h
  simp only [Format.listOf, bind_eq_ok, pure_eq_ok] at h
  obtain ⟨front, hfront, back, hback, rfl⟩ := h
  rw [List.length_append, hcount _ _ hfront, hf.writeMany hback]
  rfl

end Sized

/-! ## §2 Room -/

/-- A value can be written. -/
def Fits (f : Format ε α) (v : α) : Prop :=
  ∃ out, f.write v = .ok out

section Blocks

variable [Truncation ε]

@[simp]
theorem block_fits {n : ℕ} (v : Vector UInt8 n) : (block n : Format ε _).Fits v := ⟨_, rfl⟩

@[simp]
theorem byte_fits (b : UInt8) : (byte : Format ε UInt8).Fits b := ⟨_, rfl⟩

@[simp]
theorem word16BE_fits (w : UInt16) : (word16BE : Format ε UInt16).Fits w := ⟨_, rfl⟩

@[simp]
theorem word64BE_fits (w : UInt64) : (word64BE : Format ε UInt64).Fits w := ⟨_, rfl⟩

@[simp]
theorem numeralBE_fits {k n : ℕ} {tooLarge : ℕ → ε} :
    (numeralBE k tooLarge).Fits n ↔ n < numeralCount k := by
  simp only [Fits, numeralBE]
  split
  next hlt => simp [hlt]
  next hge => simp [hge]

@[simp]
theorem word16LE_fits (w : UInt16) : (word16LE : Format ε UInt16).Fits w := ⟨_, rfl⟩

@[simp]
theorem word64LE_fits (w : UInt64) : (word64LE : Format ε UInt64).Fits w := ⟨_, rfl⟩

@[simp]
theorem numeralLE_fits {k n : ℕ} {tooLarge : ℕ → ε} :
    (numeralLE k tooLarge).Fits n ↔ n < numeralCount k := by
  simp only [Fits, numeralLE]
  split
  next hlt => simp [hlt]
  next hge => simp [hge]

@[simp]
theorem flag_fits {bad : UInt8 → ε} (b : Bool) : (flag bad).Fits b := ⟨_, rfl⟩

@[simp]
theorem optional_fits {bad : UInt8 → ε} {v : Option α} :
    (optional bad f).Fits v ↔ ∀ w, v = some w → f.Fits w := by
  cases v with
  | none => simp [Fits, optional]
  | some w =>
    simp only [Fits, optional, bind_eq_ok, pure_eq_ok, Option.some.injEq, forall_eq']
    constructor
    · rintro ⟨_, inner, hinner, _⟩
      exact ⟨inner, hinner⟩
    · rintro ⟨inner, hinner⟩
      exact ⟨_, inner, hinner, rfl⟩

end Blocks

@[simp]
theorem imap_fits {forth : α → β} {back : β → α} {b : β} :
    (imap f forth back).Fits b ↔ f.Fits (back b) := Iff.rfl

@[simp]
theorem checked_fits {check : α → Except ε Unit} {v : α} :
    (checked f check).Fits v ↔ f.Fits v := Iff.rfl

@[simp]
theorem pair_fits {v : α × β} : (pair f g).Fits v ↔ f.Fits v.1 ∧ g.Fits v.2 := by
  simp only [Fits, pair, bind_eq_ok, pure_eq_ok]
  constructor
  · rintro ⟨_, front, hfront, back, hback, _⟩
    exact ⟨⟨front, hfront⟩, ⟨back, hback⟩⟩
  · rintro ⟨⟨front, hfront⟩, ⟨back, hback⟩⟩
    exact ⟨_, front, hfront, back, hback, rfl⟩

@[simp]
theorem tagged_fits [Truncation ε] {tag : Tag} {wrong : Tag → ε} {v : α} :
    (tagged tag wrong f).Fits v ↔ f.Fits v := by
  simp only [Fits, tagged_write_eq_ok]
  constructor
  · rintro ⟨_, inner, hinner, _⟩
    exact ⟨inner, hinner⟩
  · rintro ⟨inner, hinner⟩
    exact ⟨_, inner, hinner, rfl⟩

@[simp]
theorem prefixed_fits [Truncation ε] {count : Format ε ℕ} {bs : Bytes} :
    (prefixed count).Fits bs ↔ count.Fits bs.length := by
  simp only [Fits, prefixed, bind_eq_ok, pure_eq_ok]
  constructor
  · rintro ⟨_, front, hfront, _⟩
    exact ⟨front, hfront⟩
  · rintro ⟨front, hfront⟩
    exact ⟨_, front, hfront, rfl⟩

/-- Helper: values laid out one after another. -/
private theorem exists_writeMany {vs : List α} :
    (∃ out, writeMany f vs = .ok out) ↔ ∀ v ∈ vs, f.Fits v := by
  induction vs with
  | nil => simp [writeMany]
  | cons v vs ih =>
    simp only [writeMany, bind_eq_ok, pure_eq_ok, List.forall_mem_cons, ← ih]
    constructor
    · rintro ⟨_, front, hfront, back, hback, _⟩
      exact ⟨⟨front, hfront⟩, ⟨back, hback⟩⟩
    · rintro ⟨⟨front, hfront⟩, ⟨back, hback⟩⟩
      exact ⟨_, front, hfront, back, hback, rfl⟩

@[simp]
theorem listOf_fits {count : Format ε ℕ} {vs : List α} :
    (listOf count f).Fits vs ↔ count.Fits vs.length ∧ ∀ v ∈ vs, f.Fits v := by
  rw [← exists_writeMany]
  simp only [Fits, listOf, bind_eq_ok, pure_eq_ok]
  constructor
  · rintro ⟨_, front, hfront, back, hback, _⟩
    exact ⟨⟨front, hfront⟩, ⟨back, hback⟩⟩
  · rintro ⟨⟨front, hfront⟩, ⟨back, hback⟩⟩
    exact ⟨_, front, hfront, back, hback, rfl⟩

end Format

/-! ## §3 Values behind their length -/

namespace Wire

open Format

variable {α : Type} {f : Wire α}

theorem spanned_sized (hf : f.Sized) : (spanned f).Sized := by
  intro v out h
  simp only [spanned, bind_eq_ok] at h
  obtain ⟨inner, hinner, hout⟩ := h
  rw [Sized.prefixed (Sized.numeralBE 2 _) inner out hout]
  exact congrArg (2 + ·) (hf v inner hinner)

/-- A value fits behind its length if it can be written in less than two to the sixteen bytes. -/
theorem spanned_fits (hf : f.Sized) {v : α} :
    (spanned f).Fits v ↔ f.Fits v ∧ f.size v ≤ 65535 := by
  -- The length in front is that of what was written, which is the announced size.
  have hlength (inner : Bytes) : bytes16.Fits inner ↔ inner.length ≤ 65535 := by
    simp only [bytes16, length16, prefixed_fits, numeralBE_fits, numeralCount]
    omega
  constructor
  · rintro ⟨out, h⟩
    simp only [spanned, bind_eq_ok] at h
    obtain ⟨inner, hinner, hout⟩ := h
    refine ⟨⟨inner, hinner⟩, ?_⟩
    rw [← hf v inner hinner]
    exact (hlength inner).mp ⟨out, hout⟩
  · rintro ⟨⟨inner, hinner⟩, hsize⟩
    rw [← hf v inner hinner] at hsize
    obtain ⟨out, hout⟩ := (hlength inner).mpr hsize
    refine ⟨out, ?_⟩
    simp only [spanned, bind_eq_ok]
    exact ⟨inner, hinner, hout⟩

end Wire

end CrossChain
