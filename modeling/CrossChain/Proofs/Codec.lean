import CrossChain.Message.Envelope
import CrossChain.Proofs.Basic

/-!
# Exact formats

A format is exact when its reader inverts its writer in both directions: a value is read off the
front of a byte string exactly when the byte string starts with what is written for that value.
So a value has one encoding, no encoding is the start of another, and no other bytes are read.

Exactness is proved once for each combinator and passes from the parts of a format to the whole.

## Main statements

* `Format.Exact.decode_eq_ok`: decoding finds a value exactly in its encoding.
* `Format.Exact.injective`: different values have different encodings.
* `ManagerMessage.wire_exact`, `Envelope.wire_exact`: messages and envelopes.
-/

namespace CrossChain

/-! ## §1 Readers in sequence -/

section Readers

variable {ε α β : Type} {bs rest : Bytes}

theorem read_bind {r : Reader ε α} {k : α → Reader ε β} {result : β × Bytes} :
    (r >>= k) bs = .ok result ↔ ∃ a mid, r bs = .ok (a, mid) ∧ k a mid = .ok result := by
  show (r bs >>= fun p => k p.1 p.2) = .ok result ↔ _
  rw [bind_eq_ok, Prod.exists]

theorem read_bind_error {r : Reader ε α} {k : α → Reader ε β} {e : ε} :
    (r >>= k) bs = .error e ↔
      r bs = .error e ∨ ∃ a mid, r bs = .ok (a, mid) ∧ k a mid = .error e := by
  show (r bs >>= fun p => k p.1 p.2) = .error e ↔ _
  rw [bind_eq_error, Prod.exists]

theorem read_pure {a b : α} :
    (pure a : Reader ε α) bs = .ok (b, rest) ↔ a = b ∧ bs = rest := by
  show (Except.ok (a, bs) : Except ε (α × Bytes)) = .ok (b, rest) ↔ _
  simp

theorem read_map {r : Reader ε α} {g : α → β} {b : β} :
    (g <$> r) bs = .ok (b, rest) ↔ ∃ a, r bs = .ok (a, rest) ∧ g a = b := by
  show (r bs >>= fun p => Except.ok (g p.1, p.2)) = .ok (b, rest) ↔ _
  simp only [bind_eq_ok, Prod.exists, Except.ok.injEq, Prod.mk.injEq]
  constructor
  · rintro ⟨a, _, h, hb, rfl⟩
    exact ⟨a, h, hb⟩
  · rintro ⟨a, h, hb⟩
    exact ⟨a, rest, h, hb, rfl⟩

theorem read_map_error {r : Reader ε α} {g : α → β} {e : ε} :
    (g <$> r) bs = .error e ↔ r bs = .error e := by
  show (r bs >>= fun p => Except.ok (g p.1, p.2)) = .error e ↔ _
  simp [bind_eq_error]

theorem read_throw {e : ε} {result : α × Bytes} : (throw e : Reader ε α) bs ≠ .ok result := by
  intro h
  cases h

theorem read_lift {x : Except ε α} {a : α} :
    (liftM x : Reader ε α) bs = .ok (a, rest) ↔ x = .ok a ∧ bs = rest := by
  show (x >>= fun v => Except.ok (v, bs)) = .ok (a, rest) ↔ _
  simp only [bind_eq_ok, Except.ok.injEq, Prod.mk.injEq]
  constructor
  · rintro ⟨_, h, rfl, hbs⟩
    exact ⟨h, hbs⟩
  · rintro ⟨h, hbs⟩
    exact ⟨a, h, rfl, hbs⟩

theorem read_lift_error {x : Except ε α} {e : ε} :
    (liftM x : Reader ε α) bs = .error e ↔ x = .error e := by
  show (x >>= fun v => Except.ok (v, bs)) = .error e ↔ _
  simp [bind_eq_error]

theorem read_modify {g : Bytes → Bytes} {u : PUnit} :
    (modify g : Reader ε PUnit) bs = .ok (u, rest) ↔ g bs = rest := by
  show (Except.ok (⟨⟩, g bs) : Except ε (PUnit × Bytes)) = .ok (u, rest) ↔ _
  simp

end Readers

namespace Format

variable {ε α β : Type}

/-! ## §2 Exactness -/

theorem decode_eq_ok_iff_read {f : Format ε α} {extra : ℕ → ε} {bs : Bytes} {v : α} :
    decode f extra bs = .ok v ↔ f.read bs = .ok (v, []) := by
  simp only [decode, bind_eq_ok, Prod.exists]
  constructor
  · rintro ⟨a, rest, h, hrest⟩
    cases rest with
    | nil =>
      rw [pure_eq_ok] at hrest
      rw [h, hrest]
    | cons b rest => cases hrest
  · intro h
    exact ⟨v, [], h, rfl⟩

theorem decode_of_error {f : Format ε α} {extra : ℕ → ε} {bs : Bytes} {e : ε}
    (h : f.read bs = .error e) : decode f extra bs = .error e := by
  simp only [decode, bind_eq_error]
  exact .inl h

/-- What is left over behind a value is counted. -/
theorem decode_of_rest {f : Format ε α} {extra : ℕ → ε} {bs rest : Bytes} {v : α}
    (h : f.read bs = .ok (v, rest)) (hrest : rest ≠ []) :
    decode f extra bs = .error (extra rest.length) := by
  simp only [decode, h, ok_bind]
  cases rest with
  | nil => contradiction
  | cons b rest => rfl

/-- The reader takes a value off the front exactly where the writer puts it. -/
def Exact (f : Format ε α) : Prop :=
  ∀ bs v rest, f.read bs = .ok (v, rest) ↔ ∃ out, f.write v = .ok out ∧ bs = out ++ rest

namespace Exact

variable {f : Format ε α}

/-- **Decoding finds a value exactly in its encoding.** -/
theorem decode_eq_ok (hf : f.Exact) {extra : ℕ → ε} {bs : Bytes} {v : α} :
    decode f extra bs = .ok v ↔ f.write v = .ok bs := by
  rw [decode_eq_ok_iff_read, hf bs v []]
  constructor
  · rintro ⟨out, hout, rfl⟩
    rwa [List.append_nil]
  · intro h
    exact ⟨bs, h, (List.append_nil bs).symm⟩

/-- **Different values have different encodings.** -/
theorem injective (hf : f.Exact) {v w : α} {bs : Bytes} (hv : f.write v = .ok bs)
    (hw : f.write w = .ok bs) : v = w := by
  have hreadv := (hf bs v []).mpr ⟨bs, hv, (List.append_nil bs).symm⟩
  have hreadw := (hf bs w []).mpr ⟨bs, hw, (List.append_nil bs).symm⟩
  rw [hreadv] at hreadw
  simpa using hreadw

end Exact

/-! ## §3 Blocks and words -/

section Blocks

variable [Truncation ε]

theorem read_block {n : ℕ} {bs rest : Bytes} {v : Vector UInt8 n} :
    (block n : Format ε (Vector UInt8 n)).read bs = .ok (v, rest) ↔ bs = v.toList ++ rest := by
  simp only [block]
  constructor
  · intro h
    split at h
    next hlen =>
      simp only [Except.ok.injEq, Prod.mk.injEq] at h
      obtain ⟨rfl, rfl⟩ := h
      simp
    next => cases h
  · rintro rfl
    have htake : (v.toList ++ rest).take n = v.toList := by
      rw [List.take_append_of_le_length (by simp), List.take_of_length_le (by simp)]
    have hdrop : (v.toList ++ rest).drop n = rest := List.drop_left' (by simp)
    rw [dif_pos (by rw [htake]; simp)]
    simp only [htake, hdrop]
    rfl

theorem block_exact (n : ℕ) : (block n : Format ε (Vector UInt8 n)).Exact := by
  intro bs v rest
  rw [read_block]
  exact ⟨fun h => ⟨v.toList, rfl, h⟩, by rintro ⟨_, ⟨⟩, h⟩; exact h⟩

theorem read_byte {bs rest : Bytes} {b : UInt8} :
    (byte : Format ε UInt8).read bs = .ok (b, rest) ↔ bs = b :: rest := by
  cases bs with
  | nil => simp [byte]
  | cons b bs => simp [byte]

theorem byte_exact : (byte : Format ε UInt8).Exact := by
  intro bs b rest
  rw [read_byte]
  exact ⟨fun h => ⟨[b], rfl, h⟩, by rintro ⟨_, ⟨⟩, h⟩; exact h⟩

/-- A reader that turns blocks into values, beside a writer that turns values into those very
blocks. -/
theorem Exact.of_block {n : ℕ} {f : Format ε α} (forth : Vector UInt8 n → α) (back : α → Bytes)
    (hread : f.read = forth <$> (block n : Format ε (Vector UInt8 n)).read)
    (hwrite : ∀ a, f.write a = .ok (back a))
    (hforth : ∀ v, back (forth v) = v.toList) (hback : ∀ a, ∃ v, back a = v.toList ∧ forth v = a) :
    f.Exact := by
  intro bs a rest
  simp only [hread, hwrite, read_map, read_block, Except.ok.injEq, exists_eq_left']
  constructor
  · rintro ⟨v, rfl, rfl⟩
    rw [hforth]
  · rintro rfl
    obtain ⟨v, hv, ha⟩ := hback a
    exact ⟨v, by rw [hv], ha⟩

/-- A way to write numbers in a given number of bytes. -/
structure Numeral (toBytes : ℕ → ℕ → Bytes) (ofBytes : Bytes → ℕ) : Prop where
  length : ∀ k n, (toBytes k n).length = k
  /-- A numeral reads back as its number, less what there was no room for. -/
  value : ∀ k n, ofBytes (toBytes k n) = n % numeralCount k
  /-- Every byte string is the numeral of its value. -/
  bytes : ∀ bs, toBytes bs.length (ofBytes bs) = bs
  lt : ∀ bs, ofBytes bs < numeralCount bs.length

theorem Numeral.bigEndian : Numeral bytesBE natOfBE :=
  ⟨length_bytesBE, natOfBE_bytesBE, bytesBE_natOfBE, natOfBE_lt⟩

theorem Numeral.littleEndian : Numeral bytesLE natOfLE :=
  ⟨length_bytesLE, natOfLE_bytesLE, bytesLE_natOfLE, natOfLE_lt⟩

section Numerals

variable {toBytes : ℕ → ℕ → Bytes} {ofBytes : Bytes → ℕ}

/-- A number is read off a block, and written if the block has room for it. -/
theorem Exact.of_numeral (order : Numeral toBytes ofBytes) {k : ℕ} {f : Format ε ℕ}
    {tooLarge : ℕ → ε}
    (hread : f.read = (fun v => ofBytes v.toList) <$> (block k : Format ε (Vector UInt8 k)).read)
    (hwrite : ∀ n, f.write n =
      if n < numeralCount k then .ok (toBytes k n) else .error (tooLarge n)) : f.Exact := by
  intro bs n rest
  simp only [hread, hwrite, read_map, read_block]
  constructor
  · rintro ⟨v, rfl, rfl⟩
    have hlt := order.lt v.toList
    have hback := order.bytes v.toList
    simp only [Vector.length_toList] at hlt hback
    exact ⟨v.toList, by rw [if_pos hlt, hback], rfl⟩
  · rintro ⟨out, hout, rfl⟩
    split at hout
    next hlt =>
      simp only [Except.ok.injEq] at hout
      subst hout
      refine ⟨⟨(toBytes k n).toArray, by simp [order.length]⟩, by simp [Vector.toList], ?_⟩
      simp [Vector.toList, order.value, Nat.mod_eq_of_lt hlt]
    next => cases hout

/-- A word is read as a number off a block of its bytes, and has room for every such number. -/
theorem Exact.of_word (order : Numeral toBytes ofBytes) {k : ℕ} {f : Format ε α} (ofNat : ℕ → α)
    (toNat : α → ℕ)
    (hread : f.read = (fun v => ofNat (ofBytes v.toList)) <$>
      (block k : Format ε (Vector UInt8 k)).read)
    (hwrite : ∀ w, f.write w = .ok (toBytes k (toNat w)))
    (hofNat : ∀ n < numeralCount k, toNat (ofNat n) = n) (htoNat : ∀ w, ofNat (toNat w) = w)
    (hlt : ∀ w, toNat w < numeralCount k) : f.Exact := by
  refine Exact.of_block _ (fun w => toBytes k (toNat w)) hread hwrite (fun v => ?_) (fun w => ?_)
  · have hroom : ofBytes v.toList < numeralCount k := by simpa using order.lt v.toList
    have hback := order.bytes v.toList
    rw [Vector.length_toList] at hback
    rw [hofNat _ hroom, hback]
  · refine ⟨⟨(toBytes k (toNat w)).toArray, by simp [order.length]⟩, by simp [Vector.toList], ?_⟩
    simp only [Vector.toList, order.value, Nat.mod_eq_of_lt (hlt w), htoNat]

end Numerals

theorem numeralBE_exact (k : ℕ) (tooLarge : ℕ → ε) : (numeralBE k tooLarge).Exact :=
  .of_numeral .bigEndian rfl fun _ => rfl

theorem numeralLE_exact (k : ℕ) (tooLarge : ℕ → ε) : (numeralLE k tooLarge).Exact :=
  .of_numeral .littleEndian rfl fun _ => rfl

theorem word16BE_exact : (word16BE : Format ε UInt16).Exact :=
  .of_word .bigEndian UInt16.ofNat UInt16.toNat rfl (fun _ => rfl)
    (fun _ h => UInt16.toNat_ofNat_of_lt' h) (fun _ => UInt16.ofNat_toNat) UInt16.toNat_lt

theorem word64BE_exact : (word64BE : Format ε UInt64).Exact :=
  .of_word .bigEndian UInt64.ofNat UInt64.toNat rfl (fun _ => rfl)
    (fun _ h => UInt64.toNat_ofNat_of_lt' h) (fun _ => UInt64.ofNat_toNat) UInt64.toNat_lt

theorem word16LE_exact : (word16LE : Format ε UInt16).Exact :=
  .of_word .littleEndian UInt16.ofNat UInt16.toNat rfl (fun _ => rfl)
    (fun _ h => UInt16.toNat_ofNat_of_lt' h) (fun _ => UInt16.ofNat_toNat) UInt16.toNat_lt

theorem word64LE_exact : (word64LE : Format ε UInt64).Exact :=
  .of_word .littleEndian UInt64.ofNat UInt64.toNat rfl (fun _ => rfl)
    (fun _ h => UInt64.toNat_ofNat_of_lt' h) (fun _ => UInt64.ofNat_toNat) UInt64.toNat_lt

theorem flag_exact (bad : UInt8 → ε) : (flag bad).Exact := by
  intro bs v rest
  simp only [flag, read_bind, read_byte]
  constructor
  · rintro ⟨b, mid, rfl, h⟩
    split at h
    next =>
      obtain ⟨rfl, rfl⟩ := read_pure.mp h
      exact ⟨[0], rfl, rfl⟩
    next =>
      obtain ⟨rfl, rfl⟩ := read_pure.mp h
      exact ⟨[1], rfl, rfl⟩
    next => exact absurd h read_throw
  · rintro ⟨_, ⟨⟩, rfl⟩
    cases v with
    | false => exact ⟨0, rest, rfl, rfl⟩
    | true => exact ⟨1, rest, rfl, rfl⟩

end Blocks

/-! ## §4 Combinators -/

/-- Another form of the values that are read and written; there may be values of the first form
that cannot be written. -/
theorem Exact.imap_of_write {f : Format ε α} (hf : f.Exact) {forth : α → β} {back : β → α}
    (hforth : ∀ b, forth (back b) = b)
    (hback : ∀ a out, f.write a = .ok out → back (forth a) = a) :
    (Format.imap f forth back).Exact := by
  intro bs b rest
  simp only [Format.imap, read_map, hf bs]
  constructor
  · rintro ⟨a, ⟨out, hout, rfl⟩, rfl⟩
    exact ⟨out, by rw [hback a out hout, hout], rfl⟩
  · intro h
    exact ⟨back b, h, hforth b⟩

theorem Exact.imap {f : Format ε α} (hf : f.Exact) {forth : α → β} {back : β → α}
    (hforth : ∀ b, forth (back b) = b) (hback : ∀ a, back (forth a) = a) :
    (Format.imap f forth back).Exact :=
  hf.imap_of_write hforth fun a _ _ => hback a

theorem Exact.pair {f : Format ε α} {g : Format ε β} (hf : f.Exact) (hg : g.Exact) :
    (Format.pair f g).Exact := by
  rintro bs ⟨a, b⟩ rest
  simp only [Format.pair, read_bind, read_pure, hf bs, hg _, Prod.mk.injEq, bind_eq_ok,
    pure_eq_ok]
  constructor
  · rintro ⟨_, mid, ⟨front, hfront, rfl⟩, _, _, ⟨back, hback, rfl⟩, ⟨rfl, rfl⟩, rfl⟩
    exact ⟨front ++ back, ⟨front, hfront, back, hback, rfl⟩, by rw [List.append_assoc]⟩
  · rintro ⟨_, ⟨front, hfront, back, hback, rfl⟩, rfl⟩
    exact ⟨a, back ++ rest, ⟨front, hfront, by rw [List.append_assoc]⟩, b, rest,
      ⟨back, hback, rfl⟩, ⟨rfl, rfl⟩, rfl⟩

theorem tagged_write_eq_ok [Truncation ε] {f : Format ε α} {tag : Tag} {wrong : Tag → ε} {v : α}
    {out : Bytes} : (Format.tagged tag wrong f).write v = .ok out ↔
      ∃ inner, f.write v = .ok inner ∧ tag.toList ++ inner = out := by
  simp only [Format.tagged, bind_eq_ok, pure_eq_ok]

theorem Exact.tagged [Truncation ε] {f : Format ε α} (hf : f.Exact) (tag : Tag)
    (wrong : Tag → ε) : (Format.tagged tag wrong f).Exact := by
  intro bs v rest
  simp only [tagged_write_eq_ok]
  simp only [Format.tagged, read_bind, read_block]
  constructor
  · rintro ⟨found, mid, rfl, h⟩
    split at h
    next heq =>
      obtain ⟨out, hout, rfl⟩ := (hf mid v rest).mp h
      exact ⟨tag.toList ++ out, ⟨out, hout, rfl⟩, by rw [heq, List.append_assoc]⟩
    next => exact absurd h read_throw
  · rintro ⟨_, ⟨out, hout, rfl⟩, rfl⟩
    refine ⟨tag, out ++ rest, by rw [List.append_assoc], ?_⟩
    rw [if_pos rfl]
    exact (hf _ v rest).mpr ⟨out, hout, rfl⟩

theorem Exact.optional [Truncation ε] {f : Format ε α} (hf : f.Exact) (bad : UInt8 → ε) :
    (Format.optional bad f).Exact := by
  intro bs v rest
  simp only [Format.optional, read_bind, flag_exact bad bs]
  constructor
  · rintro ⟨present, mid, ⟨_, ⟨⟩, rfl⟩, h⟩
    cases present with
    | false =>
      obtain ⟨rfl, rfl⟩ := read_pure.mp h
      exact ⟨[0], rfl, rfl⟩
    | true =>
      obtain ⟨w, hw, rfl⟩ := read_map.mp h
      obtain ⟨out, hout, rfl⟩ := (hf mid w rest).mp hw
      exact ⟨1 :: out, by simp only [hout, ok_bind]; rfl, rfl⟩
  · rintro ⟨out, hout, rfl⟩
    cases v with
    | none =>
      cases hout
      exact ⟨false, rest, ⟨[0], rfl, rfl⟩, rfl⟩
    | some w =>
      simp only [bind_eq_ok, pure_eq_ok] at hout
      obtain ⟨inner, hinner, rfl⟩ := hout
      refine ⟨true, inner ++ rest, ⟨[1], rfl, rfl⟩, read_map.mpr ⟨w, ?_, rfl⟩⟩
      exact (hf _ w rest).mpr ⟨inner, hinner, rfl⟩

theorem Exact.prefixed [Truncation ε] {count : Format ε ℕ} (hcount : count.Exact) :
    (Format.prefixed count).Exact := by
  intro bs w rest
  simp only [Format.prefixed, read_bind, read_block, read_pure, bind_eq_ok, pure_eq_ok,
    hcount bs]
  constructor
  · rintro ⟨n, mid, ⟨out, hout, rfl⟩, v, _, rfl, rfl, rfl⟩
    exact ⟨out ++ v.toList, ⟨out, by simpa using hout, rfl⟩, by rw [List.append_assoc]⟩
  · rintro ⟨_, ⟨out, hout, rfl⟩, rfl⟩
    exact ⟨w.length, w ++ rest, ⟨out, hout, by rw [List.append_assoc]⟩, ⟨w.toArray, by simp⟩,
      rest, rfl, rfl, rfl⟩

theorem readMany_eq_ok {f : Format ε α} (hf : f.Exact) {n : ℕ} {vs : List α} {bs rest : Bytes} :
    readMany f n bs = .ok (vs, rest) ↔
      vs.length = n ∧ ∃ out, writeMany f vs = .ok out ∧ bs = out ++ rest := by
  induction n generalizing vs bs rest with
  | zero =>
    simp only [readMany, read_pure]
    constructor
    · rintro ⟨rfl, rfl⟩
      exact ⟨rfl, [], rfl, rfl⟩
    · rintro ⟨hlen, out, hout, rfl⟩
      cases List.length_eq_zero_iff.mp hlen
      cases hout
      exact ⟨rfl, rfl⟩
  | succ n ih =>
    simp only [readMany, read_bind, read_pure, hf bs, ih]
    constructor
    · rintro ⟨v, mid, ⟨front, hfront, rfl⟩, vs, _, ⟨hlen, back, hback, rfl⟩, rfl, rfl⟩
      refine ⟨by simp [hlen], front ++ back, ?_, by rw [List.append_assoc]⟩
      simp only [writeMany, bind_eq_ok, pure_eq_ok]
      exact ⟨front, hfront, back, hback, rfl⟩
    · rintro ⟨hlen, out, hout, rfl⟩
      cases vs with
      | nil => cases hlen
      | cons v vs =>
        simp only [writeMany, bind_eq_ok, pure_eq_ok] at hout
        obtain ⟨front, hfront, back, hback, rfl⟩ := hout
        exact ⟨v, back ++ rest, ⟨front, hfront, by rw [List.append_assoc]⟩, vs, rest,
          ⟨Nat.succ.inj hlen, back, hback, rfl⟩, rfl, rfl⟩

theorem Exact.listOf {count : Format ε ℕ} {f : Format ε α} (hcount : count.Exact) (hf : f.Exact) :
    (Format.listOf count f).Exact := by
  intro bs vs rest
  simp only [Format.listOf, read_bind, readMany_eq_ok hf, bind_eq_ok, pure_eq_ok, hcount bs]
  constructor
  · rintro ⟨_, mid, ⟨front, hfront, rfl⟩, rfl, back, hback, rfl⟩
    exact ⟨front ++ back, ⟨front, hfront, back, hback, rfl⟩, by rw [List.append_assoc]⟩
  · rintro ⟨_, ⟨front, hfront, back, hback, rfl⟩, rfl⟩
    exact ⟨vs.length, back ++ rest, ⟨front, hfront, by rw [List.append_assoc]⟩, rfl, back, hback,
      rfl⟩

/-- Reading a value under a constructor. -/
theorem Exact.read_map {f : Format ε α} (hf : f.Exact) {c : α → β} {bs rest : Bytes} {b : β} :
    (c <$> f.read) bs = .ok (b, rest) ↔
      ∃ a, (∃ out, f.write a = .ok out ∧ bs = out ++ rest) ∧ c a = b := by
  simp only [CrossChain.read_map, hf bs]

theorem read_checked {f : Format ε α} {check : α → Except ε Unit} {bs rest : Bytes} {v : α} :
    (checked f check).read bs = .ok (v, rest) ↔ f.read bs = .ok (v, rest) ∧ check v = .ok () := by
  simp only [checked, read_bind, read_lift, read_pure]
  constructor
  · rintro ⟨_, _, h, _, _, ⟨hcheck, rfl⟩, rfl, rfl⟩
    exact ⟨h, hcheck⟩
  · rintro ⟨h, hcheck⟩
    exact ⟨v, rest, h, (), rest, ⟨hcheck, rfl⟩, rfl, rfl⟩

end Format

/-! ## §5 Messages -/

theorem Mode.ofByte?_eq_some {b : UInt8} {m : Mode} : ofByte? b = some m ↔ b = m.toByte := by
  unfold ofByte?
  split
  next => cases m <;> simp [toByte]
  next => cases m <;> simp [toByte]
  next hzero hone =>
    have hzero : b ≠ 0 := hzero
    have hone : b ≠ 1 := hone
    cases m <;> simp [toByte, hzero, hone]

namespace Wire

open Format

variable {α : Type} {f : Wire α}

theorem bytes32_exact : bytes32.Exact := block_exact 32

theorem bytes16_exact : bytes16.Exact := (numeralBE_exact 2 _).prefixed

theorem bytes16_write_eq_ok {bs out : Bytes} :
    bytes16.write bs = .ok out ↔
      bs.length < numeralCount 2 ∧ bytesBE 2 bs.length ++ bs = out := by
  simp only [bytes16, prefixed, length16, numeralBE]
  by_cases hroom : bs.length < numeralCount 2 <;> simp [hroom]

theorem chainId_exact : chainId.Exact :=
  word16BE_exact.imap (fun _ => rfl) (fun _ => rfl)

theorem trimmedAmount_exact : trimmedAmount.Exact :=
  (byte_exact.pair word64BE_exact).imap (fun _ => rfl) (fun _ => rfl)

theorem mode_exact : mode.Exact := by
  intro bs m rest
  simp only [mode, read_bind, read_byte]
  constructor
  · rintro ⟨b, mid, rfl, h⟩
    cases hfound : Mode.ofByte? b with
    | none =>
      simp only [hfound] at h
      exact absurd h read_throw
    | some found =>
      simp only [hfound] at h
      obtain ⟨rfl, rfl⟩ := read_pure.mp h
      exact ⟨[b], by rw [Mode.ofByte?_eq_some.mp hfound]; rfl, rfl⟩
  · rintro ⟨_, ⟨⟩, rfl⟩
    exact ⟨m.toByte, rest, rfl, by rw [Mode.ofByte?_eq_some.mpr rfl]; rfl⟩

theorem readExactly_eq_ok {span : Bytes} {v : α} :
    readExactly f span = .ok v ↔ f.read span = .ok (v, []) := by
  unfold readExactly
  split
  next h => simp [h]
  next h => simp [h]
  next h => simp [h]
  next h => simp [h]

theorem spanned_exact (hf : f.Exact) : (spanned f).Exact := by
  intro bs v rest
  simp only [spanned, read_bind, read_lift, readExactly_eq_ok, bytes16_exact bs, bind_eq_ok]
  constructor
  · -- The length is that of the inner value, which leaves nothing of its span.
    rintro ⟨span, _, ⟨out, hout, rfl⟩, hspan, rfl⟩
    obtain ⟨inner, hinner, rfl⟩ := (hf span v []).mp hspan
    exact ⟨out, ⟨inner, hinner, by rwa [List.append_nil] at hout⟩, rfl⟩
  · rintro ⟨out, ⟨inner, hinner, hout⟩, rfl⟩
    exact ⟨inner, rest, ⟨out, hout, rfl⟩,
      (hf inner v []).mpr ⟨inner, hinner, (List.append_nil inner).symm⟩, rfl⟩

end Wire

open Wire

theorem TokenTransfer.wire_exact : TokenTransfer.wire.Exact :=
  ((trimmedAmount_exact.pair (bytes32_exact.pair (bytes32_exact.pair chainId_exact))).imap
    (fun _ => rfl) (fun _ => rfl)).tagged _ _

theorem ManagerMessage.wire_exact {π : Type} {payload : Wire π} (h : payload.Exact) :
    (ManagerMessage.wire payload).Exact :=
  (bytes32_exact.pair (bytes32_exact.pair (spanned_exact h))).imap (fun _ => rfl) (fun _ => rfl)

/-- Transfers with different numbers have messages with different ids. -/
theorem ManagerMessage.idOfSequence_injective {s t : UInt64}
    (h : idOfSequence s = idOfSequence t) : s = t := by
  have hbytes : bytesBE 32 s.toNat = bytesBE 32 t.toNat := by
    have harray := congrArg (fun v => v.toArray.toList) h
    exact harray
  have hcount : UInt64.size ≤ numeralCount 32 := by decide
  have hnumber := congrArg natOfBE hbytes
  rw [natOfBE_bytesBE, natOfBE_bytesBE, Nat.mod_eq_of_lt (s.toNat_lt.trans_le hcount),
    Nat.mod_eq_of_lt (t.toNat_lt.trans_le hcount)] at hnumber
  exact UInt64.toNat_inj.mp hnumber

theorem Envelope.wire_exact {π : Type} {payload : Wire π} (h : payload.Exact) :
    (Envelope.wire payload).Exact :=
  ((bytes32_exact.pair (bytes32_exact.pair
    ((spanned_exact (ManagerMessage.wire_exact h)).pair bytes16_exact))).imap
      (fun _ => rfl) (fun _ => rfl)).tagged _ _

end CrossChain
