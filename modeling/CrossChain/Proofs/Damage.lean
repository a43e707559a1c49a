import CrossChain.Proofs.Canonical

/-!
# Damaged encodings

What is read must be a whole encoding and nothing else, and a reader that refuses bytes says why.
This module follows three kinds of damage through every format: an encoding that is cut off, one
with bytes behind it, and a manager message or an envelope in which the length of what it carries
is declared wrongly.

A cut moves through a format from the front to the back: the parts before it are read as they
were written, and the part it goes through runs out of bytes. Only where a length is declared
does the end of the bytes mean something else. There the reader is given exactly the bytes that
were declared, so a part that runs out of them tells that the declaration was wrong.

## Main statements

* `Format.RunsOut`, with one lemma for each combinator: cut encodings run out of bytes.
* `Wire.CountsAt`, with one lemma for each combinator on the way to a declared length.
* `damaged_refused`: every message, under every kind of damage.
-/

namespace CrossChain

open Format Wire

/-! ## §1 Cut encodings -/

namespace Format

variable {ε α β : Type} [Truncation ε] {f : Format ε α} {g : Format ε β}

/-- An encoding from which bytes are missing at the end is read as one that ends too early. -/
def RunsOut (f : Format ε α) : Prop :=
  ∀ v cut more, f.write v = .ok (cut ++ more) → more ≠ [] → f.read cut = .error Truncation.truncated

/-- A cut goes either through the front or through the back of what was written. -/
theorem cut_append {front back cut more : Bytes} (h : front ++ back = cut ++ more) :
    (∃ lost, lost ≠ [] ∧ front = cut ++ lost) ∨
      ∃ kept, cut = front ++ kept ∧ back = kept ++ more := by
  rcases List.append_eq_append_iff.mp h with ⟨kept, hcut, hback⟩ | ⟨lost, hfront, hmore⟩
  · exact .inr ⟨kept, hcut, hback⟩
  · by_cases hlost : lost = []
    · subst hlost
      refine .inr ⟨[], ?_, ?_⟩
      · simpa using hfront.symm
      · simpa using hmore.symm
    · exact .inl ⟨lost, hlost, hfront⟩

/-- **A cut through one part after another**: the front is read as it was written, so what
follows meets the cut, or else the front meets it. -/
theorem read_bind_cut (hexact : f.Exact) (hcut : f.RunsOut) {a : α} {k : α → Reader ε β}
    {front back cut more : Bytes} (hfront : f.write a = .ok front)
    (h : front ++ back = cut ++ more)
    (hback : ∀ kept, back = kept ++ more → k a kept = .error Truncation.truncated) :
    (f.read >>= k) cut = .error Truncation.truncated := by
  rw [read_bind_error]
  rcases cut_append h with ⟨lost, hlost, rfl⟩ | ⟨kept, rfl, hkept⟩
  · exact .inl (hcut a cut lost hfront hlost)
  · exact .inr ⟨a, kept, (hexact _ a kept).mpr ⟨front, hfront, rfl⟩, hback kept hkept⟩

theorem read_block_short {n : ℕ} {bs : Bytes} (h : bs.length < n) :
    (block n : Format ε (Vector UInt8 n)).read bs = .error Truncation.truncated := by
  have hshort : ¬ (bs.take n).length = n := by
    rw [List.length_take]
    omega
  simp only [block, dif_neg hshort]

namespace RunsOut

/-- A reader that turns a block into a value runs out where the block does. -/
theorem of_block {n : ℕ} {forth : Vector UInt8 n → α}
    (hread : f.read = forth <$> (Format.block n : Format ε (Vector UInt8 n)).read)
    (hlength : ∀ v out, f.write v = .ok out → out.length = n) : f.RunsOut := by
  intro v cut more h hmore
  have hlength := hlength v _ h
  have hpos := List.length_pos_iff.mpr hmore
  rw [List.length_append] at hlength
  rw [hread, read_map_error]
  exact read_block_short (by omega)

theorem block (n : ℕ) : (Format.block n : Format ε (Vector UInt8 n)).RunsOut :=
  of_block (id_map _).symm (Sized.block n)

theorem word16BE : (Format.word16BE : Format ε UInt16).RunsOut :=
  of_block rfl Sized.word16BE

theorem word64BE : (Format.word64BE : Format ε UInt64).RunsOut :=
  of_block rfl Sized.word64BE

theorem numeralBE (k : ℕ) (tooLarge : ℕ → ε) : (Format.numeralBE k tooLarge).RunsOut :=
  of_block rfl (Sized.numeralBE k tooLarge)

/-- Nothing but the empty string is missing bytes of a single one. -/
theorem eq_nil_of_single {b : UInt8} {cut more : Bytes} (h : [b] = cut ++ more)
    (hmore : more ≠ []) : cut = [] := by
  have hlength := congrArg List.length h
  have hpos := List.length_pos_iff.mpr hmore
  rw [List.length_append, List.length_singleton] at hlength
  exact List.length_eq_zero_iff.mp (by omega)

theorem byte : (Format.byte : Format ε UInt8).RunsOut := by
  intro b cut more h hmore
  have hsingle : [b] = cut ++ more := by simpa [Format.byte] using h
  rw [eq_nil_of_single hsingle hmore]
  rfl

theorem flag (bad : UInt8 → ε) : (Format.flag bad).RunsOut := by
  intro b cut more h hmore
  have hsingle : [if b then 1 else 0] = cut ++ more := by simpa [Format.flag] using h
  rw [eq_nil_of_single hsingle hmore]
  rfl

theorem imap (hcut : f.RunsOut) (forth : α → β) (back : β → α) :
    (Format.imap f forth back).RunsOut := by
  intro b cut more h hmore
  simp only [Format.imap, read_map_error]
  exact hcut (back b) cut more h hmore

theorem checked (hcut : f.RunsOut) (check : α → Except ε Unit) :
    (Format.checked f check).RunsOut := by
  intro v cut more h hmore
  simp only [Format.checked, read_bind_error]
  exact .inl (hcut v cut more h hmore)

theorem pair (hexact : f.Exact) (hf : f.RunsOut) (hg : g.RunsOut) :
    (Format.pair f g).RunsOut := by
  intro v cut more h hmore
  simp only [Format.pair, bind_eq_ok, pure_eq_ok] at h
  obtain ⟨front, hfront, back, hback, h⟩ := h
  apply read_bind_cut hexact hf hfront h
  rintro kept rfl
  rw [read_bind_error]
  exact .inl (hg v.2 kept more hback hmore)

theorem tagged (hcut : f.RunsOut) (tag : Tag) (wrong : Tag → ε) :
    (Format.tagged tag wrong f).RunsOut := by
  intro v cut more h hmore
  obtain ⟨inner, hinner, h⟩ := tagged_write_eq_ok.mp h
  apply read_bind_cut (block_exact 4) (block 4) (a := tag) rfl h
  rintro kept rfl
  rw [if_pos rfl]
  exact hcut v kept more hinner hmore

theorem prefixed {count : Format ε ℕ} (hexact : count.Exact) (hcount : count.RunsOut) :
    (Format.prefixed count).RunsOut := by
  intro bs cut more h hmore
  simp only [Format.prefixed, bind_eq_ok, pure_eq_ok] at h
  obtain ⟨front, hfront, h⟩ := h
  apply read_bind_cut hexact hcount hfront h
  rintro kept rfl
  -- The number in front is that of all the bytes, and some of them are missing.
  have hpos := List.length_pos_iff.mpr hmore
  rw [read_bind_error]
  exact .inl (read_block_short (by rw [List.length_append]; omega))

/-- Values one after another, by induction on the values: the cut goes through the first of them
or through the rest. -/
theorem readMany (hexact : f.Exact) (hcut : f.RunsOut) {vs : List α} {cut more : Bytes}
    (h : writeMany f vs = .ok (cut ++ more)) (hmore : more ≠ []) :
    Format.readMany f vs.length cut = .error Truncation.truncated := by
  induction vs generalizing cut with
  | nil =>
    simp only [writeMany, Except.ok.injEq] at h
    exact absurd (List.append_eq_nil_iff.mp h.symm).2 hmore
  | cons v vs ih =>
    simp only [writeMany, bind_eq_ok, pure_eq_ok] at h
    obtain ⟨front, hfront, back, hback, h⟩ := h
    apply read_bind_cut hexact hcut hfront h
    rintro kept rfl
    rw [read_bind_error]
    exact .inl (ih hback)

theorem listOf {count : Format ε ℕ} (hcountExact : count.Exact) (hcount : count.RunsOut)
    (hexact : f.Exact) (hcut : f.RunsOut) : (Format.listOf count f).RunsOut := by
  intro vs cut more h hmore
  simp only [Format.listOf, bind_eq_ok, pure_eq_ok] at h
  obtain ⟨front, hfront, back, hback, h⟩ := h
  apply read_bind_cut hcountExact hcount hfront h
  rintro kept rfl
  exact readMany hexact hcut hback hmore

end RunsOut

end Format

/-! ## §2 Cut messages -/

namespace Wire

variable {α : Type} {f : Wire α}

theorem bytes32_runsOut : bytes32.RunsOut := .block 32

theorem chainId_runsOut : chainId.RunsOut := RunsOut.word16BE.imap _ _

theorem bytes16_runsOut : bytes16.RunsOut := .prefixed (numeralBE_exact 2 _) (.numeralBE 2 _)

theorem trimmedAmount_runsOut : trimmedAmount.RunsOut :=
  (RunsOut.pair byte_exact .byte .word64BE).imap _ _

theorem mode_runsOut : mode.RunsOut := by
  intro m cut more h hmore
  simp only [mode, read_bind_error]
  exact .inl (RunsOut.byte m.toByte cut more h hmore)

/-- A value behind its length is bytes behind their number, whatever the value. -/
theorem spanned_runsOut : (spanned f).RunsOut := by
  intro v cut more h hmore
  simp only [spanned, bind_eq_ok] at h
  obtain ⟨inner, _, h⟩ := h
  simp only [spanned, read_bind_error]
  exact .inl (bytes16_runsOut inner cut more h hmore)

end Wire

theorem TokenTransfer.wire_runsOut : TokenTransfer.wire.RunsOut :=
  ((RunsOut.pair trimmedAmount_exact trimmedAmount_runsOut (.pair bytes32_exact bytes32_runsOut
    (.pair bytes32_exact bytes32_runsOut chainId_runsOut))).imap _ _).tagged _ _

theorem TransceiverInfo.wire_runsOut : TransceiverInfo.wire.RunsOut :=
  ((RunsOut.pair bytes32_exact bytes32_runsOut (.pair mode_exact mode_runsOut
    (.pair bytes32_exact bytes32_runsOut .byte))).imap _ _).tagged _ _

theorem TransceiverRegistration.wire_runsOut : TransceiverRegistration.wire.RunsOut :=
  ((RunsOut.pair chainId_exact chainId_runsOut bytes32_runsOut).imap _ _).tagged _ _

theorem RelayInstruction.wire_runsOut : RelayInstruction.wire.RunsOut := (RunsOut.flag _).imap _ _

theorem GovernanceMessage.wire_runsOut : GovernanceMessage.wire.RunsOut :=
  (RunsOut.pair bytes32_exact bytes32_runsOut (.pair byte_exact .byte
    (.pair chainId_exact chainId_runsOut (.pair bytes32_exact bytes32_runsOut
      (.pair bytes32_exact bytes32_runsOut bytes16_runsOut))))).imap _ _

theorem Instructions.wire_runsOut : Instructions.wire.RunsOut := by
  have hentry : instructionWire.RunsOut :=
    (RunsOut.pair byte_exact .byte (.prefixed (numeralBE_exact 1 _) (.numeralBE 1 _))).imap _ _
  -- The order of the instructions is looked at when all of them have been read.
  exact ((RunsOut.listOf (numeralBE_exact 1 _) (.numeralBE 1 _) instructionWire_exact
    hentry).imap _ _).checked _

/-- The tag is read twice: first to see which payload it is, then as part of the payload. A cut
through the tag is met by the first reading, any other by the second. -/
theorem Payload.wire_runsOut : Payload.wire.RunsOut := by
  intro p cut more h hmore
  obtain ⟨inner, htag⟩ := write_tag h
  show read cut = _
  apply read_bind_cut (block_exact 4) (.block 4) (a := p.tag) rfl htag
  rintro kept rfl
  have hcut : p.tag.toList ++ kept = cut := by
    rw [← List.append_assoc] at htag
    exact List.append_cancel_right htag
  rw [read_bind_error]
  refine .inr ⟨⟨⟩, cut, ?_, ?_⟩
  · rw [read_modify]
    exact hcut
  cases p with
  | transfer t =>
    rw [tag, if_pos rfl, read_map_error]
    exact TokenTransfer.wire_runsOut t cut more h hmore
  | info i =>
    rw [tag, if_neg (by decide), if_pos rfl, read_map_error]
    exact TransceiverInfo.wire_runsOut i cut more h hmore
  | registration r =>
    rw [tag, if_neg (by decide), if_neg (by decide), if_pos rfl, read_map_error]
    exact TransceiverRegistration.wire_runsOut r cut more h hmore

namespace AdminInstruction

theorem switch_runsOut : switch.RunsOut := .flag _

theorem peerSpec_runsOut : peerSpec.RunsOut :=
  (RunsOut.pair chainId_exact chainId_runsOut (.pair bytes32_exact bytes32_runsOut
    (.pair word64BE_exact .word64BE .byte))).imap _ _

theorem wire_runsOut : wire.RunsOut := by
  intro i cut more h hmore
  simp only [wire, bind_eq_ok, pure_eq_ok] at h
  obtain ⟨fields, hfields, h⟩ := h
  apply read_bind_cut byte_exact .byte (a := i.number) rfl h
  rintro kept rfl
  cases i with
  | transferOwnership owner =>
    exact read_map_error.mpr (bytes32_runsOut owner kept more hfields hmore)
  | claimOwnership =>
    have hnone : [] = kept ++ more := by simpa [writeFields] using hfields
    exact absurd (List.append_eq_nil_iff.mp hnone.symm).2 hmore
  | setPaused paused => exact read_map_error.mpr (switch_runsOut paused kept more hfields hmore)
  | setPeer spec => exact read_map_error.mpr (peerSpec_runsOut spec kept more hfields hmore)
  | registerTransceiver address =>
    exact read_map_error.mpr (bytes32_runsOut address kept more hfields hmore)
  | setTransceiverEnabled id enabled =>
    exact read_map_error.mpr
      (RunsOut.pair byte_exact .byte switch_runsOut (id, enabled) kept more hfields hmore)
  | setThreshold threshold =>
    exact read_map_error.mpr (RunsOut.byte threshold kept more hfields hmore)
  | setOutboundLimit limit =>
    exact read_map_error.mpr (RunsOut.word64BE limit kept more hfields hmore)
  | setInboundLimit chain limit =>
    exact read_map_error.mpr (RunsOut.pair chainId_exact chainId_runsOut .word64BE (chain, limit)
      kept more hfields hmore)

end AdminInstruction

section Around

variable {π : Type} {payload : Wire π}

theorem ManagerMessage.wire_runsOut : (ManagerMessage.wire payload).RunsOut :=
  (RunsOut.pair bytes32_exact bytes32_runsOut
    (.pair bytes32_exact bytes32_runsOut spanned_runsOut)).imap _ _

theorem Envelope.wire_runsOut (h : payload.Exact) : (Envelope.wire payload).RunsOut :=
  ((RunsOut.pair bytes32_exact bytes32_runsOut (.pair bytes32_exact bytes32_runsOut
    (.pair (spanned_exact (ManagerMessage.wire_exact h)) spanned_runsOut
      bytes16_runsOut))).imap _ _).tagged _ _

end Around

/-! ## §3 Too few and too many bytes -/

namespace Wire

variable {α : Type} {f : Wire α} {valid : α → Prop}

/-- **Cut off and extended encodings are refused** as what they are. A list of instructions that
may not be sent can be written, but is never read, so `valid` leaves it out. -/
structure Robust (f : Wire α) (valid : α → Prop) : Prop where
  /-- The start of an encoding ends too early. -/
  cut : ∀ v out cut, f.write v = .ok out → cut <+: out → cut ≠ out →
    decode f cut = .error .unexpectedEnd
  /-- Bytes behind an encoding are counted. -/
  extended : ∀ v out more, valid v → f.write v = .ok out → more ≠ [] →
    decode f (out ++ more) = .error (.trailingBytes more.length)

theorem Robust.of_read (hcut : f.RunsOut)
    (hread : ∀ v out rest, valid v → f.write v = .ok out → f.read (out ++ rest) = .ok (v, rest)) :
    Robust f valid where
  cut := by
    rintro v _ cut hout ⟨more, rfl⟩ hne
    apply decode_of_error
    apply hcut v cut more hout
    rintro rfl
    exact hne (List.append_nil cut).symm
  extended v out more hv hout hmore := decode_of_rest (hread v out more hv hout) hmore

theorem Robust.of_exact (hexact : f.Exact) (hcut : f.RunsOut) : Robust f fun _ => True :=
  .of_read hcut fun v out rest _ hout => (hexact _ v rest).mpr ⟨out, hout, rfl⟩

/-! ## §4 Declared lengths -/

/-- Bytes with the two of them at `position` replaced by another length. -/
def redeclare (bs : Bytes) (position : ℕ) (declared : UInt16) : Bytes :=
  bs.take position ++ bytesBE 2 declared.toNat ++ bs.drop (position + 2)

/-- Why bytes are refused in which a length is declared that is not the right one. -/
def misdeclared (declared : UInt16) (following : Bytes) : WireError :=
  if declared.toNat ≤ following.length then .lengthMismatch declared.toNat else .unexpectedEnd

/-- **Wrong lengths are refused**: the encoding of a value declares a length at `position`, and is
refused with any other length there, whatever follows it. -/
structure ChecksLength (f : Wire α) (position : ℕ) (length : α → ℕ) : Prop where
  declares : ∀ v out, f.write v = .ok out →
    natOfBE ((out.drop position).take 2) = length v
  refuses : ∀ v out more (declared : UInt16), f.write v = .ok out → declared.toNat ≠ length v →
    decode f (redeclare (out ++ more) position declared) =
      .error (misdeclared declared ((out ++ more).drop (position + 2)))

/-- Encodings declare a length behind `position` bytes, and another length is refused by the
reader, which sees nothing behind it that could tell. -/
def CountsAt (f : Wire α) (position : ℕ) (length : α → ℕ) : Prop :=
  ∀ v out, f.write v = .ok out → length v < numeralCount 2 ∧ ∃ front back,
    out = front ++ (bytesBE 2 (length v) ++ back) ∧ front.length = position ∧
      ∀ more (declared : UInt16), declared.toNat ≠ length v →
        f.read (front ++ (bytesBE 2 declared.toNat ++ (back ++ more))) =
          .error (misdeclared declared (back ++ more))

/-- The bytes that are declared are taken, if there are so many. -/
theorem read_bytes16 (declared : UInt16) (following : Bytes) :
    bytes16.read (bytesBE 2 declared.toNat ++ following) =
      if declared.toNat ≤ following.length then
        .ok (following.take declared.toNat, following.drop declared.toNat)
      else .error .unexpectedEnd := by
  have hroom : declared.toNat < numeralCount 2 := declared.toNat_lt
  split
  next henough =>
    have htake : (following.take declared.toNat).length = declared.toNat := by
      rw [List.length_take]
      omega
    rw [bytes16_exact]
    refine ⟨bytesBE 2 declared.toNat ++ following.take declared.toNat, ?_, ?_⟩
    · rw [bytes16_write_eq_ok, htake]
      exact ⟨hroom, rfl⟩
    · rw [List.append_assoc, List.take_append_drop]
  next hshort =>
    -- The length itself is read, and the bytes behind it run out.
    have hlength : length16.read (bytesBE 2 declared.toNat ++ following) =
        .ok (declared.toNat, following) :=
      (numeralBE_exact 2 _ _ _ _).mpr ⟨bytesBE 2 declared.toNat, if_pos hroom, rfl⟩
    simp only [bytes16, prefixed, read_bind_error]
    exact .inr ⟨_, _, hlength, .inl (read_block_short (not_le.mp hshort))⟩

/-- A value fills a span of its own length only: a shorter span runs out, and a longer one has
bytes left. -/
theorem readExactly_of_length_ne (hexact : f.Exact) (hcut : f.RunsOut) {v : α}
    {inner more span rest : Bytes} (hinner : f.write v = .ok inner)
    (hspan : span ++ rest = inner ++ more) (hlength : span.length ≠ inner.length) :
    readExactly f span = .error (.lengthMismatch span.length) := by
  rcases List.append_eq_append_iff.mp hspan with ⟨lost, rfl, -⟩ | ⟨extra, rfl, -⟩
  · have hlost : lost ≠ [] := by
      rintro rfl
      simp at hlength
    have hread : f.read span = .error .unexpectedEnd := hcut v span lost hinner hlost
    simp only [readExactly, hread]
  · have hread : f.read (inner ++ extra) = .ok (v, extra) :=
      (hexact _ v extra).mpr ⟨inner, hinner, rfl⟩
    cases extra with
    | nil => simp at hlength
    | cons b extra => simp only [readExactly, hread]

theorem CountsAt.spanned (hexact : f.Exact) (hsized : f.Sized) (hcut : f.RunsOut) :
    CountsAt (Wire.spanned f) 0 f.size := by
  intro v out h
  simp only [Wire.spanned, bind_eq_ok, bytes16_write_eq_ok] at h
  obtain ⟨inner, hinner, hroom, rfl⟩ := h
  have hsize := hsized v inner hinner
  rw [hsize] at hroom ⊢
  refine ⟨hroom, [], inner, rfl, rfl, fun more declared hne => ?_⟩
  simp only [List.nil_append, Wire.spanned, misdeclared, read_bind_error, read_lift_error]
  split
  next henough =>
    have htake : ((inner ++ more).take declared.toNat).length = declared.toNat := by
      rw [List.length_take]
      omega
    have hspan := readExactly_of_length_ne hexact hcut hinner
      (List.take_append_drop declared.toNat (inner ++ more)) (by rwa [htake, hsize])
    rw [htake] at hspan
    exact .inr ⟨_, _, by rw [read_bytes16, if_pos henough], hspan⟩
  next hshort => exact .inl (by rw [read_bytes16, if_neg hshort])

section Positions

variable {β : Type} {g : Wire β} {position : ℕ} {length : α → ℕ}

theorem CountsAt.imap (h : CountsAt f position length) (forth : α → β) (back : β → α) :
    CountsAt (Format.imap f forth back) position (fun b => length (back b)) := by
  intro b out hout
  obtain ⟨hroom, front, rest, rfl, hfront, hread⟩ := h (back b) out hout
  refine ⟨hroom, front, rest, rfl, hfront, fun more declared hne => ?_⟩
  simp only [Format.imap, read_map_error]
  exact hread more declared hne

theorem CountsAt.pair_left (h : CountsAt f position length) :
    CountsAt (Format.pair f g) position (fun v => length v.1) := by
  intro v out hout
  simp only [Format.pair, bind_eq_ok, pure_eq_ok] at hout
  obtain ⟨out₁, hout₁, out₂, _, rfl⟩ := hout
  obtain ⟨hroom, front, rest, rfl, hfront, hread⟩ := h v.1 out₁ hout₁
  refine ⟨hroom, front, rest ++ out₂, by simp only [List.append_assoc], hfront,
    fun more declared hne => ?_⟩
  simp only [Format.pair, read_bind_error, List.append_assoc]
  exact .inl (hread (out₂ ++ more) declared hne)

/-- What stands in front is read as before and moves the length back by its size. -/
theorem CountsAt.pair_right {n : ℕ} (hexact : g.Exact) (hlength : ∀ b out, g.write b = .ok out →
    out.length = n) (h : CountsAt f position length) :
    CountsAt (Format.pair g f) (n + position) (fun v => length v.2) := by
  intro v out hout
  simp only [Format.pair, bind_eq_ok, pure_eq_ok] at hout
  obtain ⟨out₁, hout₁, out₂, hout₂, rfl⟩ := hout
  obtain ⟨hroom, front, rest, rfl, hfront, hread⟩ := h v.2 out₂ hout₂
  refine ⟨hroom, out₁ ++ front, rest, by simp only [List.append_assoc], ?_,
    fun more declared hne => ?_⟩
  · rw [List.length_append, hlength v.1 out₁ hout₁, hfront]
  · simp only [Format.pair, read_bind_error, List.append_assoc]
    exact .inr ⟨v.1, _, (hexact _ v.1 _).mpr ⟨out₁, hout₁, rfl⟩, .inl (hread more declared hne)⟩

theorem CountsAt.tagged (h : CountsAt f position length) (tag : Tag) (wrong : Tag → WireError) :
    CountsAt (Format.tagged tag wrong f) (4 + position) length := by
  intro v out hout
  obtain ⟨inner, hinner, rfl⟩ := tagged_write_eq_ok.mp hout
  obtain ⟨hroom, front, rest, rfl, hfront, hread⟩ := h v inner hinner
  refine ⟨hroom, tag.toList ++ front, rest, by simp only [List.append_assoc], ?_,
    fun more declared hne => ?_⟩
  · rw [List.length_append, Vector.length_toList, hfront]
  · simp only [Format.tagged, read_bind_error, read_block, List.append_assoc]
    refine .inr ⟨tag, _, rfl, ?_⟩
    rw [if_pos rfl]
    exact hread more declared hne

theorem ChecksLength.of_countsAt (h : CountsAt f position length) :
    ChecksLength f position length where
  declares v out hout := by
    obtain ⟨hroom, front, back, rfl, rfl, -⟩ := h v out hout
    have htake : (bytesBE 2 (length v) ++ back).take 2 = bytesBE 2 (length v) :=
      List.take_left' (length_bytesBE 2 _)
    rw [List.drop_left, htake, natOfBE_bytesBE, Nat.mod_eq_of_lt hroom]
  refuses v out more declared hout hne := by
    obtain ⟨-, front, back, rfl, rfl, hread⟩ := h v out hout
    have hafter : (front ++ (bytesBE 2 (length v) ++ back) ++ more).drop (front.length + 2) =
        back ++ more := by
      rw [List.append_assoc, ← List.drop_drop, List.drop_left, List.append_assoc,
        List.drop_left' (length_bytesBE 2 _)]
    have hbefore : (front ++ (bytesBE 2 (length v) ++ back) ++ more).take front.length = front := by
      rw [List.append_assoc, List.take_left]
    rw [redeclare, hbefore, hafter, List.append_assoc]
    exact decode_of_error (hread more declared hne)

end Positions

end Wire

/-! ## §5 Every message -/

section Around

variable {π : Type} {payload : Wire π}

/-- The length of the payload stands behind the id and the sender. -/
theorem ManagerMessage.wire_countsAt (hexact : payload.Exact) (hsized : payload.Sized)
    (hcut : payload.RunsOut) :
    CountsAt (ManagerMessage.wire payload) 64 (fun m => payload.size m.payload) :=
  ((((CountsAt.spanned hexact hsized hcut).pair_right bytes32_exact
    (Sized.block 32)).pair_right bytes32_exact (Sized.block 32)).imap _ _)

/-- The length of the message stands behind the tag and the two managers. -/
theorem Envelope.wire_countsAt (hexact : payload.Exact) (hsized : payload.Sized) :
    CountsAt (Envelope.wire payload) 68
      (fun e => (ManagerMessage.wire payload).size e.delivery.message) :=
  ((((CountsAt.spanned (ManagerMessage.wire_exact hexact) (ManagerMessage.wire_sized hsized)
    ManagerMessage.wire_runsOut).pair_left.pair_right bytes32_exact
      (Sized.block 32)).pair_right bytes32_exact (Sized.block 32)).imap _ _).tagged _ _

/-- **What carries a payload is refused when damaged**: cut off, extended, or with the wrong
length of what it carries. -/
structure Wire.Guarded (payload : Wire π) : Prop where
  message : Robust (ManagerMessage.wire payload) fun _ => True
  envelope : Robust (Envelope.wire payload) fun _ => True
  messageLength :
    ChecksLength (ManagerMessage.wire payload) 64 fun m => payload.size m.payload
  envelopeLength :
    ChecksLength (Envelope.wire payload) 68
      fun e => (ManagerMessage.wire payload).size e.delivery.message

theorem Wire.Guarded.of_exact (hexact : payload.Exact) (hsized : payload.Sized)
    (hcut : payload.RunsOut) : Guarded payload where
  message := .of_exact (ManagerMessage.wire_exact hexact) ManagerMessage.wire_runsOut
  envelope := .of_exact (Envelope.wire_exact hexact) (Envelope.wire_runsOut hexact)
  messageLength := .of_countsAt (ManagerMessage.wire_countsAt hexact hsized hcut)
  envelopeLength := .of_countsAt (Envelope.wire_countsAt hexact hsized)

end Around

theorem Instructions.wire_robust :
    Robust wire fun list => ofList list.entries = .ok list :=
  .of_read wire_runsOut fun _ out _ hlist hout => read_eq_ok.mpr ⟨hlist, out, hout, rfl⟩

/-- **Damaged encodings are refused with the right error.** Bytes that are missing at the end of a
message or left over behind it are reported as such, in every format; and a manager message or an
envelope that declares a wrong length for what it carries is refused for that length if there are
so many bytes, and else for ending too early. -/
theorem damaged_refused :
    Robust trimmedAmount (fun _ => True) ∧ Robust chainId (fun _ => True) ∧
    Robust mode (fun _ => True) ∧ Robust TokenTransfer.wire (fun _ => True) ∧
    Robust TransceiverInfo.wire (fun _ => True) ∧
    Robust TransceiverRegistration.wire (fun _ => True) ∧
    Robust Payload.wire (fun _ => True) ∧ Robust RelayInstruction.wire (fun _ => True) ∧
    Robust Instructions.wire (fun list => Instructions.ofList list.entries = .ok list) ∧
    Robust AdminInstruction.wire (fun _ => True) ∧
    Robust GovernanceMessage.wire (fun _ => True) ∧
    Guarded TokenTransfer.wire ∧ Guarded TransceiverInfo.wire ∧
    Guarded TransceiverRegistration.wire ∧ Guarded Payload.wire :=
  ⟨.of_exact trimmedAmount_exact trimmedAmount_runsOut,
    .of_exact chainId_exact chainId_runsOut, .of_exact mode_exact mode_runsOut,
    .of_exact TokenTransfer.wire_exact TokenTransfer.wire_runsOut,
    .of_exact TransceiverInfo.wire_exact TransceiverInfo.wire_runsOut,
    .of_exact TransceiverRegistration.wire_exact TransceiverRegistration.wire_runsOut,
    .of_exact Payload.wire_exact Payload.wire_runsOut,
    .of_exact RelayInstruction.wire_exact RelayInstruction.wire_runsOut,
    Instructions.wire_robust,
    .of_exact AdminInstruction.wire_exact AdminInstruction.wire_runsOut,
    .of_exact GovernanceMessage.wire_exact GovernanceMessage.wire_runsOut,
    .of_exact TokenTransfer.wire_exact TokenTransfer.wire_sized TokenTransfer.wire_runsOut,
    .of_exact TransceiverInfo.wire_exact TransceiverInfo.wire_sized TransceiverInfo.wire_runsOut,
    .of_exact TransceiverRegistration.wire_exact TransceiverRegistration.wire_sized
      TransceiverRegistration.wire_runsOut,
    .of_exact Payload.wire_exact Payload.wire_sized Payload.wire_runsOut⟩

end CrossChain
