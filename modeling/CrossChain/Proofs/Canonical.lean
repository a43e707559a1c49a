import CrossChain.Governance.Message
import CrossChain.Manager.Admin
import CrossChain.Message.Payload
import CrossChain.Message.Relay
import CrossChain.Proofs.Sizes

/-!
# One encoding for every message

Two chains agree on a message by its bytes, and a manager remembers it by their hash. So a
message must not have a second encoding, and bytes that are not an encoding must not be read.
This module says so of every message there is: the transfers and announcements, what managers
and transceivers put around them, the instructions for transceivers, and what the owner and
governance send.

## Main statements

* `Wire.Canonical`: what it means that every value has one encoding.
* `messages_canonical`: all formats of the wire are canonical.
-/

namespace CrossChain

open Format Wire

/-! ## §1 Canonical formats -/

namespace Wire

variable {α : Type} {f : Wire α} {valid room : α → Prop}

/-- **One encoding for every value**: `valid` tells which values there are, and `room` which of
them can be encoded. -/
structure Canonical (f : Wire α) (valid room : α → Prop) : Prop where
  /-- A value is read off the front exactly where its encoding stands. -/
  read_eq_ok : ∀ bs v rest, valid v →
    (f.read bs = .ok (v, rest) ↔ ∃ out, f.write v = .ok out ∧ bs = out ++ rest)
  /-- Nothing else is read. -/
  read_valid : ∀ bs v rest, f.read bs = .ok (v, rest) → valid v
  /-- Bytes decode to a value exactly if they are its encoding. -/
  decode_eq_ok : ∀ bs v, valid v → (decode f bs = .ok v ↔ f.write v = .ok bs)
  /-- Different values have different encodings. -/
  injective : ∀ v w bs, valid v → valid w → f.write v = .ok bs → f.write w = .ok bs → v = w
  /-- No encoding is the start of another. -/
  prefixFree : ∀ v w out out', valid v → valid w → f.write v = .ok out → f.write w = .ok out' →
    out <+: out' → v = w
  /-- The length of an encoding is announced. -/
  length : ∀ v out, f.write v = .ok out → out.length = f.size v
  /-- Only values that there is no room for have no encoding. -/
  fits_iff : ∀ v, valid v → (f.Fits v ↔ room v)

/-- What the reader does decides the rest. -/
theorem Canonical.of_read
    (hread : ∀ bs v rest, f.read bs = .ok (v, rest) ↔
      valid v ∧ ∃ out, f.write v = .ok out ∧ bs = out ++ rest)
    (hsized : f.Sized) (hfits : ∀ v, valid v → (f.Fits v ↔ room v)) : Canonical f valid room := by
  -- What is read off an encoding, with anything behind it, is the value that was encoded.
  have hback {v : α} {out : Bytes} (rest : Bytes) (hv : valid v) (hout : f.write v = .ok out) :
      f.read (out ++ rest) = .ok (v, rest) := (hread _ v rest).mpr ⟨hv, out, hout, rfl⟩
  have hprefix {v w : α} {out out' : Bytes} (hv : valid v) (hw : valid w)
      (hout : f.write v = .ok out) (hout' : f.write w = .ok out') (h : out <+: out') : v = w := by
    obtain ⟨rest, rfl⟩ := h
    have hshort := hback rest hv hout
    have hlong := hback [] hw hout'
    rw [List.append_nil, hshort, Except.ok.injEq, Prod.mk.injEq] at hlong
    exact hlong.1
  refine ⟨fun bs v rest hv => ?_, fun bs v rest h => ((hread bs v rest).mp h).1,
    fun bs v hv => ?_, fun v w bs hv hw h h' => hprefix hv hw h h' List.prefix_rfl,
    fun v w out out' hv hw => hprefix hv hw, hsized, hfits⟩
  · rw [hread bs v rest]
    exact and_iff_right hv
  · rw [decode, decode_eq_ok_iff_read, hread bs v []]
    simp only [List.append_nil, exists_eq_right', and_iff_right hv]

theorem Canonical.of_exact (hexact : f.Exact) (hsized : f.Sized) (hfits : ∀ v, f.Fits v ↔ room v) :
    Canonical f (fun _ => True) room :=
  .of_read (fun bs v rest => (hexact bs v rest).trans (and_iff_right trivial).symm) hsized
    (fun v _ => hfits v)

/-- An exact format of values that can all be encoded is canonical. -/
theorem Canonical.of_fits (hexact : f.Exact) (hsized : f.Sized) (hfits : ∀ v, f.Fits v) :
    Canonical f (fun _ => True) fun _ => True :=
  .of_exact hexact hsized fun v => iff_of_true (hfits v) trivial

end Wire

/-! ## §2 Messages -/

section Messages

variable {π : Type} {payload : Wire π}

theorem TransceiverInfo.wire_exact : TransceiverInfo.wire.Exact :=
  ((bytes32_exact.pair (mode_exact.pair (bytes32_exact.pair byte_exact))).imap (fun _ => rfl)
    (fun _ => rfl)).tagged _ _

theorem TransceiverRegistration.wire_exact : TransceiverRegistration.wire.Exact :=
  ((chainId_exact.pair bytes32_exact).imap (fun _ => rfl) (fun _ => rfl)).tagged _ _

theorem RelayInstruction.wire_exact : RelayInstruction.wire.Exact :=
  (flag_exact _).imap (fun _ => rfl) (fun _ => rfl)

theorem GovernanceMessage.wire_exact : GovernanceMessage.wire.Exact :=
  (bytes32_exact.pair (byte_exact.pair (chainId_exact.pair
    (bytes32_exact.pair (bytes32_exact.pair bytes16_exact))))).imap (fun _ => rfl) (fun _ => rfl)

theorem Wire.mode_sized : mode.Sized := fun m out h => Sized.byte m.toByte out h

theorem Wire.chainId_sized : chainId.Sized := Sized.word16BE.imap _ _

theorem Wire.bytes16_sized : bytes16.Sized := .prefixed (.numeralBE 2 _)

theorem Wire.trimmedAmount_sized : trimmedAmount.Sized := (Sized.byte.pair .word64BE).imap _ _

theorem TokenTransfer.wire_sized : TokenTransfer.wire.Sized :=
  ((trimmedAmount_sized.pair ((Sized.block 32).pair ((Sized.block 32).pair chainId_sized))).imap
    _ _).tagged _ _

theorem TransceiverInfo.wire_sized : TransceiverInfo.wire.Sized :=
  (((Sized.block 32).pair (mode_sized.pair ((Sized.block 32).pair .byte))).imap _ _).tagged _ _

theorem TransceiverRegistration.wire_sized : TransceiverRegistration.wire.Sized :=
  ((chainId_sized.pair (Sized.block 32)).imap _ _).tagged _ _

theorem RelayInstruction.wire_sized : RelayInstruction.wire.Sized := (Sized.flag _).imap _ _

theorem GovernanceMessage.wire_sized : GovernanceMessage.wire.Sized :=
  ((Sized.block 32).pair (Sized.byte.pair (chainId_sized.pair
    ((Sized.block 32).pair ((Sized.block 32).pair bytes16_sized))))).imap _ _

theorem ManagerMessage.wire_sized (h : payload.Sized) : (ManagerMessage.wire payload).Sized :=
  ((Sized.block 32).pair ((Sized.block 32).pair (spanned_sized h))).imap _ _

theorem Envelope.wire_sized (h : payload.Sized) : (Envelope.wire payload).Sized :=
  (((Sized.block 32).pair ((Sized.block 32).pair
    ((spanned_sized (ManagerMessage.wire_sized h)).pair bytes16_sized))).imap _ _).tagged _ _

end Messages

/-! ## §3 Payloads -/

namespace Payload

/-- The encoding of a payload starts with its tag. -/
theorem write_tag {p : Payload} {out : Bytes} (h : wire.write p = .ok out) :
    ∃ inner, p.tag.toList ++ inner = out := by
  cases p with
  | transfer t =>
    have htransfer : TokenTransfer.wire.write t = .ok out := h
    obtain ⟨inner, _, hout⟩ := tagged_write_eq_ok.mp htransfer
    exact ⟨inner, hout⟩
  | info i =>
    have hinfo : TransceiverInfo.wire.write i = .ok out := h
    obtain ⟨inner, _, hout⟩ := tagged_write_eq_ok.mp hinfo
    exact ⟨inner, hout⟩
  | registration r =>
    have hregistration : TransceiverRegistration.wire.write r = .ok out := h
    obtain ⟨inner, _, hout⟩ := tagged_write_eq_ok.mp hregistration
    exact ⟨inner, hout⟩

/-- Reading looks at the tag and leaves the bytes as they were. -/
theorem read_eq_ok {bs : Bytes} {result : Payload × Bytes} :
    read bs = .ok result ↔ ∃ (found : Tag) (mid : Bytes), bs = found.toList ++ mid ∧
      (if found = TokenTransfer.tag then transfer <$> TokenTransfer.wire.read
        else if found = TransceiverInfo.tag then info <$> TransceiverInfo.wire.read
        else if found = TransceiverRegistration.tag then
          registration <$> TransceiverRegistration.wire.read
        else throw (.unknownPayload found) : Reader WireError Payload) bs = .ok result := by
  simp only [read, read_bind, read_block, read_modify]
  constructor
  · rintro ⟨found, mid, rfl, _, _, rfl, h⟩
    exact ⟨found, mid, rfl, h⟩
  · rintro ⟨found, mid, rfl, h⟩
    exact ⟨found, mid, rfl, ⟨⟩, _, rfl, h⟩

theorem wire_exact : wire.Exact := by
  intro bs p rest
  show read bs = .ok (p, rest) ↔ _
  rw [read_eq_ok]
  constructor
  · rintro ⟨found, mid, -, h⟩
    -- Under each tag, the format of that kind says what was read.
    split at h
    next =>
      obtain ⟨t, ht, rfl⟩ := TokenTransfer.wire_exact.read_map.mp h
      exact ht
    split at h
    next =>
      obtain ⟨i, hi, rfl⟩ := TransceiverInfo.wire_exact.read_map.mp h
      exact hi
    split at h
    next =>
      obtain ⟨r, hr, rfl⟩ := TransceiverRegistration.wire_exact.read_map.mp h
      exact hr
    next => exact absurd h read_throw
  · rintro ⟨out, hout, rfl⟩
    -- What was written starts with the tag of its kind, so that kind is read.
    obtain ⟨inner, rfl⟩ := write_tag hout
    refine ⟨p.tag, inner ++ rest, List.append_assoc _ _ _, ?_⟩
    cases p with
    | transfer t =>
      rw [tag, if_pos rfl]
      exact TokenTransfer.wire_exact.read_map.mpr ⟨t, ⟨_, hout, rfl⟩, rfl⟩
    | info i =>
      rw [tag, if_neg (by decide), if_pos rfl]
      exact TransceiverInfo.wire_exact.read_map.mpr ⟨i, ⟨_, hout, rfl⟩, rfl⟩
    | registration r =>
      rw [tag, if_neg (by decide), if_neg (by decide), if_pos rfl]
      exact TransceiverRegistration.wire_exact.read_map.mpr ⟨r, ⟨_, hout, rfl⟩, rfl⟩

theorem wire_sized : wire.Sized := by
  intro p out h
  cases p with
  | transfer t => exact TokenTransfer.wire_sized t out h
  | info i => exact TransceiverInfo.wire_sized i out h
  | registration r => exact TransceiverRegistration.wire_sized r out h

end Payload

/-! ## §4 Instructions for transceivers -/

namespace Instructions

/-- What the check of a list asks for: an index above the one before, and payloads whose length
one byte can tell. -/
theorem checkFrom_eq_ok {previous : Option UInt8} {entries : List Instruction} {u : Unit}
    (h : checkFrom previous entries = .ok u) : ∀ entry ∈ entries, entry.payload.length ≤ 255 := by
  induction entries generalizing previous with
  | nil => exact fun _ hentry => nomatch hentry
  | cons entry rest ih =>
    simp only [checkFrom, guard_eq_ok, not_lt] at h
    obtain ⟨hlength, h⟩ := h
    refine List.forall_mem_cons.mpr ⟨hlength, ?_⟩
    split at h
    next => exact ih h
    next =>
      rw [guard_eq_ok] at h
      exact ih h.2

theorem check_eq_ok {list : Instructions} {u : Unit} (h : list.check = .ok u) :
    list.entries.length ≤ 255 ∧ ∀ entry ∈ list.entries, entry.payload.length ≤ 255 := by
  simp only [check, guard_eq_ok, not_lt] at h
  exact ⟨h.1, checkFrom_eq_ok h.2⟩

theorem ofList_eq_ok {list : Instructions} :
    ofList list.entries = .ok list ↔ list.check = .ok () := by
  simp only [ofList, bind_eq_ok, pure_eq_ok, and_true]
  exact ⟨fun ⟨_, h⟩ => h, fun h => ⟨(), h⟩⟩

theorem instructionWire_exact : instructionWire.Exact :=
  (byte_exact.pair (Exact.prefixed (numeralBE_exact 1 _))).imap (fun _ => rfl) (fun _ => rfl)

theorem instructionWire_sized : instructionWire.Sized :=
  (Sized.byte.pair (.prefixed (.numeralBE 1 _))).imap _ _

/-- Before the order is checked, any list can be read back. -/
theorem unchecked_exact :
    ((listOf (numeralBE 1 WireError.tooManyInstructions) instructionWire).imap Instructions.mk
      entries).Exact :=
  (Exact.listOf (numeralBE_exact 1 _) instructionWire_exact).imap (fun _ => rfl) (fun _ => rfl)

theorem read_eq_ok {bs rest : Bytes} {list : Instructions} :
    wire.read bs = .ok (list, rest) ↔
      ofList list.entries = .ok list ∧ ∃ out, wire.write list = .ok out ∧ bs = out ++ rest := by
  rw [wire, read_checked, unchecked_exact bs list rest, ofList_eq_ok, and_comm]
  rfl

theorem wire_sized : wire.Sized :=
  ((Sized.listOf (.numeralBE 1 WireError.tooManyInstructions) instructionWire_sized).imap
    Instructions.mk entries).checked check

/-- A list that may be sent has an encoding. -/
theorem wire_fits {list : Instructions} (h : ofList list.entries = .ok list) : wire.Fits list := by
  obtain ⟨hcount, hlengths⟩ := check_eq_ok (ofList_eq_ok.mp h)
  simp only [wire, checked_fits, imap_fits, listOf_fits, numeralBE_fits, instructionWire, pair_fits,
    byte_fits, prefixed_fits, length8, true_and, numeralCount]
  refine ⟨by omega, fun entry hentry => ?_⟩
  have hlength := hlengths entry hentry
  omega

end Instructions

/-! ## §5 Changes of the configuration -/

namespace AdminInstruction

theorem switch_exact : switch.Exact := flag_exact _

theorem peerSpec_exact : peerSpec.Exact :=
  (chainId_exact.pair (bytes32_exact.pair (word64BE_exact.pair byte_exact))).imap (fun _ => rfl)
    (fun _ => rfl)

theorem toggle_exact : toggle.Exact := byte_exact.pair switch_exact

theorem chainLimit_exact : chainLimit.Exact := chainId_exact.pair word64BE_exact

/-- The fields that are read are those of an instruction with the number in front. -/
theorem readFields_eq_ok {number : UInt8} {i : AdminInstruction} {bs rest : Bytes} :
    readFields number bs = .ok (i, rest) ↔
      number = i.number ∧ ∃ out, i.writeFields = .ok out ∧ bs = out ++ rest := by
  constructor
  · intro h
    unfold readFields at h
    split at h
    next =>
      obtain ⟨owner, howner, rfl⟩ := bytes32_exact.read_map.mp h
      exact ⟨rfl, howner⟩
    next =>
      obtain ⟨rfl, rfl⟩ := read_pure.mp h
      exact ⟨rfl, [], rfl, rfl⟩
    next =>
      obtain ⟨paused, hpaused, rfl⟩ := switch_exact.read_map.mp h
      exact ⟨rfl, hpaused⟩
    next =>
      obtain ⟨spec, hspec, rfl⟩ := peerSpec_exact.read_map.mp h
      exact ⟨rfl, hspec⟩
    next =>
      obtain ⟨address, haddress, rfl⟩ := bytes32_exact.read_map.mp h
      exact ⟨rfl, haddress⟩
    next =>
      obtain ⟨fields, hfields, rfl⟩ := toggle_exact.read_map.mp h
      exact ⟨rfl, hfields⟩
    next =>
      obtain ⟨threshold, hthreshold, rfl⟩ := byte_exact.read_map.mp h
      exact ⟨rfl, hthreshold⟩
    next =>
      obtain ⟨limit, hlimit, rfl⟩ := word64BE_exact.read_map.mp h
      exact ⟨rfl, hlimit⟩
    next =>
      obtain ⟨fields, hfields, rfl⟩ := chainLimit_exact.read_map.mp h
      exact ⟨rfl, hfields⟩
    next => exact absurd h read_throw
  · rintro ⟨rfl, hout⟩
    cases i with
    | transferOwnership owner => exact bytes32_exact.read_map.mpr ⟨owner, hout, rfl⟩
    | claimOwnership =>
      obtain ⟨_, ⟨⟩, rfl⟩ := hout
      exact read_pure.mpr ⟨rfl, rfl⟩
    | setPaused paused => exact switch_exact.read_map.mpr ⟨paused, hout, rfl⟩
    | setPeer spec => exact peerSpec_exact.read_map.mpr ⟨spec, hout, rfl⟩
    | registerTransceiver address => exact bytes32_exact.read_map.mpr ⟨address, hout, rfl⟩
    | setTransceiverEnabled id enabled =>
      exact toggle_exact.read_map.mpr ⟨(id, enabled), hout, rfl⟩
    | setThreshold threshold => exact byte_exact.read_map.mpr ⟨threshold, hout, rfl⟩
    | setOutboundLimit limit => exact word64BE_exact.read_map.mpr ⟨limit, hout, rfl⟩
    | setInboundLimit chain limit =>
      exact chainLimit_exact.read_map.mpr ⟨(chain, limit), hout, rfl⟩

theorem wire_exact : wire.Exact := by
  intro bs i rest
  simp only [wire, read_bind, read_byte, readFields_eq_ok, bind_eq_ok, pure_eq_ok]
  constructor
  · rintro ⟨_, _, rfl, rfl, fields, hfields, rfl⟩
    exact ⟨_, ⟨fields, hfields, rfl⟩, rfl⟩
  · rintro ⟨_, ⟨fields, hfields, rfl⟩, rfl⟩
    exact ⟨i.number, fields ++ rest, rfl, rfl, fields, hfields, rfl⟩

theorem writeFields_sized {i : AdminInstruction} {out : Bytes} (h : i.writeFields = .ok out) :
    out.length = i.fieldsSize := by
  have hswitch : switch.Sized := .flag _
  have hpeerSpec : peerSpec.Sized :=
    (chainId_sized.pair ((Sized.block 32).pair (Sized.word64BE.pair .byte))).imap _ _
  have hchainLimit : chainLimit.Sized := chainId_sized.pair .word64BE
  cases i with
  | transferOwnership owner => exact Sized.block 32 owner out h
  | claimOwnership => cases h; rfl
  | setPaused paused => exact hswitch paused out h
  | setPeer spec => exact hpeerSpec spec out h
  | registerTransceiver address => exact Sized.block 32 address out h
  | setTransceiverEnabled id enabled => exact (Sized.byte.pair hswitch) (id, enabled) out h
  | setThreshold threshold => exact Sized.byte threshold out h
  | setOutboundLimit limit => exact Sized.word64BE limit out h
  | setInboundLimit chain limit => exact hchainLimit (chain, limit) out h

theorem wire_sized : wire.Sized := by
  intro i out h
  simp only [wire, bind_eq_ok, pure_eq_ok] at h
  obtain ⟨fields, hfields, rfl⟩ := h
  rw [List.length_cons, writeFields_sized hfields, Nat.add_comm]
  rfl

/-- No field of an instruction has a length that could be too great. -/
theorem wire_fits (i : AdminInstruction) : wire.Fits i := by
  have hfields : ∃ out, i.writeFields = .ok out := by
    cases i <;> exact ⟨_, rfl⟩
  obtain ⟨out, hout⟩ := hfields
  refine ⟨i.number :: out, ?_⟩
  simp only [wire, bind_eq_ok, pure_eq_ok]
  exact ⟨out, hout, rfl⟩

end AdminInstruction

/-! ## §6 Every message -/

/-- What managers tell each other about: every value has an encoding, and a short one, so that two
bytes can count it and what is put around it. -/
structure Wire.Compact {π : Type} (payload : Wire π) : Prop where
  exact : payload.Exact
  sized : payload.Sized
  fits : ∀ p, payload.Fits p
  small : ∀ p, payload.size p ≤ 1000

theorem TokenTransfer.wire_compact : Compact TokenTransfer.wire where
  exact := wire_exact
  sized := wire_sized
  fits t := by simp [wire, trimmedAmount, bytes32, chainId]
  small t := by
    have hsize : wire.size t = 79 := rfl
    omega

theorem Payload.wire_compact : Compact Payload.wire where
  exact := wire_exact
  sized := wire_sized
  fits p := by
    cases p with
    | transfer t => exact TokenTransfer.wire_compact.fits t
    | info i => exact ⟨_, rfl⟩
    | registration r => exact ⟨_, rfl⟩
  small p := by
    cases p with
    | transfer t => exact TokenTransfer.wire_compact.small t
    | info i =>
      have hsize : wire.size (info i) = 70 := rfl
      omega
    | registration r =>
      have hsize : wire.size (registration r) = 38 := rfl
      omega

section Around

variable {π : Type} {payload : Wire π}

theorem ManagerMessage.wire_fits (h : Compact payload) (m : ManagerMessage π) :
    (ManagerMessage.wire payload).Fits m := by
  simp only [ManagerMessage.wire, bytes32, imap_fits, pair_fits, block_fits, true_and,
    spanned_fits h.sized]
  exact ⟨h.fits m.payload, (h.small m.payload).trans (by decide)⟩

theorem ManagerMessage.wire_canonical (h : Compact payload) :
    Canonical (ManagerMessage.wire payload) (fun _ => True) fun _ => True :=
  .of_fits (wire_exact h.exact) (wire_sized h.sized) (wire_fits h)

/-- An envelope has an encoding unless the transceiver adds more bytes than two bytes can
count. -/
theorem Envelope.wire_fits (h : Compact payload) (e : Envelope π) :
    (Envelope.wire payload).Fits e ↔ e.transceiverPayload.length ≤ 65535 := by
  have hmessage : (ManagerMessage.wire payload).size e.delivery.message ≤ 65535 := by
    have hsize : (ManagerMessage.wire payload).size e.delivery.message =
        32 + (32 + (2 + payload.size e.delivery.message.payload)) := rfl
    have hsmall := h.small e.delivery.message.payload
    omega
  simp only [Envelope.wire, bytes32, bytes16, length16, tagged_fits, imap_fits, pair_fits,
    block_fits, true_and, spanned_fits (ManagerMessage.wire_sized h.sized), prefixed_fits,
    numeralBE_fits, numeralCount, ManagerMessage.wire_fits h, hmessage]
  omega

theorem Envelope.wire_canonical (h : Compact payload) :
    Canonical (Envelope.wire payload) (fun _ => True) fun e =>
      e.transceiverPayload.length ≤ 65535 :=
  .of_exact (wire_exact h.exact) (wire_sized h.sized) (wire_fits h)

end Around

theorem GovernanceMessage.wire_fits (m : GovernanceMessage) :
    wire.Fits m ↔ m.callData.length ≤ 65535 := by
  simp only [wire, bytes32, bytes16, length16, chainId, imap_fits, pair_fits, block_fits, byte_fits,
    word16BE_fits, prefixed_fits, numeralBE_fits, numeralCount, true_and]
  omega

/-- **Every message has one encoding.** A value is read off the front of a byte string exactly
where its encoding stands, and it has an encoding unless the bytes that a transceiver or a
governed contract is given are more than 65535. -/
theorem messages_canonical :
    Canonical trimmedAmount (fun _ => True) (fun _ => True) ∧
    Canonical chainId (fun _ => True) (fun _ => True) ∧
    Canonical mode (fun _ => True) (fun _ => True) ∧
    Canonical TokenTransfer.wire (fun _ => True) (fun _ => True) ∧
    Canonical Payload.wire (fun _ => True) (fun _ => True) ∧
    Canonical (ManagerMessage.wire TokenTransfer.wire) (fun _ => True) (fun _ => True) ∧
    Canonical (ManagerMessage.wire Payload.wire) (fun _ => True) (fun _ => True) ∧
    Canonical (Envelope.wire TokenTransfer.wire) (fun _ => True)
      (fun e => e.transceiverPayload.length ≤ 65535) ∧
    Canonical (Envelope.wire Payload.wire) (fun _ => True)
      (fun e => e.transceiverPayload.length ≤ 65535) ∧
    Canonical TransceiverInfo.wire (fun _ => True) (fun _ => True) ∧
    Canonical TransceiverRegistration.wire (fun _ => True) (fun _ => True) ∧
    Canonical RelayInstruction.wire (fun _ => True) (fun _ => True) ∧
    Canonical Instructions.wire (fun list => Instructions.ofList list.entries = .ok list)
      (fun _ => True) ∧
    Canonical AdminInstruction.wire (fun _ => True) (fun _ => True) ∧
    Canonical GovernanceMessage.wire (fun _ => True) (fun m => m.callData.length ≤ 65535) := by
  refine ⟨.of_fits trimmedAmount_exact trimmedAmount_sized ?_,
    .of_fits chainId_exact chainId_sized ?_, .of_fits mode_exact mode_sized ?_,
    .of_fits TokenTransfer.wire_exact TokenTransfer.wire_sized TokenTransfer.wire_compact.fits,
    .of_fits Payload.wire_exact Payload.wire_sized Payload.wire_compact.fits,
    ManagerMessage.wire_canonical TokenTransfer.wire_compact,
    ManagerMessage.wire_canonical Payload.wire_compact,
    Envelope.wire_canonical TokenTransfer.wire_compact,
    Envelope.wire_canonical Payload.wire_compact,
    .of_fits TransceiverInfo.wire_exact TransceiverInfo.wire_sized ?_,
    .of_fits TransceiverRegistration.wire_exact TransceiverRegistration.wire_sized ?_,
    .of_fits RelayInstruction.wire_exact RelayInstruction.wire_sized ?_,
    .of_read (fun _ _ _ => Instructions.read_eq_ok) Instructions.wire_sized ?_,
    .of_fits AdminInstruction.wire_exact AdminInstruction.wire_sized AdminInstruction.wire_fits,
    .of_exact GovernanceMessage.wire_exact GovernanceMessage.wire_sized
      GovernanceMessage.wire_fits⟩
  -- Where no length is written in front, nothing can be too long.
  · exact fun a => ⟨_, rfl⟩
  · exact fun c => ⟨_, rfl⟩
  · exact fun m => ⟨_, rfl⟩
  · exact fun i => ⟨_, rfl⟩
  · exact fun r => ⟨_, rfl⟩
  · exact fun r => ⟨_, rfl⟩
  · exact fun list h => iff_of_true (Instructions.wire_fits h) trivial

end CrossChain
