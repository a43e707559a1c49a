import CrossChain.Proofs.Damage

/-!
# Reading a payload whose kind is not known

A manager that expects a transfer reads one. A client that does not know what a message carries
looks at the tag, puts it back and reads the payload that it announces. Both remember the message
by its hash, so the two ways to read must never come apart: not on the bytes that are read, nor on
those that are refused, nor in the reason.

The two ways agree on all bytes that hold no other tag where the payload starts. This passes from
the payload to what is around it: the position of the tag moves back by what stands in front, and
in the bytes of a declared length it is looked for from their beginning.

## Main statements

* `Wire.Agrees`, with one lemma for each combinator on the way to the payload.
* `Payload.agrees_transfer` and the like: each kind of payload, read in the two ways.
* `payloads_agree`: payloads, manager messages and envelopes of every kind.
-/

namespace CrossChain

open Format Wire

/-! ## §1 The same message with another payload -/

section Map

variable {π ρ : Type}

/-- The message with its payload seen as one of another type. -/
def ManagerMessage.map (c : π → ρ) (m : ManagerMessage π) : ManagerMessage ρ :=
  ⟨m.id, m.sender, c m.payload⟩

/-- The delivery with the payload of its message seen as one of another type. -/
def Delivery.map (c : π → ρ) (d : Delivery π) : Delivery ρ :=
  ⟨d.sourceManager, d.recipientManager, d.message.map c⟩

/-- The envelope with the payload of its message seen as one of another type. -/
def Envelope.map (c : π → ρ) (e : Envelope π) : Envelope ρ :=
  ⟨e.delivery.map c, e.transceiverPayload⟩

end Map

/-! ## §2 Readers that agree -/

section Readers

variable {ε α β : Type} {bs : Bytes}

/-- Reading a value and then seeing it as another one. -/
theorem read_map_apply {r : Reader ε α} {c : α → β} :
    (c <$> r) bs = (fun p => (c p.1, p.2)) <$> r bs := by
  show (r bs >>= fun p => Except.ok (c p.1, p.2)) = _
  cases r bs <;> rfl

/-- Readers in sequence agree if the first ones do and the second ones do on what is left. -/
theorem read_bind_congr {r r' : Reader ε α} {k k' : α → Reader ε β} (hr : r bs = r' bs)
    (hk : ∀ a rest, r' bs = .ok (a, rest) → k a rest = k' a rest) :
    (r >>= k) bs = (r' >>= k') bs := by
  show (r bs >>= fun p => k p.1 p.2) = r' bs >>= fun p => k' p.1 p.2
  rw [hr]
  cases hread : r' bs with
  | error e => rfl
  | ok result => exact hk result.1 result.2 hread

end Readers

namespace Wire

variable {α β γ : Type} {f : Wire α} {g : Wire β} {c : α → β} {tag : Tag} {position : ℕ}
  {bs : Bytes}

/-- No other tag stands at a position; there may be too few bytes for any tag. -/
def TagAt (tag : Tag) (position : ℕ) (bs : Bytes) : Prop :=
  ∀ found : Tag, found.toList <+: bs.drop position → found = tag

/-- Tags have one length, so only one of them starts a byte string. -/
theorem TagAt.of_tag (h : tag.toList <+: bs.drop position) : TagAt tag position bs := by
  intro found hfound
  obtain ⟨rest, hrest⟩ := h
  obtain ⟨rest', hrest'⟩ := hfound
  have hlist : found.toList = tag.toList :=
    (List.append_inj (hrest'.trans hrest.symm) (by simp)).1
  exact Vector.toArray_inj.mp (Array.toList_inj.mp hlist)

/-- A string that stands behind some bytes holds the tag closer to its front. -/
theorem TagAt.inside {n : ℕ} {front inner rest : Bytes} (hlength : front.length = n)
    (h : TagAt tag (n + position) (front ++ inner ++ rest)) : TagAt tag position inner := by
  intro found hfound
  apply h found
  rw [← hlength, List.append_assoc, ← List.drop_drop, List.drop_left]
  exact hfound.trans ((List.prefix_append inner rest).drop position)

theorem TagAt.behind {n : ℕ} {front rest : Bytes} (hlength : front.length = n)
    (h : TagAt tag (n + position) (front ++ rest)) : TagAt tag position rest := by
  rw [← List.append_nil (front ++ rest)] at h
  exact h.inside hlength

/-- **Two readers agree** on bytes that hold no other tag at the position: both refuse them for the
same reason, or both read them and leave the same rest, and what the second reads is what the first
reads, seen as a value of another type. -/
def Agrees (f : Wire α) (g : Wire β) (c : α → β) (tag : Tag) (position : ℕ) : Prop :=
  ∀ bs, TagAt tag position bs → g.read bs = (c <$> f.read) bs

namespace Agrees

theorem decode (h : Agrees f g c tag position) (hbs : TagAt tag position bs) :
    Wire.decode g bs = c <$> Wire.decode f bs := by
  simp only [Wire.decode, Format.decode, h bs hbs, read_map_apply]
  cases f.read bs with
  | error e => rfl
  | ok result =>
    obtain ⟨v, rest⟩ := result
    cases rest <;> rfl

theorem imap {α' β' : Type} (h : Agrees f g c tag position) {forth : α → α'} {back : α' → α}
    {forth' : β → β'} {back' : β' → β} (c' : α' → β') (hc : ∀ a, forth' (c a) = c' (forth a)) :
    Agrees (f.imap forth back) (g.imap forth' back') c' tag position := by
  intro bs hbs
  simp only [Format.imap, read_map_apply, h bs hbs, Functor.map_map, hc]

theorem pair_left (h : Agrees f g c tag position) (other : Wire γ) :
    Agrees (f.pair other) (g.pair other) (Prod.map c id) tag position := by
  intro bs hbs
  simp only [Format.pair, map_bind, map_pure]
  rw [read_bind_congr (h bs hbs) fun _ _ _ => rfl, bind_map_left]
  rfl

/-- What stands in front is read in both ways alike and moves the tag back by its size. -/
theorem pair_right {n : ℕ} {other : Wire γ} (hexact : other.Exact)
    (hlength : ∀ a out, other.write a = .ok out → out.length = n)
    (h : Agrees f g c tag position) :
    Agrees (other.pair f) (other.pair g) (Prod.map id c) tag (n + position) := by
  intro bs hbs
  simp only [Format.pair, map_bind, map_pure]
  refine read_bind_congr rfl fun a rest hread => ?_
  obtain ⟨out, hout, rfl⟩ := (hexact bs a rest).mp hread
  rw [read_bind_congr (h rest (hbs.behind (hlength a out hout))) fun _ _ _ => rfl, bind_map_left]
  rfl

theorem tagged (h : Agrees f g c tag position) (outer : Tag) (wrong : Tag → WireError) :
    Agrees (f.tagged outer wrong) (g.tagged outer wrong) c tag (4 + position) := by
  intro bs hbs
  simp only [Format.tagged, map_bind]
  refine read_bind_congr rfl fun found rest hread => ?_
  obtain rfl := read_block.mp hread
  split
  next => exact h rest (hbs.behind found.length_toList)
  next => rfl

/-- The bytes of a declared length are cut out before either reader sees them. -/
theorem spanned (h : Agrees f g c tag position) :
    Agrees (Wire.spanned f) (Wire.spanned g) c tag (2 + position) := by
  intro bs hbs
  simp only [Wire.spanned, map_bind]
  refine read_bind_congr rfl fun span rest hread => ?_
  obtain ⟨out, hout, rfl⟩ := (bytes16_exact bs span rest).mp hread
  obtain ⟨_, rfl⟩ := bytes16_write_eq_ok.mp hout
  have hspan : readExactly g span = c <$> readExactly f span := by
    -- What is left of the span, and the reason why it is refused, are the same for both.
    simp only [readExactly, h span (hbs.inside (length_bytesBE 2 _)), read_map_apply]
    cases f.read span with
    | error e => cases e <;> rfl
    | ok result =>
      obtain ⟨v, left⟩ := result
      cases left <;> rfl
  rw [hspan]
  cases readExactly f span <;> rfl

end Agrees

end Wire

/-! ## §3 Payloads of a known kind -/

namespace Payload

/-- The tag decides which payload is read, and the payload is read from the tag on. -/
theorem read_append (found : Tag) (rest : Bytes) :
    read (found.toList ++ rest) =
      (if found = TokenTransfer.tag then transfer <$> TokenTransfer.wire.read
        else if found = TransceiverInfo.tag then info <$> TransceiverInfo.wire.read
        else if found = TransceiverRegistration.tag then
          registration <$> TransceiverRegistration.wire.read
        else throw (.unknownPayload found) : Reader WireError Payload) (found.toList ++ rest) := by
  have htag : (block 4 : Wire Tag).read (found.toList ++ rest) = .ok (found, rest) :=
    read_block.mpr rfl
  show ((block 4 : Wire Tag).read (found.toList ++ rest) >>= _) = _
  rw [htag]
  rfl

/-- A kind of payload that is read under its own tag as its own format reads it. -/
theorem agrees_of_read {α : Type} {fields : Wire α} {tag : Tag} {wrong : Tag → WireError}
    {c : α → Payload} (h : ∀ rest, read (tag.toList ++ rest) =
      (c <$> (tagged tag wrong fields).read) (tag.toList ++ rest)) :
    Agrees (tagged tag wrong fields) wire c tag 0 := by
  intro bs hbs
  show read bs = _
  rcases lt_or_ge bs.length 4 with hshort | hlong
  · -- Without a whole tag, both ways end at the first reading.
    have hblock : (block 4 : Wire Tag).read bs = .error .unexpectedEnd := read_block_short hshort
    have hkind : (tagged tag wrong fields).read bs = .error .unexpectedEnd :=
      read_bind_error.mpr (.inl hblock)
    rw [read_map_error.mpr hkind]
    exact read_bind_error.mpr (.inl hblock)
  · have htake : (bs.take 4).length = 4 := by
      rw [List.length_take]
      omega
    obtain ⟨found, rest, rfl⟩ : ∃ (found : Tag) (rest : Bytes), found.toList ++ rest = bs :=
      ⟨⟨(bs.take 4).toArray, htake⟩, bs.drop 4, List.take_append_drop 4 bs⟩
    obtain rfl := hbs found (List.prefix_append _ _)
    exact h rest

theorem agrees_transfer :
    Agrees TokenTransfer.wire wire transfer TokenTransfer.tag 0 := by
  apply agrees_of_read
  intro rest
  rw [read_append, if_pos rfl]
  rfl

theorem agrees_info : Agrees TransceiverInfo.wire wire info TransceiverInfo.tag 0 := by
  apply agrees_of_read
  intro rest
  rw [read_append, if_neg (by decide), if_pos rfl]
  rfl

theorem agrees_registration :
    Agrees TransceiverRegistration.wire wire registration TransceiverRegistration.tag 0 := by
  apply agrees_of_read
  intro rest
  rw [read_append, if_neg (by decide), if_neg (by decide), if_pos rfl]
  rfl

end Payload

/-! ## §4 What carries a payload -/

section Around

variable {π ρ : Type} {f : Wire π} {g : Wire ρ} {c : π → ρ} {tag : Tag} {position : ℕ}

/-- In a message, the payload stands behind the id, the sender and its length. -/
theorem ManagerMessage.agrees (h : Agrees f g c tag position) :
    Agrees (wire f) (wire g) (map c) tag (66 + position) := by
  have hmessage := (h.spanned.pair_right bytes32_exact (Sized.block 32)).pair_right bytes32_exact
    (Sized.block 32)
  rw [show 66 + position = 32 + (32 + (2 + position)) by omega]
  exact hmessage.imap (map c) fun _ => rfl

/-- In an envelope, the message stands behind the tag, the two managers and its length. -/
theorem Envelope.agrees (h : Agrees f g c tag position) :
    Agrees (wire f) (wire g) (map c) tag (136 + position) := by
  have henvelope := ((((ManagerMessage.agrees h).spanned.pair_left bytes16).pair_right
    bytes32_exact (Sized.block 32)).pair_right bytes32_exact (Sized.block 32))
  rw [show 136 + position = 4 + (32 + (32 + (2 + (66 + position)))) by omega]
  exact (henvelope.imap (map c) fun _ => rfl).tagged _ _

/-- A message is written as the same bytes in both forms if its payload is. -/
theorem ManagerMessage.write_map (h : ∀ p, g.write (c p) = f.write p) (m : ManagerMessage π) :
    (wire g).write (m.map c) = (wire f).write m := by
  simp only [wire, map, imap, pair, spanned, h]

theorem Envelope.write_map (h : ∀ p, g.write (c p) = f.write p) (e : Envelope π) :
    (wire g).write (e.map c) = (wire f).write e := by
  have hmessage := ManagerMessage.write_map h e.delivery.message
  simp only [wire, tagged, imap, pair, spanned, map, Delivery.map, hmessage]

end Around

/-! ## §5 Two ways to read every message -/

namespace Wire

variable {α β : Type}

/-- **Two formats correspond**: on all bytes, the second reads the form `c v` of a value exactly
where the first reads the value, and both write it back as those bytes. Where the tag stands at the
position, the second does nothing else. -/
structure Corresponds (f : Wire α) (g : Wire β) (c : α → β) (tag : Tag) (position : ℕ) :
    Prop where
  decode_iff : ∀ bs v, decode f bs = .ok v ↔ decode g bs = .ok (c v)
  writes_back : ∀ bs v, decode f bs = .ok v → f.write v = .ok bs ∧ g.write (c v) = .ok bs
  /-- Refused bytes are refused for the same reason. -/
  decode_eq : ∀ bs, tag.toList <+: bs.drop position → decode g bs = c <$> decode f bs

theorem Corresponds.of_agrees {f : Wire α} {g : Wire β} {c : α → β} {tag : Tag} {position : ℕ}
    (h : Agrees f g c tag position) (hf : f.Exact) (hg : g.Exact)
    (hwrite : ∀ v, g.write (c v) = f.write v) : Corresponds f g c tag position where
  decode_iff bs v := by
    rw [Wire.decode, Wire.decode, hf.decode_eq_ok, hg.decode_eq_ok, hwrite]
  writes_back bs v hv := by
    rw [hwrite, and_self]
    exact hf.decode_eq_ok.mp hv
  decode_eq _ htag := h.decode (.of_tag htag)

/-- No byte string is read as one and as the other. -/
def Apart (f : Wire α) (g : Wire β) : Prop :=
  ∀ bs v w, decode f bs = .ok v → decode g bs ≠ .ok w

/-- Two formats that correspond to one, as forms of it that no value has in common. -/
theorem Apart.of_corresponds {γ : Type} {f : Wire α} {f' : Wire β} {g : Wire γ} {c : α → γ}
    {c' : β → γ} {tag tag' : Tag} {position position' : ℕ} (h : Corresponds f g c tag position)
    (h' : Corresponds f' g c' tag' position') (hne : ∀ v w, c v ≠ c' w) : Apart f f' := by
  intro bs v w hv hw
  have hboth := (h.decode_iff bs v).mp hv
  rw [(h'.decode_iff bs w).mp hw, Except.ok.injEq] at hboth
  exact hne v w hboth.symm

/-- **A kind of payload is read alike** by its own format and by the format of all payloads,
alone and in what carries it; the message that is read has one hash on every chain. -/
structure Recognized {π : Type} (kind : Wire π) (c : π → Payload) (tag : Tag) : Prop where
  payload : Corresponds kind Payload.wire c tag 0
  message : Corresponds (ManagerMessage.wire kind) (ManagerMessage.wire Payload.wire)
    (ManagerMessage.map c) tag 66
  envelope : Corresponds (Envelope.wire kind) (Envelope.wire Payload.wire) (Envelope.map c) tag 136
  messageDigest : ∀ bs m, decode (ManagerMessage.wire kind) bs = .ok m → ∀ chain,
    m.digest kind chain = .ok (ManagerMessage.digestOfBytes chain bs) ∧
    (m.map c).digest Payload.wire chain = .ok (ManagerMessage.digestOfBytes chain bs)
  envelopeDigest : ∀ bs e, decode (Envelope.wire kind) bs = .ok e → ∀ chain, ∃ digest,
    e.delivery.message.digest kind chain = .ok digest ∧
    (e.map c).delivery.message.digest Payload.wire chain = .ok digest

section Recognized

variable {π : Type} {kind : Wire π} {c : π → Payload} {tag : Tag}

/-- What an envelope carries has an encoding of its own. -/
theorem message_fits_of_envelope {e : Envelope π} {bs : Bytes}
    (h : (Envelope.wire kind).write e = .ok bs) :
    ∃ out, (ManagerMessage.wire kind).write e.delivery.message = .ok out := by
  have hfits : (Envelope.wire kind).Fits e := ⟨bs, h⟩
  simp only [Envelope.wire, tagged_fits, imap_fits, pair_fits] at hfits
  obtain ⟨out, hout⟩ := hfits.2.2.1
  simp only [spanned, bind_eq_ok] at hout
  obtain ⟨inner, hinner, _⟩ := hout
  exact ⟨inner, hinner⟩

theorem Recognized.of_agrees (h : Agrees kind Payload.wire c tag 0) (hkind : kind.Exact)
    (hwrite : ∀ p, Payload.wire.write (c p) = kind.write p) : Recognized kind c tag where
  payload := .of_agrees h hkind Payload.wire_exact hwrite
  message := .of_agrees (ManagerMessage.agrees h) (ManagerMessage.wire_exact hkind)
    (ManagerMessage.wire_exact Payload.wire_exact) (ManagerMessage.write_map hwrite)
  envelope := .of_agrees (Envelope.agrees h) (Envelope.wire_exact hkind)
    (Envelope.wire_exact Payload.wire_exact) (Envelope.write_map hwrite)
  messageDigest bs m hm chain := by
    have hbs := (ManagerMessage.wire_exact hkind).decode_eq_ok.mp hm
    simp only [ManagerMessage.digest, ManagerMessage.write_map hwrite, hbs]
    exact ⟨rfl, rfl⟩
  envelopeDigest bs e he chain := by
    obtain ⟨out, hout⟩ := message_fits_of_envelope ((Envelope.wire_exact hkind).decode_eq_ok.mp he)
    refine ⟨ManagerMessage.digestOfBytes chain out, ?_⟩
    simp only [ManagerMessage.digest, Envelope.map, Delivery.map, ManagerMessage.write_map hwrite,
      hout]
    exact ⟨rfl, rfl⟩

end Recognized

/-- **No byte string is read as two kinds of payload**, alone or in what carries it. -/
structure KindsApart {π ρ : Type} (kind : Wire π) (kind' : Wire ρ) : Prop where
  payload : Apart kind kind'
  message : Apart (ManagerMessage.wire kind) (ManagerMessage.wire kind')
  envelope : Apart (Envelope.wire kind) (Envelope.wire kind')

theorem KindsApart.of_recognized {π ρ : Type} {kind : Wire π} {kind' : Wire ρ} {c : π → Payload}
    {c' : ρ → Payload} {tag tag' : Tag} (h : Recognized kind c tag) (h' : Recognized kind' c' tag')
    (hne : ∀ v w, c v ≠ c' w) : KindsApart kind kind' where
  payload := .of_corresponds h.payload h'.payload hne
  message := .of_corresponds h.message h'.message fun m m' heq =>
    hne m.payload m'.payload (congrArg ManagerMessage.payload heq)
  envelope := .of_corresponds h.envelope h'.envelope fun e e' heq =>
    hne e.delivery.message.payload e'.delivery.message.payload
      (congrArg (fun x => x.delivery.message.payload) heq)

end Wire

/-- **The format of all payloads agrees with the format of each kind.** On every byte string, a
payload, a manager message or an envelope is read as one of a kind exactly when it is read as one
of any kind and is of that kind; then both forms are written back as those bytes and have the same
hash on every chain. Where the payload starts with the tag of the kind, refusals agree too. And no
byte string is read as two kinds. -/
theorem payloads_agree :
    Recognized TokenTransfer.wire Payload.transfer TokenTransfer.tag ∧
    Recognized TransceiverInfo.wire Payload.info TransceiverInfo.tag ∧
    Recognized TransceiverRegistration.wire Payload.registration TransceiverRegistration.tag ∧
    KindsApart TokenTransfer.wire TransceiverInfo.wire ∧
    KindsApart TokenTransfer.wire TransceiverRegistration.wire ∧
    KindsApart TransceiverInfo.wire TransceiverRegistration.wire := by
  have htransfer : Recognized TokenTransfer.wire Payload.transfer TokenTransfer.tag :=
    .of_agrees Payload.agrees_transfer TokenTransfer.wire_exact fun _ => rfl
  have hinfo : Recognized TransceiverInfo.wire Payload.info TransceiverInfo.tag :=
    .of_agrees Payload.agrees_info TransceiverInfo.wire_exact fun _ => rfl
  have hregistration : Recognized TransceiverRegistration.wire Payload.registration
      TransceiverRegistration.tag :=
    .of_agrees Payload.agrees_registration TransceiverRegistration.wire_exact fun _ => rfl
  exact ⟨htransfer, hinfo, hregistration,
    .of_recognized htransfer hinfo (fun _ _ h => nomatch h),
    .of_recognized htransfer hregistration (fun _ _ h => nomatch h),
    .of_recognized hinfo hregistration (fun _ _ h => nomatch h)⟩

end CrossChain
