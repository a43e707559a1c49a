import CrossChain.Proofs.Ledger
import CrossChain.Proofs.Run
import CrossChain.Proofs.Sizes
import CrossChain.Snapshot.Manager

/-!
# Snapshots and what is restored from them

A manager that is stored and restored must be the manager that it was. The writer puts the
entries of a map in the order of their keys, while the reader takes them in any order and lets
the last of several under one key count, so the format of a manager is not exact: there are
bytes that it reads and never writes. What holds instead is that the reader inverts the writer,
that it never finds a manager that cannot be stored again, and that it looks at no byte beyond
those that it takes. These three pass from the parts of a format to the whole, and the formats
of everything but maps are exact.

## Main statements

* `SortedMap.get?_ofList`: of several entries under one key the last counts.
* `Format.Restores`, with one lemma for each combinator that a map may occur in.
* `Manager.fits_iff_storable`: only a collection that cannot be counted keeps a manager from
  being stored.
* `Manager.restore_snapshot`: storing and restoring in either order, and bytes cut off or added.
-/

namespace CrossChain

/-! ## §1 Maps from lists of entries -/

namespace SortedMap

variable {κ α : Type} [Ranked κ]

theorem ofList_concat (entries : List (κ × α)) (entry : κ × α) :
    ofList (entries ++ [entry]) = (ofList entries).insert entry.1 entry.2 := by
  simp only [ofList, List.foldl_append, List.foldl_cons, List.foldl_nil]

/-- **Of several entries under one key the last counts.** -/
theorem get?_ofList (entries : List (κ × α)) (key : κ) :
    (ofList entries).get? key =
      (entries.reverse.find? fun entry => rank entry.1 == rank key).map (·.2) := by
  -- By induction from the end, where the entry that counts stands.
  induction entries using List.reverseRecOn with
  | nil => rfl
  | append_singleton entries entry ih =>
    rw [ofList_concat, get?_insert, ih, List.reverse_append, List.reverse_singleton,
      List.singleton_append, List.find?_cons]
    by_cases hsame : rank entry.1 = rank key
    · simp [hsame]
    · have hmiss : (rank entry.1 == rank key) = false := by simpa using hsame
      simp [hsame, hmiss]

/-- The entries of the map of a list are taken from the list. -/
theorem mem_of_mem_ofList {entries : List (κ × α)} {entry : κ × α}
    (h : entry ∈ (ofList entries).toList) : entry ∈ entries := by
  obtain ⟨key, value⟩ := entry
  rw [← get?_eq_some_iff, get?_ofList, Option.map_eq_some_iff] at h
  obtain ⟨found, hfound, rfl⟩ := h
  have hkey : found.1 = key := Ranked.rank_injective (by simpa using List.find?_some hfound)
  have hmem := List.mem_reverse.mp (List.mem_of_find?_eq_some hfound)
  rwa [← hkey]

/-- Helper: an insertion adds one entry or none. -/
private theorem length_insertEntry_le (key : κ) (value : α) (entries : List (κ × α)) :
    (insertEntry key value entries).length ≤ entries.length + 1 := by
  induction entries with
  | nil => simp [insertEntry]
  | cons entry rest ih =>
    rw [insertEntry]
    split
    next => simp
    next =>
      split
      next => simp
      next => simpa using ih

theorem size_ofList_le (entries : List (κ × α)) : (ofList entries).size ≤ entries.length := by
  induction entries using List.reverseRecOn with
  | nil => exact le_refl 0
  | append_singleton entries entry ih =>
    rw [ofList_concat, List.length_append, List.length_singleton]
    have hstep := length_insertEntry_le entry.1 entry.2 (ofList entries).toList
    exact hstep.trans (Nat.add_le_add_right ih 1)

/-- **The entries of a map make the map.** -/
theorem ofList_toList (m : SortedMap κ α) : ofList m.toList = m := by
  apply ext_get?
  intro key
  cases hget : m.get? key with
  | some value =>
    -- The entry stands in the list, and every entry under its key is that entry.
    have hmem : (key, value) ∈ m.toList := (get?_eq_some_iff m key value).mp hget
    rw [get?_ofList]
    cases hfind : m.toList.reverse.find? fun entry => rank entry.1 == rank key with
    | none =>
      have habsent := List.find?_eq_none.mp hfind (key, value) (List.mem_reverse.mpr hmem)
      simp at habsent
    | some found =>
      have hkey : found.1 = key := Ranked.rank_injective (by simpa using List.find?_some hfind)
      have hfound : (key, found.2) ∈ m.toList := by
        rw [← hkey]
        exact List.mem_reverse.mp (List.mem_of_find?_eq_some hfind)
      rw [← get?_eq_some_iff, hget] at hfound
      simpa using hfound.symm
  | none =>
    cases hback : (ofList m.toList).get? key with
    | none => rfl
    | some value =>
      have hmem := mem_of_mem_ofList ((get?_eq_some_iff _ key value).mp hback)
      rw [← get?_eq_some_iff, hget] at hmem
      cases hmem

end SortedMap

/-! ## §2 Formats that restore what they store -/

namespace Format

variable {ε α β κ : Type}

/-- **What was stored is restored**, by a reader that may accept more than the writer makes. -/
structure Restores (f : Format ε α) : Prop where
  /-- A value is read off its encoding, whatever follows it. -/
  read_write : ∀ {v out}, f.write v = .ok out → ∀ rest, f.read (out ++ rest) = .ok (v, rest)
  /-- A value that was read can be written. -/
  fits : ∀ {bs v rest}, f.read bs = .ok (v, rest) → f.Fits v
  /-- The reader looks at the bytes that it takes and at no others. -/
  read_front : ∀ {bs v rest}, f.read bs = .ok (v, rest) →
    ∃ used, bs = used ++ rest ∧ ∀ more, f.read (used ++ more) = .ok (v, more)

namespace Restores

variable {f : Format ε α} {g : Format ε β}

theorem of_exact (hf : f.Exact) : f.Restores where
  read_write hout rest := (hf _ _ rest).mpr ⟨_, hout, rfl⟩
  fits h := by
    obtain ⟨out, hout, _⟩ := (hf _ _ _).mp h
    exact ⟨out, hout⟩
  read_front h := by
    obtain ⟨out, hout, rfl⟩ := (hf _ _ _).mp h
    exact ⟨out, rfl, fun more => (hf _ _ more).mpr ⟨out, hout, rfl⟩⟩

/-- Values of another form, of which some may come from several values of the first form. -/
theorem imap (hf : f.Restores) {forth : α → β} {back : β → α} (hforth : ∀ b, forth (back b) = b)
    (hroom : ∀ a, f.Fits a → f.Fits (back (forth a))) : (Format.imap f forth back).Restores where
  read_write {b out} hout rest := by
    have hread := hf.read_write (v := back b) hout rest
    exact read_map.mpr ⟨back b, hread, hforth b⟩
  fits h := by
    obtain ⟨a, ha, rfl⟩ := read_map.mp h
    exact hroom a (hf.fits ha)
  read_front h := by
    obtain ⟨a, ha, rfl⟩ := read_map.mp h
    obtain ⟨used, hused, hmore⟩ := hf.read_front ha
    exact ⟨used, hused, fun more => read_map.mpr ⟨a, hmore more, rfl⟩⟩

theorem pair (hf : f.Restores) (hg : g.Restores) : (Format.pair f g).Restores where
  read_write {v out} hout rest := by
    simp only [Format.pair, bind_eq_ok, pure_eq_ok] at hout
    obtain ⟨front, hfront, back, hback, rfl⟩ := hout
    simp only [Format.pair, read_bind, read_pure]
    rw [List.append_assoc]
    exact ⟨v.1, back ++ rest, hf.read_write hfront _, v.2, rest, hg.read_write hback rest, rfl, rfl⟩
  fits h := by
    simp only [Format.pair, read_bind, read_pure] at h
    obtain ⟨a, mid, ha, b, _, hb, rfl, rfl⟩ := h
    exact pair_fits.mpr ⟨hf.fits ha, hg.fits hb⟩
  read_front {bs v rest} h := by
    simp only [Format.pair, read_bind, read_pure] at h
    obtain ⟨a, mid, ha, b, _, hb, rfl, rfl⟩ := h
    obtain ⟨front, rfl, hfront⟩ := hf.read_front ha
    obtain ⟨back, rfl, hback⟩ := hg.read_front hb
    refine ⟨front ++ back, by rw [List.append_assoc], fun more => ?_⟩
    simp only [Format.pair, read_bind, read_pure]
    rw [List.append_assoc]
    exact ⟨a, back ++ more, hfront _, b, more, hback more, rfl, rfl⟩

/-- What is restored from a map that may be out of order can be stored again: sorting adds no
entries and makes no new ones. -/
theorem map [Ranked κ] {key : Stored κ} {value : Stored α} (hkey : key.Exact)
    (hvalue : value.Exact) : (Stored.map key value).Restores := by
  have hcount : Stored.count.Exact := numeralLE_exact 4 _
  refine (of_exact (hcount.listOf (hkey.pair hvalue))).imap SortedMap.ofList_toList fun es h => ?_
  obtain ⟨hlength, hentries⟩ := listOf_fits.mp h
  refine listOf_fits.mpr
    ⟨?_, fun entry hentry => hentries entry (SortedMap.mem_of_mem_ofList hentry)⟩
  rw [Stored.count, numeralLE_fits] at hlength ⊢
  exact (SortedMap.size_ofList_le es).trans_lt hlength

/-! ### Whole byte strings -/

variable {extra : ℕ → ε} {bs : Bytes} {v : α}

theorem decode_write (hf : f.Restores) (h : f.write v = .ok bs) : decode f extra bs = .ok v := by
  rw [decode_eq_ok_iff_read]
  simpa using hf.read_write h []

/-- A strict prefix of bytes that are read is not read. -/
theorem decode_cut (hf : f.Restores) (h : decode f extra bs = .ok v) {cut : Bytes}
    (hshorter : cut <+: bs) (hne : cut ≠ bs) : ∃ e, decode f extra cut = .error e := by
  cases hcut : decode f extra cut with
  | error e => exact ⟨e, rfl⟩
  | ok w =>
    -- The reader would take the prefix off the whole and leave something.
    obtain ⟨more, rfl⟩ := hshorter
    obtain ⟨used, hused, hmore⟩ := hf.read_front (decode_eq_ok_iff_read.mp hcut)
    rw [List.append_nil] at hused
    have hwhole := decode_eq_ok_iff_read.mp h
    rw [hused, hmore more, Except.ok.injEq, Prod.mk.injEq] at hwhole
    rw [hwhole.2, List.append_nil] at hne
    exact absurd rfl hne

/-- Bytes behind those that are read are left over. -/
theorem decode_append (hf : f.Restores) (h : decode f extra bs = .ok v) {more : Bytes}
    (hne : more ≠ []) : decode f extra (bs ++ more) = .error (extra more.length) := by
  obtain ⟨used, hused, hmore⟩ := hf.read_front (decode_eq_ok_iff_read.mp h)
  rw [List.append_nil] at hused
  rw [hused]
  exact decode_of_rest (hmore more) hne

end Restores

end Format

/-! ## §3 The parts of a manager -/

theorem DustPolicy.ofByte?_eq_some {b : UInt8} {p : DustPolicy} :
    ofByte? b = some p ↔ b = p.toByte := by
  unfold ofByte?
  split
  next => cases p <;> simp [toByte]
  next => cases p <;> simp [toByte]
  next hzero hone =>
    have hzero : b ≠ 0 := hzero
    have hone : b ≠ 1 := hone
    cases p <;> simp [toByte, hzero, hone]

namespace Stored

open Format

variable {α : Type}

theorem count_exact : count.Exact := numeralLE_exact 4 _

@[simp]
theorem count_fits {n : ℕ} : count.Fits n ↔ n < 2 ^ 32 := numeralLE_fits

/-- A choice is exact if each case has a byte of its own. -/
theorem choice_exact {toByte : α → UInt8} {ofByte? : UInt8 → Option α}
    (h : ∀ b v, ofByte? b = some v ↔ b = toByte v) : (choice toByte ofByte?).Exact := by
  intro bs v rest
  simp only [choice, read_bind, read_byte]
  constructor
  · rintro ⟨b, mid, rfl, hmatch⟩
    cases hfound : ofByte? b with
    | none =>
      simp only [hfound] at hmatch
      exact absurd hmatch read_throw
    | some found =>
      simp only [hfound] at hmatch
      obtain ⟨rfl, rfl⟩ := read_pure.mp hmatch
      exact ⟨[b], by rw [(h b found).mp hfound]; rfl, rfl⟩
  · rintro ⟨_, ⟨⟩, rfl⟩
    exact ⟨toByte v, rest, rfl, by rw [(h _ v).mpr rfl]; rfl⟩

theorem mode_exact : mode.Exact := choice_exact fun _ _ => Mode.ofByte?_eq_some

theorem chainId_exact : chainId.Exact := word16LE_exact.imap (fun _ => rfl) (fun _ => rfl)

theorem timestamp_exact : timestamp.Exact := word64LE_exact.imap (fun _ => rfl) (fun _ => rfl)

theorem trimmedAmount_exact : trimmedAmount.Exact :=
  (word64LE_exact.pair byte_exact).imap (fun _ => rfl) (fun _ => rfl)

theorem bitmap_exact : bitmap.Exact := by
  apply (numeralLE_exact 16 _).imap_of_write
  · intro s
    simp
  · -- A number that was written has room in 128 bits.
    intro n out hout
    have hlt : n < numeralCount 16 := numeralLE_fits.mp ⟨out, hout⟩
    exact Nat.mod_eq_of_lt hlt

theorem releaseStatus_exact : releaseStatus.Exact := by
  intro bs status rest
  simp only [releaseStatus, read_bind, read_byte]
  constructor
  · rintro ⟨b, mid, rfl, h⟩
    split at h
    next =>
      obtain ⟨rfl, rfl⟩ := read_pure.mp h
      exact ⟨[0], rfl, rfl⟩
    next =>
      obtain ⟨rfl, rfl⟩ := read_pure.mp h
      exact ⟨[1], rfl, rfl⟩
    next =>
      obtain ⟨time, ⟨out, hout, rfl⟩, rfl⟩ := timestamp_exact.read_map.mp h
      exact ⟨2 :: out, by simp only [hout, ok_bind]; rfl, rfl⟩
    next =>
      obtain ⟨rfl, rfl⟩ := read_pure.mp h
      exact ⟨[3], rfl, rfl⟩
    next => exact absurd h read_throw
  · rintro ⟨out, hout, rfl⟩
    cases status with
    | notApproved =>
      cases hout
      exact ⟨0, rest, rfl, rfl⟩
    | initiated =>
      cases hout
      exact ⟨1, rest, rfl, rfl⟩
    | queued time =>
      simp only [bind_eq_ok, pure_eq_ok] at hout
      obtain ⟨inner, hinner, rfl⟩ := hout
      exact ⟨2, inner ++ rest, rfl,
        timestamp_exact.read_map.mpr ⟨time, ⟨inner, hinner, rfl⟩, rfl⟩⟩
    | released =>
      cases hout
      exact ⟨3, rest, rfl, rfl⟩

theorem bytes32_exact : bytes32.Exact := block_exact 32

theorem boolean_exact : boolean.Exact := flag_exact _

theorem instructions_exact : instructions.Exact :=
  (count_exact.listOf ((byte_exact.pair count_exact.prefixed).imap (fun _ => rfl)
    (fun _ => rfl))).imap (fun _ => rfl) (fun _ => rfl)

theorem rateLimit_exact : rateLimit.Exact :=
  (trimmedAmount_exact.pair (trimmedAmount_exact.pair (timestamp_exact.pair timestamp_exact))).imap
    (fun _ => rfl) (fun _ => rfl)

theorem inboxItem_exact : inboxItem.Exact :=
  (chainId_exact.pair (trimmedAmount_exact.pair (bytes32_exact.pair (bitmap_exact.pair
    (boolean_exact.pair releaseStatus_exact))))).imap (fun _ => rfl) (fun _ => rfl)

theorem outboxItem_exact : outboxItem.Exact :=
  (word64LE_exact.pair (trimmedAmount_exact.pair (bytes32_exact.pair (chainId_exact.pair
    (bytes32_exact.pair (bytes32_exact.pair (releaseStatus_exact.pair (bitmap_exact.pair
    (instructions_exact.pair boolean_exact))))))))).imap (fun _ => rfl) (fun _ => rfl)

theorem config_exact : config.Exact :=
  (bytes32_exact.pair (bytes32_exact.pair ((bytes32_exact.optional _).pair (bytes32_exact.pair
    (byte_exact.pair (mode_exact.pair (chainId_exact.pair (byte_exact.pair (byte_exact.pair
    (bitmap_exact.pair (boolean_exact.pair
    ((choice_exact fun _ _ => DustPolicy.ofByte?_eq_some).pair timestamp_exact)))))))))))).imap
    (fun _ => rfl) (fun _ => rfl)

theorem peer_exact : peer.Exact :=
  (bytes32_exact.pair byte_exact).imap (fun _ => rfl) (fun _ => rfl)

theorem transceiver_exact : transceiver.Exact :=
  (byte_exact.pair bytes32_exact).imap (fun _ => rfl) (fun _ => rfl)

/-- **A manager is restored as it was stored.** -/
theorem manager_restores : manager.Restores := by
  have hlimits := Restores.map chainId_exact rateLimit_exact
  have hpeers := Restores.map chainId_exact peer_exact
  have htransceivers := Restores.of_exact (count_exact.listOf transceiver_exact)
  have hinbox := Restores.map bytes32_exact inboxItem_exact
  have houtbox := Restores.map word64LE_exact outboxItem_exact
  have hfields := (Restores.of_exact config_exact).pair ((Restores.of_exact word64LE_exact).pair
    ((Restores.of_exact rateLimit_exact).pair (hpeers.pair (hlimits.pair (htransceivers.pair
      (hinbox.pair houtbox))))))
  exact hfields.imap (fun _ => rfl) (fun _ h => h)

/-! ## §4 What can be stored -/

@[simp]
theorem bitmap_fits (s : Bitmap) : bitmap.Fits s := by
  have hroom : s.bits.toNat < numeralCount 16 := s.bits.isLt
  exact imap_fits.mpr (numeralLE_fits.mpr hroom)

@[simp]
theorem releaseStatus_fits (status : ReleaseStatus) : releaseStatus.Fits status := by
  cases status <;> exact ⟨_, rfl⟩

@[simp]
theorem timestamp_fits (t : Timestamp) : timestamp.Fits t := ⟨_, rfl⟩

@[simp]
theorem choice_fits {toByte : α → UInt8} {ofByte? : UInt8 → Option α} (v : α) :
    (choice toByte ofByte?).Fits v := ⟨_, rfl⟩

@[simp]
theorem trimmedAmount_fits (a : TrimmedAmount) : trimmedAmount.Fits a := ⟨_, rfl⟩

@[simp]
theorem instructions_fits {list : Instructions} : instructions.Fits list ↔
    list.entries.length < 2 ^ 32 ∧ ∀ entry ∈ list.entries, entry.payload.length < 2 ^ 32 := by
  simp [instructions, Stored.list, instruction, bytes]

@[simp]
theorem config_fits (c : Config) : config.Fits c := by
  simp [config, option, bytes32, mode, chainId, boolean]

@[simp]
theorem rateLimit_fits (r : RateLimit) : rateLimit.Fits r := by
  simp [rateLimit]

@[simp]
theorem inboxItem_fits (item : InboxItem) : inboxItem.Fits item := by
  simp [inboxItem, chainId, bytes32, boolean]

@[simp]
theorem outboxItem_fits {item : OutboxItem} :
    outboxItem.Fits item ↔ instructions.Fits item.instructions := by
  simp [outboxItem, chainId, bytes32, boolean]

@[simp]
theorem map_fits {κ : Type} [Ranked κ] {key : Stored κ} {value : Stored α}
    {m : SortedMap κ α} : (map key value).Fits m ↔
      m.size < 2 ^ 32 ∧ ∀ entry ∈ m.toList, key.Fits entry.1 ∧ value.Fits entry.2 := by
  simp [map, Stored.list, SortedMap.size]

end Stored

/-! ## §5 Storing and restoring a manager -/

namespace Manager

/-- No collection of a manager, and none of its outbound transfers, has more entries than four
bytes can count. -/
structure Storable (m : Manager) : Prop where
  peers : m.peers.size < 2 ^ 32
  inboundLimits : m.inboundLimits.size < 2 ^ 32
  transceivers : m.transceivers.length < 2 ^ 32
  inbox : m.inbox.size < 2 ^ 32
  outbox : m.outbox.size < 2 ^ 32
  instructions : ∀ entry ∈ m.outbox.toList, entry.2.instructions.entries.length < 2 ^ 32
  payloads : ∀ entry ∈ m.outbox.toList, ∀ instruction ∈ entry.2.instructions.entries,
    instruction.payload.length < 2 ^ 32

/-- Only a collection that cannot be counted keeps a manager from being stored. -/
theorem fits_iff_storable {m : Manager} : Stored.manager.Fits m ↔ m.Storable := by
  simp only [Stored.manager, Format.imap_fits, Format.pair_fits, Stored.config_fits,
    Format.word64LE_fits, Stored.rateLimit_fits, Stored.map_fits, Stored.chainId, Stored.peer,
    Stored.bytes32, Format.block_fits, Format.byte_fits, Stored.list, Format.listOf_fits,
    Stored.transceiver, Stored.count_fits, Stored.inboxItem_fits, Stored.outboxItem_fits,
    Stored.instructions_fits, Format.word16LE_fits, true_and, and_true, implies_true]
  constructor
  · rintro ⟨hpeers, hlimits, htransceivers, hinbox, houtbox, hitems⟩
    exact ⟨hpeers, hlimits, htransceivers, hinbox, houtbox, fun entry h => (hitems entry h).1,
      fun entry h => (hitems entry h).2⟩
  · intro h
    exact ⟨h.peers, h.inboundLimits, h.transceivers, h.inbox, h.outbox,
      fun entry hentry => ⟨h.instructions entry hentry, h.payloads entry hentry⟩⟩

theorem snapshot_eq_ok {m : Manager} {bs : Bytes} :
    m.snapshot = .ok bs ↔ Stored.manager.write m = .ok bs := mapError_eq_ok

theorem restore_eq_ok {m : Manager} {bs : Bytes} :
    restore bs = .ok m ↔ Stored.decode Stored.manager bs = .ok m := mapError_eq_ok

theorem restore_eq_error {bs : Bytes} {e : SnapshotError}
    (h : Stored.decode Stored.manager bs = .error e) : restore bs = .error (.snapshot e) := by
  rw [restore, h]
  rfl

/-- **Snapshots**: a manager whose collections can be counted has a snapshot, from which it is
restored as it was, and which cannot be cut short or extended. Whatever bytes a manager is
restored from, it has a snapshot, is restored from it once more, and then has the same one. -/
theorem restore_snapshot (m : Manager) :
    (m.Storable → ∃ bs, m.snapshot = .ok bs ∧ restore bs = .ok m ∧
      (∀ cut, cut <+: bs → cut ≠ bs → ∃ e, restore cut = .error (.snapshot e)) ∧
      ∀ more ≠ [], restore (bs ++ more) = .error (.snapshot .leftover)) ∧
    ∀ found, restore found = .ok m → ∃ first again,
      m.snapshot = .ok first ∧ restore first = .ok again ∧ again = m ∧
        again.snapshot = .ok first := by
  have hback {bs : Bytes} (h : m.snapshot = .ok bs) : restore bs = .ok m :=
    restore_eq_ok.mpr (Stored.manager_restores.decode_write (snapshot_eq_ok.mp h))
  constructor
  · intro hstorable
    obtain ⟨bs, hbs⟩ := fits_iff_storable.mpr hstorable
    have hsnapshot := snapshot_eq_ok.mpr hbs
    have hread := restore_eq_ok.mp (hback hsnapshot)
    refine ⟨bs, hsnapshot, hback hsnapshot, fun cut hcut hne => ?_, fun more hne => ?_⟩
    · obtain ⟨e, he⟩ := Stored.manager_restores.decode_cut hread hcut hne
      exact ⟨e, restore_eq_error he⟩
    · exact restore_eq_error (Stored.manager_restores.decode_append hread hne)
  · intro found hfound
    have hread := Format.decode_eq_ok_iff_read.mp (restore_eq_ok.mp hfound)
    obtain ⟨bs, hbs⟩ := Stored.manager_restores.fits hread
    have hsnapshot := snapshot_eq_ok.mpr hbs
    exact ⟨bs, m, hsnapshot, hback hsnapshot, rfl, hsnapshot⟩

end Manager

namespace Sample

/-- The manager on the first chain after the run there, with a transfer in its outbox. -/
def stored : Manager := (home.run homeEvents).manager

/-- A manager with its peers as they come. -/
def unsorted : Stored (Config × UInt64 × RateLimit × List (ChainId × Peer) ×
    SortedMap ChainId RateLimit × List Transceiver × SortedMap Digest InboxItem ×
    SortedMap UInt64 OutboxItem) :=
  let peers := Stored.list (Format.pair Stored.chainId Stored.peer)
  Stored.config.pair (Format.word64LE.pair (Stored.rateLimit.pair (peers.pair
    ((Stored.map Stored.chainId Stored.rateLimit).pair ((Stored.list Stored.transceiver).pair
      ((Stored.map Stored.bytes32 Stored.inboxItem).pair
        (Stored.map Format.word64LE Stored.outboxItem)))))))

/-- Bytes of a manager with the peers out of order, and two of them under one chain. -/
def shuffled : Bytes :=
  ((unsorted.write (stored.config, stored.nextSequence, stored.outboundLimit,
    [(⟨3⟩, ⟨address 13, 6⟩), (⟨2⟩, ⟨address 99, 0⟩), (⟨2⟩, ⟨address 12, 7⟩)],
    stored.inboundLimits, stored.transceivers, stored.inbox, stored.outbox)).toOption).get
    (by decide +kernel)

/-- The manager that is restored from them. -/
def restored : Manager := ((Manager.restore shuffled).toOption).get (by decide +kernel)

theorem stored_storable : stored.Storable :=
  ⟨by decide +kernel, by decide +kernel, by decide +kernel, by decide +kernel, by decide +kernel,
    by decide +kernel, by decide +kernel⟩

/-- A stored manager is restored. From the shuffled bytes comes a manager with the later one of
the two peers under one chain, whose snapshot is another byte string. -/
theorem restore_shuffled :
    (∃ bs, stored.snapshot = .ok bs ∧ Manager.restore bs = .ok stored) ∧
      restored.peers.toList = [(⟨2⟩, ⟨address 12, 7⟩), (⟨3⟩, ⟨address 13, 6⟩)] ∧
      ∃ first again, restored.snapshot = .ok first ∧ first ≠ shuffled ∧
        Manager.restore first = .ok again ∧ again = restored ∧ again.snapshot = .ok first := by
  obtain ⟨bs, hbs, hrestore, _⟩ := (Manager.restore_snapshot stored).1 stored_storable
  have hfound : Manager.restore shuffled = .ok restored := eq_ok_get (by decide +kernel)
  obtain ⟨first, again, hfirst, hagain, hsame, hsnapshot⟩ :=
    (Manager.restore_snapshot restored).2 shuffled hfound
  have hother : restored.snapshot ≠ .ok shuffled := by decide +kernel
  refine ⟨⟨bs, hbs, hrestore⟩, by decide +kernel, first, again, hfirst, ?_, hagain, hsame,
    hsnapshot⟩
  rintro rfl
  exact hother hfirst

end Sample

end CrossChain
