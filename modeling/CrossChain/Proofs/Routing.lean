import CrossChain.Proofs.Calls
import CrossChain.Proofs.Cancellation
import CrossChain.Proofs.Publication

/-!
# Instructions reach the transceivers they are for

A sender attaches instructions to a transfer, each for one transceiver. They travel as bytes, are
checked when the transfer is sent, wait in the outbox, and are looked up one by one when the
transceivers pick the transfer up. The look-up is a bisection, which finds what is there only in a
list in order; and only the last instruction is compared with the number of registered transceivers.
Both rely on the order that was checked when the list was made.

## Main statements

* `Instructions.ofList_eq_ok_iff`: which lists may be sent.
* `Instructions.Admissible.get?_eq_find?`: the bisection agrees with a search from the front.
* `Instructions.AttachedAs.read_eq_ok_iff`: the last index speaks for all.
* `Manager.planTransfer_of_read`: instructions are attached to a transfer and change nothing else.
* `Book.instruction_of_release`: what a transceiver is told.
* `Book.instructions_routed`: all of it.
-/

namespace CrossChain

/-! ## §1 Lists that may be sent -/

namespace Instructions

variable {list : Instructions} {entries : List Instruction} {index registered : UInt8}
  {bytes : Bytes}

/-- Instructions that may be sent: few enough, none too long, and in strictly ascending order. -/
structure Admissible (entries : List Instruction) : Prop where
  count : entries.length ≤ 255
  lengths : ∀ entry ∈ entries, entry.payload.length ≤ 255
  ascending : entries.Pairwise fun a b => a.index < b.index

/-- Helper: a list in order, above the index before it, passes the check. -/
private theorem checkFrom_of_ascending {previous : Option UInt8}
    (hlengths : ∀ entry ∈ entries, entry.payload.length ≤ 255)
    (habove : ∀ last, previous = some last → ∀ entry ∈ entries, last < entry.index)
    (hascending : entries.Pairwise fun a b => a.index < b.index) :
    checkFrom previous entries = .ok () := by
  induction entries generalizing previous with
  | nil => rfl
  | cons entry rest ih =>
    obtain ⟨hlength, hlengths⟩ := List.forall_mem_cons.mp hlengths
    obtain ⟨hfirst, hascending⟩ := List.pairwise_cons.mp hascending
    have hrest : checkFrom (some entry.index) rest = .ok () := by
      apply ih hlengths _ hascending
      intro last hlast
      cases hlast
      exact hfirst
    cases previous with
    | none => exact guard_eq_ok.mpr ⟨not_lt.mpr hlength, hrest⟩
    | some last =>
      have hless := habove last rfl entry List.mem_cons_self
      exact guard_eq_ok.mpr
        ⟨not_lt.mpr hlength, guard_eq_ok.mpr ⟨UInt8.not_le.mpr hless, hrest⟩⟩

theorem check_eq_ok_iff : check ⟨entries⟩ = .ok () ↔ Admissible entries := by
  constructor
  · intro h
    obtain ⟨hcount, hlengths⟩ := check_eq_ok h
    rw [check, guard_eq_ok] at h
    exact ⟨hcount, hlengths, (ascending_of_checkFrom h.2).2⟩
  · intro h
    rw [check, guard_eq_ok]
    refine ⟨not_lt.mpr h.count, checkFrom_of_ascending h.lengths ?_ h.ascending⟩
    intro last hlast
    cases hlast

/-- **A list is accepted** as it is, if and only if it may be sent. -/
theorem ofList_eq_ok_iff : ofList entries = .ok list ↔ Admissible entries ∧ list = ⟨entries⟩ := by
  simp only [ofList, bind_eq_ok, pure_eq_ok, ← check_eq_ok_iff, eq_comm (a := list)]
  constructor
  · rintro ⟨_, hcheck, hlist⟩
    exact ⟨hcheck, hlist⟩
  · rintro ⟨hcheck, hlist⟩
    exact ⟨(), hcheck, hlist⟩

/-! ## §2 Looking up -/

/-- **Bisection agrees with a search from the front** in a list that may be sent. -/
theorem Admissible.get?_eq_find? (h : Admissible list.entries) (index : UInt8) :
    list.get? index = (list.entries.find? fun e => e.index = index).map Instruction.payload := by
  cases hfound : list.entries.find? fun e => e.index = index with
  | some entry =>
    have hindex : entry.index = index := by simpa using List.find?_some hfound
    have hmem := List.mem_of_find?_eq_some hfound
    rw [Option.map_some, get?_eq_some_iff h.ascending, ← hindex]
    exact hmem
  | none =>
    have hnone : ∀ entry ∈ list.entries, entry.index ≠ index := by
      simpa using List.find?_eq_none.mp hfound
    rw [Option.map_none, Option.eq_none_iff_forall_ne_some]
    intro payload hpayload
    exact hnone _ ((get?_eq_some_iff h.ascending).mp hpayload) rfl

/-- **The last index is the greatest** in a list that may be sent. -/
theorem Admissible.lastIndex?_eq_some_iff (h : Admissible list.entries) :
    list.lastIndex? = some index ↔
      (∃ entry ∈ list.entries, entry.index = index) ∧
        ∀ entry ∈ list.entries, entry.index ≤ index := by
  constructor
  · intro hlast
    refine ⟨?_, index_le_last h.ascending hlast⟩
    obtain ⟨last, hfound, rfl⟩ := Option.map_eq_some_iff.mp hlast
    exact ⟨last, List.mem_of_getLast? hfound, rfl⟩
  · rintro ⟨⟨entry, hentry, rfl⟩, hgreatest⟩
    obtain ⟨last, hfound⟩ := List.getLast?_isSome.mpr (List.ne_nil_of_mem hentry) |>
      Option.isSome_iff_exists.mp
    have hlast : list.lastIndex? = some last.index := by rw [lastIndex?, hfound, Option.map_some]
    have hle := index_le_last h.ascending hlast entry hentry
    rw [hlast, UInt8.le_antisymm (hgreatest last (List.mem_of_getLast? hfound)) hle]

/-! ## §3 Instructions as bytes -/

/-- How a sender attaches instructions to a transfer: none at all without any bytes, or a list that
may be sent in its encoding. -/
inductive AttachedAs (list : Instructions) (bytes : Bytes) : Prop where
  | none (hlist : list = .empty) (hbytes : bytes = [])
  | encoded (hadmissible : Admissible list.entries) (hwrite : wire.write list = .ok bytes)

namespace AttachedAs

theorem admissible (h : list.AttachedAs bytes) : Admissible list.entries := by
  cases h with
  | none hlist =>
    subst hlist
    exact ⟨Nat.zero_le _, fun _ hentry => (nomatch hentry), .nil⟩
  | encoded hadmissible => exact hadmissible

/-- What is read is what was attached, unless its last index is not registered. -/
theorem read_eq (h : list.AttachedAs bytes) (registered : UInt8) :
    readInstructions bytes registered =
      match list.lastIndex? with
      | .none => .ok list
      | some index =>
        if registered ≤ index then .error (.invalidInstructionIndex index) else .ok list := by
  cases h with
  | none hlist hbytes =>
    subst hlist hbytes
    rfl
  | encoded hadmissible hwrite =>
    -- The encoding starts with the number of instructions.
    have hbytes : bytes ≠ [] := by
      rintro rfl
      have hsize := wire_sized list [] hwrite
      simp [wire, Format.checked, Format.imap, Format.listOf, Format.numeralBE] at hsize
      omega
    have hdecode : Wire.decode wire bytes = .ok list := by
      rw [Wire.decode, Format.decode_eq_ok_iff_read, read_eq_ok]
      exact ⟨ofList_eq_ok_iff.mpr ⟨hadmissible, rfl⟩, bytes, hwrite, (List.append_nil _).symm⟩
    cases hlast : list.lastIndex? with
    | none => simp only [readInstructions, if_neg hbytes, hdecode, hlast]
    | some index => simp only [readInstructions, if_neg hbytes, hdecode, hlast]

/-- **The last index speaks for all**: the instructions are accepted if and only if each of them is
for a registered transceiver. -/
theorem read_eq_ok_iff (h : list.AttachedAs bytes) :
    readInstructions bytes registered = .ok list ↔
      ∀ entry ∈ list.entries, entry.index < registered := by
  constructor
  · intro hread entry hentry
    exact UInt8.lt_iff_toNat_lt.mpr ((ascendingBelow_of_read hread).below entry hentry)
  · intro hbelow
    rw [h.read_eq]
    cases hlast : list.lastIndex? with
    | none => rfl
    | some index =>
      obtain ⟨⟨entry, hentry, rfl⟩, _⟩ := h.admissible.lastIndex?_eq_some_iff.mp hlast
      exact if_neg (UInt8.not_le.mpr (hbelow entry hentry))

/-- Nothing else is read from what was attached. -/
theorem eq_of_read {other : Instructions} (h : list.AttachedAs bytes)
    (hread : readInstructions bytes registered = .ok other) : other = list := by
  rw [h.read_eq] at hread
  split at hread
  next => exact (Except.ok.inj hread).symm
  next => exact (guard_eq_ok.mp hread).2 |> Except.ok.inj |>.symm

/-- If one of them is not, the greatest index is refused. -/
theorem read_eq_error (h : list.AttachedAs bytes)
    (hnot : ¬ ∀ entry ∈ list.entries, entry.index < registered) :
    ∃ index, list.lastIndex? = some index ∧
      readInstructions bytes registered = .error (.invalidInstructionIndex index) := by
  rw [← h.read_eq_ok_iff, h.read_eq] at hnot
  rw [h.read_eq]
  cases hlast : list.lastIndex? with
  | none => simp [hlast] at hnot
  | some index =>
    simp only [hlast] at hnot ⊢
    split at hnot
    next hle => exact ⟨index, rfl, if_pos hle⟩
    next => exact absurd rfl hnot

end AttachedAs

end Instructions

/-! ## §4 Transfers -/

/-- A request with other instructions. -/
def TransferRequest.attaching (request : TransferRequest) (bytes : Bytes) : TransferRequest :=
  { request with instructions := bytes }

/-- A planned transfer that carries other instructions. -/
def TransferPlan.carrying (plan : TransferPlan) (list : Instructions) : TransferPlan :=
  { plan with item := { plan.item with instructions := list } }

namespace Manager

variable {m : Manager} {sender : Address} {now : Timestamp} {request : TransferRequest}
  {list : Instructions} {bytes : Bytes}

/-- **Instructions that are accepted** are recorded with the transfer and change nothing else. -/
theorem planTransfer_of_read
    (hread : readInstructions bytes m.config.nextTransceiver = .ok list) :
    m.planTransfer sender now (request.attaching bytes) =
      (·.carrying list) <$> m.planTransfer sender now (request.attaching []) := by
  have hempty : readInstructions [] m.config.nextTransceiver = .ok .empty := rfl
  simp only [planTransfer, TransferRequest.attaching, hread, hempty, ok_bind, map_bind, throw_bind,
    map_pure, apply_ite (Functor.map _), map_error]
  rfl

/-- **Instructions that are refused** are the reason for a refusal, if there would be no other. -/
theorem planTransfer_of_read_error {e : CallError} {plan : TransferPlan}
    (hread : readInstructions bytes m.config.nextTransceiver = .error e)
    (hplan : m.planTransfer sender now (request.attaching []) = .ok plan) :
    m.planTransfer sender now (request.attaching bytes) = .error e := by
  have hsends := planTransfer_sends hplan
  obtain ⟨peer, hpeer, _⟩ := hsends.trimmed
  -- Only these checks come before the instructions.
  have hrunning : m.config.requireRunning = .ok () := requireRunning_eq_ok.mpr hsends.running
  have hamount : request.amount ≠ 0 := hsends.amount
  have hrecipient : request.recipient ≠ Address.zero := hsends.recipient.1
  have hchain : request.recipientChain ≠ m.config.chain := hsends.chain.1
  have hpeer : m.peer request.recipientChain = .ok peer := peer_eq_ok.mpr hpeer
  simp only [planTransfer, TransferRequest.attaching, hrunning, hamount, hrecipient, hchain, hpeer,
    hread, ok_bind, if_false]
  rfl

end Manager

variable {b : Book} {sender : Address} {now : Timestamp} {request : TransferRequest}
  {list : Instructions} {bytes : Bytes} {receipt : TransferReceipt}

/-- A transfer is accepted when its plan is made and paid for. -/
theorem Call.transfer_accepted_iff :
    (∃ after, Call.transfer sender now request b = .ok receipt after) ↔
      ∃ plan token, b.manager.planTransfer sender now request = .ok plan ∧
        Token.debit b.manager.config.mode sender plan.receipt.debited b.token = .ok () token ∧
        plan.receipt = receipt := by
  rw [transfer_eq]
  cases b.manager.planTransfer sender now request with
  | error e => simp
  | ok plan =>
    cases hdebit : Token.debit b.manager.config.mode sender plan.receipt.debited b.token with
    | error e token => simp [hdebit]
    | ok u token => simp [hdebit]

/-- **A transfer with instructions is accepted** if and only if it is without them, and each of them
is for a registered transceiver. -/
theorem Call.transfer_attaching_iff (hattached : list.AttachedAs bytes) :
    (∃ after, Call.transfer sender now (request.attaching bytes) b = .ok receipt after) ↔
      (∀ entry ∈ list.entries, entry.index < b.manager.config.nextTransceiver) ∧
        ∃ after, Call.transfer sender now (request.attaching []) b = .ok receipt after := by
  simp only [Call.transfer_accepted_iff]
  constructor
  · rintro ⟨plan, token, hplan, hdebit, hreceipt⟩
    have hread : readInstructions bytes b.manager.config.nextTransceiver =
        .ok plan.item.instructions := (Manager.planTransfer_sends hplan).instructions
    have hlist := hattached.eq_of_read hread
    rw [hlist] at hread
    refine ⟨hattached.read_eq_ok_iff.mp hread, ?_⟩
    rw [Manager.planTransfer_of_read hread, map_eq_ok] at hplan
    obtain ⟨plain, hplain, rfl⟩ := hplan
    exact ⟨plain, token, hplain, hdebit, hreceipt⟩
  · rintro ⟨hbelow, plain, token, hplain, hdebit, hreceipt⟩
    have hread := hattached.read_eq_ok_iff.mpr hbelow
    refine ⟨plain.carrying list, token, ?_, hdebit, hreceipt⟩
    rw [Manager.planTransfer_of_read hread, hplain]
    rfl

/-- **An instruction for nobody** is the reason for a refusal, if there would be no other. -/
theorem Call.transfer_attaching_error (hattached : list.AttachedAs bytes)
    (hnot : ¬ ∀ entry ∈ list.entries, entry.index < b.manager.config.nextTransceiver)
    (hplain : ∃ after, Call.transfer sender now (request.attaching []) b = .ok receipt after) :
    ∃ index, list.lastIndex? = some index ∧
      Call.transfer sender now (request.attaching bytes) b =
        .error (.invalidInstructionIndex index) b := by
  obtain ⟨plan, _, hplan, _⟩ := Call.transfer_accepted_iff.mp hplain
  obtain ⟨index, hlast, hread⟩ := hattached.read_eq_error hnot
  refine ⟨index, hlast, ?_⟩
  rw [Call.transfer_eq, Manager.planTransfer_of_read_error hread hplan]

/-! ## §5 Transceivers -/

/-- What a transceiver is told is looked up in the transfer that it picks up. -/
theorem Call.instruction_of_releaseOutbound {transceiver : Address} {sequence : UInt64}
    {strict : Bool} {release : OutboundRelease} {after : Book}
    (h : Call.releaseOutbound transceiver now sequence strict b = .ok (some release) after) :
    ∃ id item, b.manager.enabledTransceiver transceiver = .ok id ∧
      b.manager.outbox.get? sequence = some item ∧
      release.instruction = item.instructions.get? id := by
  rw [Call.releaseOutbound_eq] at h
  cases hplan : b.manager.planPickUp transceiver now sequence strict with
  | error e => simp [hplan] at h
  | ok plan =>
    obtain ⟨_, id, item, hid, hitem, _, hplanned⟩ := Manager.planPickUp_eq_ok hplan
    rw [hplan] at h
    cases plan with
    | waiting waiting => cases h
    | released handed outboundLimit inboundLimit handedOut =>
      cases h
      obtain ⟨hout, rfl⟩ := hplanned
      obtain ⟨_, _, _, rfl⟩ := hout.pickedUp
      exact ⟨id, item, hid, hitem, rfl⟩

namespace Book

/-- Helper: a transfer that was sent is in the outbox from then on, with what was attached. -/
private theorem sent_entry (hfresh : b.Fresh) {events : List Event} {s : Step}
    (hs : s ∈ b.trace events) (haction : s.event.action = .transfer sender request)
    (hok : s.outcome = .ok (.sent receipt)) (hattached : list.AttachedAs request.instructions) :
    ∃ item, (b.run events).manager.outbox.get? receipt.sequence = some item ∧
      item.instructions = list := by
  obtain ⟨i, hs⟩ := List.mem_iff_getElem?.mp hs
  have htransition := transition_at hs
  rw [haction, hok] at htransition
  obtain ⟨plan, hsends, hanswer, hafter⟩ := htransition.sends
  cases hanswer
  have hlist : plan.item.instructions = list := hattached.eq_of_read hsends.instructions
  have hentry : s.after.manager.outbox.get? plan.receipt.sequence = some plan.item := by
    rw [hafter, hsends.receipt.1, ← hsends.sequence.1]
    exact SortedMap.get?_insert_self _ _ _
  -- No step changes the instructions of an entry.
  have hlater : (b.run events).manager = (s.after.run (events.drop (i + 1))).manager := by
    rw [after_eq hs, ← run_append, List.take_append_drop]
  have hsound : s.after.manager.Sound := after_eq hs ▸ hfresh.sound_run _
  obtain ⟨item, hitem, hforward⟩ := (hsound.forward_run (events.drop (i + 1))).outbox _ _ hentry
  exact ⟨item, hlater ▸ hitem, hforward.instructions.trans hlist⟩

/-- **What a transceiver is told** when it picks a transfer up is what the sender has attached for
it, and nothing if that is nothing, whatever has happened in between. -/
theorem instruction_of_release (hfresh : b.Fresh) {events : List Event} {s : Step}
    (hs : s ∈ b.trace events) (haction : s.event.action = .transfer sender request)
    (hok : s.outcome = .ok (.sent receipt)) (hattached : list.AttachedAs request.instructions)
    {transceiver : Address} {strict : Bool} {release : OutboundRelease} {after : Book}
    (hrelease : Call.releaseOutbound transceiver now receipt.sequence strict (b.run events) =
      .ok (some release) after) :
    ∃ id, (b.run events).manager.enabledTransceiver transceiver = .ok id ∧
      release.instruction = list.get? id := by
  obtain ⟨item, hitem, hinstructions⟩ := sent_entry hfresh hs haction hok hattached
  obtain ⟨id, found, hid, hfound, hinstruction⟩ := Call.instruction_of_releaseOutbound hrelease
  cases hitem.symm.trans hfound
  exact ⟨id, hid, hinstructions ▸ hinstruction⟩

/-- **Instructions are routed correctly.**

* A list is accepted, and as it is, if and only if it has at most 255 instructions with payloads of
  at most 255 bytes and strictly ascending indices.
* In such a list the bisection finds for every index what a search from the front finds: the payload
  of the one instruction with the index, if there is one. The last index is the greatest.
* A transfer with such a list attached is accepted if and only if every index, not only the last, is
  below the number of registered transceivers and the transfer is accepted without instructions, and
  then it is the same transfer. If the indices are all that stands against it, the greatest is
  refused.
* Whatever happens after the transfer was sent, a transceiver that picks it up is told exactly what
  is attached for its id. -/
theorem instructions_routed (hfresh : b.Fresh) (events : List Event) :
    (∀ (entries : List Instruction) (list : Instructions),
      Instructions.ofList entries = .ok list ↔ (entries.length ≤ 255 ∧
        (∀ entry ∈ entries, entry.payload.length ≤ 255) ∧
        entries.Pairwise fun a b => a.index < b.index) ∧ list = ⟨entries⟩) ∧
    (∀ list : Instructions, Instructions.ofList list.entries = .ok list → ∀ index : UInt8,
      list.get? index = (list.entries.find? fun e => e.index = index).map Instruction.payload ∧
      (∀ payload, list.get? index = some payload ↔ ⟨index, payload⟩ ∈ list.entries) ∧
      (list.lastIndex? = some index ↔ (∃ entry ∈ list.entries, entry.index = index) ∧
        ∀ entry ∈ list.entries, entry.index ≤ index)) ∧
    (∀ (book : Book) (sender : Address) (now : Timestamp) (request : TransferRequest)
        (list : Instructions) (bytes : Bytes), list.AttachedAs bytes →
      (∀ receipt,
        (∃ after, Call.transfer sender now (request.attaching bytes) book = .ok receipt after) ↔
          (∀ entry ∈ list.entries, entry.index < book.manager.config.nextTransceiver) ∧
          ∃ after, Call.transfer sender now (request.attaching []) book = .ok receipt after) ∧
      ((∃ receipt after,
          Call.transfer sender now (request.attaching []) book = .ok receipt after) →
        (∃ entry ∈ list.entries, book.manager.config.nextTransceiver ≤ entry.index) →
        ∃ index, list.lastIndex? = some index ∧
          Call.transfer sender now (request.attaching bytes) book =
            .error (.invalidInstructionIndex index) book)) ∧
    ∀ s ∈ b.trace events, ∀ (sender : Address) (request : TransferRequest)
        (receipt : TransferReceipt) (list : Instructions),
      s.event.action = .transfer sender request → s.outcome = .ok (.sent receipt) →
      list.AttachedAs request.instructions →
      ∀ (transceiver : Address) (now : Timestamp) (strict : Bool) (release : OutboundRelease)
          (after : Book),
        Call.releaseOutbound transceiver now receipt.sequence strict (b.run events) =
          .ok (some release) after →
        ∃ id, (b.run events).manager.enabledTransceiver transceiver = .ok id ∧
          ∀ payload, release.instruction = some payload ↔ ⟨id, payload⟩ ∈ list.entries := by
  refine ⟨?_, ?_, ?_, ?_⟩
  · intro entries list
    rw [Instructions.ofList_eq_ok_iff]
    exact and_congr_left fun _ =>
      ⟨fun h => ⟨h.count, h.lengths, h.ascending⟩, fun ⟨hcount, hlengths, hascending⟩ =>
        ⟨hcount, hlengths, hascending⟩⟩
  · intro list hlist index
    obtain ⟨hadmissible, _⟩ := Instructions.ofList_eq_ok_iff.mp hlist
    exact ⟨hadmissible.get?_eq_find? index,
      fun payload => Instructions.get?_eq_some_iff hadmissible.ascending,
      hadmissible.lastIndex?_eq_some_iff⟩
  · intro book sender now request list bytes hattached
    refine ⟨fun receipt => Call.transfer_attaching_iff hattached, ?_⟩
    rintro ⟨receipt, hplain⟩ ⟨entry, hentry, hle⟩
    apply Call.transfer_attaching_error hattached _ hplain
    intro hbelow
    exact UInt8.not_le.mpr (hbelow entry hentry) hle
  · intro s hs sender request receipt list haction hok hattached transceiver now strict release
      after hrelease
    -- The entry has kept the list since it was sent.
    obtain ⟨id, hid, hinstruction⟩ :=
      instruction_of_release hfresh hs haction hok hattached hrelease
    refine ⟨id, hid, fun payload => ?_⟩
    rw [hinstruction]
    exact Instructions.get?_eq_some_iff hattached.admissible.ascending

end Book

namespace Sample

/-- What the sender tells the first and the third of three transceivers. -/
def memo : Instructions := ⟨[⟨0, [1, 2]⟩, ⟨2, []⟩]⟩

/-- On the first chain three transceivers are registered, and a transfer is sent with instructions
for two of them; then one more is registered and the first is disabled. -/
def memoEvents : List Event :=
  [⟨0, .execute (address 9) (.registerTransceiver (address 30))⟩,
   ⟨0, .execute (address 9) (.registerTransceiver (address 31))⟩,
   ⟨0, .execute (address 9) (.registerTransceiver (address 32))⟩,
   ⟨0, .execute (address 9) (.setPeer ⟨⟨2⟩, address 12, 1000000000, 7⟩)⟩,
   ⟨1, .transfer (address 20) ⟨123456789, ⟨2⟩, address 22, false, [2, 0, 2, 1, 2, 2, 0]⟩⟩,
   ⟨2, .execute (address 9) (.registerTransceiver (address 33))⟩,
   ⟨3, .execute (address 9) (.setTransceiverEnabled 0 false)⟩]

/-- What the transfer comes to for its sender. -/
def memoReceipt : TransferReceipt := ⟨0, .released, 123456700, 89, ⟨1234567, 7⟩⟩

/-- The second transceiver picks the transfer up and is told nothing, and the third one is told what
is for it. -/
theorem memo_routed :
    home.Fresh ∧ (home.trace memoEvents)[4].outcome = .ok (.sent memoReceipt) ∧
      memo.AttachedAs [2, 0, 2, 1, 2, 2, 0] ∧
      (∃ release after, Call.releaseOutbound (address 31) 4 memoReceipt.sequence true
        (home.run memoEvents) = .ok (some release) after ∧ release.instruction = none) ∧
      ∃ release after, Call.releaseOutbound (address 32) 4 memoReceipt.sequence true
        (home.run memoEvents) = .ok (some release) after ∧ release.instruction = some [] := by
  have hok : (home.trace memoEvents)[4].outcome = .ok (.sent memoReceipt) := by decide +kernel
  have hattached : memo.AttachedAs [2, 0, 2, 1, 2, 2, 0] :=
    .encoded ⟨by decide, by decide, by decide⟩ (by decide +kernel)
  obtain ⟨_, _, _, hrouted⟩ := Book.instructions_routed home_fresh memoEvents
  -- The transfer has passed, so each transceiver that is enabled gets it.
  have hhanded (n id : UInt8) (hn : ((perform 4 (home.run memoEvents)
      (.releaseOutbound (address n) memoReceipt.sequence true)).1.toOption.map
        Answer.delivers) = some true)
      (hid : (home.run memoEvents).manager.enabledTransceiver (address n) = .ok id) :
      ∃ release after, Call.releaseOutbound (address n) 4 memoReceipt.sequence true
          (home.run memoEvents) = .ok (some release) after ∧
        ∀ payload, release.instruction = some payload ↔ ⟨id, payload⟩ ∈ memo.entries := by
    cases hcall : Call.releaseOutbound (address n) 4 memoReceipt.sequence true
      (home.run memoEvents) with
    | error e after => simp [perform, hcall, observe, Except.toOption] at hn
    | ok handed after =>
      cases handed with
      | none => simp [perform, hcall, observe, Except.toOption, Answer.delivers] at hn
      | some release =>
        obtain ⟨found, hfound, htold⟩ := hrouted _ (List.getElem_mem _) (address 20) _ memoReceipt
          memo rfl hok hattached (address n) 4 true release after hcall
        cases hid.symm.trans hfound
        exact ⟨release, after, rfl, htold⟩
  obtain ⟨quiet, after, hquiet, hnothing⟩ := hhanded 31 1 (by decide +kernel) (by decide +kernel)
  obtain ⟨told, after', htold, hsomething⟩ := hhanded 32 2 (by decide +kernel) (by decide +kernel)
  refine ⟨home_fresh, hok, hattached, ⟨quiet, after, hquiet, ?_⟩, told, after', htold, ?_⟩
  · rw [Option.eq_none_iff_forall_ne_some]
    intro payload hpayload
    simpa [memo] using (hnothing payload).mp hpayload
  · exact (hsomething []).mpr (by decide)

end Sample

end CrossChain
