import CrossChain.Proofs.Members

/-!
# Sets of transceivers after any changes

Ids are added to a set and removed from it, in any order and any number of times, from whatever
bits it starts with. Each id has the membership that it was last given, or the one it had in the
beginning. A change of an id that is out of bounds fails and leaves the set as it is.

What a manager asks of a set is told by its members alone: how many there are, how many it shares
with another set, whether it contains another set, and whether there are any.

## Main statements

* `Bitmap.get?_changeAll`: membership after any changes.
* `Bitmap.containsAll_iff`, `Bitmap.isEmpty_iff`: comparisons.
* `Bitmap.set_laws`: all of it together.
-/

namespace CrossChain.Bitmap

variable {s t : Bitmap} {id : UInt8} {member : Bool}

/-! ## §1 Changes -/

/-- An id is added to a set, or removed from it. -/
structure Change where
  id : UInt8
  member : Bool
deriving DecidableEq

/-- The set after a change; one that fails leaves it as it was. -/
def change (s : Bitmap) (c : Change) : Bitmap :=
  (s.set? c.id c.member).getD s

/-- The set after some changes. -/
def changeAll (s : Bitmap) (changes : List Change) : Bitmap :=
  changes.foldl change s

/-- The membership that an id was last given. -/
def lastGiven (id : UInt8) (changes : List Change) : Option Bool :=
  (changes.filter fun c => c.id == id).getLast?.map Change.member

theorem lt_capacity_iff : id < capacity ↔ id.toNat < 128 :=
  UInt8.lt_iff_toNat_lt

/-- **Looking up** fails exactly out of bounds. -/
theorem get?_eq_none : s.get? id = none ↔ 128 ≤ id.toNat := by
  simp only [get?, lt_capacity_iff]
  split
  next h => simpa using h
  next h => simpa using h

/-- **A change** fails exactly out of bounds. -/
theorem set?_eq_none : s.set? id member = none ↔ 128 ≤ id.toNat := by
  simp only [set?, lt_capacity_iff]
  split
  next h => simpa using h
  next h => simpa using h

theorem set?_eq_change (hid : id.toNat < 128) :
    s.set? id member = some (s.change ⟨id, member⟩) := by
  cases hset : s.set? id member with
  | none => exact absurd (set?_eq_none.mp hset) (Nat.not_le.mpr hid)
  | some s' => simp only [change, hset, Option.getD_some]

theorem change_of_out_of_bounds (hid : 128 ≤ id.toNat) : s.change ⟨id, member⟩ = s := by
  rw [change, set?_eq_none.mpr hid, Option.getD_none]

/-- **Membership after a change** of the set. -/
theorem get?_change (hid : id.toNat < 128) (c : Change) :
    (s.change c).get? id = if id = c.id then some c.member else s.get? id := by
  obtain ⟨other, member⟩ := c
  rcases Nat.lt_or_ge other.toNat 128 with hother | hother
  · exact get?_set? (set?_eq_change hother) id
  · have hne : id ≠ other := by
      rintro rfl
      omega
    rw [change_of_out_of_bounds hother, if_neg hne]

theorem lastGiven_append (id : UInt8) (changes : List Change) (c : Change) :
    lastGiven id (changes ++ [c]) = if id = c.id then some c.member else lastGiven id changes := by
  by_cases hsame : id = c.id
  · simp [lastGiven, hsame]
  · have hother : (c.id == id) = false := beq_false_of_ne (Ne.symm hsame)
    simp [lastGiven, hsame, hother]

/-- **Membership after any changes**: the one that was last given, or the one in the beginning. -/
theorem get?_changeAll (hid : id.toNat < 128) (changes : List Change) :
    (s.changeAll changes).get? id = (lastGiven id changes).or (s.get? id) := by
  -- By induction on the changes, the last of which decides.
  induction changes using List.reverseRecOn with
  | nil => rfl
  | append_singleton changes c ih =>
    rw [changeAll, List.foldl_append, List.foldl_cons, List.foldl_nil, ← changeAll,
      get?_change hid, lastGiven_append, ih]
    split <;> rfl

/-! ## §2 Counting and comparing -/

theorem members_inter (s t : Bitmap) : (s.inter t).members = s.members ∩ t.members := by
  ext id
  simp only [Finset.mem_inter, mem_members, mem_inter]

/-- **The number of common members.** -/
theorem countCommon_eq_card (s t : Bitmap) : s.countCommon t = (s.members ∩ t.members).card := by
  rw [countCommon, count_eq_card, members_inter]

/-- **Containing another set** is having all its members. -/
theorem containsAll_iff : s.containsAll t = true ↔ t.members ⊆ s.members := by
  have hbits : s.containsAll t = true ↔ s.inter t = t := by
    rw [containsAll, beq_iff_eq, inter]
    constructor
    · intro h
      rw [h]
    · exact congrArg Bitmap.bits
  rw [hbits]
  constructor
  · intro h
    rw [← h, members_inter]
    exact Finset.inter_subset_left
  · intro h
    apply ext_mem
    intro id
    rw [← mem_members, members_inter, Finset.inter_eq_right.mpr h, mem_members]

/-- **A set is empty** if it has no members. -/
theorem isEmpty_iff : s.isEmpty = true ↔ s.members = ∅ := by
  have hbits : s.isEmpty = true ↔ s = empty := by
    rw [isEmpty, beq_iff_eq]
    constructor
    · intro h
      exact congrArg Bitmap.mk h
    · rintro rfl
      rfl
  rw [hbits, Finset.eq_empty_iff_forall_notMem]
  constructor
  · rintro rfl id hmem
    exact not_mem_empty id (mem_members.mp hmem)
  · intro h
    apply ext_mem
    intro id
    rw [← mem_members, iff_false_intro (h id), iff_false_intro (not_mem_empty id)]

/-! ## §3 All of it -/

/-- **A set of transceivers is a set of ids.** From any bits and after any changes,

* each id has the membership it was last given, or the bit it had in the beginning;
* a change and a look-up fail exactly out of bounds, and a change that fails leaves the set as it
  is;
* the number of members, as it is and in a byte, is the size of the set of ids that belong to it,
  and the set is empty if there are none;
* with another set, the number of common members, as it is and in a byte, is the size of the
  intersection, and to contain the other set is to have all its members. -/
theorem set_laws (bits : BitVec 128) (changes : List Change) :
    let s := (Bitmap.mk bits).changeAll changes
    (∀ id : UInt8, id.toNat < 128 →
      s.get? id = some ((lastGiven id changes).getD (bits.getLsbD id.toNat))) ∧
    (∀ (id : UInt8) (member : Bool), if id.toNat < 128
      then s.set? id member = some (s.change ⟨id, member⟩)
      else s.set? id member = none ∧ s.get? id = none ∧ s.change ⟨id, member⟩ = s) ∧
    (∀ id : UInt8, id ∈ s.members ↔ id.toNat < 128 ∧ s.get? id = some true) ∧
    s.count = s.members.card ∧ s.countByte.toNat = s.members.card ∧
    (s.isEmpty = true ↔ s.members = ∅) ∧
    ∀ t : Bitmap, s.countCommon t = (s.members ∩ t.members).card ∧
      (s.inter t).countByte.toNat = (s.members ∩ t.members).card ∧
      (s.containsAll t = true ↔ t.members ⊆ s.members) := by
  intro s
  refine ⟨?_, ?_, ?_, s.count_eq_card, ?_, isEmpty_iff,
    fun t => ⟨s.countCommon_eq_card t, ?_, containsAll_iff⟩⟩
  · intro id hid
    have hstart : (Bitmap.mk bits).get? id = some (bits.getLsbD id.toNat) :=
      get?_eq_some.mpr ⟨hid, rfl⟩
    rw [get?_changeAll hid, hstart]
    cases lastGiven id changes <;> rfl
  · intro id member
    split
    next hid => exact set?_eq_change hid
    next hid =>
      have hbeyond := Nat.le_of_not_lt hid
      exact ⟨set?_eq_none.mpr hbeyond, get?_eq_none.mpr hbeyond, change_of_out_of_bounds hbeyond⟩
  · intro id
    rw [mem_members, Mem]
    exact ⟨fun h => ⟨(get?_eq_some.mp h).1, h⟩, And.right⟩
  · rw [toNat_countByte, count_eq_card]
  · rw [toNat_countByte, count_eq_card, members_inter]

end CrossChain.Bitmap

namespace CrossChain.Sample

/-- Changes of a set, two of them out of bounds. -/
def revisions : List Bitmap.Change :=
  [⟨127, true⟩, ⟨0, false⟩, ⟨128, true⟩, ⟨5, true⟩, ⟨5, false⟩, ⟨0, true⟩, ⟨1, false⟩, ⟨200, false⟩]

/-- From the ids 0, 1 and 3 they lead to 0, 3 and 127: the last is new, the first was removed in
between, and 3 has the bit it had in the beginning. -/
theorem revisions_followed :
    let s := (Bitmap.mk 0b1011).changeAll revisions
    s.bits = 0x80000000000000000000000000000009 ∧ s.get? 0 = some true ∧ s.get? 1 = some false ∧
      s.get? 3 = some true ∧ s.set? 128 true = none ∧ s.members.card = 3 ∧
      Bitmap.members ⟨0b1001⟩ ⊆ s.members := by
  intro s
  obtain ⟨hget, hset, _, hcount, _, _, hother⟩ := Bitmap.set_laws 0b1011 revisions
  have hfails := hset 128 true
  rw [if_neg (by decide)] at hfails
  have hthree : s.count = 3 := by decide +kernel
  refine ⟨by decide +kernel, hget 0 (by decide), hget 1 (by decide), hget 3 (by decide), hfails.1,
    hcount.symm.trans hthree, (hother ⟨0b1001⟩).2.2.mp (by decide +kernel)⟩

end CrossChain.Sample
