import CrossChain.Bitmap
import CrossChain.Proofs.Basic

/-!
# Sets of transceivers as sets

A bitmap read as the set of the ids that belong to it: what adding and removing an id does to
membership, and that the numbers a manager compares with its threshold are numbers of members.

## Main statements

* `Bitmap.get?_set?`: membership after an id was added or removed.
* `Bitmap.count_eq_card`: the number of members, as the size of a finite set.
* `Bitmap.toNat_countByte`: the number of members fits a byte.
-/

namespace CrossChain.Bitmap

variable {s s' t : Bitmap} {id : UInt8} {member : Bool}

/-- The ids that belong to a set. -/
def Mem (s : Bitmap) (id : UInt8) : Prop :=
  s.get? id = some true

instance (s : Bitmap) (id : UInt8) : Decidable (s.Mem id) :=
  inferInstanceAs (Decidable (s.get? id = some true))

theorem get?_eq_some : s.get? id = some member ↔
    id.toNat < 128 ∧ s.bits.getLsbD id.toNat = member := by
  have hlt : id < capacity ↔ id.toNat < 128 := UInt8.lt_iff_toNat_lt
  unfold get?
  split
  next h => simp [hlt.mp h]
  next h => simp [hlt.not.mp h]

theorem not_mem_empty (id : UInt8) : ¬ empty.Mem id := by
  simp [Mem, get?_eq_some, empty]

/-- **Membership after a change**: the id has the membership that was set, and every other id
has the one it had. -/
theorem get?_set? (h : s.set? id member = some s') (other : UInt8) :
    s'.get? other = if other = id then some member else s.get? other := by
  have hlt (i : UInt8) : i < capacity ↔ i.toNat < 128 := UInt8.lt_iff_toNat_lt
  unfold set? at h
  split at h
  next hid =>
    simp only [Option.some.injEq] at h
    subst h
    have hid := (hlt id).mp hid
    by_cases hsame : other = id
    · subst hsame
      cases member <;> simp [get?, (hlt other).mpr hid, hid]
    · -- A change of one bit is not seen at another.
      have hne : id.toNat ≠ other.toNat := fun h => hsame (UInt8.toNat_inj.mp h).symm
      simp only [get?, hsame, if_false]
      split
      next hother => cases member <;> simp [(hlt other).mp hother, hne.symm]
      next => rfl
  next => cases h

theorem mem_set? (h : s.set? id true = some s') (other : UInt8) :
    s'.Mem other ↔ other = id ∨ s.Mem other := by
  unfold Mem
  rw [get?_set? h]
  by_cases hsame : other = id <;> simp [hsame]

theorem set?_of_lt (hid : id.toNat < 128) (s : Bitmap) (member : Bool) :
    ∃ s', s.set? id member = some s' := by
  have hid : id < capacity := UInt8.lt_iff_toNat_lt.mpr hid
  rw [set?, if_pos hid]
  exact ⟨_, rfl⟩

/-- An id that belongs to some set can be added to every set. -/
theorem set?_of_mem (h : t.Mem id) (s : Bitmap) (member : Bool) :
    ∃ s', s.set? id member = some s' :=
  set?_of_lt (get?_eq_some.mp h).1 s member

theorem get?_eq_false (h : t.Mem id) (hnot : ¬ s.Mem id) : s.get? id = some false := by
  obtain ⟨hid, _⟩ := get?_eq_some.mp h
  cases hbit : s.bits.getLsbD id.toNat with
  | false => exact get?_eq_some.mpr ⟨hid, hbit⟩
  | true => exact absurd (get?_eq_some.mpr ⟨hid, hbit⟩) hnot

/-! ## Counting -/

private theorem cpopNatRec_eq_card (x : BitVec 128) (n : ℕ) :
    x.cpopNatRec n 0 = ((Finset.range n).filter fun i => x.getLsbD i = true).card := by
  induction n with
  | zero => rfl
  | succ n ih =>
    rw [BitVec.cpopNatRec_succ, BitVec.cpopNatRec_eq, ih, Finset.range_add_one,
      Finset.filter_insert]
    split
    next h => rw [Finset.card_insert_of_notMem (by simp)]; simp [h]
    next h => simp [h]

/-- The ids that belong to a set, as a finite set. -/
def members (s : Bitmap) : Finset UInt8 :=
  ((Finset.range 128).filter fun i => s.bits.getLsbD i = true).image UInt8.ofNat

theorem toNat_ofNat_of_lt {i : ℕ} (h : i < 128) : (UInt8.ofNat i).toNat = i :=
  UInt8.toNat_ofNat_of_lt' (h.trans (by decide))

/-- Sets with the same members are equal. -/
theorem ext_mem (h : ∀ id, s.Mem id ↔ t.Mem id) : s = t := by
  have hbits : s.bits = t.bits := by
    apply BitVec.eq_of_getLsbD_eq
    intro i hi
    have hword := toNat_ofNat_of_lt hi
    have hmem := h (.ofNat i)
    simp only [Mem, get?_eq_some, hword, hi, true_and] at hmem
    exact Bool.eq_iff_iff.mpr hmem
  cases s
  cases t
  exact congrArg Bitmap.mk hbits

theorem mem_members : id ∈ s.members ↔ s.Mem id := by
  simp only [members, Finset.mem_image, Finset.mem_filter, Finset.mem_range, Mem, get?_eq_some]
  constructor
  · rintro ⟨i, ⟨hi, hbit⟩, rfl⟩
    rw [toNat_ofNat_of_lt hi]
    exact ⟨hi, hbit⟩
  · rintro ⟨hi, hbit⟩
    exact ⟨id.toNat, ⟨hi, hbit⟩, UInt8.ofNat_toNat⟩

/-- **The number of members** is the size of the set of ids that belong to it. -/
theorem count_eq_card (s : Bitmap) : s.count = s.members.card := by
  have hle := BitVec.cpopNatRec_zero_le s.bits 128
  have hinj :
      Set.InjOn UInt8.ofNat ((Finset.range 128).filter fun i => s.bits.getLsbD i = true) := by
    intro i hi j hj h
    have hi' := Finset.mem_range.mp (Finset.mem_filter.mp hi).1
    have hj' := Finset.mem_range.mp (Finset.mem_filter.mp hj).1
    rw [← toNat_ofNat_of_lt hi', h, toNat_ofNat_of_lt hj']
  rw [members, Finset.card_image_of_injOn hinj, ← cpopNatRec_eq_card]
  simp only [count, BitVec.cpop, BitVec.toNat_ofNat]
  -- There are at most 128 bits to count, so the count fits the word that holds it.
  exact Nat.mod_eq_of_lt (lt_of_le_of_lt hle (by norm_num))

theorem count_le (s : Bitmap) : s.count ≤ 128 := by
  rw [count_eq_card, members]
  calc _ ≤ ((Finset.range 128).filter fun i => s.bits.getLsbD i = true).card :=
        Finset.card_image_le
    _ ≤ (Finset.range 128).card := Finset.card_filter_le _ _
    _ = 128 := Finset.card_range 128

/-- **The number of members** fits a byte, so that the number of ids is never put in its place. -/
theorem toNat_countByte (s : Bitmap) : s.countByte.toNat = s.count := by
  have hle := s.count_le
  have hfits : s.count < UInt8.size := lt_of_le_of_lt hle (by decide)
  rw [countByte, if_pos hfits]
  exact UInt8.toNat_ofNat_of_lt' hfits

theorem mem_inter : (s.inter t).Mem id ↔ s.Mem id ∧ t.Mem id := by
  simp only [Mem, get?_eq_some, inter, BitVec.getLsbD_and, Bool.and_eq_true]
  tauto

end CrossChain.Bitmap
