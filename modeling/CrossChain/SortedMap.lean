/-!
# Sorted maps

A finite map kept as the list of its entries in ascending order of their keys. The order is
part of the type, so two maps with the same entries are equal, whatever order the entries
came in.

Keys are compared by their rank, a natural number that tells them apart.

## Main statements

* `get?_insert`: looking up after an insertion.
* `ext_get?`: maps that agree on every key are equal.
-/

namespace CrossChain

/-- Types whose values are told apart, and put in order, by a natural number. -/
class Ranked (κ : Type) where
  /-- The place of a value in the order. -/
  rank : κ → Nat
  /-- Different values have different ranks. -/
  rank_injective : ∀ {a b : κ}, rank a = rank b → a = b

export Ranked (rank)

/-- A finite map with its entries in ascending order of their keys. -/
structure SortedMap (κ α : Type) [Ranked κ] where
  toList : List (κ × α)
  ascending : toList.Pairwise (fun a b => rank a.1 < rank b.1)

namespace SortedMap

variable {κ α : Type} [Ranked κ]

/-- Puts an entry in its place, over an entry with the same key. -/
def insertEntry (key : κ) (value : α) : List (κ × α) → List (κ × α)
  | [] => [(key, value)]
  | entry :: rest =>
    if rank key < rank entry.1 then (key, value) :: entry :: rest
    else if rank key = rank entry.1 then (key, value) :: rest
    else entry :: insertEntry key value rest

/-- An entry of the list after an insertion is the new one or was there before. -/
theorem mem_insertEntry {key : κ} {value : α} {entries : List (κ × α)} {e : κ × α}
    (h : e ∈ insertEntry key value entries) : e = (key, value) ∨ e ∈ entries := by
  induction entries with
  | nil => simpa [insertEntry] using h
  | cons entry rest ih =>
    rw [insertEntry] at h
    split at h
    · simpa using h
    · split at h
      · rcases List.mem_cons.mp h with rfl | h
        · exact .inl rfl
        · exact .inr (List.mem_cons_of_mem _ h)
      · rcases List.mem_cons.mp h with rfl | h
        · exact .inr List.mem_cons_self
        · exact (ih h).imp id (List.mem_cons_of_mem _)

/-- Insertion keeps the keys ascending. -/
theorem insertEntry_ascending (key : κ) (value : α) {entries : List (κ × α)}
    (h : entries.Pairwise (fun a b => rank a.1 < rank b.1)) :
    (insertEntry key value entries).Pairwise (fun a b => rank a.1 < rank b.1) := by
  induction entries with
  | nil => simp [insertEntry]
  | cons entry rest ih =>
    obtain ⟨below, tail⟩ := List.pairwise_cons.mp h
    rw [insertEntry]
    split
    next less =>
      refine List.pairwise_cons.mpr ⟨fun e he => ?_, h⟩
      rcases List.mem_cons.mp he with rfl | he
      · exact less
      · exact Nat.lt_trans less (below e he)
    next notLess =>
      split
      next same => exact List.pairwise_cons.mpr ⟨fun e he => same ▸ below e he, tail⟩
      next differs =>
        refine List.pairwise_cons.mpr ⟨fun e he => ?_, ih tail⟩
        rcases mem_insertEntry he with rfl | he
        · exact Nat.lt_of_le_of_ne (Nat.le_of_not_lt notLess) (Ne.symm differs)
        · exact below e he

/-- The map without entries. -/
def empty : SortedMap κ α :=
  ⟨[], List.Pairwise.nil⟩

instance : Inhabited (SortedMap κ α) := ⟨empty⟩

/-- The value under a key. -/
def get? (m : SortedMap κ α) (key : κ) : Option α :=
  (m.toList.find? fun entry => rank entry.1 == rank key).map (·.2)

/-- Whether a key has a value. -/
def contains (m : SortedMap κ α) (key : κ) : Bool :=
  (m.get? key).isSome

/-- Sets the value under a key. -/
def insert (m : SortedMap κ α) (key : κ) (value : α) : SortedMap κ α :=
  ⟨insertEntry key value m.toList, insertEntry_ascending key value m.ascending⟩

/-- The map of a list of entries; of entries with the same key the last one counts. -/
def ofList (entries : List (κ × α)) : SortedMap κ α :=
  entries.foldl (fun m entry => m.insert entry.1 entry.2) empty

/-- The number of keys. -/
def size (m : SortedMap κ α) : Nat :=
  m.toList.length

/-! ## Looking up after an insertion -/

private theorem find_insertEntry (key k : κ) (value : α) (entries : List (κ × α)) :
    ((insertEntry key value entries).find? fun e => rank e.1 == rank k).map (·.2) =
      if rank key = rank k then some value
      else (entries.find? fun e => rank e.1 == rank k).map (·.2) := by
  induction entries with
  | nil => by_cases h : rank key = rank k <;> simp [insertEntry, h]
  | cons entry rest ih =>
    rw [insertEntry]
    split
    · by_cases h : rank key = rank k <;> simp [h]
    · split
      · by_cases h : rank key = rank k
        · simp [h]
        · have other : ¬ rank entry.1 = rank k := by omega
          simp [h, other]
      next notLess differs =>
        by_cases found : rank entry.1 = rank k
        · have other : ¬ rank key = rank k := by omega
          simp [found, other]
        · have missed : (rank entry.1 == rank k) = false := by simpa using found
          simp only [List.find?_cons, missed, ih]

/-- **Looking up after an insertion** finds the new value under its key and the old values
under all others. -/
@[simp]
theorem get?_insert (m : SortedMap κ α) (key k : κ) (value : α) :
    (m.insert key value).get? k = if rank key = rank k then some value else m.get? k :=
  find_insertEntry key k value m.toList

/-- The empty map has no value under any key. -/
@[simp]
theorem get?_empty (k : κ) : (empty : SortedMap κ α).get? k = none := rfl

/-- The keys found are those of the entries. -/
theorem get?_eq_some_iff (m : SortedMap κ α) (k : κ) (v : α) :
    m.get? k = some v ↔ (k, v) ∈ m.toList := by
  obtain ⟨entries, ascending⟩ := m
  simp only [get?]
  induction entries with
  | nil => simp
  | cons entry rest ih =>
    obtain ⟨below, tail⟩ := List.pairwise_cons.mp ascending
    by_cases found : rank entry.1 = rank k
    · have key : entry.1 = k := Ranked.rank_injective found
      have absent : (k, v) ∉ rest := fun h => by
        have := below _ h
        simp only [found] at this
        exact Nat.lt_irrefl _ this
      obtain ⟨k', v'⟩ := entry
      simp only at key
      subst key
      simp [absent, eq_comm]
    · have missed : (rank entry.1 == rank k) = false := by simpa using found
      have other : (k, v) ≠ entry := fun h => found (by rw [← h])
      simp only [List.find?_cons, missed, List.mem_cons, other, false_or]
      exact ih tail

/-- Ascending lists with the same members are equal. -/
private theorem eq_of_mem_iff {as bs : List (κ × α)}
    (ascendingA : as.Pairwise (fun a b => rank a.1 < rank b.1))
    (ascendingB : bs.Pairwise (fun a b => rank a.1 < rank b.1))
    (same : ∀ e, e ∈ as ↔ e ∈ bs) : as = bs := by
  induction as generalizing bs with
  | nil =>
    cases bs with
    | nil => rfl
    | cons b _ => exact absurd ((same b).mpr List.mem_cons_self) (by simp)
  | cons a as ih =>
    obtain ⟨belowA, tailA⟩ := List.pairwise_cons.mp ascendingA
    cases bs with
    | nil => exact absurd ((same a).mp List.mem_cons_self) (by simp)
    | cons b bs =>
      obtain ⟨belowB, tailB⟩ := List.pairwise_cons.mp ascendingB
      -- The least members agree, because each occurs in the other list.
      have least : a = b := by
        rcases List.mem_cons.mp ((same a).mp List.mem_cons_self) with least | inB
        · exact least
        · rcases List.mem_cons.mp ((same b).mpr List.mem_cons_self) with least | inA
          · exact least.symm
          · exact absurd (Nat.lt_trans (belowA b inA) (belowB a inB)) (Nat.lt_irrefl _)
      subst least
      have rest : ∀ e, e ∈ as ↔ e ∈ bs := fun e => by
        constructor
        · intro he
          rcases List.mem_cons.mp ((same e).mp (List.mem_cons_of_mem _ he)) with rfl | h
          · exact absurd (belowA _ he) (Nat.lt_irrefl _)
          · exact h
        · intro he
          rcases List.mem_cons.mp ((same e).mpr (List.mem_cons_of_mem _ he)) with rfl | h
          · exact absurd (belowB _ he) (Nat.lt_irrefl _)
          · exact h
      rw [ih tailA tailB rest]

/-- **Maps that agree on every key are equal.** -/
theorem ext_get? {m n : SortedMap κ α} (h : ∀ k, m.get? k = n.get? k) : m = n := by
  have entries : ∀ e, e ∈ m.toList ↔ e ∈ n.toList := fun e => by
    rw [← get?_eq_some_iff m e.1 e.2, ← get?_eq_some_iff n e.1 e.2, h]
  obtain ⟨as, ascendingA⟩ := m
  obtain ⟨bs, ascendingB⟩ := n
  have lists : as = bs := eq_of_mem_iff ascendingA ascendingB entries
  subst lists
  rfl

end SortedMap

/-- A finite set, kept in ascending order. -/
abbrev SortedSet (κ : Type) [Ranked κ] := SortedMap κ Unit

end CrossChain
