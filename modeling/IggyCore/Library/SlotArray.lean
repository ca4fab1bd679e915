import Mathlib.Data.Finset.Card
import Mathlib.Algebra.Order.BigOperators.Group.Finset
import Mathlib.Data.List.FinRange

/-!
# Slot arrays

A fixed array of optional cells, `Vec<Option<T>>` or `[Option<T>; N]`, modelled as a
`List (Option α)`. Its occupied positions form a finite set; writing a cell adds or removes
one position, and counting the `Some` cells counts that set. A table that keeps a key in each
cell and an index from keys to positions is consistent when the index is exactly the map from
each occupied cell's key to its position (`IndexMatches`); then the index has as many keys as
there are occupied cells, and never more than the array's length.
-/

namespace IggyCore.Library

variable {α κ : Type}

/-- The positions of the `some` cells. -/
def occupied (l : List (Option α)) : Finset Nat :=
  (Finset.range l.length).filter fun i => (l[i]?.bind id).isSome

theorem mem_occupied {l : List (Option α)} {i : Nat} :
    i ∈ occupied l ↔ ∃ a, l[i]? = some (some a) := by
  simp only [occupied, Finset.mem_filter, Finset.mem_range]
  constructor
  · rintro ⟨hi, hs⟩
    rw [List.getElem?_eq_getElem hi] at hs ⊢
    obtain ⟨a, ha⟩ := Option.isSome_iff_exists.mp hs
    exact ⟨a, by simpa using ha⟩
  · rintro ⟨a, ha⟩
    obtain ⟨hi, -⟩ := List.getElem?_eq_some_iff.mp ha
    exact ⟨hi, by simp [ha]⟩

theorem occupied_subset_range (l : List (Option α)) : occupied l ⊆ Finset.range l.length :=
  Finset.filter_subset _ _

@[simp] theorem occupied_replicate_none (n : Nat) :
    occupied (List.replicate n (none : Option α)) = ∅ := by
  ext i
  simp [mem_occupied, List.getElem?_replicate]

theorem occupied_set_some {l : List (Option α)} {i : Nat} (hi : i < l.length) (a : α) :
    occupied (l.set i (some a)) = insert i (occupied l) := by
  ext j
  simp only [mem_occupied, Finset.mem_insert, List.getElem?_set]
  by_cases hj : i = j
  · subst hj
    simp [hi]
  · simp [hj, Ne.symm hj]

/-- A cell chosen by a key modulo the array's length, overwritten: it reads the new value, and
every other cell what it held. -/
theorem getElem?_set_mod {l : List α} {n : Nat} (hl : l.length = n) (hn : 0 < n) (k : Nat)
    (a : α) (i : Nat) : (l.set (k % n) a)[i]? = if i = k % n then some a else l[i]? := by
  have hlt : k % n < l.length := by
    rw [hl]
    exact Nat.mod_lt k hn
  by_cases hi : i = k % n
  · rw [if_pos hi, hi, List.getElem?_set_self hlt]
  · rw [if_neg hi, List.getElem?_set_ne (Ne.symm hi)]

theorem occupied_set_none {l : List (Option α)} (i : Nat) :
    occupied (l.set i none) = (occupied l).erase i := by
  ext j
  simp only [mem_occupied, Finset.mem_erase, List.getElem?_set]
  by_cases hj : i = j
  · subst hj
    by_cases hi : i < l.length <;> simp [hi]
  · simp [hj, Ne.symm hj]

/-! ## A key index over the cells -/

/-- The index `index` (a map from keys to positions) matches the cells `l` under `key`:
a key maps to a position exactly when that cell is occupied by an entry with this key. -/
def IndexMatches (key : α → κ) (index : κ → Option Nat) (l : List (Option α)) : Prop :=
  ∀ k i, index k = some i ↔ ∃ a, l[i]? = some (some a) ∧ key a = k

section IndexMatches

variable {key : α → κ} {index : κ → Option Nat} {l : List (Option α)}

theorem IndexMatches.injective (h : IndexMatches key index l) {k k' : κ} {i : Nat}
    (hk : index k = some i) (hk' : index k' = some i) : k = k' := by
  obtain ⟨a, ha, rfl⟩ := (h k i).mp hk
  obtain ⟨a', ha', rfl⟩ := (h k' i).mp hk'
  rw [ha] at ha'
  cases ha'
  rfl

theorem IndexMatches.lt_length (h : IndexMatches key index l) {k : κ} {i : Nat}
    (hk : index k = some i) : i < l.length := by
  obtain ⟨a, ha, -⟩ := (h k i).mp hk
  exact (List.getElem?_eq_some_iff.mp ha).1

theorem IndexMatches.mem_occupied (h : IndexMatches key index l) {k : κ} {i : Nat}
    (hk : index k = some i) : i ∈ occupied l := by
  obtain ⟨a, ha, -⟩ := (h k i).mp hk
  exact Library.mem_occupied.mpr ⟨a, ha⟩

/-- Rewriting an occupied cell with an entry of the same key keeps the index. -/
theorem IndexMatches.set_same_key (h : IndexMatches key index l) {i : Nat} {a a' : α}
    (hi : l[i]? = some (some a)) (hk : key a' = key a) :
    IndexMatches key index (l.set i (some a')) := by
  have hlt : i < l.length := (List.getElem?_eq_some_iff.mp hi).1
  intro k j
  rw [h k j]
  by_cases hij : i = j
  · subst hij
    simp [List.getElem?_set_self hlt, hi, hk]
  · rw [List.getElem?_set_ne hij]

/-- Emptying the cell of `a` while the index drops `key a`, and only that key. -/
theorem IndexMatches.erase (h : IndexMatches key index l) {index' : κ → Option Nat} {i : Nat}
    {a : α} (hi : l[i]? = some (some a)) (hnone : index' (key a) = none)
    (hother : ∀ k, k ≠ key a → index' k = index k) :
    IndexMatches key index' (l.set i none) := by
  have hlt : i < l.length := (List.getElem?_eq_some_iff.mp hi).1
  intro k j
  by_cases hk : k = key a
  · subst hk
    rw [hnone]
    simp only [reduceCtorEq, false_iff, not_exists, not_and]
    intro b hb hkb
    by_cases hij : i = j
    · subst hij
      rw [List.getElem?_set_self hlt] at hb
      cases hb
    · -- another cell with the same key would be indexed at two positions
      rw [List.getElem?_set_ne hij] at hb
      have h1 := (h (key a) i).mpr ⟨a, hi, rfl⟩
      have h2 := (h (key a) j).mpr ⟨b, hb, hkb⟩
      rw [h1] at h2
      exact hij (Option.some.inj h2)
  · rw [hother k hk, h k j]
    by_cases hij : i = j
    · subst hij
      rw [List.getElem?_set_self hlt, hi]
      constructor
      · rintro ⟨b, hb, rfl⟩
        cases hb
        exact absurd rfl hk
      · rintro ⟨b, hb, -⟩
        cases hb
    · rw [List.getElem?_set_ne hij]

/-- Filling a free cell with an entry whose key the index did not hold, and indexing it. -/
theorem IndexMatches.insert (h : IndexMatches key index l) {index' : κ → Option Nat} {i : Nat}
    {a : α} (hi : l[i]? = some none) (hfresh : index (key a) = none)
    (hnew : index' (key a) = some i) (hother : ∀ k, k ≠ key a → index' k = index k) :
    IndexMatches key index' (l.set i (some a)) := by
  have hlt : i < l.length := (List.getElem?_eq_some_iff.mp hi).1
  intro k j
  by_cases hk : k = key a
  · subst hk
    rw [hnew]
    by_cases hij : i = j
    · subst hij
      simp [List.getElem?_set_self hlt]
    · rw [List.getElem?_set_ne hij]
      constructor
      · intro hji
        exact absurd (Option.some.inj hji) hij
      · rintro ⟨b, hb, hkb⟩
        have := (h (key a) j).mpr ⟨b, hb, hkb⟩
        rw [hfresh] at this
        cases this
  · rw [hother k hk, h k j]
    by_cases hij : i = j
    · subst hij
      rw [List.getElem?_set_self hlt, hi]
      constructor
      · rintro ⟨b, hb, -⟩
        cases hb
      · rintro ⟨b, hb, rfl⟩
        cases hb
        exact absurd rfl hk
    · rw [List.getElem?_set_ne hij]

/-- Every key set of the index, here `keys`, is no larger than the array: the index sends
distinct keys to distinct positions of the array. -/
theorem IndexMatches.card_le (h : IndexMatches key index l) (keys : Finset κ)
    (hkeys : ∀ k ∈ keys, (index k).isSome) : keys.card ≤ l.length := by
  classical
  let pos : κ → Nat := fun k => (index k).getD 0
  have hpos : ∀ k ∈ keys, index k = some (pos k) := by
    intro k hk
    obtain ⟨i, hi⟩ := Option.isSome_iff_exists.mp (hkeys k hk)
    simp [pos, hi]
  have hinj : Set.InjOn pos keys := by
    intro k hk k' hk' he
    exact h.injective (hpos k hk) (he ▸ hpos k' hk')
  have hmaps : ∀ k ∈ keys, pos k ∈ Finset.range l.length := by
    intro k hk
    exact Finset.mem_range.mpr (h.lt_length (hpos k hk))
  calc keys.card ≤ (Finset.range l.length).card := Finset.card_le_card_of_injOn pos hmaps hinj
    _ = l.length := Finset.card_range _

end IndexMatches

end IggyCore.Library
