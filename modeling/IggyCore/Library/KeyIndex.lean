import Mathlib.Data.List.AList
import Mathlib.Logic.Function.Basic

/-!
# Key indexes

A store keeps values at positions and, beside them, an index from a key of each value (its
name, say) back to its position. The index is consistent when it is exactly the inverse of
the map from each position to the key of its value: `InverseIndex index view`, where
`view i` is the key at position `i`, if any. The index is then injective, and each of the
three ways a store changes (filling a free position under a fresh key, emptying a position
and dropping its key, and moving a position from one key to another) keeps it consistent
when the index changes the same way.

The index is usually an `AList`; `AList.lookup` of an insertion or an erasure is what the
lemmas at the end feed to the general ones.
-/

namespace IggyCore.Library

variable {κ : Type}

/-- `index` is the inverse of `view`: a key maps to a position exactly when the value there
has that key. -/
def InverseIndex (index : κ → Option Nat) (view : Nat → Option κ) : Prop :=
  ∀ k i, index k = some i ↔ view i = some k

section InverseIndex

variable {index index' : κ → Option Nat} {view view' : Nat → Option κ}

theorem InverseIndex.lookup_eq (h : InverseIndex index view) {k : κ} {i : Nat}
    (hi : view i = some k) : index k = some i :=
  (h k i).mpr hi

theorem InverseIndex.view_eq (h : InverseIndex index view) {k : κ} {i : Nat}
    (hk : index k = some i) : view i = some k :=
  (h k i).mp hk

/-- A key no position has is not in the index. -/
theorem InverseIndex.lookup_eq_none (h : InverseIndex index view) {k : κ}
    (hk : ∀ i, view i ≠ some k) : index k = none := by
  cases hik : index k with
  | none => rfl
  | some i => exact absurd (h.view_eq hik) (hk i)

/-- Two positions with one key are the same position. -/
theorem InverseIndex.injective (h : InverseIndex index view) {k : κ} {i j : Nat}
    (hi : view i = some k) (hj : view j = some k) : i = j := by
  have := h.lookup_eq hi
  rw [h.lookup_eq hj] at this
  exact (Option.some.inj this).symm

/-- Filling the free position `i` with a value of the fresh key `k`, and indexing it. -/
theorem InverseIndex.insert (h : InverseIndex index view) {i : Nat} {k : κ}
    (hfree : view i = none) (hfresh : index k = none)
    (hview : ∀ j, view' j = if j = i then some k else view j)
    (hnew : index' k = some i) (hother : ∀ k', k' ≠ k → index' k' = index k') :
    InverseIndex index' view' := by
  intro k' j
  rw [hview j]
  by_cases hk : k' = k
  · subst hk
    rw [hnew]
    by_cases hj : j = i
    · simp [hj]
    · -- no other position had the fresh key
      simp only [Option.some.injEq, hj, if_false]
      constructor
      · intro hij
        exact absurd hij.symm hj
      · intro hjk
        rw [h.lookup_eq hjk] at hfresh
        cases hfresh
  · rw [hother k' hk, h k' j]
    by_cases hj : j = i
    · subst hj
      simp only [if_true, Option.some.injEq, hfree]
      constructor
      · intro hnone
        cases hnone
      · intro hkk
        exact absurd hkk.symm hk
    · simp [hj]

/-- Emptying position `i`, whose key is `k`, and dropping `k` from the index. -/
theorem InverseIndex.erase (h : InverseIndex index view) {i : Nat} {k : κ}
    (hi : view i = some k) (hview : ∀ j, view' j = if j = i then none else view j)
    (hnone : index' k = none) (hother : ∀ k', k' ≠ k → index' k' = index k') :
    InverseIndex index' view' := by
  intro k' j
  rw [hview j]
  by_cases hk : k' = k
  · subst hk
    rw [hnone]
    by_cases hj : j = i
    · simp [hj]
    · -- only position `i` had the key
      simp only [hj, if_false, reduceCtorEq, false_iff]
      intro hjk
      exact hj (h.injective hjk hi)
  · rw [hother k' hk, h k' j]
    by_cases hj : j = i
    · subst hj
      simp only [if_true, reduceCtorEq, iff_false, hi, Option.some.injEq]
      exact fun hkk => hk hkk.symm
    · simp [hj]

/-- Moving position `i` from key `k` to key `k'`, which no other position has. -/
theorem InverseIndex.rekey [DecidableEq κ] (h : InverseIndex index view) {i : Nat} {k k' : κ}
    (hi : view i = some k) (hfree : ∀ j, view j = some k' → j = i)
    (hview : ∀ j, view' j = if j = i then some k' else view j)
    (hindex : ∀ k'', index' k'' = if k'' = k' then some i else if k'' = k then none
      else index k'') :
    InverseIndex index' view' := by
  -- first drop `k`, then index `k'` at the emptied position
  let mid : Nat → Option κ := fun j => if j = i then none else view j
  let indexMid : κ → Option Nat := fun k'' => if k'' = k then none else index k''
  have hmid : InverseIndex indexMid mid :=
    h.erase hi (fun _ => rfl) (by simp [indexMid]) fun k'' hk'' => by simp [indexMid, hk'']
  have hfresh : indexMid k' = none := by
    by_cases hkk : k' = k
    · simp [indexMid, hkk]
    · simp only [indexMid, hkk, if_false]
      cases hj : index k' with
      | none => rfl
      | some j =>
        have hj' := h.view_eq hj
        rw [hfree j hj'] at hj'
        rw [hi] at hj'
        exact absurd (Option.some.inj hj').symm hkk
  refine hmid.insert (i := i) (k := k') (by simp [mid]) hfresh (fun j => ?_) (by simp [hindex])
    fun k'' hk'' => ?_
  · by_cases hj : j = i <;> simp [mid, hview, hj]
  · simp [hindex, indexMid, hk'']

/-- Moving key `k` from position `i` to the free position `j`. -/
theorem InverseIndex.move [DecidableEq κ] (h : InverseIndex index view) {i j : Nat} {k : κ}
    (hi : view i = some k) (hj : view j = none)
    (hview : ∀ l, view' l = if l = j then some k else if l = i then none else view l)
    (hnew : index' k = some j) (hother : ∀ k', k' ≠ k → index' k' = index k') :
    InverseIndex index' view' := by
  -- first empty position `i`, then fill position `j`
  let mid : Nat → Option κ := fun l => if l = i then none else view l
  let indexMid : κ → Option Nat := fun k' => if k' = k then none else index k'
  have hmid : InverseIndex indexMid mid :=
    h.erase hi (fun _ => rfl) (by simp [indexMid]) fun k' hk' => by simp [indexMid, hk']
  have hfree : mid j = none := by
    by_cases hji : j = i <;> simp [mid, hji, hj]
  refine hmid.insert (i := j) (k := k) hfree (by simp [indexMid]) (fun l => ?_) hnew
    fun k' hk' => ?_
  · rw [hview l]
  · simp [hother k' hk', indexMid, hk']

/-- A change that keeps every position's key keeps the index. -/
theorem InverseIndex.congr (h : InverseIndex index view) (hview : ∀ j, view' j = view j) :
    InverseIndex index view' := by
  intro k j
  rw [hview j]
  exact h k j

end InverseIndex

/-! ## Indexes kept in an `AList`

The three rules again for an index that is an `AList` from keys to positions, changed by the
map's own `insert` and `erase`. -/

section AListIndex

variable [DecidableEq κ] {index : AList (fun _ : κ => Nat)} {view view' : Nat → Option κ}

theorem InverseIndex.alist_insert (h : InverseIndex index.lookup view) {i : Nat} {k : κ}
    (hfree : view i = none) (hfresh : index.lookup k = none)
    (hview : ∀ j, view' j = if j = i then some k else view j) :
    InverseIndex (index.insert k i).lookup view' :=
  h.insert hfree hfresh hview (AList.lookup_insert index) fun _ hk => AList.lookup_insert_ne hk

theorem InverseIndex.alist_erase (h : InverseIndex index.lookup view) {i : Nat} {k : κ}
    (hi : view i = some k) (hview : ∀ j, view' j = if j = i then none else view j) :
    InverseIndex (index.erase k).lookup view' :=
  h.erase hi hview (AList.lookup_erase k index) fun _ hk => AList.lookup_erase_ne hk

/-- A rename: erase the old key, then insert the new one at the same position. -/
theorem InverseIndex.alist_rekey (h : InverseIndex index.lookup view) {i : Nat} {k k' : κ}
    (hi : view i = some k) (hfree : ∀ j, view j = some k' → j = i)
    (hview : ∀ j, view' j = if j = i then some k' else view j) :
    InverseIndex ((index.erase k).insert k' i).lookup view' := by
  refine h.rekey hi hfree hview fun k'' => ?_
  by_cases hnew : k'' = k'
  · subst hnew
    simp
  · rw [AList.lookup_insert_ne hnew, if_neg hnew]
    by_cases hold : k'' = k
    · subst hold
      simp
    · rw [AList.lookup_erase_ne hold, if_neg hold]

/-- A key moved to a free position: the map's `insert` replaces its old position. -/
theorem InverseIndex.alist_move (h : InverseIndex index.lookup view) {i j : Nat} {k : κ}
    (hi : view i = some k) (hj : view j = none)
    (hview : ∀ l, view' l = if l = j then some k else if l = i then none else view l) :
    InverseIndex (index.insert k j).lookup view' :=
  h.move hi hj hview (AList.lookup_insert index) fun _ hk => AList.lookup_insert_ne hk

end AListIndex

/-! ## Maps with the same lookups

Two `AList`s with the same lookups hold the same entries, possibly in another order (a hash
map's iteration order). Erasing or inserting one key keeps them so, and they have as many
keys. -/

section SameLookups

variable [DecidableEq κ] {β : κ → Type} {l₁ l₂ : AList β}

theorem AList.lookup_erase_congr (h : ∀ k, l₁.lookup k = l₂.lookup k) (k k' : κ) :
    (l₁.erase k).lookup k' = (l₂.erase k).lookup k' := by
  by_cases hk : k' = k
  · subst hk
    simp
  · rw [AList.lookup_erase_ne hk, AList.lookup_erase_ne hk, h]

theorem AList.lookup_insert_congr (h : ∀ k, l₁.lookup k = l₂.lookup k) (k : κ) (v : β k)
    (k' : κ) : (l₁.insert k v).lookup k' = (l₂.insert k v).lookup k' := by
  by_cases hk : k' = k
  · subst hk
    simp
  · rw [AList.lookup_insert_ne hk, AList.lookup_insert_ne hk, h]

theorem AList.keys_length_congr (h : ∀ k, l₁.lookup k = l₂.lookup k) :
    l₁.keys.length = l₂.keys.length := by
  have hperm : l₁.keys.Perm l₂.keys :=
    (List.perm_ext_iff_of_nodup l₁.keys_nodup l₂.keys_nodup).mpr fun k => by
      rw [← AList.mem_keys, ← AList.mem_keys, ← AList.lookup_isSome, ← AList.lookup_isSome, h]
  exact hperm.length_eq

end SameLookups

end IggyCore.Library
