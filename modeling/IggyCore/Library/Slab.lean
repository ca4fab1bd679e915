import Mathlib

/-!
# Slabs

A slab (the `slab` crate, version 0.4) stores values in a vector of entries, each occupied by a
value or vacant. The vacant entries form a list threaded through the entries: `next` is its
head, and each vacant entry holds the key of the next one, the vector's length ending the list.
`insert` fills the head of that list and returns its key; `try_remove` empties an entry and
pushes its key onto the head. A slab can also be built from `(key, value)` pairs
(`FromIterator`), which lays the vacant list out again in its own order.

The crate's `unreachable!` branches (inserting at a key that is neither vacant nor the end)
return `none`; a slab built by these operations never reaches them.
-/

namespace IggyCore.Library

variable {α : Type}

inductive SlabEntry (α : Type)
  | vacant (next : Nat)
  | occupied (value : α)
  deriving DecidableEq, Repr

structure Slab (α : Type) where
  entries : List (SlabEntry α)
  len : Nat
  next : Nat
  deriving DecidableEq, Repr

namespace Slab

def new : Slab α := ⟨[], 0, 0⟩

def get (s : Slab α) (key : Nat) : Option α :=
  match s.entries[key]? with
  | some (.occupied v) => some v
  | _ => none

def contains (s : Slab α) (key : Nat) : Bool := (s.get key).isSome

/-- `insert`: the value goes to the head of the vacant list, whose key is returned. -/
def insert (s : Slab α) (v : α) : Option (Slab α × Nat) :=
  let key := s.next
  if key = s.entries.length then
    some (⟨s.entries ++ [.occupied v], s.len + 1, key + 1⟩, key)
  else
    match s.entries[key]? with
    | some (.vacant next) => some (⟨s.entries.set key (.occupied v), s.len + 1, next⟩, key)
    | _ => none

/-- `try_remove`: an occupied entry becomes the new head of the vacant list. -/
def tryRemove (s : Slab α) (key : Nat) : Option (Slab α × α) :=
  match s.entries[key]? with
  | some (.occupied v) => some (⟨s.entries.set key (.vacant s.next), s.len - 1, key⟩, v)
  | _ => none

/-- `iter`: the occupied entries with their keys, in key order. -/
def iter (s : Slab α) : List (Nat × α) :=
  s.entries.zipIdx.filterMap fun (e, i) =>
    match e with
    | .occupied v => some (i, v)
    | .vacant _ => none

/-! ## Building a slab from pairs -/

/-- `builder::Builder`: the slab so far, whether an out-of-order key broke the vacant list, and
the first hole, whose link `build` points at the end. -/
structure Builder (α : Type) where
  slab : Slab α
  vacantListBroken : Bool
  firstVacantIndex : Option Nat

/-- The loop of `Builder::pair` that pads the entries with holes up to `key`, each new hole
becoming the head of the vacant list. -/
def pushHoles (s : Slab α) : Nat → Slab α
  | 0 => s
  | count + 1 => pushHoles ⟨s.entries ++ [.vacant s.next], s.len, s.entries.length⟩ count

/-- `Builder::pair`. -/
def Builder.pair (b : Builder α) (key : Nat) (value : α) : Builder α :=
  let slab := b.slab
  if key < slab.entries.length then
    let wasVacant := match slab.entries[key]? with
      | some (.vacant _) => true
      | _ => false
    { b with
      vacantListBroken := b.vacantListBroken || wasVacant
      slab := ⟨slab.entries.set key (.occupied value),
        if wasVacant then slab.len + 1 else slab.len, slab.next⟩ }
  else
    let firstVacantIndex :=
      if b.firstVacantIndex.isNone && slab.entries.length < key then some slab.entries.length
      else b.firstVacantIndex
    let slab := pushHoles slab (key - slab.entries.length)
    { b with
      firstVacantIndex := firstVacantIndex
      slab := ⟨slab.entries ++ [.occupied value], slab.len + 1, slab.next⟩ }

/-- `recreate_vacant_list`: link the vacant entries again from the highest key down, so that
the lowest key ends up at the head. -/
def recreateVacantList (s : Slab α) : Slab α :=
  let (entries, next) := s.entries.zipIdx.foldr (fun (e, i) (acc, next) =>
    match e with
    | .vacant _ => (.vacant next :: acc, i)
    | .occupied v => (.occupied v :: acc, next)) ([], s.entries.length)
  ⟨entries, s.len, next⟩

/-- `Builder::build`. -/
def Builder.build (b : Builder α) : Option (Slab α) :=
  let slab := b.slab
  if slab.len = slab.entries.length then some { slab with next := slab.entries.length }
  else if b.vacantListBroken then some slab.recreateVacantList
  else
    match b.firstVacantIndex with
    | some i =>
      match slab.entries[i]? with
      | some (.vacant _) =>
        some { slab with entries := slab.entries.set i (.vacant slab.entries.length) }
      | _ => none
    | none => none

/-- `FromIterator<(usize, T)>`. -/
def fromIter (pairs : List (Nat × α)) : Option (Slab α) :=
  (pairs.foldl (fun (b : Builder α) (key, value) => b.pair key value)
    ⟨new, false, none⟩).build

/-! ## What `get` reads after each operation -/

theorem get_eq_some {s : Slab α} {k : Nat} {v : α} :
    s.get k = some v ↔ s.entries[k]? = some (.occupied v) := by
  unfold get
  split <;> simp_all

/-- An occupied key lies inside the entries. -/
theorem key_lt_of_get {s : Slab α} {k : Nat} {v : α} (h : s.get k = some v) :
    k < s.entries.length :=
  (List.getElem?_eq_some_iff.mp (get_eq_some.mp h)).1

/-- The key `insert` returns was free. -/
theorem get_insert_key {s s' : Slab α} {v : α} {k : Nat} (h : s.insert v = some (s', k)) :
    s.get k = none := by
  unfold insert at h
  dsimp only at h
  split at h
  · cases h
    simp [get, *]
  · split at h
    · cases h
      simp [get, *]
    · cases h

/-- After `insert`, the returned key holds the value and every other key is as before. -/
theorem get_insert {s s' : Slab α} {v : α} {k : Nat} (h : s.insert v = some (s', k)) (j : Nat) :
    s'.get j = if j = k then some v else s.get j := by
  unfold insert at h
  dsimp only at h
  split at h
  · rename_i hend
    cases h
    by_cases hj : j = s.next
    · simp [get, hj, hend]
    · simp only [get, hj, if_false]
      rcases Nat.lt_or_ge j s.entries.length with hlt | hge
      · rw [List.getElem?_append_left hlt]
      · rw [List.getElem?_eq_none (by simp; omega), List.getElem?_eq_none hge]
  · split at h
    · rename_i hvac
      cases h
      have hlt : s.next < s.entries.length := (List.getElem?_eq_some_iff.mp hvac).1
      by_cases hj : j = s.next
      · simp [get, hj, hlt]
      · simp [get, hj, List.getElem?_set_ne (Ne.symm hj)]
    · cases h

theorem get_tryRemove_key {s s' : Slab α} {k : Nat} {v : α} (h : s.tryRemove k = some (s', v)) :
    s.get k = some v := by
  unfold tryRemove at h
  split at h
  · cases h
    simp [get, *]
  · cases h

/-- After `try_remove`, the key is free and every other key is as before. -/
theorem get_tryRemove {s s' : Slab α} {k : Nat} {v : α} (h : s.tryRemove k = some (s', v))
    (j : Nat) : s'.get j = if j = k then none else s.get j := by
  unfold tryRemove at h
  split at h
  · rename_i hocc
    cases h
    have hlt : k < s.entries.length := (List.getElem?_eq_some_iff.mp hocc).1
    by_cases hj : j = k
    · simp [get, hj, hlt]
    · simp [get, hj, List.getElem?_set_ne (Ne.symm hj)]
  · cases h

/-- `try_remove` succeeds exactly on an occupied key. -/
theorem tryRemove_of_get {s : Slab α} {k : Nat} {v : α} (h : s.get k = some v) :
    ∃ s', s.tryRemove k = some (s', v) := by
  rw [get_eq_some] at h
  exact ⟨⟨s.entries.set k (.vacant s.next), s.len - 1, k⟩, by simp [tryRemove, h]⟩

/-- Overwriting the occupied entry at `k`, as `get_mut` does. -/
theorem get_set_occupied {s : Slab α} {k : Nat} (hk : k < s.entries.length) (v : α) (j : Nat) :
    ({ s with entries := s.entries.set k (.occupied v) } : Slab α).get j =
      if j = k then some v else s.get j := by
  by_cases hj : j = k
  · simp [get, hj, hk]
  · simp [get, hj, List.getElem?_set_ne (Ne.symm hj)]

theorem insert_key_lt {s s' : Slab α} {v : α} {k : Nat} (h : s.insert v = some (s', k)) :
    k < s'.entries.length := by
  have hget := get_insert h k
  simp only [if_true] at hget
  exact key_lt_of_get hget

end Slab

end IggyCore.Library
