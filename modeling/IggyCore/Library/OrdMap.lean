import Mathlib

/-!
# Ordered maps

A `BTreeMap` is modelled by the list of its entries in increasing key order, the order in
which it iterates them; the structure `OrdMap` carries that order. Inserting replaces the
value of a present key. The range lookups of a `BTreeMap` are filters of the entry list:
`range(k..)` is `rangeFrom`, `range(k..).next()` is `firstGe`, `range(..=k).next_back()` is
`lastLe` and `range(..k).next_back()` is `lastLt`. Each lookup is characterised by the order
of the keys alone (`firstGe_eq_some_iff`, `lastLe_eq_some_iff`, `lastLt_eq_some_iff`), which
is how the lemmas of a model that uses a map reason about it.
-/

namespace IggyCore.Library

variable {κ ν : Type} [LinearOrder κ]

/-- Keys strictly increase along the list. -/
def KeysIncrease (entries : List (κ × ν)) : Prop := entries.Pairwise fun a b => a.1 < b.1

/-- Insert into a list of entries in increasing key order, replacing the entry of `k`. -/
def insertEntry (k : κ) (v : ν) : List (κ × ν) → List (κ × ν)
  | [] => [(k, v)]
  | e :: entries =>
    if k < e.1 then (k, v) :: e :: entries
    else if k = e.1 then (k, v) :: entries
    else e :: insertEntry k v entries

section Entries

variable {k : κ} {v : ν} {entries : List (κ × ν)}

theorem KeysIncrease.cons_iff {e : κ × ν} :
    KeysIncrease (e :: entries) ↔ (∀ e' ∈ entries, e.1 < e'.1) ∧ KeysIncrease entries :=
  List.pairwise_cons

/-- In a list whose keys increase, an entry is determined by its key. -/
theorem KeysIncrease.eq_of_key_eq (h : KeysIncrease entries) {a b : κ × ν} (ha : a ∈ entries)
    (hb : b ∈ entries) (hkey : a.1 = b.1) : a = b := by
  induction entries with
  | nil => simp at ha
  | cons e entries ih =>
    obtain ⟨hlt, hrest⟩ := KeysIncrease.cons_iff.mp h
    rcases List.mem_cons.mp ha with rfl | ha' <;> rcases List.mem_cons.mp hb with rfl | hb'
    · rfl
    · exact absurd hkey (ne_of_lt (hlt b hb'))
    · exact absurd hkey.symm (ne_of_lt (hlt a ha'))
    · exact ih hrest ha' hb'

theorem mem_insertEntry (h : KeysIncrease entries) {e : κ × ν} :
    e ∈ insertEntry k v entries ↔ e = (k, v) ∨ (e ∈ entries ∧ e.1 ≠ k) := by
  induction entries with
  | nil => simp [insertEntry]
  | cons d entries ih =>
    obtain ⟨hlt, hrest⟩ := KeysIncrease.cons_iff.mp h
    unfold insertEntry
    -- the new key goes before `d`, replaces it, or goes further down the list
    split_ifs with hbefore hsame
    · simp only [List.mem_cons]
      constructor
      · rintro (rfl | rfl | he)
        · exact Or.inl rfl
        · exact Or.inr ⟨Or.inl rfl, (ne_of_lt hbefore).symm⟩
        · exact Or.inr ⟨Or.inr he, (ne_of_lt (lt_trans hbefore (hlt e he))).symm⟩
      · rintro (rfl | ⟨rfl | he, -⟩) <;> simp_all
    · subst hsame
      simp only [List.mem_cons]
      constructor
      · rintro (rfl | he)
        · exact Or.inl rfl
        · exact Or.inr ⟨Or.inr he, (ne_of_lt (hlt e he)).symm⟩
      · rintro (rfl | ⟨rfl | he, hne⟩)
        · exact Or.inl rfl
        · exact absurd rfl hne
        · exact Or.inr he
    · simp only [List.mem_cons, ih hrest]
      constructor
      · rintro (rfl | rfl | ⟨he, hne⟩)
        · exact Or.inr ⟨Or.inl rfl, fun heq => hsame heq.symm⟩
        · exact Or.inl rfl
        · exact Or.inr ⟨Or.inr he, hne⟩
      · rintro (rfl | ⟨rfl | he, hne⟩)
        · exact Or.inr (Or.inl rfl)
        · exact Or.inl rfl
        · exact Or.inr (Or.inr ⟨he, hne⟩)

theorem KeysIncrease.insertEntry (h : KeysIncrease entries) :
    KeysIncrease (insertEntry k v entries) := by
  induction entries with
  | nil => exact List.pairwise_singleton _ _
  | cons d entries ih =>
    obtain ⟨hlt, hrest⟩ := KeysIncrease.cons_iff.mp h
    unfold IggyCore.Library.insertEntry
    split_ifs with hbefore hsame
    · refine KeysIncrease.cons_iff.mpr ⟨?_, h⟩
      intro e he
      rcases List.mem_cons.mp he with rfl | he
      · exact hbefore
      · exact lt_trans hbefore (hlt e he)
    · subst hsame
      exact KeysIncrease.cons_iff.mpr ⟨hlt, hrest⟩
    · refine KeysIncrease.cons_iff.mpr ⟨?_, ih hrest⟩
      intro e he
      rcases (mem_insertEntry hrest).mp he with rfl | ⟨he, -⟩
      · exact lt_of_le_of_ne (not_lt.mp hbefore) (Ne.symm hsame)
      · exact hlt e he

/-- The head of a list whose keys increase has the least key. -/
theorem KeysIncrease.head_le (h : KeysIncrease entries) {e : κ × ν}
    (he : entries.head? = some e) : ∀ e' ∈ entries, e.1 ≤ e'.1 := by
  cases entries with
  | nil => simp at he
  | cons d entries =>
    obtain rfl : d = e := by simpa using he
    intro e' he'
    rcases List.mem_cons.mp he' with rfl | he'
    · exact le_rfl
    · exact le_of_lt ((KeysIncrease.cons_iff.mp h).1 e' he')

/-- The last entry of a list whose keys increase has the greatest key. -/
theorem KeysIncrease.le_getLast (h : KeysIncrease entries) {e : κ × ν}
    (he : entries.getLast? = some e) : ∀ e' ∈ entries, e'.1 ≤ e.1 := by
  obtain ⟨init, rfl⟩ : ∃ init, entries = init ++ [e] := List.getLast?_eq_some_iff.mp he
  intro e' he'
  rcases List.mem_append.mp he' with he' | he'
  · exact le_of_lt (List.pairwise_append.mp h |>.2.2 e' he' e (List.mem_singleton_self e))
  · rw [List.mem_singleton.mp he']

end Entries

/-- A `BTreeMap`: its entries in increasing key order. -/
structure OrdMap (κ ν : Type) [LinearOrder κ] where
  entries : List (κ × ν)
  keysIncrease : KeysIncrease entries

namespace OrdMap

def empty : OrdMap κ ν := ⟨[], List.Pairwise.nil⟩

/-- `insert`: the value of a present key is replaced. -/
def insert (m : OrdMap κ ν) (k : κ) (v : ν) : OrdMap κ ν :=
  ⟨insertEntry k v m.entries, m.keysIncrease.insertEntry⟩

/-- `range(k..)`: the entries from `k` on, in key order. -/
def rangeFrom (m : OrdMap κ ν) (k : κ) : List (κ × ν) := m.entries.filter fun e => k ≤ e.1

/-- `range(k..).next()`. -/
def firstGe (m : OrdMap κ ν) (k : κ) : Option (κ × ν) := (m.rangeFrom k).head?

/-- `range(..=k).next_back()`. -/
def lastLe (m : OrdMap κ ν) (k : κ) : Option (κ × ν) :=
  (m.entries.filter fun e => e.1 ≤ k).getLast?

/-- `range(..k).next_back()`. -/
def lastLt (m : OrdMap κ ν) (k : κ) : Option (κ × ν) :=
  (m.entries.filter fun e => e.1 < k).getLast?

variable {m : OrdMap κ ν} {k : κ} {v : ν} {e : κ × ν}

@[simp] theorem entries_empty : (empty : OrdMap κ ν).entries = [] := rfl

theorem mem_insert : e ∈ (m.insert k v).entries ↔ e = (k, v) ∨ (e ∈ m.entries ∧ e.1 ≠ k) :=
  mem_insertEntry m.keysIncrease

@[simp] theorem mem_rangeFrom : e ∈ m.rangeFrom k ↔ e ∈ m.entries ∧ k ≤ e.1 := by
  simp [rangeFrom]

theorem eq_of_key_eq {a b : κ × ν} (ha : a ∈ m.entries) (hb : b ∈ m.entries)
    (hkey : a.1 = b.1) : a = b :=
  m.keysIncrease.eq_of_key_eq ha hb hkey

/-- `range(k..)` iterates its entries in increasing key order. -/
theorem keysIncrease_rangeFrom : KeysIncrease (m.rangeFrom k) :=
  List.Pairwise.filter _ m.keysIncrease

/-- `range(k..).next()` is the entry with the least key at or after `k`. -/
theorem firstGe_eq_some_iff :
    m.firstGe k = some e ↔ e ∈ m.entries ∧ k ≤ e.1 ∧ ∀ e' ∈ m.entries, k ≤ e'.1 → e.1 ≤ e'.1 := by
  constructor
  · intro he
    have hmem : e ∈ m.rangeFrom k := List.mem_of_mem_head? he
    obtain ⟨hmem, hle⟩ := mem_rangeFrom.mp hmem
    refine ⟨hmem, hle, fun e' he' hle' => ?_⟩
    exact keysIncrease_rangeFrom.head_le he e' (mem_rangeFrom.mpr ⟨he', hle'⟩)
  · rintro ⟨hmem, hle, hleast⟩
    -- the head of the range is some entry; it has the least key, which is `e`'s
    cases hhead : m.firstGe k with
    | none =>
      have hnil : m.rangeFrom k = [] := List.head?_eq_none_iff.mp hhead
      have : e ∈ m.rangeFrom k := mem_rangeFrom.mpr ⟨hmem, hle⟩
      simp [hnil] at this
    | some d =>
      have hd : d ∈ m.rangeFrom k := List.mem_of_mem_head? hhead
      obtain ⟨hdmem, hdle⟩ := mem_rangeFrom.mp hd
      have hde : d.1 ≤ e.1 :=
        keysIncrease_rangeFrom.head_le hhead e (mem_rangeFrom.mpr ⟨hmem, hle⟩)
      rw [m.eq_of_key_eq hdmem hmem (le_antisymm hde (hleast d hdmem hdle))]

/-- `range(..=k).next_back()` is the entry with the greatest key at or before `k`. -/
theorem lastLe_eq_some_iff :
    m.lastLe k = some e ↔ e ∈ m.entries ∧ e.1 ≤ k ∧ ∀ e' ∈ m.entries, e'.1 ≤ k → e'.1 ≤ e.1 := by
  have hsorted : KeysIncrease (m.entries.filter fun e => e.1 ≤ k) :=
    List.Pairwise.filter _ m.keysIncrease
  constructor
  · intro he
    have hmem : e ∈ m.entries.filter fun e => e.1 ≤ k := List.mem_of_getLast? he
    simp only [List.mem_filter, decide_eq_true_eq] at hmem
    refine ⟨hmem.1, hmem.2, fun e' he' hle' => ?_⟩
    exact hsorted.le_getLast he e' (by simp [he', hle'])
  · rintro ⟨hmem, hle, hgreatest⟩
    cases hlast : m.lastLe k with
    | none =>
      have hnil : (m.entries.filter fun e => e.1 ≤ k) = [] := List.getLast?_eq_none_iff.mp hlast
      have : e ∈ m.entries.filter fun e => e.1 ≤ k := by simp [hmem, hle]
      simp [hnil] at this
    | some d =>
      have hd : d ∈ m.entries.filter fun e => e.1 ≤ k := List.mem_of_getLast? hlast
      simp only [List.mem_filter, decide_eq_true_eq] at hd
      have hed : e.1 ≤ d.1 := hsorted.le_getLast hlast e (by simp [hmem, hle])
      rw [m.eq_of_key_eq hd.1 hmem (le_antisymm (hgreatest d hd.1 hd.2) hed)]

/-- `range(..k).next_back()` is the entry with the greatest key before `k`. -/
theorem lastLt_eq_some_iff :
    m.lastLt k = some e ↔ e ∈ m.entries ∧ e.1 < k ∧ ∀ e' ∈ m.entries, e'.1 < k → e'.1 ≤ e.1 := by
  have hsorted : KeysIncrease (m.entries.filter fun e => e.1 < k) :=
    List.Pairwise.filter _ m.keysIncrease
  constructor
  · intro he
    have hmem : e ∈ m.entries.filter fun e => e.1 < k := List.mem_of_getLast? he
    simp only [List.mem_filter, decide_eq_true_eq] at hmem
    refine ⟨hmem.1, hmem.2, fun e' he' hlt' => ?_⟩
    exact hsorted.le_getLast he e' (by simp [he', hlt'])
  · rintro ⟨hmem, hlt, hgreatest⟩
    cases hlast : m.lastLt k with
    | none =>
      have hnil : (m.entries.filter fun e => e.1 < k) = [] := List.getLast?_eq_none_iff.mp hlast
      have : e ∈ m.entries.filter fun e => e.1 < k := by simp [hmem, hlt]
      simp [hnil] at this
    | some d =>
      have hd : d ∈ m.entries.filter fun e => e.1 < k := List.mem_of_getLast? hlast
      simp only [List.mem_filter, decide_eq_true_eq] at hd
      have hed : e.1 ≤ d.1 := hsorted.le_getLast hlast e (by simp [hmem, hlt])
      rw [m.eq_of_key_eq hd.1 hmem (le_antisymm (hgreatest d hd.1 hd.2) hed)]

end OrdMap

end IggyCore.Library
