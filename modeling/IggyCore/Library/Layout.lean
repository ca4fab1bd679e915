import IggyCore.Library.LittleEndian

/-!
# Records laid out end to end

A file that holds records one after another: each record's bytes start where the bytes of
the records before it end, so its position is the sum of their widths. `WindowAt buf pos w`
says that the buffer holds `w` at `pos`. `placeOffsetsFrom` writes each record's position
into a table at the record's key, the way an index is rebuilt after the records have been
copied, in order, into a new file.
-/

namespace IggyCore.Library

section WindowAt

variable {α : Type} {buf w : List α} {pos : Nat}

/-- The buffer holds `w` at `pos`. -/
def WindowAt (buf : List α) (pos : Nat) (w : List α) : Prop :=
  ∃ rest, SuffixAt buf pos (w ++ rest)

/-- Appending to a buffer keeps what it held. -/
theorem WindowAt.append (h : WindowAt buf pos w) (x : List α) : WindowAt (buf ++ x) pos w := by
  obtain ⟨rest, pre, hpre, rfl⟩ := h
  exact ⟨rest ++ x, pre, hpre, by simp⟩

/-- What was appended sits at the old end of the buffer. -/
theorem windowAt_append_length (buf w : List α) : WindowAt (buf ++ w) buf.length w :=
  ⟨[], buf, rfl, by simp⟩

theorem WindowAt.sliceAt_eq (h : WindowAt buf pos w) : sliceAt buf pos w.length = some w := by
  obtain ⟨rest, hsuffix⟩ := h
  exact hsuffix.sliceAt_eq

theorem WindowAt.le_length (h : WindowAt buf pos w) : pos + w.length ≤ buf.length := by
  obtain ⟨rest, hsuffix⟩ := h
  have := hsuffix.length_eq
  simp only [List.length_append] at this
  omega

/-- In a concatenation, the `k`-th piece starts after the pieces before it. -/
theorem windowAt_flatten (pieces : List (List α)) {k : Nat} (hk : k < pieces.length) :
    WindowAt pieces.flatten (pieces.take k).flatten.length pieces[k] := by
  have hsplit : pieces = pieces.take k ++ pieces[k] :: pieces.drop (k + 1) := by
    rw [← List.drop_eq_getElem_cons hk, List.take_append_drop]
  refine ⟨(pieces.drop (k + 1)).flatten, (pieces.take k).flatten, rfl, ?_⟩
  nth_rewrite 1 [hsplit]
  rw [List.flatten_append, List.flatten_cons]

end WindowAt

/-! ## Offsets of records copied in order -/

section PlaceOffsets

variable {β : Type} (key width : β → Nat)

/-- Give each item in turn the position `pos` plus the widths of the items before it,
written into the table at the item's key. -/
def placeOffsetsFrom (table : List (Option Nat)) (pos : Nat) : List β → List (Option Nat)
  | [] => table
  | x :: xs => placeOffsetsFrom (table.set (key x) (some pos)) (pos + width x) xs

@[simp] theorem length_placeOffsetsFrom (table : List (Option Nat)) (pos : Nat) (xs : List β) :
    (placeOffsetsFrom key width table pos xs).length = table.length := by
  induction xs generalizing table pos with
  | nil => rfl
  | cons x xs ih => simp [placeOffsetsFrom, ih]

/-- A key no item has keeps its entry. -/
theorem getElem?_placeOffsetsFrom_of_forall_ne {table : List (Option Nat)} {pos i : Nat}
    {xs : List β} (hi : ∀ x ∈ xs, key x ≠ i) :
    (placeOffsetsFrom key width table pos xs)[i]? = table[i]? := by
  induction xs generalizing table pos with
  | nil => rfl
  | cons x xs ih =>
    rw [placeOffsetsFrom, ih fun y hy => hi y (List.mem_cons_of_mem x hy),
      List.getElem?_set_ne (hi x List.mem_cons_self)]

/-- With distinct keys, the `k`-th item's key holds the widths of the `k` items before it. -/
theorem getElem?_placeOffsetsFrom {table : List (Option Nat)} {pos : Nat} {xs : List β}
    (hnodup : (xs.map key).Nodup) {k : Nat} (hk : k < xs.length)
    (hkey : key xs[k] < table.length) :
    (placeOffsetsFrom key width table pos xs)[key xs[k]]? =
      some (some (pos + ((xs.take k).map width).sum)) := by
  induction xs generalizing table pos k with
  | nil => cases hk
  | cons x xs ih =>
    rw [List.map_cons, List.nodup_cons] at hnodup
    cases k with
    | zero =>
      -- the head's key is set first and no later item has it
      have hlater : ∀ y ∈ xs, key y ≠ key x := fun y hy hyx =>
        hnodup.1 (List.mem_map.mpr ⟨y, hy, hyx⟩)
      simp only [List.getElem_cons_zero] at hkey ⊢
      rw [placeOffsetsFrom, getElem?_placeOffsetsFrom_of_forall_ne key width hlater,
        List.getElem?_set_self hkey]
      simp
    | succ k =>
      simp only [List.getElem_cons_succ] at hkey ⊢
      rw [placeOffsetsFrom, ih hnodup.2 (Nat.lt_of_succ_lt_succ hk) (by simpa using hkey)]
      simp [Nat.add_assoc]

end PlaceOffsets

/-! ## Reading every record -/

theorem mapM_eq_ok_of_forall {ε α β : Type} {f : α → Except ε β} {g : α → β} :
    ∀ {l : List α}, (∀ x ∈ l, f x = .ok (g x)) → l.mapM f = .ok (l.map g)
  | [], _ => rfl
  | x :: xs, h => by
    rw [List.mapM_cons, h x List.mem_cons_self,
      mapM_eq_ok_of_forall fun y hy => h y (List.mem_cons_of_mem x hy)]
    rfl

end IggyCore.Library
