import IggyCore.Library.LittleEndian
import IggyCore.Library.Run

/-!
# Flag-terminated lists

A list written as an opening flag, then each item followed by a flag that says whether
another item follows. A decoder walks such a list over a buffer from a position: it reads the
opening flag, and while the flags are set, an item and its flag.

An item reader never moves backwards and a flag reader reads the element at its position, so
every turn of the loop moves forward; this is what makes the loop terminate. The round trip
(`decode_encode`) needs only that each reader reads back what the matching writer wrote.
-/

namespace IggyCore.Library

namespace FlagChain

variable {β ε α : Type}

/-! ## Writing -/

/-- The items after the opening flag: each item followed by `more`, the last by `stop`. -/
def items (enc : α → List β) (more stop : β) : α → List α → List β
  | x, [] => enc x ++ [stop]
  | x, y :: ys => enc x ++ [more] ++ items enc more stop y ys

/-- The whole list: `stop` alone when it is empty, else `more` and the items. -/
def encode (enc : α → List β) (more stop : β) : List α → List β
  | [] => [stop]
  | x :: xs => more :: items enc more stop x xs

theorem length_items (enc : α → List β) (more stop : β) (x : α) (xs : List α) :
    (items enc more stop x xs).length = ((x :: xs).map fun y => (enc y).length + 1).sum := by
  induction xs generalizing x with
  | nil => simp [items]
  | cons y ys ih =>
    rw [items, List.length_append, List.length_append, ih]
    simp only [List.map_cons, List.sum_cons, List.length_singleton]

theorem length_encode (enc : α → List β) (more stop : β) (xs : List α) :
    (encode enc more stop xs).length = 1 + (xs.map fun y => (enc y).length + 1).sum := by
  cases xs with
  | nil => rfl
  | cons x xs =>
    rw [encode, List.length_cons, length_items]
    omega

/-! ## Reading -/

/-- A reader of one item at a position, which never moves backwards. -/
structure ItemReader (β ε α : Type) where
  read : List β → Nat → Except ε (α × Nat)
  le_of_ok : ∀ {buf p x q}, read buf p = .ok (x, q) → p ≤ q

/-- A reader of one flag, which reads the element at its position. -/
structure FlagReader (β ε : Type) where
  read : List β → Nat → Except ε Bool
  lt_of_ok : ∀ {buf p b}, read buf p = .ok b → p < buf.length

variable (item : ItemReader β ε α) (flag : FlagReader β ε)

/-- The loop from `p`: an item, then its flag, and on while the flag is set. -/
def loop (buf : List β) (p : Nat) : Except ε (List α × Nat) :=
  match _hx : item.read buf p with
  | .error e => .error e
  | .ok (x, q) =>
    match hf : flag.read buf q with
    | .error e => .error e
    | .ok true => (fun r => (x :: r.1, r.2)) <$> loop buf (q + 1)
    | .ok false => .ok ([x], q + 1)
termination_by buf.length - p
decreasing_by
  have := item.le_of_ok _hx
  have := flag.lt_of_ok hf
  omega

/-- The list at `p`: its opening flag, then the loop when the flag is set. -/
def decode (buf : List β) (p : Nat) : Except ε (List α × Nat) := do
  let hasItems ← flag.read buf p
  if hasItems then loop item flag buf (p + 1) else pure ([], p + 1)

variable {item flag} {buf : List β} {p q : Nat} {x : α}

theorem loop_of_stop (hx : item.read buf p = .ok (x, q)) (hf : flag.read buf q = .ok false) :
    loop item flag buf p = .ok ([x], q + 1) := by
  rw [loop]
  split <;> rename_i heq <;> rw [hx] at heq <;> cases heq
  split <;> rename_i heq' <;> rw [hf] at heq' <;> cases heq'

theorem loop_of_more (hx : item.read buf p = .ok (x, q)) (hf : flag.read buf q = .ok true) :
    loop item flag buf p = (fun r => (x :: r.1, r.2)) <$> loop item flag buf (q + 1) := by
  rw [loop]
  split <;> rename_i heq <;> rw [hx] at heq <;> cases heq
  split <;> rename_i heq' <;> rw [hf] at heq' <;> cases heq'

/-- The loop reads at least one item and its flag, so it ends past where it started. -/
theorem lt_of_loop {xs : List α} (h : loop item flag buf p = .ok (xs, q)) : p < q := by
  fun_induction loop item flag buf p generalizing xs q with
  | case1 => cases h
  | case2 p x q' hx => cases h
  | case3 p x q' hx hf ih =>
    obtain ⟨⟨xs', q''⟩, hr, hrq⟩ := map_eq_ok h
    cases hrq
    have := item.le_of_ok hx
    have := ih hr
    omega
  | case4 p x q' hx hf =>
    cases h
    have := item.le_of_ok hx
    omega

theorem lt_of_decode {xs : List α} (h : decode item flag buf p = .ok (xs, q)) : p < q := by
  unfold decode at h
  cases hf : flag.read buf p with
  | error e => simp [hf, bind, Except.bind] at h
  | ok hasItems =>
    simp only [hf, bind, Except.bind] at h
    cases hasItems with
    | true => have := lt_of_loop h; omega
    | false => cases h; omega

/-! ## Reading back what was written -/

section RoundTrip

variable {enc : α → List β} {more stop : β}

/-- What the round trip asks of the readers: each reads back what its writer wrote, whatever
follows it. -/
structure Inverse (item : ItemReader β ε α) (flag : FlagReader β ε) (enc : α → List β)
    (more stop : β) : Prop where
  item_read : ∀ {buf p x rest}, SuffixAt buf p (enc x ++ rest) →
    item.read buf p = .ok (x, p + (enc x).length)
  flag_more : ∀ {buf p rest}, SuffixAt buf p (more :: rest) → flag.read buf p = .ok true
  flag_stop : ∀ {buf p rest}, SuffixAt buf p (stop :: rest) → flag.read buf p = .ok false

theorem loop_items (hinv : Inverse item flag enc more stop) (x : α) (xs : List α) :
    ∀ {p : Nat} {rest : List β}, SuffixAt buf p (items enc more stop x xs ++ rest) →
      loop item flag buf p = .ok (x :: xs, p + (items enc more stop x xs).length) := by
  induction xs generalizing x with
  | nil =>
    intro p rest h
    rw [items, List.append_assoc] at h
    rw [loop_of_stop (hinv.item_read h) (hinv.flag_stop h.skip), items, List.length_append,
      List.length_singleton, Nat.add_assoc]
  | cons y ys ih =>
    intro p rest h
    rw [items, List.append_assoc, List.append_assoc] at h
    -- after the item and its `more` flag, the rest of the chain
    have hnext := h.skip.skip
    rw [List.length_singleton] at hnext
    rw [loop_of_more (hinv.item_read h) (hinv.flag_more h.skip), ih y hnext, items,
      List.length_append, List.length_append, List.length_singleton]
    simp only [Functor.map, Except.map]
    congr 2
    omega

/-- The decoder reads back any list its writer wrote, whatever follows it. -/
theorem decode_encode (hinv : Inverse item flag enc more stop) (xs : List α) {rest : List β}
    (h : SuffixAt buf p (encode enc more stop xs ++ rest)) :
    decode item flag buf p = .ok (xs, p + (encode enc more stop xs).length) := by
  cases xs with
  | nil =>
    have hf := hinv.flag_stop h
    simp only [decode, hf, bind, Except.bind, encode, List.length_singleton]
    rfl
  | cons x xs =>
    have hf := hinv.flag_more h
    simp only [decode, hf, bind, Except.bind, if_true]
    rw [loop_items hinv x xs h.skip_cons, encode, List.length_cons, Nat.add_assoc,
      Nat.add_comm 1]

end RoundTrip

end FlagChain

end IggyCore.Library
