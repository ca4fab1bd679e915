import Mathlib.Data.List.Basic
import Mathlib.Tactic.Linarith
import Mathlib.Tactic.Ring

/-!
# Little-endian byte strings

Fixed-width little-endian encoding of naturals as byte lists, the reading of a byte list as
a little-endian number, and slicing a window out of a byte buffer. A decoder walks a buffer
field by field; `SuffixAt buf pos s` says that at position `pos` the buffer continues with
`s`, and each field read at `pos` moves it past the field (`SuffixAt.skip`).
-/

namespace IggyCore.Library

/-- The `w` little-endian bytes of `n`, reduced modulo `256 ^ w`. -/
def leBytes : Nat → Nat → List UInt8
  | 0, _ => []
  | w + 1, n => UInt8.ofNat n :: leBytes w (n / 256)

/-- A byte list read as a little-endian number. -/
def ofLeBytes : List UInt8 → Nat
  | [] => 0
  | b :: bs => b.toNat + 256 * ofLeBytes bs

@[simp] theorem length_leBytes (w n : Nat) : (leBytes w n).length = w := by
  induction w generalizing n with
  | zero => rfl
  | succ w ih => simp [leBytes, ih]

theorem ofLeBytes_leBytes (w n : Nat) : ofLeBytes (leBytes w n) = n % 256 ^ w := by
  induction w generalizing n with
  | zero => simp [leBytes, ofLeBytes, Nat.mod_one]
  | succ w ih =>
    have hbyte : (UInt8.ofNat n).toNat = n % 256 := by simp
    -- the low byte, then the rest of the number shifted down by one byte
    rw [leBytes, ofLeBytes, ih, hbyte, Nat.pow_succ, Nat.mul_comm (256 ^ w) 256, Nat.mod_mul]

theorem ofLeBytes_lt (l : List UInt8) : ofLeBytes l < 256 ^ l.length := by
  induction l with
  | nil => simp [ofLeBytes]
  | cons b bs ih =>
    have hb : b.toNat < 256 := b.toNat_lt
    simp only [ofLeBytes, List.length_cons, Nat.pow_succ]
    nlinarith

/-- Reading back a field of width `w` recovers any value that fits in it. -/
theorem ofLeBytes_leBytes_of_lt {w n : Nat} (h : n < 256 ^ w) : ofLeBytes (leBytes w n) = n := by
  rw [ofLeBytes_leBytes, Nat.mod_eq_of_lt h]

/-- A byte list is the little-endian bytes of the number it reads as. -/
theorem leBytes_ofLeBytes (l : List UInt8) : leBytes l.length (ofLeBytes l) = l := by
  induction l with
  | nil => rfl
  | cons b bs ih =>
    have hb : b.toNat < 256 := b.toNat_lt
    have hdiv : (b.toNat + 256 * ofLeBytes bs) / 256 = ofLeBytes bs := by omega
    have hbyte : UInt8.ofNat (b.toNat + 256 * ofLeBytes bs) = b := by
      apply UInt8.toNat_inj.mp
      rw [UInt8.toNat_ofNat']
      omega
    rw [List.length_cons, leBytes, ofLeBytes, hdiv, hbyte, ih]

/-- The window of `len` elements at `offset`, if the buffer holds all of them. -/
def sliceAt {α : Type} (buf : List α) (offset len : Nat) : Option (List α) :=
  if offset + len ≤ buf.length then some ((buf.drop offset).take len) else none

theorem sliceAt_append {α : Type} (pre mid post : List α) :
    sliceAt (pre ++ mid ++ post) pre.length mid.length = some mid := by
  simp [sliceAt]

theorem sliceAt_length {α : Type} {buf s : List α} {offset len : Nat}
    (h : sliceAt buf offset len = some s) : s.length = len ∧ offset + len ≤ buf.length := by
  unfold sliceAt at h
  split at h
  · cases h
    simp only [List.length_take, List.length_drop]
    omega
  · cases h

/-- A successful slice is the buffer's window: the buffer splits around it. -/
theorem sliceAt_eq_some {α : Type} {buf s : List α} {offset len : Nat}
    (h : sliceAt buf offset len = some s) :
    buf = buf.take offset ++ s ++ buf.drop (offset + len) := by
  unfold sliceAt at h
  split at h
  · cases h
    rw [List.append_assoc, ← List.drop_drop, List.take_append_drop, List.take_append_drop]
  · cases h

/-! ## Positions in a buffer -/

section SuffixAt

variable {α : Type} {buf s field rest : List α} {pos : Nat}

/-- The buffer `buf` is `pos` elements followed by `s`. -/
def SuffixAt (buf : List α) (pos : Nat) (s : List α) : Prop :=
  ∃ pre : List α, pre.length = pos ∧ buf = pre ++ s

theorem suffixAt_zero (buf : List α) : SuffixAt buf 0 buf := ⟨[], rfl, rfl⟩

theorem SuffixAt.drop_eq (h : SuffixAt buf pos s) : buf.drop pos = s := by
  obtain ⟨pre, rfl, rfl⟩ := h
  exact List.drop_left

theorem SuffixAt.length_eq (h : SuffixAt buf pos s) : pos + s.length = buf.length := by
  obtain ⟨pre, rfl, rfl⟩ := h
  exact (List.length_append).symm

theorem SuffixAt.skip (h : SuffixAt buf pos (field ++ rest)) :
    SuffixAt buf (pos + field.length) rest := by
  obtain ⟨pre, rfl, rfl⟩ := h
  exact ⟨pre ++ field, List.length_append, (List.append_assoc _ _ _).symm⟩

theorem SuffixAt.skip_cons {b : α} (h : SuffixAt buf pos (b :: rest)) :
    SuffixAt buf (pos + 1) rest :=
  SuffixAt.skip (show SuffixAt buf pos ([b] ++ rest) from h)

theorem SuffixAt.sliceAt_eq (h : SuffixAt buf pos (field ++ rest)) :
    sliceAt buf pos field.length = some field := by
  obtain ⟨pre, rfl, rfl⟩ := h
  rw [← List.append_assoc]
  exact sliceAt_append pre field rest

/-- The window `[pos, pos + field.length)` of the buffer is the field. -/
theorem SuffixAt.window (h : SuffixAt buf pos (field ++ rest)) :
    (buf.take (pos + field.length)).drop pos = field := by
  obtain ⟨pre, rfl, rfl⟩ := h
  simp [List.take_append]

theorem SuffixAt.getElem?_eq {b : α} (h : SuffixAt buf pos (b :: rest)) : buf[pos]? = some b := by
  obtain ⟨pre, rfl, rfl⟩ := h
  simp

end SuffixAt

end IggyCore.Library
