import IggyCore.Library.LittleEndian
import IggyCore.Library.Run

/-!
# The wire codec's primitives

`core/binary_protocol/src/codec.rs`: the bounds-checked readers every `WireDecode` is built
from, and the little-endian writers of `bytes::BufMut` that `WireEncode` uses. A buffer is a
`List UInt8`, and `&buf[pos..]` is `buf.drop pos`.

The readers' `checked_add` on the end offset cannot fail for a buffer that fits in memory, so
only their bounds check is kept. The round trip of each reader is stated at a position where
the buffer continues with the written field (`SuffixAt buf pos (field ++ rest)`), which is
how a decoder walks a buffer field by field.
-/

namespace IggyCore.Wire

open IggyCore.Library

/-- `WireError`, with the variants the modelled decoders raise. `available` is the
source's `have`. -/
inductive WireError
  | unexpectedEof (offset need available : Nat)
  | invalidUtf8 (offset : Nat)
  | unknownDiscriminant (typeName : String) (value : UInt8) (offset : Nat)
  | validation (message : String)
  deriving DecidableEq, Repr

/-- The variants of `iggy_common::IggyError` that the modelled server paths return. -/
inductive IggyError
  | invalidCommand
  | invalidNumberEncoding
  | invalidBatchChecksum (found expected baseOffset : Nat)
  | invalidMessageTimestampDelta (delta : Nat)
  | cannotAppendMessage
  | unauthorized
  deriving DecidableEq, Repr

/-! ## Readers -/

def readU8 (buf : List UInt8) (offset : Nat) : Except WireError UInt8 :=
  match buf[offset]? with
  | some b => .ok b
  | none => .error (.unexpectedEof offset 1 (buf.length - offset))

def readBytes (buf : List UInt8) (offset len : Nat) : Except WireError (List UInt8) :=
  match sliceAt buf offset len with
  | some s => .ok s
  | none => .error (.unexpectedEof offset len (buf.length - offset))

def readU32Le (buf : List UInt8) (offset : Nat) : Except WireError UInt32 :=
  (readBytes buf offset 4).map fun s => UInt32.ofNat (ofLeBytes s)

def readU64Le (buf : List UInt8) (offset : Nat) : Except WireError UInt64 :=
  (readBytes buf offset 8).map fun s => UInt64.ofNat (ofLeBytes s)

/-- `read_str`: the `len` bytes at `offset`, which must be valid UTF-8. -/
def readStr (buf : List UInt8) (offset len : Nat) : Except WireError String := do
  let s ← readBytes buf offset len
  match String.fromUTF8? ⟨s.toArray⟩ with
  | some str => .ok str
  | none => .error (.invalidUtf8 offset)

/-! ## Writers -/

def putU32Le (x : UInt32) : List UInt8 := leBytes 4 x.toNat

def putU64Le (x : UInt64) : List UInt8 := leBytes 8 x.toNat

/-- `put_slice(s.as_bytes())`. -/
def utf8Bytes (s : String) : List UInt8 := s.toByteArray.data.toList

@[simp] theorem length_putU32Le (x : UInt32) : (putU32Le x).length = 4 := by simp [putU32Le]

@[simp] theorem length_putU64Le (x : UInt64) : (putU64Le x).length = 8 := by simp [putU64Le]

@[simp] theorem length_utf8Bytes (s : String) : (utf8Bytes s).length = s.utf8ByteSize := by
  simp [utf8Bytes]

/-! ## Reading back what was written -/

section RoundTrip

variable {buf rest : List UInt8} {pos : Nat}

theorem readU8_of_suffixAt {b : UInt8} (h : SuffixAt buf pos (b :: rest)) :
    readU8 buf pos = .ok b := by
  simp [readU8, h.getElem?_eq]

theorem readBytes_of_suffixAt {field : List UInt8} (h : SuffixAt buf pos (field ++ rest)) :
    readBytes buf pos field.length = .ok field := by
  simp [readBytes, h.sliceAt_eq]

theorem readU32Le_of_suffixAt {x : UInt32} (h : SuffixAt buf pos (putU32Le x ++ rest)) :
    readU32Le buf pos = .ok x := by
  have hread := readBytes_of_suffixAt h
  rw [length_putU32Le] at hread
  have hlt : x.toNat < 256 ^ 4 := x.toNat_lt
  rw [readU32Le, hread]
  show Except.ok (UInt32.ofNat (ofLeBytes (leBytes 4 x.toNat))) = _
  rw [ofLeBytes_leBytes_of_lt hlt, UInt32.ofNat_toNat]

theorem readU64Le_of_suffixAt {x : UInt64} (h : SuffixAt buf pos (putU64Le x ++ rest)) :
    readU64Le buf pos = .ok x := by
  have hread := readBytes_of_suffixAt h
  rw [length_putU64Le] at hread
  have hlt : x.toNat < 256 ^ 8 := x.toNat_lt
  rw [readU64Le, hread]
  show Except.ok (UInt64.ofNat (ofLeBytes (leBytes 8 x.toNat))) = _
  rw [ofLeBytes_leBytes_of_lt hlt, UInt64.ofNat_toNat]

theorem fromUTF8?_utf8Bytes (s : String) : String.fromUTF8? ⟨(utf8Bytes s).toArray⟩ = some s := by
  simp [utf8Bytes, String.fromUTF8?, s.isValidUTF8, String.fromUTF8]

theorem readStr_of_suffixAt {s : String} (h : SuffixAt buf pos (utf8Bytes s ++ rest)) :
    readStr buf pos s.utf8ByteSize = .ok s := by
  have hread := readBytes_of_suffixAt h
  rw [length_utf8Bytes] at hread
  rw [readStr, hread]
  simp only [bind, Except.bind, fromUTF8?_utf8Bytes]

/-! ## What a successful read says of the buffer -/

theorem lt_length_of_readU8 {b : UInt8} (h : readU8 buf pos = .ok b) : pos < buf.length := by
  unfold readU8 at h
  split at h
  · rename_i hb
    exact (List.getElem?_eq_some_iff.mp hb).1
  · cases h

theorem drop_of_readU8 {b : UInt8} (h : readU8 buf pos = .ok b) :
    buf.drop pos = b :: buf.drop (pos + 1) := by
  unfold readU8 at h
  split at h
  · rename_i hb
    cases h
    obtain ⟨hlt, rfl⟩ := List.getElem?_eq_some_iff.mp hb
    exact List.drop_eq_getElem_cons hlt
  · cases h

/-- A successful `read_u32_le` is the four bytes of the value it read. -/
theorem drop_of_readU32Le {x : UInt32} (h : readU32Le buf pos = .ok x) :
    buf.drop pos = putU32Le x ++ buf.drop (pos + 4) := by
  obtain ⟨s, hs, rfl⟩ := map_eq_ok h
  unfold readBytes at hs
  split at hs
  · rename_i hslice
    cases hs
    have hlen := (sliceAt_length hslice).1
    have hlt : ofLeBytes s < 2 ^ 32 := by
      have := ofLeBytes_lt s
      rw [hlen] at this
      omega
    have hput : putU32Le (UInt32.ofNat (ofLeBytes s)) = s := by
      rw [putU32Le, UInt32.toNat_ofNat_of_lt' hlt, ← hlen, leBytes_ofLeBytes]
    unfold sliceAt at hslice
    split at hslice
    · cases hslice
      rw [hput, ← List.drop_drop, List.take_append_drop]
    · cases hslice
  · cases hs

end RoundTrip

end IggyCore.Wire
