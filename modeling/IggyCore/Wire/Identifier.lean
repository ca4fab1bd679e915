import IggyCore.Wire.Codec

/-!
# Names and identifiers on the wire

`core/binary_protocol/src/primitives/identifier.rs`. A `WireName` is a string of 1 to 255
UTF-8 bytes; the bound is a field of the structure, so a name that `WireName::new` would
reject cannot be built, and its encoding (a length byte, then the bytes) always fits the
length byte. A `WireIdentifier` is a numeric id or a name, tagged by a kind byte and a length
byte. Each decoder reads back exactly what the encoder wrote, and reports how many bytes it
consumed.
-/

namespace IggyCore.Wire

open IggyCore.Library

/-- `MAX_WIRE_NAME_LENGTH`. -/
def maxWireNameLength : Nat := 255

structure WireName where
  value : String
  length_pos : 0 < value.utf8ByteSize
  length_le : value.utf8ByteSize ≤ maxWireNameLength
  deriving DecidableEq

namespace WireName

def nameLengthMessage (len : Nat) : String :=
  s!"wire name must be 1-{maxWireNameLength} bytes, got {len}"

/-- `WireName::new`. -/
def new (s : String) : Except WireError WireName :=
  if h : 0 < s.utf8ByteSize ∧ s.utf8ByteSize ≤ maxWireNameLength then .ok ⟨s, h.1, h.2⟩
  else .error (.validation (nameLengthMessage s.utf8ByteSize))

def len (n : WireName) : Nat := n.value.utf8ByteSize

def encode (n : WireName) : List UInt8 := UInt8.ofNat n.len :: utf8Bytes n.value

def encodedSize (n : WireName) : Nat := 1 + n.len

/-- `WireName::decode`: the length byte, then that many bytes of UTF-8. -/
def decode (buf : List UInt8) : Except WireError (WireName × Nat) := do
  let nameLen := (← readU8 buf 0).toNat
  if h : nameLen = 0 ∨ nameLen > maxWireNameLength then
    throw (.validation (nameLengthMessage nameLen))
  else
    let name ← readStr buf 1 nameLen
    if hn : name.utf8ByteSize = nameLen then
      pure (⟨name, by omega, by omega⟩, 1 + nameLen)
    else
      -- unreachable: `read_str` returns a string of exactly `nameLen` bytes
      throw (.invalidUtf8 1)

@[simp] theorem length_encode (n : WireName) : n.encode.length = n.encodedSize := by
  simp [encode, encodedSize, len, Nat.add_comm]

theorem len_lt (n : WireName) : n.len < 256 := by
  have := n.length_le
  simp only [len, maxWireNameLength] at *
  omega

theorem decode_encode (n : WireName) (rest : List UInt8) :
    decode (n.encode ++ rest) = .ok (n, n.encodedSize) := by
  have hlt := n.len_lt
  have hbyte : (UInt8.ofNat n.len).toNat = n.len := by simp; omega
  have h0 : SuffixAt (n.encode ++ rest) 0 (UInt8.ofNat n.len :: (utf8Bytes n.value ++ rest)) :=
    suffixAt_zero _
  have h1 : SuffixAt (n.encode ++ rest) 1 (utf8Bytes n.value ++ rest) := h0.skip_cons
  have hnot : ¬(n.len = 0 ∨ n.len > maxWireNameLength) := by
    have := n.length_pos
    have := n.length_le
    simp only [len] at *
    omega
  have hstr : readStr (n.encode ++ rest) 1 n.len = .ok n.value := readStr_of_suffixAt h1
  simp only [decode, readU8_of_suffixAt h0, bind, Except.bind, pure, Except.pure, hbyte,
    dif_neg hnot, hstr]
  split
  · rfl
  · rename_i hne
    exact absurd rfl hne

end WireName

/-- `KIND_NUMERIC`, `KIND_STRING` and `NUMERIC_VALUE_LEN`. -/
def kindNumeric : UInt8 := 1
def kindString : UInt8 := 2
def numericValueLen : Nat := 4

inductive WireIdentifier
  | numeric (id : UInt32)
  | string (name : WireName)
  deriving DecidableEq

namespace WireIdentifier

def kindCode : WireIdentifier → UInt8
  | numeric _ => kindNumeric
  | string _ => kindString

def valueLen : WireIdentifier → Nat
  | numeric _ => numericValueLen
  | string s => s.len

def value : WireIdentifier → List UInt8
  | numeric id => putU32Le id
  | string s => utf8Bytes s.value

def encode (i : WireIdentifier) : List UInt8 :=
  i.kindCode :: UInt8.ofNat i.valueLen :: i.value

def encodedSize (i : WireIdentifier) : Nat := 2 + i.valueLen

def numericLengthMessage (length : Nat) : String :=
  s!"numeric identifier must be {numericValueLen} bytes, got {length}"

/-- `WireIdentifier::decode`: kind byte, length byte, then the value. -/
def decode (buf : List UInt8) : Except WireError (WireIdentifier × Nat) := do
  let kind ← readU8 buf 0
  let length := (← readU8 buf 1).toNat
  let value ← readBytes buf 2 length
  let consumed := 2 + length
  if kind = kindNumeric then
    if length ≠ numericValueLen then
      throw (.validation (numericLengthMessage length))
    else
      pure (.numeric (UInt32.ofNat (ofLeBytes value)), consumed)
  else if kind = kindString then
    if length = 0 then
      throw (.validation "string identifier cannot be empty")
    else
      match String.fromUTF8? ⟨value.toArray⟩ with
      | none => throw (.invalidUtf8 2)
      | some s =>
        let name ← WireName.new s
        pure (.string name, consumed)
  else
    throw (.unknownDiscriminant "WireIdentifier" kind 0)

@[simp] theorem length_value (i : WireIdentifier) : i.value.length = i.valueLen := by
  cases i <;> simp [value, valueLen, numericValueLen, WireName.len]

@[simp] theorem length_encode (i : WireIdentifier) : i.encode.length = i.encodedSize := by
  simp only [encode, List.length_cons, length_value, encodedSize]
  omega

theorem valueLen_lt (i : WireIdentifier) : i.valueLen < 256 := by
  cases i with
  | numeric => simp [valueLen, numericValueLen]
  | string s => exact s.len_lt

theorem new_value (n : WireName) : WireName.new n.value = .ok n := by
  simp [WireName.new, n.length_pos, n.length_le]

theorem decode_encode (i : WireIdentifier) (rest : List UInt8) :
    decode (i.encode ++ rest) = .ok (i, i.encodedSize) := by
  have hbyte : (UInt8.ofNat i.valueLen).toNat = i.valueLen := by
    have := i.valueLen_lt
    simp
    omega
  have h0 : SuffixAt (i.encode ++ rest) 0
      (i.kindCode :: UInt8.ofNat i.valueLen :: (i.value ++ rest)) := suffixAt_zero _
  have h1 := h0.skip_cons
  have h2 := h1.skip_cons
  simp only [Nat.zero_add] at h1 h2
  have hval : readBytes (i.encode ++ rest) 2 i.valueLen = .ok i.value := by
    rw [← length_value]
    exact readBytes_of_suffixAt h2
  simp only [decode, readU8_of_suffixAt h0, readU8_of_suffixAt h1, bind, Except.bind, hbyte,
    hval, pure, Except.pure]
  -- one case per kind: the numeric value reads back, the name is revalidated
  cases i with
  | numeric id =>
    have hlt : id.toNat < 256 ^ 4 := id.toNat_lt
    simp [kindCode, kindNumeric, valueLen, value, putU32Le, ofLeBytes_leBytes_of_lt hlt,
      encodedSize]
  | string s =>
    have hpos := s.length_pos
    simp [kindCode, kindString, kindNumeric, valueLen, value, fromUTF8?_utf8Bytes, new_value,
      encodedSize, WireName.len]
    -- a name has at least one byte, so it is not the empty string
    intro hempty
    simp [hempty] at hpos

end WireIdentifier

end IggyCore.Wire
