import IggyCore.Wire.Codec
import IggyCore.Consensus.Pipeline

/-!
# User headers on the wire

`core/binary_protocol/src/primitives/user_headers.rs`: a message's user headers are a buffer
of TLV entries, `[kind:u8][length:u32_le][data]`, a key and then its value. `encode_user_headers`
writes the pairs it is given. `validate_user_headers` walks a buffer and accepts it when every
kind is non-zero, every length is in `1..=255`, no entry overruns the buffer, nothing trails
the last entry and the entries pair up. The iterator reads the pairs back without any check,
trusting that the buffer was validated; `WireUserHeaders` is built only through the validator.

The validator accepts exactly the encodings of well-formed pairs (`validate_user_headers_iff`),
and the iterator reads such an encoding back without panicking, pair for pair
(`collectEntries_encode`).

The `checked_add` of the data's end cannot fail for a buffer in memory and is left out; the
`u32` entry counter's `checked_add` is kept.
-/

namespace IggyCore.Wire

open IggyCore.Library IggyCore.Consensus

/-- `MAX_FIELD_LENGTH`. -/
def maxFieldLength : Nat := 255

/-! ## Entries and their encoding -/

/-- One TLV: a kind byte, then the data's length as a `u32` and the data. -/
structure Tlv where
  kind : UInt8
  data : List UInt8
  deriving DecidableEq, Repr

namespace Tlv

def encode (t : Tlv) : List UInt8 := t.kind :: (putU32Le (UInt32.ofNat t.data.length) ++ t.data)

/-- What the validator asks of one TLV. -/
structure Valid (t : Tlv) : Prop where
  kind_ne : t.kind ≠ 0
  length_pos : 0 < t.data.length
  length_le : t.data.length ≤ maxFieldLength

instance (t : Tlv) : Decidable t.Valid :=
  decidable_of_iff (t.kind ≠ 0 ∧ 0 < t.data.length ∧ t.data.length ≤ maxFieldLength)
    ⟨fun h => ⟨h.1, h.2.1, h.2.2⟩, fun h => ⟨h.kind_ne, h.length_pos, h.length_le⟩⟩

@[simp] theorem length_encode (t : Tlv) : t.encode.length = 5 + t.data.length := by
  simp only [encode, List.length_cons, List.length_append, length_putU32Le]
  omega

end Tlv

/-- `WireUserHeaderEntry`: a key and its value, each with its kind. -/
structure WireUserHeaderEntry where
  keyKind : UInt8
  key : List UInt8
  valueKind : UInt8
  value : List UInt8
  deriving DecidableEq, Repr

namespace WireUserHeaderEntry

/-- The entry's two TLVs, key first. -/
def tlvs (e : WireUserHeaderEntry) : List Tlv := [⟨e.keyKind, e.key⟩, ⟨e.valueKind, e.value⟩]

def Valid (e : WireUserHeaderEntry) : Prop := ∀ t ∈ e.tlvs, t.Valid

instance (e : WireUserHeaderEntry) : Decidable e.Valid :=
  inferInstanceAs (Decidable (∀ t ∈ e.tlvs, t.Valid))

end WireUserHeaderEntry

/-- `encode_user_headers`. -/
def encodeUserHeaders (entries : List WireUserHeaderEntry) : List UInt8 :=
  entries.flatMap fun e =>
    e.keyKind :: (putU32Le (UInt32.ofNat e.key.length) ++ e.key) ++
      e.valueKind :: (putU32Le (UInt32.ofNat e.value.length) ++ e.value)

/-- `user_headers_encoded_size`. -/
def userHeadersEncodedSize (entries : List WireUserHeaderEntry) : Nat :=
  (entries.map fun e => 1 + 4 + e.key.length + 1 + 4 + e.value.length).sum

/-! ## Validation -/

def headerKindZeroMessage (pos : Nat) : String := s!"header kind is 0 (reserved) at offset {pos}"

def fieldLengthMessage (length pos : Nat) : String :=
  s!"header field length {length} out of range 1..={maxFieldLength} at offset {pos}"

def entryCountOverflowMessage : String := "header entry count overflow"

def oddEntriesMessage (count : Nat) : String :=
  s!"odd number of TLV entries ({count}), expected key-value pairs"

/-- The loop of `validate_user_headers` from `pos`, with `tlvCount` entries walked: the number
of entries once it reaches the end of the buffer. -/
def validateLoop (buf : List UInt8) (pos tlvCount : Nat) : Except WireError Nat :=
  if pos < buf.length then do
    let kind ← readU8 buf pos
    if kind = 0 then throw (.validation (headerKindZeroMessage pos))
    let length := (← readU32Le buf (pos + 1)).toNat
    if length = 0 ∨ length > maxFieldLength then
      throw (.validation (fieldLengthMessage length (pos + 1)))
    if pos + 5 + length > buf.length then
      throw (.unexpectedEof (pos + 5) length (buf.length - (pos + 5)))
    -- `tlv_count` is a `u32`
    if tlvCount + 1 ≥ 2 ^ 32 then throw (.validation entryCountOverflowMessage)
    validateLoop buf (pos + 5 + length) (tlvCount + 1)
  else pure tlvCount
termination_by buf.length - pos

/-- `validate_user_headers`: the number of key-value pairs. -/
def validateUserHeaders (buf : List UInt8) : Except WireError Nat :=
  if buf.isEmpty then .ok 0
  else do
    let tlvCount ← validateLoop buf 0 0
    if tlvCount % 2 ≠ 0 then throw (.validation (oddEntriesMessage tlvCount))
    pure (tlvCount / 2)

/-! ## Iteration -/

/-- `buf[index]`, which panics past the end. -/
def indexOrPanic (buf : List UInt8) (index : Nat) : Except Panic UInt8 :=
  match buf[index]? with
  | some b => .ok b
  | none => .error ⟨s!"index out of bounds: the len is {buf.length} but the index is {index}"⟩

/-- `&buf[start..stop]` for `start ≤ stop`, which panics when `stop` is past the end. -/
def sliceOrPanic (buf : List UInt8) (start stop : Nat) : Except Panic (List UInt8) :=
  if stop ≤ buf.length then .ok ((buf.take stop).drop start)
  else .error ⟨s!"range end index {stop} out of range for slice of length {buf.length}"⟩

/-- `WireUserHeaderIterator::next` at `pos`: the next pair and the position after it. The
length's `try_into` cannot fail on a slice of four bytes. -/
def nextEntry (buf : List UInt8) (pos : Nat) :
    Except Panic (Option (WireUserHeaderEntry × Nat)) :=
  if buf.length ≤ pos then .ok none
  else do
    let keyKind ← indexOrPanic buf pos
    let keyLen := ofLeBytes (← sliceOrPanic buf (pos + 1) (pos + 5))
    let key ← sliceOrPanic buf (pos + 5) (pos + 5 + keyLen)
    let pos := pos + 5 + keyLen
    let valueKind ← indexOrPanic buf pos
    let valueLen := ofLeBytes (← sliceOrPanic buf (pos + 1) (pos + 5))
    let value ← sliceOrPanic buf (pos + 5) (pos + 5 + valueLen)
    pure (some (⟨keyKind, key, valueKind, value⟩, pos + 5 + valueLen))

theorem nextEntry_lt {buf : List UInt8} {pos pos' : Nat} {e : WireUserHeaderEntry}
    (h : nextEntry buf pos = .ok (some (e, pos'))) : pos < pos' := by
  unfold nextEntry at h
  split at h
  · cases h
  · simp only [bind, Except.bind] at h
    repeat' split at h <;> try cases h
    omega

/-- The pairs a `for` loop over the iterator visits, from `pos`. -/
def collectEntries (buf : List UInt8) (pos : Nat) : Except Panic (List WireUserHeaderEntry) :=
  match _h : nextEntry buf pos with
  | .ok none => .ok []
  | .ok (some (e, pos')) => (e :: ·) <$> collectEntries buf pos'
  | .error p => .error p
termination_by buf.length + 1 - pos
decreasing_by
  have hlt := nextEntry_lt _h
  have hin : pos < buf.length := by
    unfold nextEntry at _h
    split at _h
    · cases _h
    · omega
  omega

/-- `WireUserHeaders`: a buffer the validator accepted. -/
structure WireUserHeaders where
  bytes : List UInt8
  valid : ∃ pairs, validateUserHeaders bytes = .ok pairs

namespace WireUserHeaders

/-- `from_slice` and `from_bytes`. -/
def fromSlice (buf : List UInt8) : Except WireError WireUserHeaders :=
  match h : validateUserHeaders buf with
  | .ok pairs => .ok ⟨buf, pairs, h⟩
  | .error e => .error e

def empty : WireUserHeaders := ⟨[], 0, rfl⟩

/-- `iter`, run to the end. -/
def entries (h : WireUserHeaders) : Except Panic (List WireUserHeaderEntry) :=
  collectEntries h.bytes 0

end WireUserHeaders

end IggyCore.Wire

namespace IggyCore.Wire

open IggyCore.Library

/-! ## What the validator accepts, turn by turn -/

/-- What one successful turn of the loop reads: a valid TLV at `pos`, under a count that still
fits its `u32`. -/
theorem validateLoop_ok {buf : List UInt8} {pos tlvCount m : Nat}
    (h : validateLoop buf pos tlvCount = .ok m) :
    (buf.length ≤ pos ∧ m = tlvCount) ∨
      ∃ t : Tlv, t.Valid ∧ buf.drop pos = t.encode ++ buf.drop (pos + t.encode.length) ∧
        tlvCount + 1 < 2 ^ 32 ∧ validateLoop buf (pos + t.encode.length) (tlvCount + 1) = .ok m := by
  rw [validateLoop] at h
  split at h
  · rename_i hpos
    cases hkind : readU8 buf pos with
    | error e => simp [hkind, bind, Except.bind] at h
    | ok kind =>
      cases hlen : readU32Le buf (pos + 1) with
      | error e =>
        simp only [hkind, hlen, bind, Except.bind, throw, throwThe, MonadExceptOf.throw] at h
        split_ifs at h
      | ok len =>
        simp only [hkind, hlen, bind, Except.bind, throw, throwThe, MonadExceptOf.throw] at h
        split_ifs at h with hzero hrange hend hcount
        -- the data are the `len` bytes after the length field
        set data := (buf.drop (pos + 5)).take len.toNat with hdata
        have hdataLen : data.length = len.toNat := by
          rw [hdata, List.length_take, List.length_drop]
          omega
        have hsplit : buf.drop (pos + 5) = data ++ buf.drop (pos + 5 + len.toNat) := by
          rw [hdata, show buf.drop (pos + 5 + len.toNat) = (buf.drop (pos + 5)).drop len.toNat by
            rw [List.drop_drop], List.take_append_drop]
        have hencode : (Tlv.mk kind data).encode.length = 5 + len.toNat := by
          rw [Tlv.length_encode, hdataLen]
        have hrange' : 0 < data.length ∧ data.length ≤ maxFieldLength := by
          rw [hdataLen]
          unfold maxFieldLength at hrange ⊢
          omega
        refine .inr ⟨⟨kind, data⟩, ⟨hzero, hrange'.1, hrange'.2⟩, ?_, by omega, ?_⟩
        · rw [hencode, drop_of_readU8 hkind, drop_of_readU32Le hlen, show pos + 1 + 4 = pos + 5 by omega,
            hsplit, Tlv.encode, hdataLen, UInt32.ofNat_toNat, Nat.add_assoc]
          simp only [List.cons_append, List.append_assoc]
        · rw [hencode, ← Nat.add_assoc]
          exact h
  · exact .inl ⟨by omega, by cases h; rfl⟩

/-! ## The validator accepts the encodings of well-formed TLVs -/

theorem validateLoop_of_le {buf : List UInt8} {pos tlvCount : Nat} (h : buf.length ≤ pos) :
    validateLoop buf pos tlvCount = .ok tlvCount := by
  rw [validateLoop, if_neg (by omega)]
  rfl

theorem Tlv.Valid.length_lt {t : Tlv} (hvalid : t.Valid) : t.data.length < 2 ^ 32 := by
  have hle : t.data.length ≤ 255 := hvalid.length_le
  omega

/-- The length field of a valid TLV reads back as its data's length. -/
theorem Tlv.Valid.toNat_length {t : Tlv} (hvalid : t.Valid) :
    (UInt32.ofNat t.data.length).toNat = t.data.length :=
  UInt32.toNat_ofNat_of_lt' hvalid.length_lt

/-- One well-formed TLV at `pos` passes every check of the loop, which goes on after it. -/
theorem validateLoop_tlv {buf rest : List UInt8} {pos tlvCount : Nat} {t : Tlv}
    (h : SuffixAt buf pos (t.encode ++ rest)) (hvalid : t.Valid) (hcount : tlvCount + 1 < 2 ^ 32) :
    validateLoop buf pos tlvCount = validateLoop buf (pos + t.encode.length) (tlvCount + 1) := by
  have hend := h.length_eq
  simp only [List.length_append, Tlv.length_encode] at hend
  have hcons : SuffixAt buf pos (t.kind :: (putU32Le (UInt32.ofNat t.data.length) ++ (t.data ++ rest))) := by
    simpa only [Tlv.encode, List.cons_append, List.append_assoc] using h
  have hkind := readU8_of_suffixAt hcons
  have hlen := readU32Le_of_suffixAt hcons.skip_cons
  have hrange : ¬(t.data.length = 0 ∨ t.data.length > maxFieldLength) := by
    have := hvalid.length_pos
    have := hvalid.length_le
    omega
  rw [validateLoop, if_pos (by omega)]
  simp only [hkind, hlen, hvalid.toNat_length, hvalid.kind_ne, hrange, bind, Except.bind, if_false]
  rw [if_neg (by omega), if_neg (by omega), Tlv.length_encode]
  congr 1
  omega

/-- The loop over a run of well-formed TLVs counts them, while the count fits its `u32`. -/
theorem validateLoop_encode {buf : List UInt8} (ts : List Tlv) :
    ∀ {pos tlvCount : Nat}, SuffixAt buf pos (ts.flatMap Tlv.encode) → (∀ t ∈ ts, t.Valid) →
      tlvCount + ts.length < 2 ^ 32 → validateLoop buf pos tlvCount = .ok (tlvCount + ts.length) := by
  induction ts with
  | nil =>
    intro pos tlvCount h _ _
    have hend := h.length_eq
    simp only [List.flatMap_nil, List.length_nil] at hend ⊢
    exact validateLoop_of_le (by omega)
  | cons t ts ih =>
    intro pos tlvCount h hvalid hcount
    rw [List.flatMap_cons] at h
    simp only [List.length_cons] at hcount
    rw [validateLoop_tlv h (hvalid t (by simp)) (by omega),
      ih h.skip (fun t' ht' => hvalid t' (by simp [ht'])) (by omega)]
    simp only [List.length_cons]
    congr 1
    omega

/-- What the loop accepts is a run of well-formed TLVs, one per count, and the count stays a
`u32`. -/
theorem validateLoop_sound {buf : List UInt8} {pos tlvCount m : Nat}
    (h : validateLoop buf pos tlvCount = .ok m) (hcount : tlvCount < 2 ^ 32) :
    ∃ ts : List Tlv, (∀ t ∈ ts, t.Valid) ∧ buf.drop pos = ts.flatMap Tlv.encode ∧
      m = tlvCount + ts.length ∧ m < 2 ^ 32 := by
  rcases validateLoop_ok h with ⟨hle, rfl⟩ | ⟨t, hvalid, hdrop, hnext, hloop⟩
  · exact ⟨[], by simp, List.drop_eq_nil_of_le hle, by simp, hcount⟩
  · -- the loop read a whole TLV, so it moved forward
    have hpos : pos < buf.length := by
      have := congrArg List.length hdrop
      simp only [List.length_drop, List.length_append, Tlv.length_encode] at this
      omega
    obtain ⟨ts, hts, hrest, rfl, hm⟩ := validateLoop_sound hloop hnext
    refine ⟨t :: ts, ?_, ?_, by simp only [List.length_cons]; omega, hm⟩
    · intro t' ht'
      rcases List.mem_cons.mp ht' with rfl | ht'
      · exact hvalid
      · exact hts t' ht'
    · rw [hdrop, hrest, List.flatMap_cons]
termination_by buf.length - pos
decreasing_by
  simp only [Tlv.length_encode]
  omega

/-! ## Pairs -/

namespace WireUserHeaderEntry

@[simp] theorem length_flatMap_tlvs (es : List WireUserHeaderEntry) :
    (es.flatMap tlvs).length = 2 * es.length := by
  induction es with
  | nil => rfl
  | cons e es ih =>
    simp only [List.flatMap_cons, List.length_append, ih, tlvs, List.length_cons, List.length_nil]
    omega

theorem Valid.key {e : WireUserHeaderEntry} (h : e.Valid) : Tlv.Valid ⟨e.keyKind, e.key⟩ :=
  h _ (by simp [tlvs])

theorem Valid.value {e : WireUserHeaderEntry} (h : e.Valid) : Tlv.Valid ⟨e.valueKind, e.value⟩ :=
  h _ (by simp [tlvs])

theorem forall_valid_iff {es : List WireUserHeaderEntry} :
    (∀ e ∈ es, e.Valid) ↔ ∀ t ∈ es.flatMap tlvs, t.Valid := by
  constructor
  · intro h t ht
    obtain ⟨e, he, hte⟩ := List.mem_flatMap.mp ht
    exact h e he t hte
  · intro h e he t hte
    exact h t (List.mem_flatMap.mpr ⟨e, he, hte⟩)

/-- An even run of TLVs pairs up, key then value. -/
theorem exists_of_even :
    ∀ ts : List Tlv, ts.length % 2 = 0 → ∃ es : List WireUserHeaderEntry, es.flatMap tlvs = ts
  | [], _ => ⟨[], rfl⟩
  | [_], h => by simp at h
  | k :: v :: ts, h => by
    obtain ⟨es, hes⟩ := exists_of_even ts (by simp only [List.length_cons] at h; omega)
    exact ⟨⟨k.kind, k.data, v.kind, v.data⟩ :: es, by simp [tlvs, hes]⟩

end WireUserHeaderEntry

theorem encodeUserHeaders_cons (e : WireUserHeaderEntry) (es : List WireUserHeaderEntry) :
    encodeUserHeaders (e :: es) =
      Tlv.encode ⟨e.keyKind, e.key⟩ ++ Tlv.encode ⟨e.valueKind, e.value⟩ ++ encodeUserHeaders es := by
  simp [encodeUserHeaders, Tlv.encode]

/-- The encoder writes the entries' TLVs one after the other. -/
theorem encodeUserHeaders_eq_flatMap (es : List WireUserHeaderEntry) :
    encodeUserHeaders es = (es.flatMap WireUserHeaderEntry.tlvs).flatMap Tlv.encode := by
  induction es with
  | nil => rfl
  | cons e es ih =>
    rw [encodeUserHeaders_cons, ih, List.flatMap_cons, List.flatMap_append]
    simp [WireUserHeaderEntry.tlvs]

theorem length_encodeUserHeaders (es : List WireUserHeaderEntry) :
    (encodeUserHeaders es).length = userHeadersEncodedSize es := by
  induction es with
  | nil => rfl
  | cons e es ih =>
    rw [encodeUserHeaders_cons, userHeadersEncodedSize, List.map_cons, List.sum_cons]
    simp only [List.length_append, Tlv.length_encode, ih, userHeadersEncodedSize]
    omega

/-! ## What the validator accepts -/

/-- A buffer the validator accepts is the encoding of well-formed pairs, as many as it
counted. -/
theorem validateUserHeaders_sound {buf : List UInt8} {pairs : Nat}
    (h : validateUserHeaders buf = .ok pairs) :
    ∃ entries : List WireUserHeaderEntry, (∀ e ∈ entries, e.Valid) ∧
      2 * entries.length < 2 ^ 32 ∧ buf = encodeUserHeaders entries ∧ pairs = entries.length := by
  unfold validateUserHeaders at h
  split at h
  · rename_i hempty
    cases h
    exact ⟨[], by simp, by decide, List.isEmpty_iff.mp hempty, rfl⟩
  · cases hloop : validateLoop buf 0 0 with
    | error e => simp [hloop, bind, Except.bind] at h
    | ok m =>
      simp only [hloop, bind, Except.bind, throw, throwThe, MonadExceptOf.throw] at h
      split_ifs at h with hodd
      simp only [pure, Except.pure, Except.ok.injEq] at h
      subst h
      obtain ⟨ts, hts, hdrop, rfl, hm⟩ := validateLoop_sound hloop (by decide)
      obtain ⟨es, rfl⟩ := WireUserHeaderEntry.exists_of_even ts (by simpa using hodd)
      rw [WireUserHeaderEntry.length_flatMap_tlvs] at hm ⊢
      refine ⟨es, WireUserHeaderEntry.forall_valid_iff.mpr hts, by omega, ?_, by omega⟩
      rw [encodeUserHeaders_eq_flatMap, ← hdrop, List.drop_zero]

/-- The validator accepts the encoding of well-formed pairs whose TLV count fits its `u32`. -/
theorem validateUserHeaders_encode {entries : List WireUserHeaderEntry}
    (hvalid : ∀ e ∈ entries, e.Valid) (hcount : 2 * entries.length < 2 ^ 32) :
    validateUserHeaders (encodeUserHeaders entries) = .ok entries.length := by
  unfold validateUserHeaders
  split
  · -- only no pairs encode to nothing
    rename_i hempty
    cases entries with
    | nil => rfl
    | cons e es => simp [encodeUserHeaders_cons, Tlv.encode] at hempty
  · have hbuf := suffixAt_zero (encodeUserHeaders entries)
    rw [encodeUserHeaders_eq_flatMap] at hbuf
    have hloop := @validateLoop_encode _ _ 0 0 hbuf (WireUserHeaderEntry.forall_valid_iff.mp hvalid)
      (by rw [WireUserHeaderEntry.length_flatMap_tlvs]; omega)
    rw [← encodeUserHeaders_eq_flatMap, WireUserHeaderEntry.length_flatMap_tlvs] at hloop
    simp only [hloop, bind, Except.bind]
    rw [if_neg (by omega)]
    simp only [pure, Except.pure, Except.ok.injEq]
    omega

theorem validate_user_headers_iff {buf : List UInt8} {pairs : Nat} :
    validateUserHeaders buf = .ok pairs ↔
      ∃ entries : List WireUserHeaderEntry, (∀ e ∈ entries, e.Valid) ∧
        2 * entries.length < 2 ^ 32 ∧ buf = encodeUserHeaders entries ∧ pairs = entries.length := by
  constructor
  · exact validateUserHeaders_sound
  · rintro ⟨entries, hvalid, hcount, rfl, rfl⟩
    exact validateUserHeaders_encode hvalid hcount

/-! ## The iterator reads the encoding back -/

section Iterate

variable {buf rest : List UInt8} {pos : Nat}

theorem indexOrPanic_of_suffixAt {b : UInt8} (h : SuffixAt buf pos (b :: rest)) :
    indexOrPanic buf pos = .ok b := by
  simp [indexOrPanic, h.getElem?_eq]

theorem sliceOrPanic_of_suffixAt {field : List UInt8} (h : SuffixAt buf pos (field ++ rest)) :
    sliceOrPanic buf pos (pos + field.length) = .ok field := by
  have hend := h.length_eq
  simp only [List.length_append] at hend
  rw [sliceOrPanic, if_pos (by omega), h.window]

/-- What the iterator reads of one TLV whose data fit a `u32` length: its kind, a length field
holding the data's length, and its data. -/
theorem read_tlv {t : Tlv} (h : SuffixAt buf pos (t.encode ++ rest)) (hlen : t.data.length < 2 ^ 32) :
    indexOrPanic buf pos = .ok t.kind ∧
      (∃ field, sliceOrPanic buf (pos + 1) (pos + 5) = .ok field ∧ ofLeBytes field = t.data.length) ∧
      sliceOrPanic buf (pos + 5) (pos + 5 + t.data.length) = .ok t.data := by
  have hcons : SuffixAt buf pos (t.kind :: (putU32Le (UInt32.ofNat t.data.length) ++ (t.data ++ rest))) := by
    simpa only [Tlv.encode, List.cons_append, List.append_assoc] using h
  have hfield := sliceOrPanic_of_suffixAt hcons.skip_cons
  have hdata := sliceOrPanic_of_suffixAt hcons.skip_cons.skip
  rw [length_putU32Le, show pos + 1 + 4 = pos + 5 by omega] at hfield hdata
  refine ⟨indexOrPanic_of_suffixAt hcons, ⟨_, hfield, ?_⟩, hdata⟩
  rw [putU32Le, UInt32.toNat_ofNat_of_lt' hlen, ofLeBytes_leBytes_of_lt (by simpa using hlen)]

/-- `next` at the encoding of a pair returns the pair and moves past it. -/
theorem nextEntry_of_suffixAt {e : WireUserHeaderEntry} {es : List WireUserHeaderEntry}
    (h : SuffixAt buf pos (encodeUserHeaders (e :: es))) (hvalid : e.Valid) :
    nextEntry buf pos = .ok (some (e, pos + 10 + e.key.length + e.value.length)) := by
  rw [encodeUserHeaders_cons, List.append_assoc] at h
  obtain ⟨hk1, ⟨kf, hk2, hkf⟩, hk3⟩ := read_tlv h hvalid.key.length_lt
  obtain ⟨hv1, ⟨vf, hv2, hvf⟩, hv3⟩ := read_tlv h.skip hvalid.value.length_lt
  have hin : pos < buf.length := by
    have := h.length_eq
    simp only [List.length_append, Tlv.length_encode] at this
    omega
  simp only [Tlv.length_encode] at hv1 hv2 hv3
  dsimp only at hk3 hkf hv1 hv2 hv3 hvf
  -- the value's TLV starts `5 + key.length` bytes in
  rw [show pos + (5 + e.key.length) = pos + 5 + e.key.length by omega] at hv1 hv2 hv3
  rw [nextEntry, if_neg (by omega)]
  simp only [hk1, hk2, hkf, hk3, hv1, hv2, hvf, hv3, bind, Except.bind, pure, Except.pure]
  congr 3
  omega

theorem collectEntries_of_le (h : buf.length ≤ pos) : collectEntries buf pos = .ok [] := by
  have hnext : nextEntry buf pos = .ok none := by rw [nextEntry, if_pos h]
  rw [collectEntries]
  split <;> rename_i heq <;> rw [hnext] at heq <;> cases heq

theorem collectEntries_of_nextEntry {e : WireUserHeaderEntry} {pos' : Nat}
    (h : nextEntry buf pos = .ok (some (e, pos'))) :
    collectEntries buf pos = (e :: ·) <$> collectEntries buf pos' := by
  rw [collectEntries]
  split <;> rename_i heq <;> rw [h] at heq <;> cases heq
  rfl

/-- The iterator over the encoding of well-formed pairs returns those pairs, in order, without
panicking. -/
theorem collectEntries_encode (es : List WireUserHeaderEntry) :
    ∀ {pos : Nat}, SuffixAt buf pos (encodeUserHeaders es) → (∀ e ∈ es, e.Valid) →
      collectEntries buf pos = .ok es := by
  induction es with
  | nil =>
    intro pos h _
    have hend := h.length_eq
    simp only [encodeUserHeaders, List.flatMap_nil, List.length_nil] at hend
    exact collectEntries_of_le (by omega)
  | cons e es ih =>
    intro pos h hvalid
    have hhead := hvalid e (by simp)
    -- the rest of the buffer starts after the pair's two TLVs
    have hrest : SuffixAt buf (pos + 10 + e.key.length + e.value.length) (encodeUserHeaders es) := by
      have hskip := (show SuffixAt buf pos (Tlv.encode ⟨e.keyKind, e.key⟩ ++
          (Tlv.encode ⟨e.valueKind, e.value⟩ ++ encodeUserHeaders es)) by
        rwa [encodeUserHeaders_cons, List.append_assoc] at h).skip.skip
      simp only [Tlv.length_encode] at hskip
      rwa [show pos + (5 + e.key.length) + (5 + e.value.length) =
        pos + 10 + e.key.length + e.value.length by omega] at hskip
    rw [collectEntries_of_nextEntry (nextEntry_of_suffixAt h hhead),
      ih hrest (fun e' he' => hvalid e' (by simp [he']))]
    rfl

end Iterate

end IggyCore.Wire

namespace IggyCore.Wire

open IggyCore.Library

/-! ## Validated headers -/

namespace WireUserHeaders

/-- Iterating headers that were validated never panics: it yields well-formed pairs that
encode back to the buffer, as many as the validator counted. -/
theorem entries_of_validated (w : WireUserHeaders) :
    ∃ es, w.entries = .ok es ∧ (∀ e ∈ es, e.Valid) ∧ encodeUserHeaders es = w.bytes ∧
      validateUserHeaders w.bytes = .ok es.length := by
  obtain ⟨pairs, hpairs⟩ := w.valid
  obtain ⟨es, hvalid, _, hbytes, rfl⟩ := validateUserHeaders_sound hpairs
  have hsuffix : SuffixAt w.bytes 0 (encodeUserHeaders es) := hbytes ▸ suffixAt_zero w.bytes
  exact ⟨es, collectEntries_encode es hsuffix hvalid, hvalid, hbytes.symm, hpairs⟩

/-- Encoding well-formed pairs, building headers from the bytes and iterating them gives the
pairs back. -/
theorem from_slice_encode {es : List WireUserHeaderEntry} (hvalid : ∀ e ∈ es, e.Valid)
    (hcount : 2 * es.length < 2 ^ 32) :
    ∃ w, fromSlice (encodeUserHeaders es) = .ok w ∧ w.bytes = encodeUserHeaders es ∧
      w.entries = .ok es := by
  have hok := validateUserHeaders_encode hvalid hcount
  refine ⟨⟨encodeUserHeaders es, _, hok⟩, ?_, rfl, collectEntries_encode es (suffixAt_zero _) hvalid⟩
  unfold fromSlice
  split <;> rename_i heq
  · rfl
  · rw [hok] at heq
    cases heq

theorem from_slice_encode_pair :
    (∀ e ∈ [WireUserHeaderEntry.mk 1 [107] 2 [118]], e.Valid) ∧ 2 * 1 < 2 ^ 32 ∧
      ∃ w, fromSlice (encodeUserHeaders [⟨1, [107], 2, [118]⟩]) = .ok w ∧
        w.bytes = encodeUserHeaders [⟨1, [107], 2, [118]⟩] ∧ w.entries = .ok [⟨1, [107], 2, [118]⟩] :=
  ⟨by decide, by decide, from_slice_encode (by decide) (by decide)⟩

end WireUserHeaders

end IggyCore.Wire
