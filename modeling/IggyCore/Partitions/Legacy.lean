import IggyCore.Partitions.Batch
import IggyCore.Wire.SendMessages
import IggyCore.Wire.Namespace

/-!
# Converting a legacy `SendMessages` body

`SendMessages2Owned::from_legacy_request` of `core/server_common/src/send_messages2.rs`
rebuilds a native batch from the body `SendMessagesEncoder::encode` writes. It skips the
metadata block and the index array by arithmetic (`legacy_messages_slice`), walks the messages
with a cursor (`LegacyMessageRef::decode`), takes the smallest origin timestamp as the batch's,
and writes each message again behind a 48-byte header, its user headers before its payload.

The loop's starting minimum is `u64::MAX`, which the converter also reads as "no message": a
body whose messages all carry the origin timestamp `u64::MAX` gets the batch origin timestamp
0, and the first message's delta then exceeds the `u32` bound
(`legacy_max_timestamp_rejected`).
-/

namespace IggyCore.Partitions

open IggyCore.Library IggyCore.Wire

/-- `LEGACY_MESSAGE_HEADER_SIZE`, `INDEX_SIZE`, `MAX_TIMESTAMP_DELTA_MICROS` and `u64::MAX`. -/
def legacyMessageHeaderSize : Nat := 64
def indexSize : Nat := 16
def maxTimestampDeltaMicros : Nat := 2 ^ 32 - 1
def u64Max : Nat := 2 ^ 64 - 1

/-- `SendMessages2Header::new`: base offset, base timestamp and checksum zero. -/
def SendMessages2Header.new (partitionId originTimestamp batchLength : UInt64)
    (messageCount : UInt32) : SendMessages2Header :=
  ⟨partitionId, 0, 0, originTimestamp, batchLength, 0, messageCount⟩

/-! ## Reading the legacy body -/

/-- `legacy_messages_slice`: the message count at the end of the metadata block, and the bytes
after the index array. The checked additions cannot overflow a 64-bit `usize` here: both
operands are below `2 ^ 37`. -/
def legacyMessagesSlice (body : List UInt8) : Except IggyError (Nat × List UInt8) := do
  if body.length < 4 then throw .invalidCommand
  let metadataLength ← readLe body 0 4
  let metadataEnd := 4 + metadataLength
  if body.length < metadataEnd then throw .invalidCommand
  let messageCount ← readLe body (metadataEnd - 4) 4
  let messagesStart := metadataEnd + messageCount * indexSize
  if body.length < messagesStart then throw .invalidCommand
  pure (messageCount, body.drop messagesStart)

/-- `LegacyMessageRef`; the origin timestamp is the `u64` read, as a number. -/
structure LegacyMessageRef where
  id : Nat
  originTimestamp : Nat
  userHeaders : List UInt8
  payload : List UInt8
  totalSize : Nat
  deriving DecidableEq, Repr

/-- `LegacyMessageRef::decode`: the 64-byte header, then the payload, then the user headers. -/
def LegacyMessageRef.decode (bytes : List UInt8) : Except IggyError LegacyMessageRef := do
  if bytes.length < legacyMessageHeaderSize then throw .invalidCommand
  let userHeadersLength ← readLe bytes 48 4
  let payloadLength ← readLe bytes 52 4
  let totalSize := legacyMessageHeaderSize + payloadLength + userHeadersLength
  if bytes.length < totalSize then throw .invalidCommand
  let payloadEnd := legacyMessageHeaderSize + payloadLength
  pure
    { id := ← readLe bytes 8 16
      originTimestamp := ← readLe bytes 40 8
      userHeaders := (bytes.drop payloadEnd).take userHeadersLength
      payload := (bytes.drop legacyMessageHeaderSize).take payloadLength
      totalSize }

/-- The first loop of `from_legacy_request`: decode at the cursor while bytes and the announced
count remain, keeping the smallest origin timestamp. It runs at most `messageCount` times. -/
def parseLegacyMessages (messageCount : Nat) (messages : List UInt8)
    (parsed : List LegacyMessageRef) (originTimestamp cursor : Nat) :
    Except IggyError (List LegacyMessageRef × Nat × Nat) :=
  if _h : cursor < messages.length ∧ parsed.length < messageCount then do
    let legacy ← LegacyMessageRef.decode (messages.drop cursor)
    parseLegacyMessages messageCount messages (parsed ++ [legacy])
      (min originTimestamp legacy.originTimestamp) (cursor + legacy.totalSize)
  else pure (parsed, originTimestamp, cursor)
termination_by messageCount - parsed.length
decreasing_by
  simp only [List.length_append, List.length_singleton]
  omega

/-! ## Writing the native batch -/

/-- The id the second loop gives the message at `index`: its own, or `uuid index`, the id
`random_id::get_uuid` draws for it when its own is zero. -/
def legacyId (uuid : Nat → BitVec 128) (index : Nat) (legacy : LegacyMessageRef) : Nat :=
  if legacy.id = 0 then (uuid index).toNat else legacy.id

/-- The 48-byte header the second loop writes: the fields from byte 8 on, and the checksum
`calculate_checksum_parts` takes over them, the user headers and the payload. -/
def legacyMessageHeader (hash : List UInt8 → UInt64) (id index timestampDelta : Nat)
    (legacy : LegacyMessageRef) : MessageHeader :=
  let header : MessageHeader := ⟨0, id, UInt32.ofNat index, UInt32.ofNat timestampDelta,
    UInt32.ofNat legacy.userHeaders.length, UInt32.ofNat legacy.payload.length⟩
  { header with checksum := hash (header.encode.drop 8 ++ legacy.userHeaders ++ legacy.payload) }

/-- One pass of the second loop: its checks on the message at `index`, then its header. -/
def convertLegacyMessage (hash : List UInt8 → UInt64) (uuid : Nat → BitVec 128)
    (originTimestamp index : Nat) (legacy : LegacyMessageRef) : Except IggyError MessageHeader := do
  let id := legacyId uuid index legacy
  if 2 ^ 32 ≤ index then throw .invalidCommand
  -- `checked_sub`
  if legacy.originTimestamp < originTimestamp then throw .invalidCommand
  let timestampDelta := legacy.originTimestamp - originTimestamp
  if maxTimestampDeltaMicros < timestampDelta then
    throw (.invalidMessageTimestampDelta timestampDelta)
  if 2 ^ 32 ≤ legacy.userHeaders.length then throw .invalidCommand
  if 2 ^ 32 ≤ legacy.payload.length then throw .invalidCommand
  pure (legacyMessageHeader hash id index timestampDelta legacy)

/-- The second loop: each message's header, user headers and payload, from `index` on. -/
def convertLegacyMessages (hash : List UInt8 → UInt64) (uuid : Nat → BitVec 128)
    (originTimestamp : Nat) : Nat → List LegacyMessageRef → Except IggyError (List UInt8)
  | _, [] => pure []
  | index, legacy :: parsed => do
    let header ← convertLegacyMessage hash uuid originTimestamp index legacy
    let blob ← convertLegacyMessages hash uuid originTimestamp (index + 1) parsed
    pure (header.encode ++ legacy.userHeaders ++ legacy.payload ++ blob)

/-- `from_legacy_request`. -/
def fromLegacyRequest (hash : List UInt8 → UInt64) (uuid : Nat → BitVec 128) (ns : IggyNamespace)
    (body : List UInt8) : Except IggyError BatchRef := do
  let (messageCount, messages) ← legacyMessagesSlice body
  let (parsed, originTimestamp, cursor) ← parseLegacyMessages messageCount messages [] u64Max 0
  if parsed.length ≠ messageCount ∨ cursor ≠ messages.length then throw .invalidCommand
  let originTimestamp := if originTimestamp = u64Max then 0 else originTimestamp
  let blob ← convertLegacyMessages hash uuid originTimestamp 0 parsed
  -- `u64::try_from(COMMAND_HEADER_SIZE + blob.len())`
  if 2 ^ 64 ≤ commandHeaderSize + blob.length then throw .invalidCommand
  let header := SendMessages2Header.new (UInt64.ofNat ns.partitionId) (UInt64.ofNat originTimestamp)
    (UInt64.ofNat (commandHeaderSize + blob.length)) (UInt32.ofNat messageCount)
  pure ⟨{ header with batchChecksum := calculateBatchChecksum hash header blob }, blob⟩

/-! ## Reading back what the encoder wrote -/

/-- What `LegacyMessageRef::decode` reads back from the bytes `encode` wrote for `m`. -/
def toLegacyRef (m : RawMessage) : LegacyMessageRef :=
  ⟨m.id.toNat, m.originTimestamp.toNat, m.headers.getD [], m.payload, m.wireSize⟩

theorem legacyMessagesSlice_encode {streamId topicId : WireIdentifier}
    {partitioning : WirePartitioning} {messages : List RawMessage} (hp : partitioning.Valid)
    (hcount : messages.length < 2 ^ 32) :
    legacyMessagesSlice (SendMessagesEncoder.encode streamId topicId partitioning messages) =
      .ok (messages.length, messages.flatMap RawMessage.encodeData) := by
  set metadata := streamId.encode ++ topicId.encode ++ partitioning.encode with hmetadata
  have hinner : SendMessagesEncoder.metadataInner streamId topicId partitioning =
      metadata.length + 4 := by
    simp only [hmetadata, SendMessagesEncoder.metadataInner, List.length_append,
      WireIdentifier.length_encode, WirePartitioning.length_encode]
  have hlt := @SendMessagesEncoder.metadataInner_lt streamId topicId partitioning hp
  -- the metadata length, the metadata, the count, the index array, the messages
  have h0 : SuffixAt (SendMessagesEncoder.encode streamId topicId partitioning messages) 0
      (leBytes 4 (metadata.length + 4) ++ (metadata ++ (leBytes 4 messages.length ++
        (SendMessagesEncoder.encodeIndexes 0 messages ++
          messages.flatMap RawMessage.encodeData)))) := by
    have hbody : SendMessagesEncoder.encode streamId topicId partitioning messages =
        leBytes 4 (metadata.length + 4) ++ (metadata ++ (leBytes 4 messages.length ++
          (SendMessagesEncoder.encodeIndexes 0 messages ++
            messages.flatMap RawMessage.encodeData))) := by
      rw [SendMessagesEncoder.encode, ← hinner]
      simp only [putU32Le, UInt32.toNat_ofNat_of_lt' hlt, UInt32.toNat_ofNat_of_lt' hcount,
        hmetadata, List.append_assoc]
    rw [hbody]
    exact suffixAt_zero _
  have h1 := h0.skip
  have h2 := h1.skip
  have h3 := h2.skip
  have h4 := h3.skip
  simp only [length_leBytes, Nat.zero_add, SendMessagesEncoder.length_encodeIndexes] at h1 h2 h3 h4
  have hmetaLen : readLe (SendMessagesEncoder.encode streamId topicId partitioning messages) 0 4 =
      .ok (metadata.length + 4) := readLe_of_suffixAt (by rw [hinner] at hlt; simpa using hlt) h0
  have hcountRead : readLe (SendMessagesEncoder.encode streamId topicId partitioning messages)
      (4 + (metadata.length + 4) - 4) 4 = .ok messages.length := by
    rw [show 4 + (metadata.length + 4) - 4 = 4 + metadata.length by omega]
    exact readLe_of_suffixAt (by simpa using hcount) h2
  have hlen := h4.length_eq
  have hdrop := h4.drop_eq
  simp only [legacyMessagesSlice, hmetaLen, hcountRead, bind, Except.bind, pure, Except.pure]
  rw [show 4 + (metadata.length + 4) + messages.length * indexSize =
    4 + metadata.length + 4 + messages.length * wireMessageIndexSize by
      simp only [indexSize, wireMessageIndexSize]; omega, hdrop]
  simp only [← hlen]
  split_ifs <;> first | omega | rfl

theorem decode_encodeData {m : RawMessage} (hm : m.Fits) (rest : List UInt8) :
    LegacyMessageRef.decode (m.encodeData ++ rest) = .ok (toLegacyRef m) := by
  -- the header's fields at their offsets, then the payload, then the user headers
  have h0 : SuffixAt (m.encodeData ++ rest) 0 (leBytes 8 0 ++ (leBytes 16 m.id.toNat ++
      (leBytes 8 0 ++ (leBytes 8 0 ++ (leBytes 8 m.originTimestamp.toNat ++
      (leBytes 4 m.headersLen ++ (leBytes 4 m.payload.length ++ (leBytes 8 0 ++
      (m.payload ++ (m.headers.getD [] ++ rest)))))))))) := by
    have hbuf : m.encodeData ++ rest = leBytes 8 0 ++ (leBytes 16 m.id.toNat ++
        (leBytes 8 0 ++ (leBytes 8 0 ++ (leBytes 8 m.originTimestamp.toNat ++
        (leBytes 4 m.headersLen ++ (leBytes 4 m.payload.length ++ (leBytes 8 0 ++
        (m.payload ++ (m.headers.getD [] ++ rest))))))))) := by
      simp only [RawMessage.encodeData, RawMessage.encodeHeader, putU64Le, putU32Le,
        UInt32.toNat_ofNat_of_lt' hm.headersLen_lt, UInt32.toNat_ofNat_of_lt' hm.payload_lt,
        UInt64.toNat_zero, List.append_assoc]
    rw [hbuf]
    exact suffixAt_zero _
  have h1 := h0.skip
  have h2 := h1.skip
  have h3 := h2.skip
  have h4 := h3.skip
  have h5 := h4.skip
  have h6 := h5.skip
  have h7 := h6.skip
  have h8 := h7.skip
  have h9 := h8.skip
  simp only [length_leBytes, Nat.zero_add, Nat.reduceAdd] at h1 h2 h3 h4 h5 h6 h7 h8 h9
  have hid : m.id.toNat < 256 ^ 16 := by
    have := m.id.isLt
    norm_num at this ⊢
    exact this
  have hlen : (m.encodeData ++ rest).length = 64 + m.payload.length + m.headersLen + rest.length := by
    simp only [List.length_append, RawMessage.length_encodeData, RawMessage.wireSize,
      wireMessageHeaderSize]
  have hshort : ¬(m.encodeData ++ rest).length < 64 := by omega
  have hfits : ¬(m.encodeData ++ rest).length < 64 + m.payload.length + m.headersLen := by omega
  simp only [LegacyMessageRef.decode, hshort, hfits, if_false,
    readLe_of_suffixAt (by simpa using hm.headersLen_lt) h5,
    readLe_of_suffixAt (by simpa using hm.payload_lt) h6, readLe_of_suffixAt hid h1,
    readLe_of_suffixAt m.originTimestamp.toNat_lt h4, legacyMessageHeaderSize, h8.drop_eq,
    h9.drop_eq, bind, Except.bind, pure, Except.pure, toLegacyRef, RawMessage.wireSize,
    wireMessageHeaderSize]
  simp

/-- **The parse loop over an encoded body.** From a cursor at the start of the encoded
messages, with as many left to announce as there are messages, the loop decodes each of them
once, in order, folds their origin timestamps into the minimum, and stops exactly at the end. -/
theorem parseLegacyMessages_encode {messageCount : Nat} :
    ∀ (messages : List RawMessage) (pre : List UInt8) (parsed : List LegacyMessageRef)
      (originTimestamp : Nat), (∀ m ∈ messages, m.Fits) →
      parsed.length + messages.length = messageCount →
      parseLegacyMessages messageCount (pre ++ messages.flatMap RawMessage.encodeData) parsed
          originTimestamp pre.length =
        .ok (parsed ++ messages.map toLegacyRef,
          messages.foldl (fun t m => min t m.originTimestamp.toNat) originTimestamp,
          pre.length + (messages.flatMap RawMessage.encodeData).length) := by
  intro messages
  induction messages with
  | nil =>
    intro pre parsed originTimestamp _ _
    rw [parseLegacyMessages, dif_neg (by simp)]
    simp [pure, Except.pure]
  | cons m messages ih =>
    intro pre parsed originTimestamp hfit hcount
    have hm := hfit m List.mem_cons_self
    have hcont : pre.length < (pre ++ (m :: messages).flatMap RawMessage.encodeData).length ∧
        parsed.length < messageCount := by
      simp only [List.flatMap_cons, List.length_append, RawMessage.length_encodeData,
        RawMessage.wireSize, wireMessageHeaderSize, List.length_cons] at hcount ⊢
      omega
    have hdecode : LegacyMessageRef.decode
        ((pre ++ (m :: messages).flatMap RawMessage.encodeData).drop pre.length) =
        .ok (toLegacyRef m) := by
      simp only [List.flatMap_cons, List.drop_left]
      exact decode_encodeData hm _
    -- the next pass starts after `m`'s bytes
    have hnext := ih (pre ++ m.encodeData) (parsed ++ [toLegacyRef m])
      (min originTimestamp m.originTimestamp.toNat) (fun m' hm' => hfit m' (List.mem_cons_of_mem _ hm'))
      (by simp only [List.length_append, List.length_cons, List.length_nil] at hcount ⊢; omega)
    rw [parseLegacyMessages, dif_pos hcont]
    simp only [hdecode, bind, Except.bind]
    have hcursor : pre.length + (toLegacyRef m).totalSize = (pre ++ m.encodeData).length := by
      simp [toLegacyRef]
    have hts : (toLegacyRef m).originTimestamp = m.originTimestamp.toNat := rfl
    rw [hcursor, hts, List.flatMap_cons, ← List.append_assoc, hnext]
    simp [List.append_assoc]
    omega

/-! ## Origin timestamps of `u64::MAX` -/

/-- While every timestamp is `u64::MAX`, the minimum does not move from it. -/
theorem foldl_min_of_forall_eq_u64Max :
    ∀ (messages : List RawMessage), (∀ m ∈ messages, m.originTimestamp.toNat = u64Max) →
      messages.foldl (fun t m => min t m.originTimestamp.toNat) u64Max = u64Max := by
  intro messages
  induction messages with
  | nil => intro _; rfl
  | cons m messages ih =>
    intro hmax
    rw [List.foldl_cons, hmax m List.mem_cons_self, Nat.min_self]
    exact ih fun m' hm' => hmax m' (List.mem_cons_of_mem _ hm')

/-- A message whose delta exceeds the bound stops the second loop with that delta. -/
theorem convertLegacyMessages_delta_gt {hash : List UInt8 → UInt64} {uuid : Nat → BitVec 128}
    {originTimestamp index : Nat} {legacy : LegacyMessageRef} (parsed : List LegacyMessageRef)
    (hindex : index < 2 ^ 32) (hle : originTimestamp ≤ legacy.originTimestamp)
    (hgt : maxTimestampDeltaMicros < legacy.originTimestamp - originTimestamp) :
    convertLegacyMessages hash uuid originTimestamp index (legacy :: parsed) =
      .error (.invalidMessageTimestampDelta (legacy.originTimestamp - originTimestamp)) := by
  have hconv : convertLegacyMessage hash uuid originTimestamp index legacy =
      .error (.invalidMessageTimestampDelta (legacy.originTimestamp - originTimestamp)) := by
    simp only [convertLegacyMessage, Nat.not_le.mpr hindex, Nat.not_lt.mpr hle, hgt, if_true,
      if_false]
    rfl
  simp only [convertLegacyMessages, hconv, bind, Except.bind]

/-- **Origin timestamps of `u64::MAX` are refused.** Whatever the stream, topic and
partitioning, a body of one message or more that all carry the origin timestamp `u64::MAX` is
refused with the timestamp delta `u64::MAX`: the loop's minimum stays at its starting value
`u64::MAX`, which the converter takes for "no message" and replaces with 0. -/
theorem legacy_max_timestamp_rejected (hash : List UInt8 → UInt64) (uuid : Nat → BitVec 128)
    (ns : IggyNamespace) (streamId topicId : WireIdentifier) (partitioning : WirePartitioning)
    (messages : List RawMessage) (hp : partitioning.Valid) (hfit : ∀ m ∈ messages, m.Fits)
    (hcount : messages.length < 2 ^ 32) (hne : messages ≠ [])
    (hmax : ∀ m ∈ messages, m.originTimestamp.toNat = u64Max) :
    fromLegacyRequest hash uuid ns
        (SendMessagesEncoder.encode streamId topicId partitioning messages) =
      .error (.invalidMessageTimestampDelta u64Max) := by
  obtain ⟨m, rest, rfl⟩ := List.exists_cons_of_ne_nil hne
  have hparse := @parseLegacyMessages_encode (m :: rest).length (m :: rest) [] [] u64Max hfit
    (by simp)
  rw [foldl_min_of_forall_eq_u64Max _ hmax] at hparse
  simp only [List.nil_append, List.length_nil, Nat.zero_add] at hparse
  -- the minimum is `u64::MAX`, so the origin becomes 0 and the first delta is `u64::MAX`
  have hts : (toLegacyRef m).originTimestamp = u64Max := hmax m List.mem_cons_self
  have hconv := @convertLegacyMessages_delta_gt hash uuid 0 0 (toLegacyRef m)
    (rest.map toLegacyRef) (by norm_num) (Nat.zero_le _)
    (by rw [hts]; simp [u64Max, maxTimestampDeltaMicros])
  rw [hts, Nat.sub_zero] at hconv
  simp only [fromLegacyRequest, legacyMessagesSlice_encode hp hcount, hparse, bind, Except.bind]
  simp [hconv]

/-- One message with no payload and no user headers, stamped at `u64::MAX`. -/
def maxTimestampMessage : RawMessage := ⟨1, 0xFFFFFFFFFFFFFFFF, none, []⟩

theorem legacy_max_timestamp_rejected_one_message :
    fromLegacyRequest (fun _ => 0) (fun _ => 0) ⟨0⟩
        (SendMessagesEncoder.encode (.numeric 1) (.numeric 2) .balanced [maxTimestampMessage]) =
      .error (.invalidMessageTimestampDelta u64Max) :=
  legacy_max_timestamp_rejected _ _ _ _ _ _ _ trivial (by decide) (by decide) (by simp)
    (by decide)

/-! ## The batch the converter writes -/

/-- What the second loop writes for each message from `index` on when none of its checks
fails: the header it builds, the user headers and the payload. -/
def legacyMessages (hash : List UInt8 → UInt64) (uuid : Nat → BitVec 128)
    (originTimestamp : Nat) : Nat → List LegacyMessageRef →
      List (MessageHeader × List UInt8 × List UInt8)
  | _, [] => []
  | index, legacy :: parsed =>
    (legacyMessageHeader hash (legacyId uuid index legacy) index
        (legacy.originTimestamp - originTimestamp) legacy, legacy.userHeaders, legacy.payload) ::
      legacyMessages hash uuid originTimestamp (index + 1) parsed

section Convert

variable {hash : List UInt8 → UInt64} {uuid : Nat → BitVec 128} {originTimestamp : Nat}

/-- A message the second loop accepts: after the origin, within the delta bound, and with
lengths that fit their `u32` fields. -/
def Convertible (originTimestamp : Nat) (legacy : LegacyMessageRef) : Prop :=
  originTimestamp ≤ legacy.originTimestamp ∧
    legacy.originTimestamp - originTimestamp ≤ maxTimestampDeltaMicros ∧
    legacy.userHeaders.length < 2 ^ 32 ∧ legacy.payload.length < 2 ^ 32

theorem convertLegacyMessages_ok :
    ∀ (parsed : List LegacyMessageRef) (index : Nat), index + parsed.length ≤ 2 ^ 32 →
      (∀ legacy ∈ parsed, Convertible originTimestamp legacy) →
      convertLegacyMessages hash uuid originTimestamp index parsed =
        .ok (encodeMessages (legacyMessages hash uuid originTimestamp index parsed)) := by
  intro parsed
  induction parsed with
  | nil => intro _ _ _; rfl
  | cons legacy parsed ih =>
    intro index hindex hconv
    obtain ⟨hle, hdelta, hheaders, hpayload⟩ := hconv legacy List.mem_cons_self
    have hlt : ¬2 ^ 32 ≤ index := by
      simp only [List.length_cons] at hindex
      omega
    have hone : convertLegacyMessage hash uuid originTimestamp index legacy =
        .ok (legacyMessageHeader hash (legacyId uuid index legacy) index
          (legacy.originTimestamp - originTimestamp) legacy) := by
      simp only [convertLegacyMessage, hlt, Nat.not_lt.mpr hle, Nat.not_lt.mpr hdelta,
        Nat.not_le.mpr hheaders, Nat.not_le.mpr hpayload, if_false]
      rfl
    have hrest := ih (index + 1) (by simp only [List.length_cons] at hindex; omega)
      (fun l hl => hconv l (List.mem_cons_of_mem _ hl))
    simp only [convertLegacyMessages, hone, hrest, bind, Except.bind, pure, Except.pure,
      legacyMessages, encodeMessages, List.flatMap_cons, List.append_assoc]

@[simp] theorem length_legacyMessages :
    ∀ (parsed : List LegacyMessageRef) (index : Nat),
      (legacyMessages hash uuid originTimestamp index parsed).length = parsed.length := by
  intro parsed
  induction parsed with
  | nil => intro _; rfl
  | cons legacy parsed ih => intro index; simp [legacyMessages, ih]

theorem getElem?_legacyMessages :
    ∀ (parsed : List LegacyMessageRef) (index i : Nat),
      (legacyMessages hash uuid originTimestamp index parsed)[i]? = parsed[i]?.map fun legacy =>
        (legacyMessageHeader hash (legacyId uuid (index + i) legacy) (index + i)
          (legacy.originTimestamp - originTimestamp) legacy, legacy.userHeaders, legacy.payload) := by
  intro parsed
  induction parsed with
  | nil => intro _ _; rfl
  | cons legacy parsed ih =>
    intro index i
    cases i with
    | zero => rfl
    | succ i =>
      simp only [legacyMessages, List.getElem?_cons_succ, ih]
      rw [show index + 1 + i = index + (i + 1) by omega]

/-- Each message the loop writes is shorter than the encoder's by the 16 bytes the longer
legacy header takes. -/
theorem length_encodeMessages_legacyMessages :
    ∀ (messages : List RawMessage) (index : Nat),
      (encodeMessages (legacyMessages hash uuid originTimestamp index
          (messages.map toLegacyRef))).length + 16 * messages.length =
        (messages.map RawMessage.wireSize).sum := by
  intro messages
  induction messages with
  | nil => intro _; rfl
  | cons m messages ih =>
    intro index
    have hrest := ih (index + 1)
    have hheader : (legacyMessageHeader hash (legacyId uuid index (toLegacyRef m)) index
        ((toLegacyRef m).originTimestamp - originTimestamp) (toLegacyRef m)).encode.length = 48 := by
      simp [legacyMessageHeader, MessageHeader.encode]
    simp only [List.map_cons, legacyMessages, encodeMessages, List.flatMap_cons,
      List.length_append, List.sum_cons, List.length_cons] at hrest ⊢
    rw [hheader]
    simp only [toLegacyRef, RawMessage.length_headers_getD, RawMessage.wireSize,
      wireMessageHeaderSize]
    omega

/-- The header the loop builds holds what it was given; its checksum covers its bytes from 8
on, whatever the checksum. -/
theorem legacyMessageHeader_spec {id index timestampDelta : Nat} {legacy : LegacyMessageRef}
    (hindex : index < 2 ^ 32) (hdelta : timestampDelta < 2 ^ 32)
    (hheaders : legacy.userHeaders.length < 2 ^ 32) (hpayload : legacy.payload.length < 2 ^ 32) :
    let h := legacyMessageHeader hash id index timestampDelta legacy
    h.id = id ∧ h.offsetDelta.toNat = index ∧ h.timestampDelta.toNat = timestampDelta ∧
      h.userHeadersLength.toNat = legacy.userHeaders.length ∧
      h.payloadLength.toNat = legacy.payload.length ∧
      h.checksum = hash (h.encode.drop 8 ++ legacy.userHeaders ++ legacy.payload) := by
  simp [legacyMessageHeader, MessageHeader.encode, UInt32.toNat_ofNat_of_lt' hindex,
    UInt32.toNat_ofNat_of_lt' hdelta, UInt32.toNat_ofNat_of_lt' hheaders,
    UInt32.toNat_ofNat_of_lt' hpayload]

end Convert

/-- Every message the loop accepts is written well formed. -/
theorem legacyMessages_wellFormed {hash : List UInt8 → UInt64} {uuid : Nat → BitVec 128}
    {originTimestamp : Nat} :
    ∀ (parsed : List LegacyMessageRef) (index : Nat), index + parsed.length ≤ 2 ^ 32 →
      (∀ legacy ∈ parsed, Convertible originTimestamp legacy ∧ legacy.id < 2 ^ 128) →
      ∀ m ∈ legacyMessages hash uuid originTimestamp index parsed, WellFormedMessage m := by
  intro parsed
  induction parsed with
  | nil => intro _ _ _ m hm; simp [legacyMessages] at hm
  | cons legacy parsed ih =>
    intro index hindex hparsed m hm
    obtain ⟨⟨hle, hdelta, hheaders, hpayload⟩, hid⟩ := hparsed legacy List.mem_cons_self
    simp only [legacyMessages, List.mem_cons] at hm
    rcases hm with rfl | hm
    · obtain ⟨hidEq, -, -, hheadersEq, hpayloadEq, -⟩ :=
        @legacyMessageHeader_spec hash (legacyId uuid index legacy) index
          (legacy.originTimestamp - originTimestamp) legacy
          (by simp only [List.length_cons] at hindex; omega)
          (by simp only [maxTimestampDeltaMicros] at hdelta; omega) hheaders hpayload
      refine ⟨?_, hheadersEq, hpayloadEq⟩
      rw [hidEq, legacyId]
      split
      · exact (uuid index).isLt
      · exact hid
    · exact ih (index + 1) (by simp only [List.length_cons] at hindex; omega)
        (fun l hl => hparsed l (List.mem_cons_of_mem _ hl)) m hm

/-- The loop's running minimum is at most its start and every timestamp folded in, and it is
one of them. -/
theorem foldl_min_spec :
    ∀ (messages : List RawMessage) (start : Nat),
      messages.foldl (fun t m => min t m.originTimestamp.toNat) start ≤ start ∧
      (∀ m ∈ messages,
        messages.foldl (fun t m => min t m.originTimestamp.toNat) start ≤ m.originTimestamp.toNat) ∧
      (messages.foldl (fun t m => min t m.originTimestamp.toNat) start = start ∨
        ∃ m ∈ messages,
          messages.foldl (fun t m => min t m.originTimestamp.toNat) start = m.originTimestamp.toNat) := by
  intro messages
  induction messages with
  | nil => intro start; simp
  | cons m messages ih =>
    intro start
    obtain ⟨hle, hmem, heq⟩ := ih (min start m.originTimestamp.toNat)
    simp only [List.foldl_cons, List.mem_cons, forall_eq_or_imp, exists_eq_or_imp]
    refine ⟨le_trans hle (min_le_left _ _), ⟨le_trans hle (min_le_right _ _), hmem⟩, ?_⟩
    rcases heq with heq | heq
    · rw [heq]
      rcases min_choice start m.originTimestamp.toNat with h | h
      · exact Or.inl h
      · exact Or.inr (Or.inl h)
    · exact Or.inr (Or.inr heq)

/-- **The legacy conversion round trip.** Take messages whose lengths fit their `u32` fields,
fewer than `2 ^ 32` of them, whose origin timestamps lie within `u32::MAX` of each other and
are not all `u64::MAX`, and whose batch fits a `u64` length; and any stream, topic and valid
partitioning. The converter accepts the body `encode` writes for them. Its batch passes
`decode_request_slice`, counts the messages, and announces its blob's length; the blob
iterates back to the messages in order. Message `i` has offset delta `i`, its own id (or the
drawn one when its id is zero), its origin timestamp as the batch's plus its delta, its user
headers and payload, and the checksum of its header's bytes from 8 on, its user headers and
its payload. -/
theorem from_legacy_request_round_trip (hash : List UInt8 → UInt64) (uuid : Nat → BitVec 128)
    (ns : IggyNamespace) (streamId topicId : WireIdentifier) (partitioning : WirePartitioning)
    (messages : List RawMessage) (hp : partitioning.Valid) (hfit : ∀ m ∈ messages, m.Fits)
    (hcount : messages.length < 2 ^ 32)
    (hspread : ∀ m ∈ messages, ∀ m' ∈ messages,
      m.originTimestamp.toNat - m'.originTimestamp.toNat ≤ maxTimestampDeltaMicros)
    (hts : messages = [] ∨ ∃ m ∈ messages, m.originTimestamp.toNat < u64Max)
    (hsize : commandHeaderSize + (messages.map RawMessage.wireSize).sum < 2 ^ 64) :
    ∃ batch, fromLegacyRequest hash uuid ns
        (SendMessagesEncoder.encode streamId topicId partitioning messages) = .ok batch ∧
      decodeRequestSlice hash batch.encode = .ok batch ∧
      batch.header.messageCount.toNat = messages.length ∧
      batch.header.batchLength.toNat = commandHeaderSize + batch.blob.length ∧
      (iterWithOffsets batch.blob 0).length = messages.length ∧
      ∀ i (hi : i < messages.length), ∃ v, (iterWithOffsets batch.blob 0)[i]? = some v ∧
        v.header.offsetDelta.toNat = i ∧
        v.header.id = (if messages[i].id = 0 then (uuid i).toNat else messages[i].id.toNat) ∧
        batch.header.originTimestamp.toNat + v.header.timestampDelta.toNat =
          messages[i].originTimestamp.toNat ∧
        v.userHeaders = messages[i].headers.getD [] ∧ v.payload = messages[i].payload ∧
        v.header.checksum = hash (v.header.encode.drop 8 ++ v.userHeaders ++ v.payload) := by
  -- the minimum the first loop finds, and the origin the converter takes from it
  obtain ⟨hμle, hμmem, hμeq⟩ := foldl_min_spec messages u64Max
  set μ := messages.foldl (fun t m => min t m.originTimestamp.toNat) u64Max with hμ
  set origin := if μ = u64Max then 0 else μ with horigin
  have hconvertible : ∀ legacy ∈ messages.map toLegacyRef,
      Convertible origin legacy ∧ legacy.id < 2 ^ 128 := by
    simp only [List.mem_map, forall_exists_index, and_imp, forall_apply_eq_imp_iff₂]
    intro m hm
    rcases hts with rfl | ⟨m0, hm0, hlt⟩
    · simp at hm
    -- some timestamp is below `u64::MAX`, so the minimum is a message's and is the origin
    have hne : μ ≠ u64Max := by
      have := hμmem m0 hm0
      omega
    have horiginμ : origin = μ := if_neg hne
    obtain ⟨m', hm', hμm'⟩ := hμeq.resolve_left hne
    refine ⟨⟨?_, ?_, ?_, ?_⟩, m.id.isLt⟩
    · rw [horiginμ]
      exact hμmem m hm
    · rw [horiginμ, hμm']
      exact hspread m hm m' hm'
    · simpa [toLegacyRef] using (hfit m hm).headersLen_lt
    · exact (hfit m hm).payload_lt
  have hindex : 0 + (messages.map toLegacyRef).length ≤ 2 ^ 32 := by
    simp only [List.length_map]
    omega
  have hconv := @convertLegacyMessages_ok hash uuid origin (messages.map toLegacyRef) 0 hindex
    (fun l hl => (hconvertible l hl).1)
  have hblobLen := @length_encodeMessages_legacyMessages hash uuid origin messages 0
  set written := legacyMessages hash uuid origin 0 (messages.map toLegacyRef) with hwritten
  set blob := encodeMessages written with hblob
  have hfitsU64 : ¬2 ^ 64 ≤ commandHeaderSize + blob.length := by
    omega
  have hparse := @parseLegacyMessages_encode messages.length messages [] [] u64Max hfit
    (by simp)
  simp only [List.nil_append, List.length_nil, Nat.zero_add] at hparse
  set header := SendMessages2Header.new (UInt64.ofNat ns.partitionId) (UInt64.ofNat origin)
    (UInt64.ofNat (commandHeaderSize + blob.length)) (UInt32.ofNat messages.length) with hheader
  set batch : BatchRef :=
    ⟨{ header with
      batchChecksum := calculateBatchChecksum hash header blob }, blob⟩ with hbatch
  have hrun : fromLegacyRequest hash uuid ns
      (SendMessagesEncoder.encode streamId topicId partitioning messages) = .ok batch := by
    simp only [fromLegacyRequest, legacyMessagesSlice_encode hp hcount, hparse, bind,
      Except.bind]
    simp only [List.length_map, ne_eq, not_true_eq_false, or_self, if_false, ← hμ, ← horigin,
      hconv, hfitsU64, pure, Except.pure, hheader, hbatch]
  have hlength : (UInt64.ofNat (commandHeaderSize + blob.length)).toNat =
      commandHeaderSize + blob.length :=
    UInt64.toNat_ofNat_of_lt' (show commandHeaderSize + blob.length < 2 ^ 64 by omega)
  have hsealed : batch.Sealed hash :=
    ⟨hlength, (calculateBatchChecksum_batchChecksum _ _ _ _).symm⟩
  -- the blob iterates back to what the loop wrote
  have hiter := iterWithOffsets_encodeMessages written []
    (legacyMessages_wellFormed _ 0 hindex hconvertible)
  simp only [List.nil_append, List.length_nil] at hiter
  refine ⟨_, hrun, ?_, ?_, hlength, ?_, ?_⟩
  · simpa [decodeRequestSlice, BatchRef.encode] using decodeBatch_encode hsealed []
  · simp [hbatch, hheader, SendMessages2Header.new, UInt32.toNat_ofNat_of_lt' hcount]
  · have := congrArg List.length hiter
    simpa [hwritten] using this
  · intro i hi
    have hat := congrArg (·[i]?) hiter
    simp only [List.getElem?_map, hwritten, getElem?_legacyMessages, Nat.zero_add,
      List.getElem?_map, List.getElem?_eq_getElem hi, Option.map_some] at hat
    obtain ⟨v, hv, hfields⟩ := Option.map_eq_some_iff.mp hat
    simp only [Prod.mk.injEq] at hfields
    obtain ⟨hvheader, hvheaders, hvpayload⟩ := hfields
    obtain ⟨⟨hle, hdelta, hheadersLt, hpayloadLt⟩, -⟩ :=
      hconvertible _ (List.mem_map_of_mem (List.getElem_mem hi))
    obtain ⟨hid, hoffset, htsDelta, -, -, hsum⟩ :=
      @legacyMessageHeader_spec hash (legacyId uuid i (toLegacyRef messages[i])) i
        ((toLegacyRef messages[i]).originTimestamp - origin) (toLegacyRef messages[i])
        (by omega) (by simp only [maxTimestampDeltaMicros] at hdelta; omega) hheadersLt hpayloadLt
    have horiginLt : origin < 2 ^ 64 := by
      have horiginLe : origin ≤ μ := by
        rw [horigin]
        split <;> omega
      simp only [u64Max] at hμle
      omega
    refine ⟨v, hv, ?_, ?_, ?_, ?_, ?_, ?_⟩
    · rw [hvheader, hoffset]
    · rw [hvheader, hid, legacyId]
      by_cases hzero : messages[i].id = 0
      · simp [toLegacyRef, hzero]
      · have hne : messages[i].id.toNat ≠ 0 := by simpa [BitVec.toNat_eq] using hzero
        simp only [toLegacyRef, hne, hzero, if_false]
    · rw [hvheader, htsDelta]
      simp only [hbatch, hheader, SendMessages2Header.new, UInt64.toNat_ofNat_of_lt' horiginLt]
      simp only [toLegacyRef] at hle ⊢
      omega
    · rw [hvheaders]
      rfl
    · rw [hvpayload]
      rfl
    · rw [hvheader, hvheaders, hvpayload]
      exact hsum

/-- One message with a one-byte payload, stamped at 5. -/
def sampleLegacyMessage : RawMessage := ⟨7, 5, none, [42]⟩

theorem from_legacy_request_round_trip_one_message :
    ∃ batch, fromLegacyRequest (fun _ => 0) (fun _ => 0) ⟨0⟩
        (SendMessagesEncoder.encode (.numeric 1) (.numeric 2) .balanced [sampleLegacyMessage]) =
        .ok batch ∧
      decodeRequestSlice (fun _ => 0) batch.encode = .ok batch ∧
      (iterWithOffsets batch.blob 0).length = 1 := by
  obtain ⟨batch, hrun, hdecode, -, -, hiter, -⟩ :=
    from_legacy_request_round_trip (fun _ => 0) (fun _ => 0) ⟨0⟩ (.numeric 1) (.numeric 2)
      .balanced [sampleLegacyMessage] trivial (by decide) (by decide) (by decide) (by decide)
      (by decide)
  exact ⟨batch, hrun, hdecode, hiter⟩

end IggyCore.Partitions
