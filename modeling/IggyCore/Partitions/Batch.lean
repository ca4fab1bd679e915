import IggyCore.Wire.Codec
import IggyCore.Consensus.Replica

/-!
# Message batches

The `SendMessages2` batch format of `core/server_common/src/send_messages2.rs`: a 256-byte
command header, then a blob of messages, each a 48-byte message header followed by its user
headers and payload. A stored message's offset is the batch's `base_offset` plus the message's
`offset_delta`, as `SendMessages2IteratorWithOffsets` yields them.

The batch checksum is `XxHash3_64` over the header fields (all but the checksum itself) and the
blob. The hash is a parameter `hash` here: the checks compare a checksum with the hash of the
same bytes, which a client that builds a batch computes just as the server does, so nothing
below depends on which function it is.

`decode_request_slice` and `decode_prepare_slice` check the same things on a batch body; that
shared check is `decodeBatch`.
-/

namespace IggyCore.Partitions

open IggyCore.Library IggyCore.Wire IggyCore.Consensus

/-- `COMMAND_HEADER_SIZE` and `MESSAGE_HEADER_SIZE`. -/
def commandHeaderSize : Nat := 256
def messageHeaderSize : Nat := 48

/-- The batch readers `read_u32` / `read_u64` / `read_u128` of `send_messages2.rs`. -/
def readLe (bytes : List UInt8) (offset width : Nat) : Except IggyError Nat :=
  match sliceAt bytes offset width with
  | some s => .ok (ofLeBytes s)
  | none => .error .invalidNumberEncoding

theorem readLe_of_suffixAt {bytes rest : List UInt8} {offset width n : Nat} (hn : n < 256 ^ width)
    (h : SuffixAt bytes offset (leBytes width n ++ rest)) : readLe bytes offset width = .ok n := by
  have hs := h.sliceAt_eq
  rw [length_leBytes] at hs
  simp [readLe, hs, ofLeBytes_leBytes_of_lt hn]

/-! ## The command header -/

/-- `SendMessages2Header`. -/
structure SendMessages2Header where
  partitionId : UInt64
  baseOffset : UInt64
  baseTimestamp : UInt64
  originTimestamp : UInt64
  batchLength : UInt64
  batchChecksum : UInt64
  messageCount : UInt32
  deriving DecidableEq, Repr

namespace SendMessages2Header

/-- `encode_into`: the fields at their offsets, the rest of the 256 bytes zero. -/
def encode (h : SendMessages2Header) : List UInt8 :=
  leBytes 8 h.partitionId.toNat ++ leBytes 8 h.baseOffset.toNat ++
    leBytes 8 h.baseTimestamp.toNat ++ leBytes 8 h.originTimestamp.toNat ++
    leBytes 8 h.batchLength.toNat ++ leBytes 8 h.batchChecksum.toNat ++
    leBytes 4 h.messageCount.toNat ++ List.replicate 204 0

def decode (bytes : List UInt8) : Except IggyError SendMessages2Header := do
  if bytes.length < commandHeaderSize then throw .invalidCommand
  let batchLength ← readLe bytes 32 8
  if batchLength < commandHeaderSize then throw .invalidCommand
  pure
    { partitionId := UInt64.ofNat (← readLe bytes 0 8)
      baseOffset := UInt64.ofNat (← readLe bytes 8 8)
      baseTimestamp := UInt64.ofNat (← readLe bytes 16 8)
      originTimestamp := UInt64.ofNat (← readLe bytes 24 8)
      batchLength := UInt64.ofNat batchLength
      batchChecksum := UInt64.ofNat (← readLe bytes 40 8)
      messageCount := UInt32.ofNat (← readLe bytes 48 4) }

/-- `total_size`: the batch's length, header included. -/
def totalSize (h : SendMessages2Header) : Nat := h.batchLength.toNat

/-- `blob_len`. -/
def blobLen (h : SendMessages2Header) : Except IggyError Nat :=
  if h.batchLength.toNat < commandHeaderSize then .error .invalidCommand
  else .ok (h.batchLength.toNat - commandHeaderSize)

@[simp] theorem length_encode (h : SendMessages2Header) : h.encode.length = commandHeaderSize := by
  simp only [encode, List.length_append, length_leBytes, List.length_replicate]
  rfl

theorem decode_encode (h : SendMessages2Header) (rest : List UInt8)
    (hlen : commandHeaderSize ≤ h.batchLength.toNat) : decode (h.encode ++ rest) = .ok h := by
  -- each field sits at a fixed offset of the 256 bytes
  have hbuf : h.encode ++ rest = leBytes 8 h.partitionId.toNat ++ (leBytes 8 h.baseOffset.toNat ++
      (leBytes 8 h.baseTimestamp.toNat ++ (leBytes 8 h.originTimestamp.toNat ++
      (leBytes 8 h.batchLength.toNat ++ (leBytes 8 h.batchChecksum.toNat ++
      (leBytes 4 h.messageCount.toNat ++ (List.replicate 204 0 ++ rest))))))) := by
    simp only [encode, List.append_assoc]
  have h0 : SuffixAt (h.encode ++ rest) 0 (leBytes 8 h.partitionId.toNat ++
      (leBytes 8 h.baseOffset.toNat ++ (leBytes 8 h.baseTimestamp.toNat ++
      (leBytes 8 h.originTimestamp.toNat ++ (leBytes 8 h.batchLength.toNat ++
      (leBytes 8 h.batchChecksum.toNat ++ (leBytes 4 h.messageCount.toNat ++
      (List.replicate 204 0 ++ rest)))))))) := by
    rw [← hbuf]
    exact suffixAt_zero _
  have h1 := h0.skip
  have h2 := h1.skip
  have h3 := h2.skip
  have h4 := h3.skip
  have h5 := h4.skip
  have h6 := h5.skip
  simp only [length_leBytes, Nat.zero_add, Nat.reduceAdd] at h1 h2 h3 h4 h5 h6
  have hsize : ¬(h.encode ++ rest).length < commandHeaderSize := by simp
  simp only [decode, hsize, if_false, bind, Except.bind, pure, Except.pure,
    readLe_of_suffixAt h.partitionId.toNat_lt h0, readLe_of_suffixAt h.baseOffset.toNat_lt h1,
    readLe_of_suffixAt h.baseTimestamp.toNat_lt h2,
    readLe_of_suffixAt h.originTimestamp.toNat_lt h3,
    readLe_of_suffixAt h.batchLength.toNat_lt h4, readLe_of_suffixAt h.batchChecksum.toNat_lt h5,
    readLe_of_suffixAt h.messageCount.toNat_lt h6, Nat.not_lt.mpr hlen,
    UInt64.ofNat_toNat, UInt32.ofNat_toNat]

end SendMessages2Header

/-- `calculate_batch_checksum`: the hash of every header field but the checksum, then the blob. -/
def calculateBatchChecksum (hash : List UInt8 → UInt64) (h : SendMessages2Header)
    (blob : List UInt8) : UInt64 :=
  hash (leBytes 8 h.partitionId.toNat ++ leBytes 8 h.baseOffset.toNat ++
    leBytes 8 h.baseTimestamp.toNat ++ leBytes 8 h.originTimestamp.toNat ++
    leBytes 8 h.batchLength.toNat ++ leBytes 4 h.messageCount.toNat ++ blob)

@[simp] theorem calculateBatchChecksum_batchChecksum (hash : List UInt8 → UInt64)
    (h : SendMessages2Header) (c : UInt64) (blob : List UInt8) :
    calculateBatchChecksum hash { h with batchChecksum := c } blob =
      calculateBatchChecksum hash h blob := rfl

/-! ## Messages in the blob -/

/-- `SendMessages2MessageHeader`; the 8 reserved bytes at offset 40 must be zero. -/
structure MessageHeader where
  checksum : UInt64
  /-- A `u128`. -/
  id : Nat
  offsetDelta : UInt32
  timestampDelta : UInt32
  userHeadersLength : UInt32
  payloadLength : UInt32
  deriving DecidableEq, Repr

namespace MessageHeader

def encode (m : MessageHeader) : List UInt8 :=
  leBytes 8 m.checksum.toNat ++ leBytes 16 m.id ++ leBytes 4 m.offsetDelta.toNat ++
    leBytes 4 m.timestampDelta.toNat ++ leBytes 4 m.userHeadersLength.toNat ++
    leBytes 4 m.payloadLength.toNat ++ leBytes 8 0

def decode (bytes : List UInt8) : Except IggyError MessageHeader := do
  if bytes.length < messageHeaderSize then throw .invalidCommand
  let reserved ← readLe bytes 40 8
  if reserved ≠ 0 then throw .invalidCommand
  pure
    { checksum := UInt64.ofNat (← readLe bytes 0 8)
      id := ← readLe bytes 8 16
      offsetDelta := UInt32.ofNat (← readLe bytes 24 4)
      timestampDelta := UInt32.ofNat (← readLe bytes 28 4)
      userHeadersLength := UInt32.ofNat (← readLe bytes 32 4)
      payloadLength := UInt32.ofNat (← readLe bytes 36 4) }

def totalSize (m : MessageHeader) : Nat :=
  messageHeaderSize + m.userHeadersLength.toNat + m.payloadLength.toNat

end MessageHeader

/-- `SendMessages2MessageViewWithOffsets`: a message of the blob and where it lies in it. -/
structure MessageView where
  header : MessageHeader
  userHeaders : List UInt8
  payload : List UInt8
  start : Nat
  stop : Nat
  deriving DecidableEq, Repr

/-- `SendMessages2IteratorWithOffsets`, from `position` on. It stops at the end of the blob, at
a message header that does not decode, and at a message that runs past the blob. -/
def iterWithOffsets (blob : List UInt8) (position : Nat) : List MessageView :=
  if _hpos : position ≥ blob.length then []
  else
    match MessageHeader.decode (blob.drop position) with
    | .error _ => []
    | .ok header =>
      let messageStart := position + messageHeaderSize
      let headersEnd := messageStart + header.userHeadersLength.toNat
      match sliceAt blob messageStart header.userHeadersLength.toNat,
        sliceAt blob headersEnd header.payloadLength.toNat with
      | some userHeaders, some payload =>
        ⟨header, userHeaders, payload, position, position + header.totalSize⟩ ::
          iterWithOffsets blob (position + header.totalSize)
      | _, _ => []
termination_by blob.length - position
decreasing_by
  simp only [MessageHeader.totalSize, messageHeaderSize]
  omega

/-- `SendMessages2Ref`: a checked batch. -/
structure BatchRef where
  header : SendMessages2Header
  blob : List UInt8
  deriving DecidableEq, Repr

/-- The offsets of the messages a batch holds: `base_offset + offset_delta`. -/
def BatchRef.offsets (b : BatchRef) : List Nat :=
  (iterWithOffsets b.blob 0).map fun r => b.header.baseOffset.toNat + r.header.offsetDelta.toNat

/-! ## Checking a batch -/

/-- The checks `decode_request_slice` and `decode_prepare_slice` make on a batch body. -/
def decodeBatch (hash : List UInt8 → UInt64) (body : List UInt8) : Except IggyError BatchRef := do
  if body.length < commandHeaderSize then throw .invalidCommand
  let header ← SendMessages2Header.decode (body.take commandHeaderSize)
  let blobLen ← header.blobLen
  if body.length < header.totalSize then throw .invalidCommand
  let blob := ((body.drop commandHeaderSize).take blobLen)
  let expected := calculateBatchChecksum hash header blob
  if header.batchChecksum ≠ expected then
    throw (.invalidBatchChecksum header.batchChecksum.toNat expected.toNat
      header.baseOffset.toNat)
  pure ⟨header, blob⟩

/-- `decode_request_slice`. -/
def decodeRequestSlice (hash : List UInt8 → UInt64) (body : List UInt8) :
    Except IggyError BatchRef :=
  decodeBatch hash body

/-- `decode_prepare_slice`: the prepare's `size` must cover its header and fit its bytes. -/
def decodePrepareSlice (hash : List UInt8 → UInt64) (prepare : Message PrepareHeader) :
    Except IggyError BatchRef :=
  let totalSize := prepare.header.size
  if totalSize < prepareHeaderSize ∨ prepareHeaderSize + prepare.body.length < totalSize then
    .error .invalidCommand
  else decodeBatch hash (prepare.body.take (totalSize - prepareHeaderSize))

/-- A batch body whose header announces its blob's length and carries its checksum. -/
structure BatchRef.Sealed (hash : List UInt8 → UInt64) (b : BatchRef) : Prop where
  batchLength_eq : b.header.batchLength.toNat = commandHeaderSize + b.blob.length
  checksum_eq : b.header.batchChecksum = calculateBatchChecksum hash b.header b.blob

/-- The last step of `from_messages` and `from_legacy_request`, as any client that builds a
native batch takes it: announce the blob's length and seal the header over it. -/
def sealBatch (hash : List UInt8 → UInt64) (h : SendMessages2Header) (blob : List UInt8) :
    BatchRef :=
  let h := { h with batchLength := UInt64.ofNat (commandHeaderSize + blob.length) }
  ⟨{ h with batchChecksum := calculateBatchChecksum hash h blob }, blob⟩

/-- `encode_request` of a batch: the header's bytes, then the blob. -/
def BatchRef.encode (b : BatchRef) : List UInt8 := b.header.encode ++ b.blob

theorem sealBatch_sealed (hash : List UInt8 → UInt64) (h : SendMessages2Header)
    {blob : List UInt8} (hlen : commandHeaderSize + blob.length < 2 ^ 64) :
    (sealBatch hash h blob).Sealed hash :=
  ⟨UInt64.toNat_ofNat_of_lt' hlen, rfl⟩

/-- A header that announces its blob's length passes every check of `decodeBatch` on its bytes
followed by the blob, whatever bytes follow, but the checksum's: the batch is read back when
the header carries the hash of its fields and that blob. -/
theorem decodeBatch_header_encode {hash : List UInt8 → UInt64} {h : SendMessages2Header}
    {blob : List UInt8} (hlen : h.batchLength.toNat = commandHeaderSize + blob.length)
    (rest : List UInt8) :
    decodeBatch hash (h.encode ++ blob ++ rest) =
      if h.batchChecksum = calculateBatchChecksum hash h blob then .ok ⟨h, blob⟩
      else .error (.invalidBatchChecksum h.batchChecksum.toNat
        (calculateBatchChecksum hash h blob).toNat h.baseOffset.toNat) := by
  have hle : commandHeaderSize ≤ h.batchLength.toNat := by
    rw [hlen]
    omega
  have htake : (h.encode ++ blob ++ rest).take commandHeaderSize = h.encode := by
    simp [List.append_assoc]
  have hdec : SendMessages2Header.decode h.encode = .ok h := by
    simpa using SendMessages2Header.decode_encode h [] hle
  have hblob : h.blobLen = .ok (h.batchLength.toNat - commandHeaderSize) := by
    simp [SendMessages2Header.blobLen, Nat.not_lt.mpr hle]
  have hdrop : ((h.encode ++ blob ++ rest).drop commandHeaderSize).take
      (h.batchLength.toNat - commandHeaderSize) = blob := by
    simp [List.append_assoc, hlen]
  have hshort : ¬(h.encode ++ blob ++ rest).length < commandHeaderSize := by simp
  have hfits : ¬(h.encode ++ blob ++ rest).length < h.totalSize := by
    simp [SendMessages2Header.totalSize, hlen]
  simp only [decodeBatch, hshort, if_false, htake, hdec, hblob, hfits, hdrop, bind, Except.bind,
    pure, Except.pure]
  by_cases hsum : h.batchChecksum = calculateBatchChecksum hash h blob
  · simp [hsum]
  · simp [hsum]
    rfl

/-- A sealed batch passes the checks, whatever bytes follow it. -/
theorem decodeBatch_encode {hash : List UInt8 → UInt64} {b : BatchRef} (hb : b.Sealed hash)
    (rest : List UInt8) : decodeBatch hash (b.header.encode ++ b.blob ++ rest) = .ok b := by
  rw [decodeBatch_header_encode hb.batchLength_eq, if_pos hb.checksum_eq]

/-! ## Blobs of well-formed messages -/

/-- The bytes of messages in a batch blob: each header, its user headers, then its payload. -/
def encodeMessages (messages : List (MessageHeader × List UInt8 × List UInt8)) : List UInt8 :=
  messages.flatMap fun m => m.1.encode ++ m.2.1 ++ m.2.2

theorem MessageHeader.decode_encode (h : MessageHeader) (hid : h.id < 2 ^ 128)
    (rest : List UInt8) : MessageHeader.decode (h.encode ++ rest) = .ok h := by
  have h0 : SuffixAt (h.encode ++ rest) 0 (leBytes 8 h.checksum.toNat ++ (leBytes 16 h.id ++
      (leBytes 4 h.offsetDelta.toNat ++ (leBytes 4 h.timestampDelta.toNat ++
      (leBytes 4 h.userHeadersLength.toNat ++ (leBytes 4 h.payloadLength.toNat ++
      (leBytes 8 0 ++ rest))))))) := by
    have hbuf : h.encode ++ rest = leBytes 8 h.checksum.toNat ++ (leBytes 16 h.id ++
        (leBytes 4 h.offsetDelta.toNat ++ (leBytes 4 h.timestampDelta.toNat ++
        (leBytes 4 h.userHeadersLength.toNat ++ (leBytes 4 h.payloadLength.toNat ++
        (leBytes 8 0 ++ rest)))))) := by
      simp only [MessageHeader.encode, List.append_assoc]
    rw [hbuf]
    exact suffixAt_zero _
  have h1 := h0.skip
  have h2 := h1.skip
  have h3 := h2.skip
  have h4 := h3.skip
  have h5 := h4.skip
  have h6 := h5.skip
  simp only [length_leBytes, Nat.zero_add, Nat.reduceAdd] at h1 h2 h3 h4 h5 h6
  have hsize : ¬(h.encode ++ rest).length < messageHeaderSize := by
    simp [MessageHeader.encode, messageHeaderSize]
    omega
  have hid' : h.id < 256 ^ 16 := by
    norm_num
    exact hid
  simp only [MessageHeader.decode, hsize, if_false, readLe_of_suffixAt (by norm_num) h6,
    readLe_of_suffixAt h.checksum.toNat_lt h0, readLe_of_suffixAt hid' h1,
    readLe_of_suffixAt h.offsetDelta.toNat_lt h2, readLe_of_suffixAt h.timestampDelta.toNat_lt h3,
    readLe_of_suffixAt h.userHeadersLength.toNat_lt h4,
    readLe_of_suffixAt h.payloadLength.toNat_lt h5, bind, Except.bind, pure, Except.pure,
    UInt64.ofNat_toNat, UInt32.ofNat_toNat, ne_eq, not_true_eq_false]

/-- A message whose header reads back and announces the lengths of its user headers and
payload. -/
def WellFormedMessage (m : MessageHeader × List UInt8 × List UInt8) : Prop :=
  m.1.id < 2 ^ 128 ∧ m.1.userHeadersLength.toNat = m.2.1.length ∧
    m.1.payloadLength.toNat = m.2.2.length

instance : DecidablePred WellFormedMessage := fun m =>
  inferInstanceAs (Decidable (m.1.id < 2 ^ 128 ∧ m.1.userHeadersLength.toNat = m.2.1.length ∧
    m.1.payloadLength.toNat = m.2.2.length))

@[simp] theorem MessageHeader.length_encode (h : MessageHeader) :
    h.encode.length = messageHeaderSize := by
  simp [MessageHeader.encode, messageHeaderSize]

@[simp] theorem length_encodeMessages (messages : List (MessageHeader × List UInt8 × List UInt8)) :
    (encodeMessages messages).length =
      (messages.map fun m => messageHeaderSize + m.2.1.length + m.2.2.length).sum := by
  induction messages with
  | nil => rfl
  | cons m messages ih =>
    simp only [encodeMessages, List.flatMap_cons, List.length_append, MessageHeader.length_encode,
      List.map_cons, List.sum_cons] at ih ⊢
    rw [ih]

/-- **The blob iterator reads well-formed messages back.** From the start of their bytes on,
`SendMessages2IteratorWithOffsets` yields each message once, in order, and stops at the end. -/
theorem iterWithOffsets_encodeMessages :
    ∀ (messages : List (MessageHeader × List UInt8 × List UInt8)) (pre : List UInt8),
      (∀ m ∈ messages, WellFormedMessage m) →
      (iterWithOffsets (pre ++ encodeMessages messages) pre.length).map
          (fun v => (v.header, v.userHeaders, v.payload)) = messages := by
  intro messages
  induction messages with
  | nil =>
    intro pre _
    rw [iterWithOffsets, dif_pos (by simp [encodeMessages])]
    rfl
  | cons m messages ih =>
    intro pre hwf
    rcases m with ⟨h, userHeaders, payload⟩
    obtain ⟨hid, hheaders, hpayload⟩ := hwf _ List.mem_cons_self
    have hblob : pre ++ encodeMessages ((h, userHeaders, payload) :: messages) =
        pre ++ (h.encode ++ (userHeaders ++ (payload ++ encodeMessages messages))) := by
      simp [encodeMessages, List.append_assoc]
    have hlen := MessageHeader.length_encode h
    have hsuffix : SuffixAt (pre ++ encodeMessages ((h, userHeaders, payload) :: messages))
        pre.length (h.encode ++ (userHeaders ++ (payload ++ encodeMessages messages))) :=
      ⟨pre, rfl, hblob⟩
    have hheadersAt := hsuffix.skip
    have hpayloadAt := hheadersAt.skip
    rw [hlen] at hheadersAt hpayloadAt
    have hpos : ¬pre.length ≥ (pre ++ encodeMessages ((h, userHeaders, payload) :: messages)).length := by
      rw [hblob]
      simp [hlen, messageHeaderSize]
    -- the next message starts where this one's payload ends
    have hnext : pre.length + h.totalSize =
        (pre ++ (h.encode ++ userHeaders ++ payload)).length := by
      simp [MessageHeader.totalSize, hlen, hheaders, hpayload]
      omega
    have hrest := ih (pre ++ (h.encode ++ userHeaders ++ payload))
      (fun m' hm' => hwf m' (List.mem_cons_of_mem _ hm'))
    rw [iterWithOffsets, dif_neg hpos, hsuffix.drop_eq, MessageHeader.decode_encode h hid]
    simp only [hheaders, hpayload, hheadersAt.sliceAt_eq, hpayloadAt.sliceAt_eq, hnext]
    simp only [List.map_cons]
    rw [show pre ++ encodeMessages ((h, userHeaders, payload) :: messages) =
      pre ++ (h.encode ++ userHeaders ++ payload) ++ encodeMessages messages by
        simp [encodeMessages, List.append_assoc], hrest]

end IggyCore.Partitions
