import IggyCore.Wire.Identifier

/-!
# The requests the metadata plane decodes before a prepare

`CreateTopicRequest` and `CreatePartitionsRequest` as a client sends them, and the
`CreateTopicWithAssignmentsRequest` / `CreatePartitionsWithAssignmentsRequest` bodies the
primary persists in their place, which add the consensus group it allocated to each
partition (`core/binary_protocol/src/requests/topics/`, `.../partitions/`,
`.../primitives/partition_assignment.rs`).

The two persisted bodies share one layout: the request's size, the request, the number of
assignments and the assignments. That layout is `WithAssignments` with its codec, and each of
the two source types is that codec at its own request type. Every decoder reads back what its
encoder wrote (`decode_encode`); the persisted codec needs only that of its inner request.

`UpdateTopicRequest`, `DeleteTopicRequest` and `DeletePartitionsRequest` reach the streams
state machine in the prepare body as the client sent them; they are kept as the records it
reads.
-/

namespace IggyCore.Wire

open IggyCore.Library

/-! ## Client requests -/

/-- `CreateTopicRequest`: `[stream_id][partitions_count:u32][compression_algorithm:u8]`
`[message_expiry:u64][max_topic_size:u64][replication_factor:u8][name]`. -/
structure CreateTopicRequest where
  streamId : WireIdentifier
  partitionsCount : UInt32
  compressionAlgorithm : UInt8
  messageExpiry : UInt64
  maxTopicSize : UInt64
  replicationFactor : UInt8
  name : WireName
  deriving DecidableEq

namespace CreateTopicRequest

def encode (r : CreateTopicRequest) : List UInt8 :=
  r.streamId.encode ++ putU32Le r.partitionsCount ++ [r.compressionAlgorithm] ++
    putU64Le r.messageExpiry ++ putU64Le r.maxTopicSize ++ [r.replicationFactor] ++ r.name.encode

/-- `FIXED_FIELDS_SIZE`. -/
def fixedFieldsSize : Nat := 4 + 1 + 8 + 8 + 1

def encodedSize (r : CreateTopicRequest) : Nat :=
  r.streamId.encodedSize + fixedFieldsSize + r.name.encodedSize

def decode (buf : List UInt8) : Except WireError (CreateTopicRequest × Nat) := do
  let (streamId, pos) ← WireIdentifier.decode buf
  let partitionsCount ← readU32Le buf pos
  let pos := pos + 4
  let compressionAlgorithm ← readU8 buf pos
  let pos := pos + 1
  let messageExpiry ← readU64Le buf pos
  let pos := pos + 8
  let maxTopicSize ← readU64Le buf pos
  let pos := pos + 8
  let replicationFactor ← readU8 buf pos
  let pos := pos + 1
  let (name, consumed) ← WireName.decode (buf.drop pos)
  pure (⟨streamId, partitionsCount, compressionAlgorithm, messageExpiry, maxTopicSize,
    replicationFactor, name⟩, pos + consumed)

/-- `WireDecode::decode_from`: decode, ignoring trailing bytes. -/
def decodeFrom (buf : List UInt8) : Except WireError CreateTopicRequest :=
  (decode buf).map Prod.fst

@[simp] theorem length_encode (r : CreateTopicRequest) : r.encode.length = r.encodedSize := by
  simp only [encode, encodedSize, fixedFieldsSize, List.length_append, List.length_singleton,
    WireIdentifier.length_encode, WireName.length_encode, length_putU32Le, length_putU64Le]

theorem encodedSize_le (r : CreateTopicRequest) : r.encodedSize ≤ 2 + 255 + 22 + 1 + 255 := by
  have := r.streamId.valueLen_lt
  have := r.name.len_lt
  simp only [encodedSize, WireIdentifier.encodedSize, fixedFieldsSize, WireName.encodedSize]
  omega

theorem decode_encode (r : CreateTopicRequest) (rest : List UInt8) :
    decode (r.encode ++ rest) = .ok (r, r.encodedSize) := by
  have hbuf : r.encode ++ rest = r.streamId.encode ++ (putU32Le r.partitionsCount ++
      (r.compressionAlgorithm :: (putU64Le r.messageExpiry ++ (putU64Le r.maxTopicSize ++
      (r.replicationFactor :: (r.name.encode ++ rest)))))) := by
    simp [encode]
  -- walk the buffer field by field, from the end of the stream id
  have h1 : SuffixAt (r.encode ++ rest) r.streamId.encodedSize _ :=
    ⟨r.streamId.encode, WireIdentifier.length_encode _, hbuf⟩
  have h2 := h1.skip
  rw [length_putU32Le] at h2
  have h3 := h2.skip_cons
  have h4 := h3.skip
  rw [length_putU64Le] at h4
  have h5 := h4.skip
  rw [length_putU64Le] at h5
  have h6 := h5.skip_cons
  rw [decode, hbuf, WireIdentifier.decode_encode, ← hbuf]
  simp only [bind, Except.bind, readU32Le_of_suffixAt h1, readU8_of_suffixAt h2,
    readU64Le_of_suffixAt h3, readU64Le_of_suffixAt h4, readU8_of_suffixAt h5, h6.drop_eq,
    WireName.decode_encode, pure, Except.pure, encodedSize, fixedFieldsSize]

end CreateTopicRequest

/-- `CreatePartitionsRequest`: `[stream_id][topic_id][partitions_count:u32]`. -/
structure CreatePartitionsRequest where
  streamId : WireIdentifier
  topicId : WireIdentifier
  partitionsCount : UInt32
  deriving DecidableEq

namespace CreatePartitionsRequest

def encode (r : CreatePartitionsRequest) : List UInt8 :=
  r.streamId.encode ++ r.topicId.encode ++ putU32Le r.partitionsCount

def encodedSize (r : CreatePartitionsRequest) : Nat :=
  r.streamId.encodedSize + r.topicId.encodedSize + 4

def decode (buf : List UInt8) : Except WireError (CreatePartitionsRequest × Nat) := do
  let (streamId, pos) ← WireIdentifier.decode buf
  let (topicId, consumed) ← WireIdentifier.decode (buf.drop pos)
  let pos := pos + consumed
  let partitionsCount ← readU32Le buf pos
  pure (⟨streamId, topicId, partitionsCount⟩, pos + 4)

def decodeFrom (buf : List UInt8) : Except WireError CreatePartitionsRequest :=
  (decode buf).map Prod.fst

@[simp] theorem length_encode (r : CreatePartitionsRequest) :
    r.encode.length = r.encodedSize := by
  simp [encode, encodedSize]
  omega

theorem encodedSize_le (r : CreatePartitionsRequest) : r.encodedSize ≤ 2 + 255 + 2 + 255 + 4 := by
  have := r.streamId.valueLen_lt
  have := r.topicId.valueLen_lt
  simp only [encodedSize, WireIdentifier.encodedSize]
  omega

theorem decode_encode (r : CreatePartitionsRequest) (rest : List UInt8) :
    decode (r.encode ++ rest) = .ok (r, r.encodedSize) := by
  have hbuf : r.encode ++ rest =
      r.streamId.encode ++ (r.topicId.encode ++ (putU32Le r.partitionsCount ++ rest)) := by
    simp [encode]
  have h1 : SuffixAt (r.encode ++ rest) r.streamId.encodedSize _ :=
    ⟨r.streamId.encode, WireIdentifier.length_encode _, hbuf⟩
  have h2 := h1.skip
  rw [WireIdentifier.length_encode] at h2
  rw [decode, hbuf, WireIdentifier.decode_encode, ← hbuf]
  simp only [bind, Except.bind, h1.drop_eq, WireIdentifier.decode_encode,
    readU32Le_of_suffixAt h2, pure, Except.pure, encodedSize]

end CreatePartitionsRequest

/-! ## Persisted bodies -/

/-- `CreatedPartitionAssignment`: `[partition_id:u32][consensus_group_id:u64]`. -/
structure CreatedPartitionAssignment where
  partitionId : UInt32
  consensusGroupId : UInt64
  deriving DecidableEq, Repr

namespace CreatedPartitionAssignment

def encode (p : CreatedPartitionAssignment) : List UInt8 :=
  putU32Le p.partitionId ++ putU64Le p.consensusGroupId

def decode (buf : List UInt8) : Except WireError (CreatedPartitionAssignment × Nat) :=
  if buf.length < 12 then .error (.unexpectedEof 0 12 buf.length)
  else do
    let partitionId ← readU32Le buf 0
    let consensusGroupId ← readU64Le buf 4
    pure (⟨partitionId, consensusGroupId⟩, 12)

@[simp] theorem length_encode (p : CreatedPartitionAssignment) : p.encode.length = 12 := by
  simp [encode]

theorem decode_encode (p : CreatedPartitionAssignment) (rest : List UInt8) :
    decode (p.encode ++ rest) = .ok (p, 12) := by
  have h0 : SuffixAt (p.encode ++ rest) 0 (putU32Le p.partitionId ++
      (putU64Le p.consensusGroupId ++ rest)) := by
    simpa [encode] using suffixAt_zero (p.encode ++ rest)
  have h1 := h0.skip
  have hlen : ¬(p.encode ++ rest).length < 12 := by simp
  simp only [length_putU32Le, Nat.zero_add] at h1
  simp only [decode, if_neg hlen, bind, Except.bind, readU32Le_of_suffixAt h0,
    readU64Le_of_suffixAt h1, pure, Except.pure]

end CreatedPartitionAssignment

/-- A request together with the partition assignments the primary allocated for it. -/
structure WithAssignments (α : Type) where
  request : α
  partitions : List CreatedPartitionAssignment
  deriving DecidableEq

section WithAssignments

variable {α : Type}

/-- The `for _ in 0..partitions_count` loop: `count` assignments from `offset` on. -/
def decodePartitions (buf : List UInt8) :
    Nat → Nat → Except WireError (List CreatedPartitionAssignment × Nat)
  | 0, offset => pure ([], offset)
  | count + 1, offset => do
    let (partition, consumed) ← CreatedPartitionAssignment.decode (buf.drop offset)
    let (partitions, offset) ← decodePartitions buf count (offset + consumed)
    pure (partition :: partitions, offset)

/-- The shared `encode`: sizes are written with `usize_to_u32`, whose panic above `u32::MAX`
no request or partition list the primary builds reaches. -/
def encodeWithAssignments (encodeRequest : α → List UInt8) (x : WithAssignments α) :
    List UInt8 :=
  putU32Le (UInt32.ofNat (encodeRequest x.request).length) ++ encodeRequest x.request ++
    putU32Le (UInt32.ofNat x.partitions.length) ++
    x.partitions.flatMap CreatedPartitionAssignment.encode

/-- The shared `decode`; the inner request is decoded with `decode_from` from exactly the
bytes its size announces. -/
def decodeWithAssignments (decodeRequest : List UInt8 → Except WireError (α × Nat))
    (buf : List UInt8) : Except WireError (WithAssignments α × Nat) := do
  let requestSize := (← readU32Le buf 0).toNat
  let requestStart := 4
  let requestEnd := requestStart + requestSize
  if buf.length < requestEnd then
    throw (.unexpectedEof requestStart requestSize (buf.length - requestStart))
  let (request, _) ← decodeRequest ((buf.take requestEnd).drop requestStart)
  let partitionsCount := (← readU32Le buf requestEnd).toNat
  let (partitions, offset) ← decodePartitions buf partitionsCount (requestEnd + 4)
  pure (⟨request, partitions⟩, offset)

theorem decodePartitions_flatMap (ps : List CreatedPartitionAssignment) {buf rest : List UInt8}
    {offset : Nat} (h : SuffixAt buf offset (ps.flatMap CreatedPartitionAssignment.encode ++ rest)) :
    decodePartitions buf ps.length offset = .ok (ps, offset + 12 * ps.length) := by
  -- one assignment per step, each 12 bytes further into the buffer
  induction ps generalizing offset with
  | nil => rfl
  | cons p ps ih =>
    have hp : SuffixAt buf offset (p.encode ++ (ps.flatMap CreatedPartitionAssignment.encode ++
        rest)) := by
      simpa using h
    have hnext := hp.skip
    rw [CreatedPartitionAssignment.length_encode] at hnext
    simp only [List.length_cons, decodePartitions, bind, Except.bind, hp.drop_eq,
      CreatedPartitionAssignment.decode_encode, ih hnext, pure, Except.pure]
    have hoff : offset + 12 + 12 * ps.length = offset + 12 * (ps.length + 1) := by ring
    rw [hoff]

/-- The persisted body reads back, given that its request does and that both sizes fit the
`u32` fields they are written to. -/
theorem decodeWithAssignments_encode {encodeRequest : α → List UInt8}
    {decodeRequest : List UInt8 → Except WireError (α × Nat)}
    (hreq : ∀ r, decodeRequest (encodeRequest r) = .ok (r, (encodeRequest r).length))
    (x : WithAssignments α) (hsize : (encodeRequest x.request).length < 2 ^ 32)
    (hcount : x.partitions.length < 2 ^ 32) (rest : List UInt8) :
    decodeWithAssignments decodeRequest (encodeWithAssignments encodeRequest x ++ rest) =
      .ok (x, 4 + (encodeRequest x.request).length + 4 + 12 * x.partitions.length) := by
  set req := encodeRequest x.request with hreqdef
  have hshape : encodeWithAssignments encodeRequest x ++ rest =
      putU32Le (UInt32.ofNat req.length) ++ (req ++ (putU32Le (UInt32.ofNat x.partitions.length) ++
      (x.partitions.flatMap CreatedPartitionAssignment.encode ++ rest))) := by
    simp [encodeWithAssignments, req]
  set buf := encodeWithAssignments encodeRequest x ++ rest
  have h0 : SuffixAt buf 0 (putU32Le (UInt32.ofNat req.length) ++ (req ++
      (putU32Le (UInt32.ofNat x.partitions.length) ++
      (x.partitions.flatMap CreatedPartitionAssignment.encode ++ rest)))) := by
    rw [← hshape]
    exact suffixAt_zero buf
  have h1 := h0.skip
  have h2 := h1.skip
  have h3 := h2.skip
  simp only [length_putU32Le, Nat.zero_add] at h1 h2 h3
  have hsz : (UInt32.ofNat req.length).toNat = req.length := UInt32.toNat_ofNat_of_lt' hsize
  have hcnt : (UInt32.ofNat x.partitions.length).toNat = x.partitions.length :=
    UInt32.toNat_ofNat_of_lt' hcount
  -- the request's window is exactly its encoding
  have hwin : (buf.take (4 + req.length)).drop 4 = req := h1.window
  have hfits : ¬buf.length < 4 + req.length := by
    have := h2.length_eq
    omega
  have hdec : decodeRequest req = .ok (x.request, req.length) := hreq x.request
  simp only [decodeWithAssignments, readU32Le_of_suffixAt h0, bind, Except.bind, hsz,
    if_neg hfits, hwin, hdec, readU32Le_of_suffixAt h2, hcnt,
    decodePartitions_flatMap x.partitions h3, pure, Except.pure]

end WithAssignments

/-- `CreateTopicWithAssignmentsRequest`. -/
abbrev CreateTopicWithAssignmentsRequest := WithAssignments CreateTopicRequest

namespace CreateTopicWithAssignmentsRequest

def toBytes (x : CreateTopicWithAssignmentsRequest) : List UInt8 :=
  encodeWithAssignments CreateTopicRequest.encode x

def decodeFrom (buf : List UInt8) : Except WireError CreateTopicWithAssignmentsRequest :=
  (decodeWithAssignments CreateTopicRequest.decode buf).map Prod.fst

theorem decodeFrom_toBytes (x : CreateTopicWithAssignmentsRequest)
    (hcount : x.partitions.length < 2 ^ 32) : decodeFrom (toBytes x) = .ok x := by
  have hreq : ∀ r, CreateTopicRequest.decode r.encode = .ok (r, r.encode.length) := by
    intro r
    simpa using CreateTopicRequest.decode_encode r []
  have hsize : x.request.encode.length < 2 ^ 32 := by
    have := x.request.encodedSize_le
    simp only [CreateTopicRequest.length_encode]
    omega
  have h := decodeWithAssignments_encode hreq x hsize hcount []
  rw [List.append_nil] at h
  rw [decodeFrom, toBytes, h]
  rfl

end CreateTopicWithAssignmentsRequest

/-- `CreatePartitionsWithAssignmentsRequest`. -/
abbrev CreatePartitionsWithAssignmentsRequest := WithAssignments CreatePartitionsRequest

namespace CreatePartitionsWithAssignmentsRequest

def toBytes (x : CreatePartitionsWithAssignmentsRequest) : List UInt8 :=
  encodeWithAssignments CreatePartitionsRequest.encode x

def decodeFrom (buf : List UInt8) : Except WireError CreatePartitionsWithAssignmentsRequest :=
  (decodeWithAssignments CreatePartitionsRequest.decode buf).map Prod.fst

theorem decodeFrom_toBytes (x : CreatePartitionsWithAssignmentsRequest)
    (hcount : x.partitions.length < 2 ^ 32) : decodeFrom (toBytes x) = .ok x := by
  have hreq : ∀ r, CreatePartitionsRequest.decode r.encode = .ok (r, r.encode.length) := by
    intro r
    simpa using CreatePartitionsRequest.decode_encode r []
  have hsize : x.request.encode.length < 2 ^ 32 := by
    have := x.request.encodedSize_le
    simp only [CreatePartitionsRequest.length_encode]
    omega
  have h := decodeWithAssignments_encode hreq x hsize hcount []
  rw [List.append_nil] at h
  rw [decodeFrom, toBytes, h]
  rfl

end CreatePartitionsWithAssignmentsRequest

/-! ## Requests the streams state machine reads as sent -/

structure UpdateTopicRequest where
  streamId : WireIdentifier
  topicId : WireIdentifier
  compressionAlgorithm : UInt8
  messageExpiry : UInt64
  maxTopicSize : UInt64
  replicationFactor : UInt8
  name : WireName
  deriving DecidableEq

structure DeleteTopicRequest where
  streamId : WireIdentifier
  topicId : WireIdentifier
  deriving DecidableEq

structure DeletePartitionsRequest where
  streamId : WireIdentifier
  topicId : WireIdentifier
  partitionsCount : UInt32
  deriving DecidableEq

end IggyCore.Wire
