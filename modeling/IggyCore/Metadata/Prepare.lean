import IggyCore.Consensus.Replica
import IggyCore.Wire.Requests

/-!
# From a client request to a metadata prepare

`IggyMetadata::prepare_request` and `IggyMetadata::observe_prepare_runtime_state`
(`core/metadata/src/impls/metadata.rs`), with the two ways a prepare is built from a request
(`build_prepare_message` there and `Project::project` in `core/consensus/src/impls.rs`) and
the `ConsensusGroupAllocator` of `core/metadata/src/stm/mod.rs`.

The primary decodes only two requests before it builds their prepare: `CreateTopic` and
`CreatePartitions`, whose partitions it assigns consensus groups to. It persists the request
together with those assignments, and every replica, the primary included, reads the
assignments back in `observe_prepare_runtime_state` to keep its allocator ahead of them. Every
other body is copied into the prepare unread.

A call that can panic returns `Except Panic`; inside it, `prepare_request`'s own `Result` is an
`Except IggyError`. The body of a request is `message.body`: the message bus only hands over
frames whose `size` is the header's size plus the body's, so the source's slice
`[size_of::<RequestHeader>()..size]` is the whole body.
-/

namespace IggyCore.Metadata

open IggyCore.Consensus IggyCore.Wire

/-! ## Consensus group ids -/

/-- `ConsensusGroupAllocator`: the highest consensus group id handed out so far (a `u64`). -/
structure ConsensusGroupAllocator where
  highest : Nat
  deriving DecidableEq, Repr

namespace ConsensusGroupAllocator

def observe (a : ConsensusGroupAllocator) (assigned : Nat) : ConsensusGroupAllocator :=
  if assigned > a.highest then ⟨assigned⟩ else a

/-- The loop of `allocate_many`: `count` ids after `current`, and the last one. -/
def allocateFrom : Nat → Nat → Except Panic (List Nat × Nat)
  | 0, current => .ok ([], current)
  | count + 1, current =>
    if current + 1 < 2 ^ 64 then do
      let (ids, last) ← allocateFrom count (current + 1)
      pure ((current + 1) :: ids, last)
    else .error ⟨"consensus group id overflow"⟩

def allocateMany (a : ConsensusGroupAllocator) (count : Nat) :
    Except Panic (ConsensusGroupAllocator × List Nat) := do
  let (allocated, current) ← allocateFrom count a.highest
  pure (⟨current⟩, allocated)

theorem allocateFrom_spec {count current : Nat} (h : current + count < 2 ^ 64) :
    allocateFrom count current =
      .ok ((List.range count).map (current + 1 + ·), current + count) := by
  -- one id per step; the bound keeps every step below `u64::MAX`
  induction count generalizing current with
  | zero => rfl
  | succ count ih =>
    have hstep : current + 1 < 2 ^ 64 := by omega
    have hrest := ih (by omega : current + 1 + count < 2 ^ 64)
    simp only [allocateFrom, if_pos hstep, hrest, bind, Except.bind, pure, Except.pure]
    congr 2
    · rw [List.range_succ_eq_map, List.map_cons, List.map_map]
      congr 1
      apply List.map_congr_left
      intro i _
      simp only [Function.comp_apply]
      omega
    · omega

end ConsensusGroupAllocator

/-! ## Building a prepare -/

/-- The text of the `expect` on `u32::try_from(size)` in `build_prepare_message`. -/
def prepareSizeMessage : String := "prepare message size exceeds u32"

/-- `build_prepare_message`: a prepare with a new body and operation; `now` is the wall clock
that `next_monotonic_timestamp` reads. The header's `size` is `u32::try_from(size)`, whose
`expect` panics when the body takes the message past `u32::MAX` bytes. -/
def buildPrepareMessage (s : VsrConsensus) (now : Nat) (request : RequestHeader)
    (operation : Operation) (body : List UInt8) :
    Except Panic (VsrConsensus × Message PrepareHeader) :=
  let (t, timestamp) := s.nextMonotonicTimestamp now
  let size := prepareHeaderSize + body.length
  if size < 2 ^ 32 then .ok (t, ⟨prepareHeader s request size operation timestamp, body⟩)
  else .error ⟨prepareSizeMessage⟩

theorem buildPrepareMessage_eq (s : VsrConsensus) (now : Nat) (request : RequestHeader)
    (operation : Operation) (body : List UInt8) :
    buildPrepareMessage s now request operation body =
      if prepareHeaderSize + body.length < 2 ^ 32 then
        .ok ((s.nextMonotonicTimestamp now).1, ⟨prepareHeader s request
          (prepareHeaderSize + body.length) operation (s.nextMonotonicTimestamp now).2, body⟩)
      else .error ⟨prepareSizeMessage⟩ := rfl

/-- A prepare `build_prepare_message` returns carries the body and operation it was given. -/
theorem buildPrepareMessage_ok {s s' : VsrConsensus} {now : Nat} {request : RequestHeader}
    {operation : Operation} {body : List UInt8} {prepare : Message PrepareHeader}
    (h : buildPrepareMessage s now request operation body = .ok (s', prepare)) :
    prepare.header.operation = operation ∧ prepare.body = body := by
  rw [buildPrepareMessage_eq] at h
  split at h
  · cases h
    exact ⟨rfl, rfl⟩
  · cases h

/-- It returns a prepare exactly when the message fits in `u32::MAX` bytes. -/
theorem buildPrepareMessage_isOk (s : VsrConsensus) (now : Nat) (request : RequestHeader)
    (operation : Operation) (body : List UInt8) :
    (∃ r, buildPrepareMessage s now request operation body = .ok r) ↔
      prepareHeaderSize + body.length < 2 ^ 32 := by
  rw [buildPrepareMessage_eq]
  constructor
  · rintro ⟨r, hr⟩
    split at hr
    · assumption
    · cases hr
  · intro hfit
    rw [if_pos hfit]
    exact ⟨_, rfl⟩

theorem buildPrepareMessage_error {s : VsrConsensus} {now : Nat} {request : RequestHeader}
    {operation : Operation} {body : List UInt8} (hbig : 2 ^ 32 ≤ prepareHeaderSize + body.length) :
    buildPrepareMessage s now request operation body = .error ⟨prepareSizeMessage⟩ := by
  rw [buildPrepareMessage_eq, if_neg (by omega)]

/-- The partitions of a `CreateTopic` or `CreatePartitions`, numbered from 0, with the ids the
allocator hands out. -/
def assignPartitions (a : ConsensusGroupAllocator) (count : Nat) :
    Except Panic (ConsensusGroupAllocator × List CreatedPartitionAssignment) := do
  let (a, ids) ← a.allocateMany count
  -- `u32::try_from(partition_id)` cannot fail: there are at most `u32::MAX` partitions
  pure (a, ids.zipIdx.map fun (id, partitionId) => ⟨UInt32.ofNat partitionId, UInt64.ofNat id⟩)

theorem assignPartitions_spec {a : ConsensusGroupAllocator} {count : Nat}
    (h : a.highest + count < 2 ^ 64) :
    ∃ partitions, assignPartitions a count = .ok (⟨a.highest + count⟩, partitions) ∧
      partitions.length = count ∧
      partitions.map (fun p => p.consensusGroupId.toNat) =
        (List.range count).map (a.highest + 1 + ·) := by
  refine ⟨((List.range count).map (a.highest + 1 + ·)).zipIdx.map
    fun (id, partitionId) => ⟨UInt32.ofNat partitionId, UInt64.ofNat id⟩, ?_, ?_, ?_⟩
  · simp only [assignPartitions, ConsensusGroupAllocator.allocateMany,
      ConsensusGroupAllocator.allocateFrom_spec h, bind, Except.bind, pure, Except.pure]
  · simp
  · simp only [List.map_map, Function.comp_def]
    -- every allocated id is below `2 ^ 64`, so `u64` keeps it
    have hfits : ∀ x ∈ ((List.range count).map (a.highest + 1 + ·)).zipIdx,
        (UInt64.ofNat x.1).toNat = x.1 := by
      intro x hx
      obtain ⟨i, hi, hx1⟩ := List.mem_map.mp (List.fst_mem_of_mem_zipIdx hx)
      simp only [List.mem_range] at hi
      have hsize : UInt64.size = 2 ^ 64 := rfl
      exact UInt64.toNat_ofNat_of_lt' (by rw [← hx1]; omega)
    rw [List.map_congr_left hfits, List.zipIdx_map_fst]

/-- The highest of the ids `c + 1, ..., c + n`. -/
theorem max?_allocated (c n : Nat) :
    ((List.range n).map (c + 1 + ·)).max? = if n = 0 then none else some (c + n) := by
  split
  · subst_vars
    rfl
  · rw [List.max?_eq_some_iff]
    constructor
    · exact List.mem_map.mpr ⟨n - 1, List.mem_range.mpr (by omega), by omega⟩
    · intro b hb
      obtain ⟨i, hi, rfl⟩ := List.mem_map.mp hb
      simp only [List.mem_range] at hi
      omega

/-- What the primary keeps of the streams state machine here: whether a topic exists, by
`current_partition_count`. -/
abbrev PartitionCounts := WireIdentifier → WireIdentifier → Option Nat

/-- `IggyMetadata::prepare_request`. -/
def prepareRequest (s : VsrConsensus) (a : ConsensusGroupAllocator) (streams : PartitionCounts)
    (now : Nat) (message : Message RequestHeader) :
    Except Panic (Except IggyError
      (VsrConsensus × ConsensusGroupAllocator × Message PrepareHeader)) :=
  let header := message.header
  if !header.operation.isClientAllowed then .ok (.error .invalidCommand)
  else
    let body := message.body
    match header.operation with
    | .createTopic =>
      match CreateTopicRequest.decodeFrom body with
      | .error _ => .ok (.error .invalidCommand)
      | .ok request => do
        let (a, partitions) ← assignPartitions a request.partitionsCount.toNat
        let body := CreateTopicWithAssignmentsRequest.toBytes ⟨request, partitions⟩
        let (s, prepare) ← buildPrepareMessage s now header .createTopicWithAssignments body
        pure (.ok (s, a, prepare))
    | .createPartitions =>
      match CreatePartitionsRequest.decodeFrom body with
      | .error _ => .ok (.error .invalidCommand)
      | .ok request =>
        match streams request.streamId request.topicId with
        | none => .ok (.error .invalidCommand)
        | some _ => do
          let (a, partitions) ← assignPartitions a request.partitionsCount.toNat
          let body := CreatePartitionsWithAssignmentsRequest.toBytes ⟨request, partitions⟩
          let (s, prepare) ←
            buildPrepareMessage s now header .createPartitionsWithAssignments body
          pure (.ok (s, a, prepare))
    | _ =>
      let (s, prepare) := project s now message
      .ok (.ok (s, a, prepare))

/-! ## Reading the assignments back -/

/-- The arm `observe_prepare_runtime_state` runs for each of the two persisted bodies: decode
it, take the highest consensus group id and let the allocator observe it. `expect` on a failed
decode panics with its message followed by the error, which is not modelled here. -/
def observeAssignments {α : Type}
    (decodeFrom : List UInt8 → Except WireError (WithAssignments α))
    (decodeMessage allocateMessage : String) (a : ConsensusGroupAllocator)
    (body : List UInt8) : Except Panic ConsensusGroupAllocator :=
  match decodeFrom body with
  | .error _ => .error ⟨decodeMessage⟩
  | .ok request =>
    match (request.partitions.map fun p => p.consensusGroupId.toNat).max? with
    | none => .error ⟨allocateMessage⟩
    | some highest => .ok (a.observe highest)

/-- `IggyMetadata::observe_prepare_runtime_state`. -/
def observePrepareRuntimeState (a : ConsensusGroupAllocator) (prepare : Message PrepareHeader) :
    Except Panic ConsensusGroupAllocator :=
  match prepare.header.operation with
  | .createTopicWithAssignments =>
    observeAssignments CreateTopicWithAssignmentsRequest.decodeFrom
      "create topic with assignments prepare must decode"
      "create topic with assignments must allocate partitions" a prepare.body
  | .createPartitionsWithAssignments =>
    observeAssignments CreatePartitionsWithAssignmentsRequest.decodeFrom
      "create partitions with assignments prepare must decode"
      "create partitions with assignments must allocate partitions" a prepare.body
  | _ => .ok a

/-! ## A `CreateTopic` on its way through the replicas -/

section CreateTopic

variable {s : VsrConsensus} {a : ConsensusGroupAllocator} {streams : PartitionCounts} {now : Nat}
  {message : Message RequestHeader} {request : CreateTopicRequest}

/-- The bytes of a persisted `CreateTopicWithAssignments`: two `u32` sizes, the request, and
twelve bytes per assignment. -/
theorem length_toBytes_createTopic (x : CreateTopicWithAssignmentsRequest) :
    (CreateTopicWithAssignmentsRequest.toBytes x).length =
      8 + x.request.encode.length + 12 * x.partitions.length := by
  have hflat : (x.partitions.flatMap CreatedPartitionAssignment.encode).length =
      12 * x.partitions.length := by
    induction x.partitions with
    | nil => rfl
    | cons p ps ih =>
      simp only [List.flatMap_cons, List.length_append, ih, List.length_cons,
        CreatedPartitionAssignment.encode, length_putU32Le, length_putU64Le]
      omega
  simp only [CreateTopicWithAssignmentsRequest.toBytes, encodeWithAssignments,
    List.length_append, length_putU32Le, hflat]
  omega

/-- The primary turns a decodable `CreateTopic` into the prepare `build_prepare_message`
builds from a `CreateTopicWithAssignments` body that persists the request and one assignment
per partition. -/
theorem prepareRequest_createTopic (hop : message.header.operation = .createTopic)
    (hdecode : CreateTopicRequest.decodeFrom message.body = .ok request)
    (hroom : a.highest + request.partitionsCount.toNat < 2 ^ 64) :
    ∃ partitions, prepareRequest s a streams now message =
        (buildPrepareMessage s now message.header .createTopicWithAssignments
            (CreateTopicWithAssignmentsRequest.toBytes ⟨request, partitions⟩)).map
          (fun r => .ok (r.1, ⟨a.highest + request.partitionsCount.toNat⟩, r.2)) ∧
      partitions.length = request.partitionsCount.toNat ∧
      partitions.map (fun p => p.consensusGroupId.toNat) =
        (List.range request.partitionsCount.toNat).map (a.highest + 1 + ·) := by
  obtain ⟨partitions, hassign, hlen, hids⟩ := assignPartitions_spec hroom
  refine ⟨partitions, ?_, hlen, hids⟩
  simp only [prepareRequest, hop, hdecode, hassign, bind, Except.bind,
    pure, Except.pure]
  cases buildPrepareMessage s now message.header .createTopicWithAssignments
    (CreateTopicWithAssignmentsRequest.toBytes ⟨request, partitions⟩) <;> rfl

/-- Every replica reads the assignments of such a prepare back, and panics exactly when there
are none: the highest id is that of the last partition. -/
theorem observe_createTopicWithAssignments (b : ConsensusGroupAllocator)
    {prepare : Message PrepareHeader} {partitions : List CreatedPartitionAssignment} {c : Nat}
    (hop : prepare.header.operation = .createTopicWithAssignments)
    (hbody : prepare.body = CreateTopicWithAssignmentsRequest.toBytes ⟨request, partitions⟩)
    (hlen : partitions.length = request.partitionsCount.toNat)
    (hids : partitions.map (fun p => p.consensusGroupId.toNat) =
      (List.range request.partitionsCount.toNat).map (c + 1 + ·)) :
    observePrepareRuntimeState b prepare =
      if request.partitionsCount = 0 then
        .error ⟨"create topic with assignments must allocate partitions"⟩
      else .ok (b.observe (c + request.partitionsCount.toNat)) := by
  have hcount : partitions.length < 2 ^ 32 := by
    rw [hlen]
    exact request.partitionsCount.toNat_lt
  have hzero : request.partitionsCount = 0 ↔ request.partitionsCount.toNat = 0 := by
    constructor
    · intro h
      simp [h]
    · intro h
      exact UInt32.toNat_inj.mp h
  simp only [observePrepareRuntimeState, hop, observeAssignments, hbody,
    CreateTopicWithAssignmentsRequest.decodeFrom_toBytes ⟨request, partitions⟩ hcount, hids,
    max?_allocated]
  by_cases h : request.partitionsCount = 0
  · simp [h]
  · simp [h, hzero.not.mp h]

/-- A decodable `CreateTopic` becomes a prepare when its persisted body fits a message of
`u32::MAX` bytes, and every replica that runs `observe_prepare_runtime_state` on it, the
primary first, raises its allocator past the allocated groups, or panics when the request
asked for no partitions. A larger body makes the primary panic in `build_prepare_message`. -/
theorem create_topic_prepare_observed (hop : message.header.operation = .createTopic)
    (hdecode : CreateTopicRequest.decodeFrom message.body = .ok request)
    (hroom : a.highest + request.partitionsCount.toNat < 2 ^ 64) :
    (prepareHeaderSize + 8 + request.encode.length + 12 * request.partitionsCount.toNat <
        2 ^ 32 →
      ∃ s' prepare, prepareRequest s a streams now message =
          .ok (.ok (s', ⟨a.highest + request.partitionsCount.toNat⟩, prepare)) ∧
        prepare.header.operation = .createTopicWithAssignments ∧
        ∀ b : ConsensusGroupAllocator, observePrepareRuntimeState b prepare =
          if request.partitionsCount = 0 then
            .error ⟨"create topic with assignments must allocate partitions"⟩
          else .ok (b.observe (a.highest + request.partitionsCount.toNat))) ∧
    (2 ^ 32 ≤ prepareHeaderSize + 8 + request.encode.length + 12 * request.partitionsCount.toNat →
      prepareRequest s a streams now message = .error ⟨prepareSizeMessage⟩) := by
  obtain ⟨partitions, hprep, hlen, hids⟩ := prepareRequest_createTopic hop hdecode hroom
  have hsize : prepareHeaderSize + (CreateTopicWithAssignmentsRequest.toBytes
      ⟨request, partitions⟩).length =
      prepareHeaderSize + 8 + request.encode.length + 12 * request.partitionsCount.toNat := by
    simp only [length_toBytes_createTopic, hlen]
    omega
  refine ⟨fun hfit => ?_, fun hbig => ?_⟩
  · -- the message fits: the prepare is built, and carries the persisted body
    obtain ⟨⟨s', prepare⟩, hbuild⟩ := (buildPrepareMessage_isOk s now message.header
      .createTopicWithAssignments _).mpr (hsize ▸ hfit)
    obtain ⟨hop', hbody⟩ := buildPrepareMessage_ok hbuild
    rw [hbuild] at hprep
    exact ⟨s', prepare, hprep, hop', fun b => observe_createTopicWithAssignments b hop' hbody hlen hids⟩
  · rw [hprep, buildPrepareMessage_error (hsize ▸ hbig)]
    rfl

end CreateTopic

/-- A `CreateTopic` for three partitions of stream 1, on a fresh primary of three replicas,
and one for `u32::MAX` partitions, whose persisted body does not fit a message. -/
theorem create_topic_prepare_observed_three :
    (∃ s' prepare, prepareRequest (VsrConsensus.fresh 1 0 3 0 (by decide)).init ⟨0⟩
        (fun _ _ => none) 0
        ⟨⟨1, 256 + 30, 0, 0, .request, 0, 7, 0, 0, 1, .createTopic, 0, 1⟩,
          CreateTopicRequest.encode ⟨.numeric 1, 3, 0, 0, 0, 1, ⟨"t", by decide, by decide⟩⟩⟩ =
          .ok (.ok (s', ⟨3⟩, prepare)) ∧
      prepare.header.operation = .createTopicWithAssignments ∧
      ∀ b : ConsensusGroupAllocator, observePrepareRuntimeState b prepare = .ok (b.observe 3)) ∧
    prepareRequest (VsrConsensus.fresh 1 0 3 0 (by decide)).init ⟨0⟩ (fun _ _ => none) 0
        ⟨⟨1, 256 + 30, 0, 0, .request, 0, 7, 0, 0, 1, .createTopic, 0, 1⟩,
          CreateTopicRequest.encode
            ⟨.numeric 1, 4294967295, 0, 0, 0, 1, ⟨"t", by decide, by decide⟩⟩⟩ =
      .error ⟨prepareSizeMessage⟩ :=
  ⟨(@create_topic_prepare_observed _ _ _ _ _
      ⟨.numeric 1, 3, 0, 0, 0, 1, ⟨"t", by decide, by decide⟩⟩ rfl rfl (by decide)).1 (by decide),
    (@create_topic_prepare_observed _ _ _ _ _
      ⟨.numeric 1, 4294967295, 0, 0, 0, 1, ⟨"t", by decide, by decide⟩⟩ rfl rfl
      (by decide)).2 (by decide)⟩

/-- The same request for no partitions: the primary accepts it and builds its prepare, and then
panics, as every backup does, when it reads the assignments back. -/
theorem create_topic_zero_partitions_panics :
    ∃ s' prepare,
      prepareRequest (VsrConsensus.fresh 1 0 3 0 (by decide)).init ⟨0⟩ (fun _ _ => none) 0
        ⟨⟨1, 256 + 30, 0, 0, .request, 0, 7, 0, 0, 1, .createTopic, 0, 1⟩,
          CreateTopicRequest.encode ⟨.numeric 1, 0, 0, 0, 0, 1, ⟨"t", by decide, by decide⟩⟩⟩ =
        .ok (.ok (s', ⟨0⟩, prepare)) ∧
      observePrepareRuntimeState ⟨0⟩ prepare =
        .error ⟨"create topic with assignments must allocate partitions"⟩ :=
  ⟨_, _, rfl, rfl⟩

end IggyCore.Metadata
