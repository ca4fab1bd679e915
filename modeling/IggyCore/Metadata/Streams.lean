import IggyCore.Library.Slab
import IggyCore.Wire.Identifier
import IggyCore.Consensus.Pipeline
import IggyCore.Wire.Requests
import IggyCore.Wire.Namespace
import Mathlib.Data.List.AList

/-!
# The streams state machine and its snapshot

`Streams` of `core/metadata/src/stm/stream.rs`: the streams live in a slab whose keys are their
ids, with an index from names to ids; each stream keeps its topics the same way, and each topic
its partitions in a vector. The commands are `CreateStream`, `UpdateStream`, `DeleteStream`,
`CreateTopicWithAssignments`, `UpdateTopic`, `DeleteTopic`, `CreatePartitionsWithAssignments`
and `DeletePartitions`, each applied at the timestamp its prepare carries and answering with
the bytes of its reply. `PurgeStream` and `PurgeTopic` are `todo!()` in the source.

A checkpoint keeps `to_snapshot`: for each occupied key, in key order, the stream's fields and
its topics' fields. `from_snapshot` rebuilds the slabs from those pairs and the indexes from
the names. The ids a restored state hands out next come from the rebuilt slab's vacant list,
which `to_snapshot` does not record.

A `HashMap` index is an `AList`. Topics and partitions are kept with the fields the snapshot
copies. `IggyTimestamp`, `IggyExpiry` and `MaxTopicSize` are the numbers they wrap, and a
`CompressionAlgorithm` its code.
-/

namespace IggyCore.Metadata

open IggyCore.Library IggyCore.Wire IggyCore.Consensus

/-- `StatsSnapshot`, and what a stream's or topic's stats hold. -/
structure Stats where
  sizeBytes : Nat
  messagesCount : Nat
  segmentsCount : Nat
  deriving DecidableEq, Repr

/-- `Partition`, which its snapshot copies field by field. -/
structure Partition where
  id : Nat
  consensusGroupId : Nat
  createdAt : Nat
  deriving DecidableEq, Repr

/-- `Topic`, which its snapshot copies field by field. -/
structure Topic where
  id : Nat
  name : String
  createdAt : Nat
  replicationFactor : Nat
  messageExpiry : Nat
  compressionAlgorithm : Nat
  maxTopicSize : Nat
  stats : Stats
  partitions : List Partition
  roundRobinCounter : Nat
  deriving DecidableEq, Repr

/-- A name index, `AHashMap<Arc<str>, usize>`. -/
abbrev NameIndex := AList (fun _ : String => Nat)

structure Stream where
  id : Nat
  name : String
  createdAt : Nat
  stats : Stats
  topics : Slab Topic
  topicIndex : NameIndex
  deriving DecidableEq

/-- `StreamsInner`, without the `last_result` cache that no command reads. -/
structure StreamsInner where
  index : NameIndex
  items : Slab Stream
  deriving DecidableEq

namespace StreamsInner

def default : StreamsInner := ⟨∅, .new⟩

/-- The panic of the slab crate's `unreachable!("invalid key")`. -/
def invalidKey : Panic := ⟨"internal error: entered unreachable code: invalid key"⟩

def resolveStreamId (s : StreamsInner) (identifier : WireIdentifier) : Option Nat :=
  match identifier with
  | .numeric id => if s.items.contains id.toNat then some id.toNat else none
  | .string name => s.index.lookup name.value

/-- `StreamResponse` with no topics, as `GetStreamResponse::to_bytes` writes it. -/
def streamResponseBytes (id createdAt : Nat) (name : WireName) : List UInt8 :=
  putU32Le (UInt32.ofNat id) ++ putU64Le (UInt64.ofNat createdAt) ++ putU32Le 0 ++
    putU64Le 0 ++ putU64Le 0 ++ name.encode

/-- `CreateStreamRequest::apply`: a new stream at the slab's next key, which becomes its id. -/
def createStream (s : StreamsInner) (name : WireName) (timestamp : Nat) :
    Except Panic (StreamsInner × List UInt8) :=
  if (s.index.lookup name.value).isSome then .ok (s, [])
  else
    let stream : Stream := ⟨0, name.value, timestamp, ⟨0, 0, 0⟩, .new, ∅⟩
    match s.items.insert stream with
    | none => .error invalidKey
    | some (items, id) =>
      let items := { items with
        entries := items.entries.set id (.occupied { stream with id }) }
      .ok (⟨s.index.insert name.value id, items⟩, streamResponseBytes id timestamp name)

/-- `UpdateStreamRequest::apply`: rename, unless another stream has the name. -/
def updateStream (s : StreamsInner) (streamId : WireIdentifier) (name : WireName) :
    StreamsInner × List UInt8 :=
  match s.resolveStreamId streamId with
  | none => (s, [])
  | some id =>
    match s.items.get id with
    | none => (s, [])
    | some stream =>
      match s.index.lookup name.value with
      | some existing => if existing ≠ id then (s, []) else rename s id stream name
      | none => rename s id stream name
where
  rename (s : StreamsInner) (id : Nat) (stream : Stream) (name : WireName) :
      StreamsInner × List UInt8 :=
    let index := (s.index.erase stream.name).insert name.value id
    let items := { s.items with
      entries := s.items.entries.set id (.occupied { stream with name := name.value }) }
    (⟨index, items⟩, [])

/-- `DeleteStreamRequest::apply`. -/
def deleteStream (s : StreamsInner) (streamId : WireIdentifier) :
    Except Panic (StreamsInner × List UInt8) :=
  match s.resolveStreamId streamId with
  | none => .ok (s, [])
  | some id =>
    match s.items.get id with
    | none => .ok (s, [])
    | some stream =>
      match s.items.tryRemove id with
      | none => .error ⟨"invalid key"⟩
      | some (items, _) => .ok (⟨s.index.erase stream.name, items⟩, [])

/-! ### Topics and partitions -/

/-- `resolve_topic_id`: a topic of the live stream `streamId`. -/
def resolveTopicId (s : StreamsInner) (streamId : Nat) (identifier : WireIdentifier) :
    Option Nat := do
  let stream ← s.items.get streamId
  match identifier with
  | .numeric id => if stream.topics.contains id.toNat then some id.toNat else none
  | .string name => stream.topicIndex.lookup name.value

/-- `get_mut` on the live stream `streamId`, and the change written back. -/
def setStream (s : StreamsInner) (streamId : Nat) (stream : Stream) : StreamsInner :=
  { s with items := { s.items with entries := s.items.entries.set streamId (.occupied stream) } }

@[simp] theorem setStream_index (s : StreamsInner) (streamId : Nat) (stream : Stream) :
    (s.setStream streamId stream).index = s.index := rfl

theorem get_setStream {s : StreamsInner} {streamId : Nat} {old : Stream}
    (hlive : s.items.get streamId = some old) (stream : Stream) (j : Nat) :
    (s.setStream streamId stream).items.get j =
      if j = streamId then some stream else s.items.get j :=
  Slab.get_set_occupied (Slab.key_lt_of_get hlive) stream j

end StreamsInner

/-- `get_mut` on the live topic `topicId` of a stream, and the change written back. -/
def Stream.setTopic (stream : Stream) (topicId : Nat) (topic : Topic) : Stream :=
  { stream with topics := { stream.topics with
      entries := stream.topics.entries.set topicId (.occupied topic) } }

namespace Stream

@[simp] theorem setTopic_id (stream : Stream) (topicId : Nat) (topic : Topic) :
    (stream.setTopic topicId topic).id = stream.id := rfl

@[simp] theorem setTopic_name (stream : Stream) (topicId : Nat) (topic : Topic) :
    (stream.setTopic topicId topic).name = stream.name := rfl

@[simp] theorem setTopic_topicIndex (stream : Stream) (topicId : Nat) (topic : Topic) :
    (stream.setTopic topicId topic).topicIndex = stream.topicIndex := rfl

theorem get_setTopic {stream : Stream} {topicId : Nat} {old : Topic}
    (hlive : stream.topics.get topicId = some old) (topic : Topic) (j : Nat) :
    (stream.setTopic topicId topic).topics.get j =
      if j = topicId then some topic else stream.topics.get j :=
  Slab.get_set_occupied (Slab.key_lt_of_get hlive) topic j

end Stream

namespace StreamsInner

/-- `CompressionAlgorithm::from_code(code).unwrap_or_default()`, as its code: `None` (1) and
`Gzip` (2), and `None` for any other code. -/
def compressionAlgorithmFromCode (code : UInt8) : Nat :=
  if code = 1 ∨ code = 2 then code.toNat else 1

/-- The partitions of `CreateTopicWithAssignments`, in the order of the assignments. -/
def assignedPartitions (partitions : List CreatedPartitionAssignment) (timestamp : Nat) :
    List Partition :=
  partitions.map fun p => ⟨p.partitionId.toNat, p.consensusGroupId.toNat, timestamp⟩

/-- `GetTopicResponse` of a new topic: its header, then each assigned partition at offset 0. -/
def topicResponseBytes (topicId timestamp : Nat) (replicationFactor : UInt8)
    (x : CreateTopicWithAssignmentsRequest) : List UInt8 :=
  putU32Le (UInt32.ofNat topicId) ++ putU64Le (UInt64.ofNat timestamp) ++
    putU32Le (UInt32.ofNat x.partitions.length) ++ putU64Le x.request.messageExpiry ++
    [x.request.compressionAlgorithm] ++ putU64Le x.request.maxTopicSize ++ [replicationFactor] ++
    putU64Le 0 ++ putU64Le 0 ++ x.request.name.encode ++
    x.partitions.flatMap fun p =>
      putU32Le p.partitionId ++ putU64Le (UInt64.ofNat timestamp) ++ putU32Le 0 ++ putU64Le 0 ++
        putU64Le 0 ++ putU64Le 0

/-- `CreateTopicWithAssignmentsRequest::apply`: a new topic at the stream's next topic key,
which becomes its id, with the assigned partitions. -/
def createTopicWithAssignments (s : StreamsInner) (x : CreateTopicWithAssignmentsRequest)
    (timestamp : Nat) : Except Panic (StreamsInner × List UInt8) :=
  match s.resolveStreamId x.request.streamId with
  | none => .ok (s, [])
  | some streamId =>
    match s.items.get streamId with
    | none => .ok (s, [])
    | some stream =>
      if (stream.topicIndex.lookup x.request.name.value).isSome then .ok (s, [])
      else
        let replicationFactor :=
          if x.request.replicationFactor = 0 then 1 else x.request.replicationFactor
        let topic : Topic := ⟨0, x.request.name.value, timestamp, replicationFactor.toNat,
          x.request.messageExpiry.toNat, compressionAlgorithmFromCode x.request.compressionAlgorithm,
          x.request.maxTopicSize.toNat, ⟨0, 0, 0⟩, [], 0⟩
        match stream.topics.insert topic with
        | none => .error invalidKey
        | some (topics, topicId) =>
          let stream := { stream with topics, topicIndex := stream.topicIndex.insert topic.name topicId }
          let stream := stream.setTopic topicId
            { topic with id := topicId, partitions := assignedPartitions x.partitions timestamp }
          .ok (s.setStream streamId stream,
            topicResponseBytes topicId timestamp replicationFactor x)

/-- `UpdateTopicRequest::apply`: rename unless another topic of the stream has the name, and
set the other fields; a replication factor of 0 keeps the old one. -/
def updateTopic (s : StreamsInner) (r : UpdateTopicRequest) : StreamsInner × List UInt8 :=
  match s.resolveStreamId r.streamId with
  | none => (s, [])
  | some streamId =>
    match s.resolveTopicId streamId r.topicId with
    | none => (s, [])
    | some topicId =>
      match s.items.get streamId with
      | none => (s, [])
      | some stream =>
        match stream.topics.get topicId with
        | none => (s, [])
        | some topic =>
          if (stream.topicIndex.lookup r.name.value).any (· != topicId) then (s, [])
          else
            let topicIndex := (stream.topicIndex.erase topic.name).insert r.name.value topicId
            let topic := { topic with
              name := r.name.value
              compressionAlgorithm := compressionAlgorithmFromCode r.compressionAlgorithm
              messageExpiry := r.messageExpiry.toNat
              maxTopicSize := r.maxTopicSize.toNat
              replicationFactor :=
                if r.replicationFactor ≠ 0 then r.replicationFactor.toNat
                else topic.replicationFactor }
            (s.setStream streamId ({ stream with topicIndex }.setTopic topicId topic), [])

/-- `DeleteTopicRequest::apply`. -/
def deleteTopic (s : StreamsInner) (r : DeleteTopicRequest) :
    Except Panic (StreamsInner × List UInt8) :=
  match s.resolveStreamId r.streamId with
  | none => .ok (s, [])
  | some streamId =>
    match s.resolveTopicId streamId r.topicId with
    | none => .ok (s, [])
    | some topicId =>
      match s.items.get streamId with
      | none => .ok (s, [])
      | some stream =>
        match stream.topics.get topicId with
        | none => .ok (s, [])
        | some topic =>
          match stream.topics.tryRemove topicId with
          | none => .error ⟨"invalid key"⟩
          | some (topics, _) =>
            .ok (s.setStream streamId
              { stream with topics, topicIndex := stream.topicIndex.erase topic.name }, [])

/-- The first partition id `CreatePartitionsWithAssignments` gives: one past the highest
(`checked_add` on `usize`), or 0. -/
def basePartitionId (partitions : List Partition) : Nat :=
  match (partitions.map Partition.id).max? with
  | some highest => if highest + 1 < 2 ^ 64 then highest + 1 else 0
  | none => 0

/-- The loop of `CreatePartitionsWithAssignmentsRequest::apply`: each assignment's id offset by
`base`; one whose sum leaves `u32` ends the command, keeping what was pushed before it. -/
def pushPartitions (base timestamp : Nat) :
    List Partition → List CreatedPartitionAssignment → List Partition
  | partitions, [] => partitions
  | partitions, p :: ps =>
    if p.partitionId.toNat + base < 2 ^ 32 then
      pushPartitions base timestamp
        (partitions ++ [⟨p.partitionId.toNat + base, p.consensusGroupId.toNat, timestamp⟩]) ps
    else partitions

/-- `CreatePartitionsWithAssignmentsRequest::apply`. -/
def createPartitionsWithAssignments (s : StreamsInner) (x : CreatePartitionsWithAssignmentsRequest)
    (timestamp : Nat) : StreamsInner × List UInt8 :=
  match s.resolveStreamId x.request.streamId with
  | none => (s, [])
  | some streamId =>
    match s.resolveTopicId streamId x.request.topicId with
    | none => (s, [])
    | some topicId =>
      match s.items.get streamId with
      | none => (s, [])
      | some stream =>
        match stream.topics.get topicId with
        | none => (s, [])
        | some topic =>
          let base := basePartitionId topic.partitions
          -- `u32::try_from(base_partition_id)`
          if base < 2 ^ 32 then
            let partitions := pushPartitions base timestamp topic.partitions x.partitions
            (s.setStream streamId (stream.setTopic topicId { topic with partitions }), [])
          else (s, [])

/-- `DeletePartitionsRequest::apply`: drop the last `partitions_count` partitions, if there are
that many and more than none. -/
def deletePartitions (s : StreamsInner) (r : DeletePartitionsRequest) :
    StreamsInner × List UInt8 :=
  match s.resolveStreamId r.streamId with
  | none => (s, [])
  | some streamId =>
    match s.resolveTopicId streamId r.topicId with
    | none => (s, [])
    | some topicId =>
      match s.items.get streamId with
      | none => (s, [])
      | some stream =>
        match stream.topics.get topicId with
        | none => (s, [])
        | some topic =>
          let count := r.partitionsCount.toNat
          if 0 < count ∧ count ≤ topic.partitions.length then
            let partitions := topic.partitions.take (topic.partitions.length - count)
            (s.setStream streamId (stream.setTopic topicId { topic with partitions }), [])
          else (s, [])

/-- `Streams::namespace_from_partition`: the namespace of a live partition. -/
def namespaceFromPartition (s : StreamsInner) (streamId topicId : WireIdentifier)
    (partitionId : UInt32) : Option IggyNamespace := do
  let streamId ← s.resolveStreamId streamId
  let topicId ← s.resolveTopicId streamId topicId
  let stream ← s.items.get streamId
  let topic ← stream.topics.get topicId
  -- `usize::try_from(partition_id)` cannot fail on a 64-bit target
  let partitionId := partitionId.toNat
  if topic.partitions.any (·.id == partitionId) then
    some (IggyNamespace.new streamId topicId partitionId)
  else none

theorem namespaceFromPartition_eq {s : StreamsInner} {streamIdentifier topicIdentifier : WireIdentifier}
    {streamId topicId : Nat} {stream : Stream} {topic : Topic} {partitionId : UInt32}
    (hstreamId : s.resolveStreamId streamIdentifier = some streamId)
    (htopicId : s.resolveTopicId streamId topicIdentifier = some topicId)
    (hstream : s.items.get streamId = some stream) (htopic : stream.topics.get topicId = some topic)
    (hlive : ∃ p ∈ topic.partitions, p.id = partitionId.toNat) :
    s.namespaceFromPartition streamIdentifier topicIdentifier partitionId =
      some (IggyNamespace.new streamId topicId partitionId.toNat) := by
  have hany : topic.partitions.any (·.id == partitionId.toNat) = true := by
    obtain ⟨p, hp, hid⟩ := hlive
    exact List.any_eq_true.mpr ⟨p, hp, by simp [hid]⟩
  simp only [namespaceFromPartition, hstreamId, htopicId, hstream, htopic, Option.bind_eq_bind,
    Option.bind_some, hany, if_true]

end StreamsInner

/-- The commands of the `Streams` state machine. -/
inductive StreamsCommand
  | createStream (name : WireName)
  | updateStream (streamId : WireIdentifier) (name : WireName)
  | deleteStream (streamId : WireIdentifier)
  | createTopicWithAssignments (x : CreateTopicWithAssignmentsRequest)
  | updateTopic (r : UpdateTopicRequest)
  | deleteTopic (r : DeleteTopicRequest)
  | createPartitionsWithAssignments (x : CreatePartitionsWithAssignmentsRequest)
  | deletePartitions (r : DeletePartitionsRequest)

namespace StreamsInner

def apply (s : StreamsInner) (timestamp : Nat) :
    StreamsCommand → Except Panic (StreamsInner × List UInt8)
  | .createStream name => s.createStream name timestamp
  | .updateStream streamId name => .ok (s.updateStream streamId name)
  | .deleteStream streamId => s.deleteStream streamId
  | .createTopicWithAssignments x => s.createTopicWithAssignments x timestamp
  | .updateTopic r => .ok (s.updateTopic r)
  | .deleteTopic r => s.deleteTopic r
  | .createPartitionsWithAssignments x => .ok (s.createPartitionsWithAssignments x timestamp)
  | .deletePartitions r => .ok (s.deletePartitions r)

/-- Apply commands in order, each at its prepare's timestamp, collecting the replies. -/
def run (s : StreamsInner) : List (StreamsCommand × Nat) →
    Except Panic (StreamsInner × List (List UInt8))
  | [] => .ok (s, [])
  | (c, timestamp) :: cs => do
    let (s, reply) ← s.apply timestamp c
    let (s, replies) ← s.run cs
    pure (s, reply :: replies)

end StreamsInner

/-! ## Snapshots -/

structure StreamSnapshot where
  id : Nat
  name : String
  createdAt : Nat
  stats : Stats
  topics : List (Nat × Topic)
  deriving DecidableEq, Repr

structure StreamsSnapshot where
  items : List (Nat × StreamSnapshot)
  deriving DecidableEq, Repr

/-- `Snapshotable::to_snapshot`: every occupied key with its stream, in key order. -/
def toSnapshot (s : StreamsInner) : StreamsSnapshot :=
  ⟨s.items.iter.map fun (streamId, stream) =>
    (streamId, ⟨stream.id, stream.name, stream.createdAt, stream.stats, stream.topics.iter⟩)⟩

/-- The stream `from_snapshot` rebuilds, with its topic slab and topic index. -/
def restoreStream (snap : StreamSnapshot) : Option Stream := do
  let topics ← Slab.fromIter snap.topics
  let topicIndex := snap.topics.foldl (fun index (key, topic) => index.insert topic.name key) ∅
  pure ⟨snap.id, snap.name, snap.createdAt, snap.stats, topics, topicIndex⟩

/-- `Snapshotable::from_snapshot`; `none` is the slab builder's `unreachable!`. -/
def fromSnapshot (snap : StreamsSnapshot) : Option StreamsInner := do
  let entries ← snap.items.mapM fun (key, stream) => do pure (key, ← restoreStream stream)
  let items ← Slab.fromIter entries
  let index := snap.items.foldl (fun index (key, stream) => index.insert stream.name key) ∅
  pure ⟨index, items⟩

/-! ## Restoring from a snapshot

A snapshot lists the occupied keys but not the order of the vacant list. Two histories that
delete the same streams in opposite orders leave one snapshot, and the next `CreateStream` of
each takes a different key; no restore from the snapshot can answer like both. -/

/-- Create the streams `a`, `b` and `c` (ids 0, 1 and 2), then delete two of them by id. -/
def createThreeDeleteTwo (first second : UInt32) : List (StreamsCommand × Nat) :=
  [(.createStream ⟨"a", by decide, by decide⟩, 0), (.createStream ⟨"b", by decide, by decide⟩, 0),
    (.createStream ⟨"c", by decide, by decide⟩, 0), (.deleteStream (.numeric first), 0),
    (.deleteStream (.numeric second), 0)]

theorem from_snapshot_assigns_other_id :
    ∃ s replies restored,
      StreamsInner.default.run (createThreeDeleteTwo 1 0) = .ok (s, replies) ∧
      fromSnapshot (toSnapshot s) = some restored ∧
      (s.run [(.createStream ⟨"d", by decide, by decide⟩, 0)]).map Prod.snd =
        .ok [StreamsInner.streamResponseBytes 0 0 ⟨"d", by decide, by decide⟩] ∧
      (restored.run [(.createStream ⟨"d", by decide, by decide⟩, 0)]).map Prod.snd =
        .ok [StreamsInner.streamResponseBytes 1 0 ⟨"d", by decide, by decide⟩] :=
  ⟨_, _, _, rfl, rfl, by decide, by decide⟩

theorem delete_order_same_snapshot :
    ∃ s₁ r₁ s₂ r₂,
      StreamsInner.default.run (createThreeDeleteTwo 0 1) = .ok (s₁, r₁) ∧
      StreamsInner.default.run (createThreeDeleteTwo 1 0) = .ok (s₂, r₂) ∧
      toSnapshot s₁ = toSnapshot s₂ ∧
      (s₁.run [(.createStream ⟨"d", by decide, by decide⟩, 0)]).map Prod.snd ≠
        (s₂.run [(.createStream ⟨"d", by decide, by decide⟩, 0)]).map Prod.snd :=
  ⟨_, _, _, _, rfl, rfl, by decide, by decide⟩

theorem snapshot_does_not_determine_replies (restore : StreamsSnapshot → StreamsInner) :
    ∃ history s replies, StreamsInner.default.run history = .ok (s, replies) ∧
      ((restore (toSnapshot s)).run [(.createStream ⟨"d", by decide, by decide⟩, 0)]).map
          Prod.snd ≠
        (s.run [(.createStream ⟨"d", by decide, by decide⟩, 0)]).map Prod.snd := by
  obtain ⟨s₁, r₁, s₂, r₂, hrun₁, hrun₂, hsnap, hdiff⟩ := delete_order_same_snapshot
  -- the restored state answers like at most one of two histories with one snapshot
  by_cases hsame :
      ((restore (toSnapshot s₁)).run [(.createStream ⟨"d", by decide, by decide⟩, 0)]).map
        Prod.snd = (s₁.run [(.createStream ⟨"d", by decide, by decide⟩, 0)]).map Prod.snd
  · refine ⟨_, s₂, r₂, hrun₂, ?_⟩
    rw [← hsnap, hsame]
    exact hdiff
  · exact ⟨_, s₁, r₁, hrun₁, hsame⟩

/-! ## The names of the sample runs

The runs of the modules that build on this one name a stream `s` and a topic `t`. The bounds
of these names are proved here once, and the runs cite them by name. A `by decide` inside a
definition would become an auxiliary lemma of that definition, which a later definition with
the same statement reuses only where both are compiled together. -/

theorem utf8ByteSize_s_pos : 0 < "s".utf8ByteSize := by decide

theorem utf8ByteSize_s_le : "s".utf8ByteSize ≤ maxWireNameLength := by decide

theorem utf8ByteSize_t_pos : 0 < "t".utf8ByteSize := by decide

theorem utf8ByteSize_t_le : "t".utf8ByteSize ≤ maxWireNameLength := by decide

end IggyCore.Metadata
