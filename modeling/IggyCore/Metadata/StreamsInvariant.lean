import Mathlib
import IggyCore.Metadata.Streams
import IggyCore.Metadata.Prepare
import IggyCore.Library.KeyIndex

/-!
# The representation invariant of the streams state machine

The streams state machine keeps a slab beside a name index twice over: the streams, and in each
stream its topics. Every handler updates both by hand. `StreamsInner.Consistent` says what they
keep together:

* the name index is the inverse of the names of the live streams, and in each live stream the
  topic index is the inverse of the names of its live topics;
* every live stream's and topic's `id` is its slab key;
* the partitions of every topic are numbered `0, 1, ...` in vector order.

The partition ids come from the assignments a command carries, so the invariant is about runs
whose assignments are those `prepare_request` builds (`StreamsCommand.Prepared`). It holds of
the empty state, each handler keeps it (one lemma per handler, over an inversion lemma that
says what the handler can change), and so it holds after every run.
-/

namespace IggyCore.Metadata

open IggyCore.Library IggyCore.Wire

/-- The name of the stream at each key. -/
def StreamsInner.streamNameView (s : StreamsInner) (k : Nat) : Option String :=
  (s.items.get k).map Stream.name

/-- The name of the topic at each key of a stream. -/
def Stream.topicNameView (stream : Stream) (k : Nat) : Option String :=
  (stream.topics.get k).map Topic.name

/-- Partitions numbered `0, 1, ...` in vector order; their ids are `u32`s. -/
structure PartitionsNumbered (partitions : List Partition) : Prop where
  ids : partitions.map Partition.id = List.range partitions.length
  length_le : partitions.length ≤ 2 ^ 32

/-- The topic at slab key `key`. -/
structure TopicWellFormed (key : Nat) (topic : Topic) : Prop where
  id_eq : topic.id = key
  partitions : PartitionsNumbered topic.partitions

/-- The stream at slab key `key`. -/
structure StreamWellFormed (key : Nat) (stream : Stream) : Prop where
  id_eq : stream.id = key
  topics : InverseIndex stream.topicIndex.lookup stream.topicNameView
  topic_wf : ∀ k topic, stream.topics.get k = some topic → TopicWellFormed k topic

structure StreamsInner.Consistent (s : StreamsInner) : Prop where
  names : InverseIndex s.index.lookup s.streamNameView
  streams : ∀ k stream, s.items.get k = some stream → StreamWellFormed k stream

/-! ## Changing one entry of a slab -/

section Update

variable {key : Nat} {stream stream' : Stream}

theorem Stream.topicNameView_of_get {i : Nat} {entry : Option Topic}
    (hget : ∀ j, stream'.topics.get j = if j = i then entry else stream.topics.get j) (j : Nat) :
    stream'.topicNameView j = if j = i then entry.map Topic.name else stream.topicNameView j := by
  unfold Stream.topicNameView
  rw [hget j]
  split <;> rfl

/-- A stream whose topic slab differs from a well-formed one's at key `i` alone, where it holds
a well-formed topic or nothing, is well formed once its topic index is. -/
theorem StreamWellFormed.update (hwf : StreamWellFormed key stream) (hid : stream'.id = stream.id)
    {i : Nat} {entry : Option Topic}
    (hget : ∀ j, stream'.topics.get j = if j = i then entry else stream.topics.get j)
    (htopic : ∀ topic, entry = some topic → TopicWellFormed i topic)
    (htopics : InverseIndex stream'.topicIndex.lookup fun j =>
      if j = i then entry.map Topic.name else stream.topicNameView j) :
    StreamWellFormed key stream' := by
  refine ⟨hid.trans hwf.id_eq, htopics.congr (Stream.topicNameView_of_get hget), fun k topic hk => ?_⟩
  rw [hget k] at hk
  split at hk
  · rename_i hki
    subst hki
    exact htopic topic hk
  · exact hwf.topic_wf k topic hk

/-- Writing back a live topic under its own name. -/
theorem StreamWellFormed.setTopic (hwf : StreamWellFormed key stream) {i : Nat} {old topic : Topic}
    (hlive : stream.topics.get i = some old) (hname : topic.name = old.name)
    (htopic : TopicWellFormed i topic) : StreamWellFormed key (stream.setTopic i topic) := by
  have hget := Stream.get_setTopic hlive topic
  refine hwf.update rfl hget (fun _ h => Option.some.inj h ▸ htopic) (hwf.topics.congr fun j => ?_)
  split
  · rename_i hji
    subst hji
    simp [Stream.topicNameView, hlive, hname]
  · rfl

/-- Filing a topic with numbered partitions at the next key of the topic slab, which becomes its
id, under a name no topic has. -/
theorem StreamWellFormed.insertTopic (hwf : StreamWellFormed key stream) {topics : Slab Topic}
    {topicId : Nat} {topic : Topic} (hins : stream.topics.insert topic = some (topics, topicId))
    (hfresh : stream.topicIndex.lookup topic.name = none) {partitions : List Partition}
    (hparts : PartitionsNumbered partitions) :
    StreamWellFormed key
      ({ stream with topics, topicIndex := stream.topicIndex.insert topic.name topicId }.setTopic
        topicId { topic with id := topicId, partitions }) := by
  have hnew : topics.get topicId = some topic := by simp [Slab.get_insert hins]
  have hget : ∀ j, ({ stream with topics, topicIndex := stream.topicIndex.insert topic.name topicId
      }.setTopic topicId { topic with id := topicId, partitions }).topics.get j =
      if j = topicId then some { topic with id := topicId, partitions }
      else stream.topics.get j := fun j => by
    rw [Stream.get_setTopic hnew, Slab.get_insert hins]
    by_cases hj : j = topicId <;> simp [hj]
  have hfree : stream.topicNameView topicId = none := by
    simp [Stream.topicNameView, Slab.get_insert_key hins]
  exact hwf.update rfl hget (fun _ h => Option.some.inj h ▸ ⟨rfl, hparts⟩)
    (hwf.topics.alist_insert hfree hfresh fun _ => rfl)

/-- Renaming a live topic to a name no other topic has, keeping its id and partitions. -/
theorem StreamWellFormed.renameTopic (hwf : StreamWellFormed key stream) {topicId : Nat}
    {old topic : Topic} (hlive : stream.topics.get topicId = some old)
    (hother : ∀ j, stream.topicIndex.lookup topic.name = some j → j = topicId)
    (hid : topic.id = old.id) (hparts : topic.partitions = old.partitions) :
    StreamWellFormed key
      ({ stream with topicIndex := (stream.topicIndex.erase old.name).insert topic.name topicId
        }.setTopic topicId topic) := by
  have hold := hwf.topic_wf topicId old hlive
  have hname : stream.topicNameView topicId = some old.name := by
    simp [Stream.topicNameView, hlive]
  refine hwf.update rfl (Stream.get_setTopic hlive topic)
    (fun _ h => Option.some.inj h ▸ ⟨hid.trans hold.id_eq, hparts ▸ hold.partitions⟩) ?_
  exact hwf.topics.alist_rekey hname (fun j hj => hother j (hwf.topics.lookup_eq hj)) fun _ => rfl

/-- Removing a live topic and its name. -/
theorem StreamWellFormed.removeTopic (hwf : StreamWellFormed key stream) {topicId : Nat}
    {topic removed : Topic} {topics : Slab Topic} (hlive : stream.topics.get topicId = some topic)
    (hrem : stream.topics.tryRemove topicId = some (topics, removed)) :
    StreamWellFormed key { stream with topics, topicIndex := stream.topicIndex.erase topic.name } := by
  have hname : stream.topicNameView topicId = some topic.name := by
    simp [Stream.topicNameView, hlive]
  exact hwf.update rfl (Slab.get_tryRemove hrem) (fun _ h => by cases h)
    (hwf.topics.alist_erase hname fun _ => rfl)

/-- A stream with no topics. -/
theorem streamWellFormed_empty (hid : stream.id = key) (htopics : stream.topics = .new)
    (hindex : stream.topicIndex = ∅) : StreamWellFormed key stream where
  id_eq := hid
  topics := fun k i => by simp [Stream.topicNameView, htopics, hindex, Slab.new, Slab.get]
  topic_wf := fun k topic hk => by simp [htopics, Slab.new, Slab.get] at hk

end Update

/-! ## Numbered partitions -/

namespace PartitionsNumbered

variable {partitions : List Partition}

/-- Assignments numbered `0, 1, ...` are at most `2 ^ 32`: their ids are `u32`s. -/
theorem length_le_of_ids {xs : List CreatedPartitionAssignment}
    (hids : xs.map (fun p => p.partitionId.toNat) = List.range xs.length) :
    xs.length ≤ 2 ^ 32 := by
  by_contra hlong
  have hmem : 2 ^ 32 ∈ List.range xs.length := List.mem_range.mpr (by omega)
  rw [← hids] at hmem
  obtain ⟨p, -, hp⟩ := List.mem_map.mp hmem
  have := p.partitionId.toNat_lt
  omega

/-- The partitions of a new topic, from assignments numbered `0, 1, ...`. -/
theorem assigned {xs : List CreatedPartitionAssignment}
    (hids : xs.map (fun p => p.partitionId.toNat) = List.range xs.length) (timestamp : Nat) :
    PartitionsNumbered (StreamsInner.assignedPartitions xs timestamp) where
  ids := by
    rw [StreamsInner.assignedPartitions, List.map_map, List.length_map]
    exact hids
  length_le := by
    rw [StreamsInner.assignedPartitions, List.length_map]
    exact length_le_of_ids hids

/-- `DeletePartitions` keeps a prefix. -/
theorem take (h : PartitionsNumbered partitions) (n : Nat) :
    PartitionsNumbered (partitions.take n) where
  ids := by rw [List.map_take, h.ids, List.take_range, List.length_take]
  length_le := by
    have := h.length_le
    rw [List.length_take]
    omega

/-- The next id after partitions numbered `0, ..., n - 1` is `n`. -/
theorem basePartitionId_eq (h : PartitionsNumbered partitions) :
    StreamsInner.basePartitionId partitions = partitions.length := by
  have hbound := h.length_le
  unfold StreamsInner.basePartitionId
  rw [h.ids]
  split
  · rename_i highest hmax
    obtain ⟨hmem, hle⟩ := List.max?_eq_some_iff.mp hmax
    have hlt := List.mem_range.mp hmem
    -- the highest id is the last one
    have hlast : partitions.length - 1 ≤ highest := hle _ (List.mem_range.mpr (by omega))
    split <;> omega
  · rename_i hnone
    have hzero := List.max?_eq_none_iff.mp hnone
    rw [List.range_eq_nil] at hzero
    omega

/-- Pushing assignments numbered `m, m + 1, ...` onto the partitions `0, ..., m + base - 1`
keeps them numbered, up to the first that leaves `u32`. -/
theorem pushPartitions {base timestamp : Nat} (xs : List CreatedPartitionAssignment) :
    ∀ (m : Nat) (partitions : List Partition),
      xs.map (fun p => p.partitionId.toNat) = List.range' m xs.length →
      partitions.length = m + base → PartitionsNumbered partitions →
      PartitionsNumbered (StreamsInner.pushPartitions base timestamp partitions xs) := by
  induction xs with
  | nil =>
    intro m partitions _ _ h
    exact h
  | cons p xs ih =>
    intro m partitions hids hlen h
    simp only [List.map_cons, List.length_cons, List.range'_succ, List.cons.injEq] at hids
    obtain ⟨hp, hrest⟩ := hids
    unfold StreamsInner.pushPartitions
    split
    · rename_i hfits
      -- the pushed partition's id is the next position
      refine ih (m + 1) _ hrest (by simp; omega) ⟨?_, ?_⟩
      · simp only [List.map_append, h.ids, List.map_cons, List.map_nil, List.length_append,
          List.length_cons, List.length_nil, List.range_succ]
        congr 2
        omega
      · simp only [List.length_append, List.length_cons, List.length_nil]
        omega
    · exact h

/-- Every id below the count is a partition's. -/
theorem exists_id (h : PartitionsNumbered partitions) {i : Nat} (hi : i < partitions.length) :
    ∃ p ∈ partitions, p.id = i := by
  have hmem : i ∈ partitions.map Partition.id := by
    rw [h.ids]
    exact List.mem_range.mpr hi
  exact List.mem_map.mp hmem

end PartitionsNumbered

namespace StreamsInner

variable {s s' : StreamsInner}

theorem streamNameView_of_get {i : Nat} {entry : Option Stream}
    (hget : ∀ j, s'.items.get j = if j = i then entry else s.items.get j) (j : Nat) :
    s'.streamNameView j = if j = i then entry.map Stream.name else s.streamNameView j := by
  unfold streamNameView
  rw [hget j]
  split <;> rfl

/-- A state whose stream slab differs from a consistent one's at key `i` alone, where it holds
a well-formed stream or nothing, is consistent once its name index is. -/
theorem Consistent.update (hc : s.Consistent) {i : Nat} {entry : Option Stream}
    (hget : ∀ j, s'.items.get j = if j = i then entry else s.items.get j)
    (hwf : ∀ stream, entry = some stream → StreamWellFormed i stream)
    (hnames : InverseIndex s'.index.lookup fun j =>
      if j = i then entry.map Stream.name else s.streamNameView j) : s'.Consistent := by
  refine ⟨hnames.congr (streamNameView_of_get hget), fun k stream hk => ?_⟩
  rw [hget k] at hk
  split at hk
  · rename_i hki
    subst hki
    exact hwf stream hk
  · exact hc.streams k stream hk

/-- Writing back a live stream under its own name. -/
theorem Consistent.setStream (hc : s.Consistent) {i : Nat} {old stream : Stream}
    (hlive : s.items.get i = some old) (hname : stream.name = old.name)
    (hwf : StreamWellFormed i stream) : (s.setStream i stream).Consistent := by
  have hget := get_setStream hlive stream
  refine hc.update hget (fun _ h => Option.some.inj h ▸ hwf) (hc.names.congr fun j => ?_)
  split
  · rename_i hji
    subst hji
    simp [streamNameView, hlive, hname]
  · rfl

theorem consistent_default : default.Consistent where
  names := fun k i => by simp [default, streamNameView, Slab.new, Slab.get]
  streams := fun k stream hk => by simp [default, Slab.new, Slab.get] at hk

/-! ## Streams -/

section Streams

variable {name : WireName} {timestamp : Nat} {streamId : WireIdentifier} {reply : List UInt8}

/-- What a successful `CreateStream` can do: nothing, or file a stream with no topics at the
slab's next key, which becomes its id, under a name no stream has. -/
theorem createStream_cases (h : s.createStream name timestamp = .ok (s', reply)) :
    s' = s ∨ ∃ items id, s.index.lookup name.value = none ∧
      s.items.insert ⟨0, name.value, timestamp, ⟨0, 0, 0⟩, .new, ∅⟩ = some (items, id) ∧
      (∀ j, s'.items.get j =
        if j = id then some ⟨id, name.value, timestamp, ⟨0, 0, 0⟩, .new, ∅⟩ else s.items.get j) ∧
      s'.index = s.index.insert name.value id := by
  unfold createStream at h
  dsimp only at h
  split at h
  · cases h
    exact .inl rfl
  · rename_i hnone
    split at h
    · cases h
    · rename_i items id hins
      cases h
      refine .inr ⟨items, id, by simpa using hnone, hins, fun j => ?_, rfl⟩
      rw [Slab.get_set_occupied (Slab.insert_key_lt hins), Slab.get_insert hins]
      by_cases hj : j = id <;> simp [hj]

theorem Consistent.createStream (hc : s.Consistent)
    (h : s.createStream name timestamp = .ok (s', reply)) : s'.Consistent := by
  obtain rfl | ⟨items, id, hfresh, hins, hget, hindex⟩ := createStream_cases h
  · exact hc
  have hfree : s.streamNameView id = none := by
    simp [streamNameView, Slab.get_insert_key hins]
  refine hc.update hget (fun stream hstream => ?_) ?_
  · cases hstream
    exact streamWellFormed_empty rfl rfl rfl
  · rw [hindex]
    exact hc.names.alist_insert hfree hfresh fun _ => rfl

/-- What `UpdateStream` can do: nothing, or rename a live stream to a name no other stream
has. -/
theorem updateStream_cases (h : s.updateStream streamId name = (s', reply)) :
    s' = s ∨ ∃ id stream, s.items.get id = some stream ∧
      (∀ other, s.index.lookup name.value = some other → other = id) ∧
      s' = (updateStream.rename s id stream name).1 := by
  unfold updateStream at h
  split at h
  · cases h
    exact .inl rfl
  · rename_i id _
    split at h
    · cases h
      exact .inl rfl
    · rename_i stream hstream
      split at h
      · rename_i existing hexisting
        split at h
        · cases h
          exact .inl rfl
        · rename_i hsame
          refine .inr ⟨id, stream, hstream, fun other hother => ?_, (congrArg Prod.fst h).symm⟩
          rw [hexisting] at hother
          cases hother
          exact not_not.mp hsame
      · rename_i hnone
        refine .inr ⟨id, stream, hstream, fun other hother => ?_, (congrArg Prod.fst h).symm⟩
        rw [hnone] at hother
        cases hother

theorem Consistent.updateStream (hc : s.Consistent)
    (h : s.updateStream streamId name = (s', reply)) : s'.Consistent := by
  obtain rfl | ⟨id, stream, hstream, hother, rfl⟩ := updateStream_cases h
  · exact hc
  have hget : ∀ j, (updateStream.rename s id stream name).1.items.get j =
      if j = id then some { stream with name := name.value } else s.items.get j :=
    Slab.get_set_occupied (Slab.key_lt_of_get hstream) _
  have hwf := hc.streams id stream hstream
  refine hc.update hget (fun _ h => Option.some.inj h ▸ ⟨hwf.id_eq, hwf.topics, hwf.topic_wf⟩) ?_
  -- the old name is dropped and the new one, free or already this stream's, points here
  have hname : s.streamNameView id = some stream.name := by simp [streamNameView, hstream]
  exact hc.names.alist_rekey hname (fun j hj => hother j (hc.names.lookup_eq hj)) fun _ => rfl

/-- What a successful `DeleteStream` can do: nothing, or remove a live stream and its name. -/
theorem deleteStream_cases (h : s.deleteStream streamId = .ok (s', reply)) :
    s' = s ∨ ∃ id stream items removed, s.items.get id = some stream ∧
      s.items.tryRemove id = some (items, removed) ∧ s' = ⟨s.index.erase stream.name, items⟩ := by
  unfold deleteStream at h
  split at h
  · cases h
    exact .inl rfl
  · split at h
    · cases h
      exact .inl rfl
    · rename_i stream hstream
      split at h
      · cases h
      · rename_i items removed hrem
        cases h
        exact .inr ⟨_, stream, items, removed, hstream, hrem, rfl⟩

theorem Consistent.deleteStream (hc : s.Consistent)
    (h : s.deleteStream streamId = .ok (s', reply)) : s'.Consistent := by
  obtain rfl | ⟨id, stream, items, removed, hstream, hrem, rfl⟩ := deleteStream_cases h
  · exact hc
  have hget := Slab.get_tryRemove hrem
  refine hc.update hget (fun _ h => by cases h) ?_
  have hname : s.streamNameView id = some stream.name := by simp [streamNameView, hstream]
  exact hc.names.alist_erase hname fun _ => rfl

end Streams

/-! ## Topics and partitions -/

section Topics

variable {timestamp : Nat} {reply : List UInt8}

/-- What a successful `CreateTopicWithAssignments` can do: nothing, or file a new topic in a live
stream, at the next key of its topic slab, which becomes the topic's id, under a name no topic
of the stream has, with the assigned partitions. -/
theorem createTopicWithAssignments_cases {x : CreateTopicWithAssignmentsRequest}
    (h : s.createTopicWithAssignments x timestamp = .ok (s', reply)) :
    s' = s ∨ ∃ (streamId : Nat) (stream : Stream) (topic : Topic) (topics : Slab Topic) (topicId : Nat),
      s.items.get streamId = some stream ∧ stream.topicIndex.lookup topic.name = none ∧
      topic.name = x.request.name.value ∧ stream.topics.insert topic = some (topics, topicId) ∧
      s' = s.setStream streamId
        ({ stream with topics, topicIndex := stream.topicIndex.insert topic.name topicId }.setTopic
          topicId
          { topic with id := topicId, partitions := assignedPartitions x.partitions timestamp }) := by
  unfold createTopicWithAssignments at h
  split at h
  · cases h
    exact .inl rfl
  · rename_i streamId _
    split at h
    · cases h
      exact .inl rfl
    · rename_i stream hstream
      split at h
      · cases h
        exact .inl rfl
      · rename_i hnone
        dsimp only at h
        split at h
        · cases h
        · rename_i topics topicId hins
          cases h
          exact .inr ⟨streamId, stream, _, topics, topicId, hstream, by simpa using hnone, rfl, hins,
            rfl⟩

theorem Consistent.createTopicWithAssignments (hc : s.Consistent)
    {x : CreateTopicWithAssignmentsRequest}
    (hids : x.partitions.map (fun p => p.partitionId.toNat) = List.range x.partitions.length)
    (h : s.createTopicWithAssignments x timestamp = .ok (s', reply)) : s'.Consistent := by
  obtain rfl | ⟨streamId, stream, topic, topics, topicId, hstream, hfresh, -, hins, rfl⟩ :=
    createTopicWithAssignments_cases h
  · exact hc
  exact hc.setStream hstream rfl ((hc.streams streamId stream hstream).insertTopic hins hfresh
    (PartitionsNumbered.assigned hids timestamp))

/-- What `UpdateTopic` can do: nothing, or rename a live topic to a name no other topic of its
stream has and set its other fields, keeping its id and partitions. -/
theorem updateTopic_cases {r : UpdateTopicRequest} (h : s.updateTopic r = (s', reply)) :
    s' = s ∨ ∃ (streamId : Nat) (stream : Stream) (topicId : Nat) (old topic : Topic),
      s.items.get streamId = some stream ∧
      stream.topics.get topicId = some old ∧
      (∀ other, stream.topicIndex.lookup topic.name = some other → other = topicId) ∧
      topic.id = old.id ∧ topic.partitions = old.partitions ∧
      s' = s.setStream streamId
        ({ stream with topicIndex := (stream.topicIndex.erase old.name).insert topic.name topicId
          }.setTopic topicId topic) := by
  unfold updateTopic at h
  split at h
  · cases h
    exact .inl rfl
  · split at h
    · cases h
      exact .inl rfl
    · rename_i topicId _
      split at h
      · cases h
        exact .inl rfl
      · rename_i streamId _ stream hstream
        split at h
        · cases h
          exact .inl rfl
        · rename_i old hold
          split at h
          · cases h
            exact .inl rfl
          · rename_i hfree
            dsimp only at h
            cases h
            refine .inr ⟨_, stream, topicId, old, _, hstream, hold, ?_, ?_, ?_, rfl⟩
            · -- the guard: the new name is free or already this topic's
              intro other hother
              have := (Option.any_eq_false _ _).mp (Bool.not_eq_true _ ▸ hfree) other hother
              simpa using this
            · rfl
            · rfl

theorem Consistent.updateTopic (hc : s.Consistent) {r : UpdateTopicRequest}
    (h : s.updateTopic r = (s', reply)) : s'.Consistent := by
  obtain rfl | ⟨streamId, stream, topicId, old, topic, hstream, hold, hother, hid, hparts, rfl⟩ :=
    updateTopic_cases h
  · exact hc
  exact hc.setStream hstream rfl
    ((hc.streams streamId stream hstream).renameTopic hold hother hid hparts)

/-- What a successful `DeleteTopic` can do: nothing, or remove a live topic and its name. -/
theorem deleteTopic_cases {r : DeleteTopicRequest} (h : s.deleteTopic r = .ok (s', reply)) :
    s' = s ∨ ∃ (streamId : Nat) (stream : Stream) (topicId : Nat) (topic removed : Topic)
      (topics : Slab Topic), s.items.get streamId = some stream ∧
      stream.topics.get topicId = some topic ∧
      stream.topics.tryRemove topicId = some (topics, removed) ∧
      s' = s.setStream streamId
        { stream with topics, topicIndex := stream.topicIndex.erase topic.name } := by
  unfold deleteTopic at h
  split at h
  · cases h
    exact .inl rfl
  · split at h
    · cases h
      exact .inl rfl
    · split at h
      · cases h
        exact .inl rfl
      · rename_i stream hstream
        split at h
        · cases h
          exact .inl rfl
        · rename_i topic htopic
          split at h
          · cases h
          · rename_i topics removed hrem
            cases h
            exact .inr ⟨_, stream, _, topic, removed, topics, hstream, htopic, hrem, rfl⟩

theorem Consistent.deleteTopic (hc : s.Consistent) {r : DeleteTopicRequest}
    (h : s.deleteTopic r = .ok (s', reply)) : s'.Consistent := by
  obtain rfl | ⟨streamId, stream, topicId, topic, removed, topics, hstream, htopic, hrem, rfl⟩ :=
    deleteTopic_cases h
  · exact hc
  exact hc.setStream hstream rfl ((hc.streams streamId stream hstream).removeTopic htopic hrem)

/-- What `CreatePartitionsWithAssignments` can do: nothing, or push the assignments onto a live
topic's partitions, offset by the next partition id. -/
theorem createPartitionsWithAssignments_cases {x : CreatePartitionsWithAssignmentsRequest}
    (h : s.createPartitionsWithAssignments x timestamp = (s', reply)) :
    s' = s ∨ ∃ (streamId : Nat) (stream : Stream) (topicId : Nat) (topic : Topic),
      s.items.get streamId = some stream ∧ stream.topics.get topicId = some topic ∧
      basePartitionId topic.partitions < 2 ^ 32 ∧
      s' = s.setStream streamId (stream.setTopic topicId { topic with
        partitions := pushPartitions (basePartitionId topic.partitions) timestamp topic.partitions
          x.partitions }) := by
  unfold createPartitionsWithAssignments at h
  split at h
  · cases h
    exact .inl rfl
  · split at h
    · cases h
      exact .inl rfl
    · split at h
      · cases h
        exact .inl rfl
      · rename_i stream hstream
        split at h
        · cases h
          exact .inl rfl
        · rename_i topic htopic
          dsimp only at h
          split at h
          · rename_i hbase
            cases h
            exact .inr ⟨_, stream, _, topic, hstream, htopic, hbase, rfl⟩
          · cases h
            exact .inl rfl

theorem Consistent.createPartitionsWithAssignments (hc : s.Consistent)
    {x : CreatePartitionsWithAssignmentsRequest}
    (hids : x.partitions.map (fun p => p.partitionId.toNat) = List.range x.partitions.length)
    (h : s.createPartitionsWithAssignments x timestamp = (s', reply)) : s'.Consistent := by
  obtain rfl | ⟨streamId, stream, topicId, topic, hstream, htopic, -, rfl⟩ :=
    createPartitionsWithAssignments_cases h
  · exact hc
  have hwf := hc.streams streamId stream hstream
  have hold := (hwf.topic_wf topicId topic htopic).partitions
  -- the assignments are numbered from 0 and the topic's next id is its partition count
  have hpushed : PartitionsNumbered (pushPartitions (basePartitionId topic.partitions) timestamp
      topic.partitions x.partitions) :=
    PartitionsNumbered.pushPartitions x.partitions 0 topic.partitions
      (by rw [hids, List.range_eq_range']) (by rw [hold.basePartitionId_eq]; omega) hold
  exact hc.setStream hstream rfl
    (hwf.setTopic htopic rfl ⟨(hwf.topic_wf topicId topic htopic).id_eq, hpushed⟩)

/-- What `DeletePartitions` can do: nothing, or drop the last partitions of a live topic. -/
theorem deletePartitions_cases {r : DeletePartitionsRequest}
    (h : s.deletePartitions r = (s', reply)) :
    s' = s ∨ ∃ (streamId : Nat) (stream : Stream) (topicId : Nat) (topic : Topic),
      s.items.get streamId = some stream ∧ stream.topics.get topicId = some topic ∧
      s' = s.setStream streamId (stream.setTopic topicId { topic with
        partitions := topic.partitions.take (topic.partitions.length - r.partitionsCount.toNat) }) := by
  unfold deletePartitions at h
  split at h
  · cases h
    exact .inl rfl
  · split at h
    · cases h
      exact .inl rfl
    · split at h
      · cases h
        exact .inl rfl
      · rename_i stream hstream
        split at h
        · cases h
          exact .inl rfl
        · rename_i topic htopic
          dsimp only at h
          split at h
          · cases h
            exact .inr ⟨_, stream, _, topic, hstream, htopic, rfl⟩
          · cases h
            exact .inl rfl

theorem Consistent.deletePartitions (hc : s.Consistent) {r : DeletePartitionsRequest}
    (h : s.deletePartitions r = (s', reply)) : s'.Consistent := by
  obtain rfl | ⟨streamId, stream, topicId, topic, hstream, htopic, rfl⟩ := deletePartitions_cases h
  · exact hc
  have hwf := hc.streams streamId stream hstream
  have htwf := hwf.topic_wf topicId topic htopic
  exact hc.setStream hstream rfl (hwf.setTopic htopic rfl ⟨htwf.id_eq, htwf.partitions.take _⟩)

end Topics

end StreamsInner

/-! ## Runs of prepared commands -/

theorem ConsensusGroupAllocator.length_of_allocateFrom {ids : List Nat} {last : Nat} :
    ∀ {count current : Nat}, ConsensusGroupAllocator.allocateFrom count current = .ok (ids, last) →
      ids.length = count := by
  induction ids generalizing last with
  | nil =>
    intro count current h
    cases count with
    | zero => rfl
    | succ count =>
      simp only [ConsensusGroupAllocator.allocateFrom] at h
      split at h
      · obtain ⟨⟨ids', last'⟩, -, hpure⟩ := bind_eq_ok h
        cases hpure
      · cases h
  | cons id ids ih =>
    intro count current h
    cases count with
    | zero => cases h
    | succ count =>
      simp only [ConsensusGroupAllocator.allocateFrom] at h
      split at h
      · obtain ⟨⟨ids', last'⟩, hrest, hpure⟩ := bind_eq_ok h
        cases hpure
        rw [List.length_cons, ih hrest]
      · cases h

/-- The assignments `prepare_request` builds for a request of `count` partitions, from the
allocator it holds at that point. -/
def PreparedAssignments (count : Nat) (partitions : List CreatedPartitionAssignment) : Prop :=
  ∃ a a', assignPartitions a count = .ok (a', partitions)

/-- `prepare_request` numbers the partitions of a `u32` count `0, 1, ...`. -/
theorem PreparedAssignments.ids {count : Nat} {partitions : List CreatedPartitionAssignment}
    (h : PreparedAssignments count partitions) (hcount : count < 2 ^ 32) :
    partitions.map (fun p => p.partitionId.toNat) = List.range partitions.length := by
  obtain ⟨a, a', h⟩ := h
  obtain ⟨⟨a₁, ids⟩, hids, hpure⟩ := bind_eq_ok h
  cases hpure
  obtain ⟨⟨allocated, current⟩, halloc, hpure⟩ := bind_eq_ok hids
  cases hpure
  have hlen := ConsensusGroupAllocator.length_of_allocateFrom halloc
  rw [List.map_map, List.length_map, List.length_zipIdx, List.range_eq_range',
    ← List.zipIdx_map_snd]
  -- each assignment carries its position, which is below `2 ^ 32`
  apply List.map_congr_left
  intro x hx
  have hlt := List.snd_lt_of_mem_zipIdx hx
  obtain ⟨id, position⟩ := x
  exact UInt32.toNat_ofNat_of_lt' (by simp only [UInt32.size] at *; omega)

/-- The assignments of `count` partitions: the partition at position `i` gets the allocator's
next id after `i` others. -/
theorem assignPartitions_eq {a : ConsensusGroupAllocator} {count : Nat}
    (h : a.highest + count < 2 ^ 64) :
    assignPartitions a count = .ok (⟨a.highest + count⟩,
      ((List.range count).map (a.highest + 1 + ·)).zipIdx.map
        fun (id, partitionId) => ⟨UInt32.ofNat partitionId, UInt64.ofNat id⟩) := by
  simp only [assignPartitions, ConsensusGroupAllocator.allocateMany,
    ConsensusGroupAllocator.allocateFrom_spec h, bind, Except.bind, pure, Except.pure]

/-- A command whose assignments, if it carries any, are those `prepare_request` builds. -/
def StreamsCommand.Prepared : StreamsCommand → Prop
  | .createTopicWithAssignments x =>
    PreparedAssignments x.request.partitionsCount.toNat x.partitions
  | .createPartitionsWithAssignments x =>
    PreparedAssignments x.request.partitionsCount.toNat x.partitions
  | _ => True

namespace StreamsInner

variable {s s' : StreamsInner}

theorem Consistent.apply (hc : s.Consistent) {timestamp : Nat} {c : StreamsCommand}
    (hprepared : c.Prepared) {reply : List UInt8} (h : s.apply timestamp c = .ok (s', reply)) :
    s'.Consistent := by
  cases c with
  | createStream name => exact hc.createStream h
  | updateStream streamId name => exact hc.updateStream (Except.ok.inj h)
  | deleteStream streamId => exact hc.deleteStream h
  | createTopicWithAssignments x =>
    exact hc.createTopicWithAssignments (hprepared.ids x.request.partitionsCount.toNat_lt) h
  | updateTopic r => exact hc.updateTopic (Except.ok.inj h)
  | deleteTopic r => exact hc.deleteTopic h
  | createPartitionsWithAssignments x =>
    exact hc.createPartitionsWithAssignments (hprepared.ids x.request.partitionsCount.toNat_lt)
      (Except.ok.inj h)
  | deletePartitions r => exact hc.deletePartitions (Except.ok.inj h)

theorem Consistent.run {commands : List (StreamsCommand × Nat)}
    (hprepared : ∀ c ∈ commands, c.1.Prepared) :
    ∀ {s s' : StreamsInner} {replies : List (List UInt8)}, s.Consistent →
      s.run commands = .ok (s', replies) → s'.Consistent := by
  induction commands with
  | nil =>
    intro s s' replies hc h
    cases h
    exact hc
  | cons c commands ih =>
    intro s s' replies hc h
    obtain ⟨c, timestamp⟩ := c
    simp only [StreamsInner.run] at h
    obtain ⟨⟨s₁, reply⟩, h₁, hrest⟩ := bind_eq_ok h
    obtain ⟨⟨s₂, replies'⟩, h₂, hpure⟩ := bind_eq_ok hrest
    cases hpure
    have hc₁ := hc.apply (hprepared _ List.mem_cons_self) h₁
    exact ih (fun c hc => hprepared c (List.mem_cons_of_mem _ hc)) hc₁ h₂

end StreamsInner

theorem streams_representation_invariant {commands : List (StreamsCommand × Nat)}
    {s : StreamsInner} {replies : List (List UInt8)}
    (hprepared : ∀ c ∈ commands, c.1.Prepared)
    (h : StreamsInner.default.run commands = .ok (s, replies)) : s.Consistent :=
  StreamsInner.Consistent.run hprepared StreamsInner.consistent_default h

/-- A stream, a topic of two partitions, one more partition, and the last two deleted; the
assignments are those of a fresh allocator and then of the one it leaves. -/
def topicLifecycleRun : List (StreamsCommand × Nat) :=
  [(.createStream ⟨"s", utf8ByteSize_s_pos, utf8ByteSize_s_le⟩, 0),
    (.createTopicWithAssignments
      ⟨⟨.numeric 0, 2, 1, 0, 0, 1, ⟨"t", utf8ByteSize_t_pos, utf8ByteSize_t_le⟩⟩,
        [⟨0, 1⟩, ⟨1, 2⟩]⟩, 1),
    (.createPartitionsWithAssignments ⟨⟨.numeric 0, .numeric 0, 1⟩, [⟨0, 3⟩]⟩, 2),
    (.deletePartitions ⟨.numeric 0, .numeric 0, 2⟩, 3)]

theorem streams_representation_invariant_lifecycle :
    (∀ c ∈ topicLifecycleRun, c.1.Prepared) ∧
      ∃ s replies, StreamsInner.default.run topicLifecycleRun = .ok (s, replies) ∧ s.Consistent := by
  have hprepared : ∀ c ∈ topicLifecycleRun, c.1.Prepared := by
    intro c hc
    simp only [topicLifecycleRun, List.mem_cons, List.not_mem_nil, or_false] at hc
    rcases hc with rfl | rfl | rfl | rfl
    · trivial
    · exact ⟨⟨0⟩, ⟨2⟩, rfl⟩
    · exact ⟨⟨2⟩, ⟨3⟩, rfl⟩
    · trivial
  exact ⟨hprepared, _, _, rfl, streams_representation_invariant hprepared rfl⟩

/-! ## Partition namespaces

`CreateTopic` takes any `u32` partition count and `prepare_request` numbers the partitions from
0, so a topic can hold partition ids past `MAX_PARTITIONS` and past the `2 ^ 20` ids the
namespace layout has room for. `IggyNamespace::new` masks the id, and the partitions `0` and
`2 ^ 20` of one topic get one namespace. -/

/-- `CreateTopic` of the topic `t` of stream 0 with `2 ^ 20 + 1` partitions. -/
def wideTopicRequest : CreateTopicRequest :=
  ⟨.numeric 0, 1048577, 1, 0, 0, 1, ⟨"t", utf8ByteSize_t_pos, utf8ByteSize_t_le⟩⟩

/-- The assignments `prepare_request` builds for it from a fresh allocator. -/
def wideAssignments : List CreatedPartitionAssignment :=
  ((List.range (2 ^ 20 + 1)).map (0 + 1 + ·)).zipIdx.map
    fun (id, partitionId) => ⟨UInt32.ofNat partitionId, UInt64.ofNat id⟩

/-- The stream `s`, then the wide topic in it. -/
def wideTopicRun : List (StreamsCommand × Nat) :=
  [(.createStream ⟨"s", utf8ByteSize_s_pos, utf8ByteSize_s_le⟩, 0),
    (.createTopicWithAssignments ⟨wideTopicRequest, wideAssignments⟩, 0)]


/-- The stream `s` and then a topic with any assignments: the topic is filed at key 0 of stream
0 with the assigned partitions. The list stays symbolic, so the run is evaluated without it. -/
theorem run_createStream_createTopic (partitions : List CreatedPartitionAssignment) :
    ∃ s replies, StreamsInner.default.run [(.createStream ⟨"s", by decide, by decide⟩, 0),
        (.createTopicWithAssignments ⟨wideTopicRequest, partitions⟩, 0)] = .ok (s, replies) ∧
      ∃ stream topic, s.resolveStreamId (.numeric 0) = some 0 ∧
        s.resolveTopicId 0 (.numeric 0) = some 0 ∧ s.items.get 0 = some stream ∧
        stream.topics.get 0 = some topic ∧
        topic.partitions = StreamsInner.assignedPartitions partitions 0 :=
  ⟨_, _, rfl, _, _, rfl, rfl, rfl, rfl, rfl⟩

theorem partition_namespaces_collide :
    (∀ c ∈ wideTopicRun, c.1.Prepared) ∧
      ∃ s replies, StreamsInner.default.run wideTopicRun = .ok (s, replies) ∧
        ∃ stream topic, s.items.get 0 = some stream ∧ stream.topics.get 0 = some topic ∧
          (∃ p ∈ topic.partitions, p.id = 2 ^ 20 ∧ maxPartitions ≤ p.id) ∧
          s.namespaceFromPartition (.numeric 0) (.numeric 0) 0 =
            some (IggyNamespace.new 0 0 0) ∧
          s.namespaceFromPartition (.numeric 0) (.numeric 0) 1048576 =
            some (IggyNamespace.new 0 0 0) := by
  have hassigned : PreparedAssignments (2 ^ 20 + 1) wideAssignments :=
    ⟨⟨0⟩, _, assignPartitions_eq (by norm_num)⟩
  have hprepared : ∀ c ∈ wideTopicRun, c.1.Prepared := by
    intro c hc
    simp only [wideTopicRun, List.mem_cons, List.not_mem_nil, or_false] at hc
    rcases hc with rfl | rfl
    · trivial
    · simp only [StreamsCommand.Prepared]
      exact hassigned
  refine ⟨hprepared, ?_⟩
  obtain ⟨s, replies, hrun, stream, topic, hstreamId, htopicId, hstream, htopic, hpartitions⟩ :=
    run_createStream_createTopic wideAssignments
  -- the partitions are numbered `0, ..., 2 ^ 20`
  have hlen : wideAssignments.length = 2 ^ 20 + 1 := by simp [wideAssignments]
  have hnumbered : PartitionsNumbered topic.partitions := by
    rw [hpartitions]
    exact PartitionsNumbered.assigned (hassigned.ids (by norm_num)) 0
  have hcount : topic.partitions.length = 2 ^ 20 + 1 := by
    rw [hpartitions, StreamsInner.assignedPartitions, List.length_map, hlen]
  obtain ⟨p, hp, hid⟩ := hnumbered.exists_id (i := 2 ^ 20) (by omega)
  have hfirst := hnumbered.exists_id (i := 0) (by omega)
  refine ⟨s, replies, hrun, stream, topic, hstream, htopic, ⟨p, hp, hid, by rw [hid]; decide⟩, ?_, ?_⟩
  · exact StreamsInner.namespaceFromPartition_eq hstreamId htopicId hstream htopic hfirst
  · -- the partition `2 ^ 20` is masked to `0`
    rw [StreamsInner.namespaceFromPartition_eq hstreamId htopicId hstream htopic
      ⟨p, hp, hid.trans (by decide)⟩]
    decide

end IggyCore.Metadata
