import IggyCore.Metadata.Streams
import IggyCore.Library.KeyIndex
import IggyCore.Library.Run

/-!
# The consumer groups state machine

`ConsumerGroups` of `core/metadata/src/stm/consumer_group.rs`: the groups live in a slab whose
keys are their ids, with an index from names to ids that spans every topic, and two indexes
from a topic to the ids of its groups. A group created with a numeric stream and topic is
filed under `topic_index` at the pair of numbers; one created with a named stream and topic
under `topic_name_index` at the pair of names; the source files a group created with one of
each under neither. `DeleteConsumerGroup` resolves its group through the index its own
identifiers select, and finds nothing for identifiers of mixed forms.

A group's members and partitions are empty when `CreateConsumerGroup` makes it and no command
here reads them; they are left out.
-/

namespace IggyCore.Metadata

open IggyCore.Library IggyCore.Wire IggyCore.Consensus

/-- `ConsumerGroup`, with the fields the two commands read and write. -/
structure ConsumerGroup where
  id : Nat
  name : String
  deriving DecidableEq, Repr

/-- A topic index: from a topic key to the ids of its groups, in creation order. -/
abbrev GroupLists (κ : Type) := AList (fun _ : κ => List Nat)

structure ConsumerGroupsInner where
  nameIndex : NameIndex
  topicIndex : GroupLists (Nat × Nat)
  topicNameIndex : GroupLists (String × String)
  items : Slab ConsumerGroup

/-- `entry(key).or_default().push(id)`. -/
def pushGroup {κ : Type} [DecidableEq κ] (m : GroupLists κ) (key : κ) (id : Nat) : GroupLists κ :=
  m.insert key ((m.lookup key).getD [] ++ [id])

/-- `if let Some(vec) = get_mut(key) { vec.retain(|&x| x != id) }`. -/
def retainGroup {κ : Type} [DecidableEq κ] (m : GroupLists κ) (key : κ) (id : Nat) :
    GroupLists κ :=
  match m.lookup key with
  | some groups => m.insert key (groups.filter (· ≠ id))
  | none => m

/-- `ConsumerGroupDetailsResponse` of a new group (no partitions, no members). -/
def consumerGroupDetailsBytes (id : Nat) (name : WireName) : List UInt8 :=
  putU32Le (UInt32.ofNat id) ++ putU32Le 0 ++ putU32Le 0 ++ name.encode

namespace ConsumerGroupsInner

def default : ConsumerGroupsInner := ⟨∅, ∅, ∅, .new⟩

/-- `resolve_group_in_list`: a numeric id must be in the list; a name is the first listed group
that has it. -/
def resolveGroupInList (s : ConsumerGroupsInner) (groupsInTopic : List Nat)
    (groupId : WireIdentifier) : Option Nat :=
  match groupId with
  | .numeric id => if id.toNat ∈ groupsInTopic then some id.toNat else none
  | .string name => groupsInTopic.find? fun id => (s.items.get id).any (·.name = name.value)

/-- `resolve_consumer_group_id_by_identifiers`. -/
def resolveConsumerGroupIdByIdentifiers (s : ConsumerGroupsInner)
    (streamId topicId groupId : WireIdentifier) : Option Nat :=
  match streamId, topicId with
  | .numeric stream, .numeric topic => do
    let groupsInTopic ← s.topicIndex.lookup (stream.toNat, topic.toNat)
    s.resolveGroupInList groupsInTopic groupId
  | .string stream, .string topic => do
    let groupsInTopic ← s.topicNameIndex.lookup (stream.value, topic.value)
    s.resolveGroupInList groupsInTopic groupId
  | _, _ => none

/-- `CreateConsumerGroupRequest::apply`. -/
def createConsumerGroup (s : ConsumerGroupsInner) (streamId topicId : WireIdentifier)
    (name : WireName) : Except Panic (ConsumerGroupsInner × List UInt8) :=
  if (s.nameIndex.lookup name.value).isSome then .ok (s, [])
  else
    match s.items.insert ⟨0, name.value⟩ with
    | none => .error StreamsInner.invalidKey
    | some (items, id) =>
      let items := { items with entries := items.entries.set id (.occupied ⟨id, name.value⟩) }
      let nameIndex := s.nameIndex.insert name.value id
      let topicIndex := match streamId, topicId with
        | .numeric stream, .numeric topic => pushGroup s.topicIndex (stream.toNat, topic.toNat) id
        | _, _ => s.topicIndex
      let topicNameIndex := match streamId, topicId with
        | .string stream, .string topic =>
          pushGroup s.topicNameIndex (stream.value, topic.value) id
        | _, _ => s.topicNameIndex
      .ok (⟨nameIndex, topicIndex, topicNameIndex, items⟩, consumerGroupDetailsBytes id name)

/-- `DeleteConsumerGroupRequest::apply`; `Slab::remove` panics on a vacant key. -/
def deleteConsumerGroup (s : ConsumerGroupsInner) (streamId topicId groupId : WireIdentifier) :
    Except Panic (ConsumerGroupsInner × List UInt8) :=
  match s.resolveConsumerGroupIdByIdentifiers streamId topicId groupId with
  | none => .ok (s, [])
  | some id =>
    match s.items.tryRemove id with
    | none => .error ⟨"invalid key"⟩
    | some (items, group) =>
      let nameIndex := s.nameIndex.erase group.name
      let topicIndex := match streamId, topicId with
        | .numeric stream, .numeric topic =>
          retainGroup s.topicIndex (stream.toNat, topic.toNat) id
        | _, _ => s.topicIndex
      let topicNameIndex := match streamId, topicId with
        | .string stream, .string topic =>
          retainGroup s.topicNameIndex (stream.value, topic.value) id
        | _, _ => s.topicNameIndex
      .ok (⟨nameIndex, topicIndex, topicNameIndex, items⟩, [])

end ConsumerGroupsInner

inductive ConsumerGroupsCommand
  | createConsumerGroup (streamId topicId : WireIdentifier) (name : WireName)
  | deleteConsumerGroup (streamId topicId groupId : WireIdentifier)

namespace ConsumerGroupsInner

def apply (s : ConsumerGroupsInner) :
    ConsumerGroupsCommand → Except Panic (ConsumerGroupsInner × List UInt8)
  | .createConsumerGroup streamId topicId name => s.createConsumerGroup streamId topicId name
  | .deleteConsumerGroup streamId topicId groupId => s.deleteConsumerGroup streamId topicId groupId

def run (s : ConsumerGroupsInner) (commands : List ConsumerGroupsCommand) :
    Except Panic (ConsumerGroupsInner × List (List UInt8)) :=
  runCollect apply s commands

end ConsumerGroupsInner

/-! ## Where a group is listed -/

/-- A key of either topic index. -/
inductive GroupPlace
  | numeric (key : Nat × Nat)
  | named (key : String × String)
  deriving DecidableEq

/-- The topic index entry a pair of stream and topic identifiers selects: numbers under
`topic_index`, names under `topic_name_index`, and none for one of each. -/
def placeOf : WireIdentifier → WireIdentifier → Option GroupPlace
  | .numeric stream, .numeric topic => some (.numeric (stream.toNat, topic.toNat))
  | .string stream, .string topic => some (.named (stream.value, topic.value))
  | _, _ => none

section GroupLists

variable {κ : Type} [DecidableEq κ]

theorem lookup_pushGroup (m : GroupLists κ) (key : κ) (id : Nat) (k : κ) :
    (pushGroup m key id).lookup k =
      if k = key then some ((m.lookup k).getD [] ++ [id]) else m.lookup k := by
  by_cases hk : k = key
  · subst hk
    simp [pushGroup]
  · simp [pushGroup, hk, AList.lookup_insert_ne hk]

theorem lookup_retainGroup (m : GroupLists κ) (key : κ) (id : Nat) (k : κ) :
    (retainGroup m key id).lookup k =
      if k = key then (m.lookup k).map (·.filter (· ≠ id)) else m.lookup k := by
  unfold retainGroup
  split
  · rename_i groups hgroups
    by_cases hk : k = key
    · subst hk
      simp [hgroups]
    · simp [hk, AList.lookup_insert_ne hk]
  · rename_i hnone
    by_cases hk : k = key
    · subst hk
      simp [hnone]
    · simp [hk]

end GroupLists

namespace ConsumerGroupsInner

/-- The list of group ids a topic index holds at a place. -/
def listAt (s : ConsumerGroupsInner) : GroupPlace → Option (List Nat)
  | .numeric key => s.topicIndex.lookup key
  | .named key => s.topicNameIndex.lookup key

def ListedAt (s : ConsumerGroupsInner) (p : GroupPlace) (id : Nat) : Prop :=
  ∃ groups, s.listAt p = some groups ∧ id ∈ groups

/-- The name of the group at each key. -/
def nameView (s : ConsumerGroupsInner) (key : Nat) : Option String :=
  (s.items.get key).map ConsumerGroup.name

/-- The representation invariant: the name index is the inverse of the groups' names, every
listed key holds a group, and a key is listed under one topic at most. -/
structure Consistent (s : ConsumerGroupsInner) : Prop where
  names : InverseIndex s.nameIndex.lookup s.nameView
  listed_live : ∀ p id, s.ListedAt p id → (s.items.get id).isSome
  listed_once : ∀ p q id, s.ListedAt p id → s.ListedAt q id → p = q

theorem consistent_default : default.Consistent where
  names := fun k i => by simp [default, nameView, Slab.new, Slab.get]
  listed_live := fun p id ⟨_, hl, _⟩ => by cases p <;> simp [default, listAt] at hl
  listed_once := fun p _ id ⟨_, hl, _⟩ => by cases p <;> simp [default, listAt] at hl

theorem resolveGroupInList_mem {s : ConsumerGroupsInner} {groups : List Nat}
    {groupId : WireIdentifier} {id : Nat} (h : s.resolveGroupInList groups groupId = some id) :
    id ∈ groups := by
  cases groupId with
  | numeric n =>
    simp only [resolveGroupInList] at h
    split at h
    · cases h
      assumption
    · cases h
  | string name => exact List.mem_of_find?_eq_some h

/-- A resolved group is listed under the place its stream and topic identifiers select. -/
theorem resolve_listed {s : ConsumerGroupsInner} {streamId topicId groupId : WireIdentifier}
    {id : Nat} (h : s.resolveConsumerGroupIdByIdentifiers streamId topicId groupId = some id) :
    ∃ p, placeOf streamId topicId = some p ∧ s.ListedAt p id := by
  cases streamId <;> cases topicId <;> simp only [resolveConsumerGroupIdByIdentifiers] at h
  all_goals first
    | cases h
    | obtain ⟨groups, hgroups, hid⟩ := Option.bind_eq_some_iff.mp h
      exact ⟨_, rfl, groups, hgroups, resolveGroupInList_mem hid⟩

theorem resolve_mixed {s : ConsumerGroupsInner} {streamId topicId : WireIdentifier}
    (hmixed : placeOf streamId topicId = none) (groupId : WireIdentifier) :
    s.resolveConsumerGroupIdByIdentifiers streamId topicId groupId = none := by
  cases streamId <;> cases topicId <;> simp_all [placeOf, resolveConsumerGroupIdByIdentifiers]

/-- What a successful `CreateConsumerGroup` can do: nothing, when the name is taken, or file a
new group at the slab's next key under its name and under the place its identifiers select. -/
theorem createConsumerGroup_cases {s s' : ConsumerGroupsInner} {streamId topicId : WireIdentifier}
    {name : WireName} {reply : List UInt8}
    (h : s.createConsumerGroup streamId topicId name = .ok (s', reply)) :
    (s' = s ∧ (s.nameIndex.lookup name.value).isSome) ∨
      ∃ items id, s.nameIndex.lookup name.value = none ∧
        s.items.insert ⟨0, name.value⟩ = some (items, id) ∧
        (∀ j, s'.items.get j = if j = id then some ⟨id, name.value⟩ else s.items.get j) ∧
        s'.nameIndex = s.nameIndex.insert name.value id ∧
        ∀ p, s'.listAt p = if placeOf streamId topicId = some p
          then some ((s.listAt p).getD [] ++ [id]) else s.listAt p := by
  unfold createConsumerGroup at h
  split at h
  · cases h
    exact .inl ⟨rfl, ‹_›⟩
  · rename_i hnone
    split at h
    · cases h
    · rename_i items id hins
      cases h
      refine .inr ⟨items, id, by simpa using hnone, hins, fun j => ?_, rfl, fun p => ?_⟩
      · rw [Slab.get_set_occupied (Slab.insert_key_lt hins), Slab.get_insert hins]
        by_cases hj : j = id <;> simp [hj]
      · -- one case per form of the two identifiers and per index
        cases streamId <;> cases topicId <;> cases p <;>
          simp [placeOf, listAt, lookup_pushGroup, eq_comm]

/-- What a successful `DeleteConsumerGroup` can do: nothing, or remove a group listed under the
place its identifiers select, from the slab, the name index and that list. -/
theorem deleteConsumerGroup_cases {s s' : ConsumerGroupsInner}
    {streamId topicId groupId : WireIdentifier} {reply : List UInt8}
    (h : s.deleteConsumerGroup streamId topicId groupId = .ok (s', reply)) :
    s' = s ∨ ∃ p groups id items group, placeOf streamId topicId = some p ∧
      s.listAt p = some groups ∧ id ∈ groups ∧ s.items.tryRemove id = some (items, group) ∧
      s'.items = items ∧ s'.nameIndex = s.nameIndex.erase group.name ∧
      ∀ q, s'.listAt q = if placeOf streamId topicId = some q
        then (s.listAt q).map (·.filter (· ≠ id)) else s.listAt q := by
  unfold deleteConsumerGroup at h
  split at h
  · cases h
    exact .inl rfl
  · rename_i id hres
    obtain ⟨p, hp, groups, hgroups, hmem⟩ := resolve_listed hres
    split at h
    · cases h
    · rename_i items group hrem
      cases h
      refine .inr ⟨p, groups, id, items, group, hp, hgroups, hmem, hrem, rfl, rfl, fun q => ?_⟩
      -- the list the identifiers select is the one the delete filters
      cases streamId <;> cases topicId <;> cases q <;>
        simp [placeOf, listAt, lookup_retainGroup, eq_comm]

/-! ## The invariant over every run -/

section Create

variable {s s' : ConsumerGroupsInner} {streamId topicId : WireIdentifier} {name : WireName}
  {items : Slab ConsumerGroup} {id : Nat}

/-- After a create that files group `id`, a key is listed where it was, or it is `id` under the
place the identifiers select. -/
theorem listedAt_create
    (hlists : ∀ p, s'.listAt p = if placeOf streamId topicId = some p
      then some ((s.listAt p).getD [] ++ [id]) else s.listAt p) (p : GroupPlace) (j : Nat) :
    s'.ListedAt p j ↔ s.ListedAt p j ∨ (placeOf streamId topicId = some p ∧ j = id) := by
  simp only [ListedAt, hlists p]
  split
  · -- the list the create pushes onto, empty if the topic had none
    rename_i hp
    cases s.listAt p <;> simp [hp]
  · rename_i hp
    simp [hp]

/-- The key a create fills was listed nowhere. -/
theorem Consistent.unlisted_of_insert (hc : s.Consistent)
    (hins : s.items.insert ⟨0, name.value⟩ = some (items, id)) (p : GroupPlace) :
    ¬ s.ListedAt p id := by
  intro hp
  have := hc.listed_live p id hp
  rw [Slab.get_insert_key hins] at this
  cases this

theorem Consistent.create {reply : List UInt8} (hc : s.Consistent)
    (h : s.createConsumerGroup streamId topicId name = .ok (s', reply)) : s'.Consistent := by
  rcases createConsumerGroup_cases h with ⟨rfl, -⟩ | ⟨items, id, hfresh, hins, hget, hnames, hlists⟩
  · exact hc
  have hfree : s.items.get id = none := Slab.get_insert_key hins
  have hlisted := listedAt_create hlists
  refine ⟨?_, ?_, ?_⟩
  · refine hc.names.insert (i := id) (k := name.value) (by simp [nameView, hfree]) hfresh
      (fun j => ?_) (by simp [hnames]) fun k hk => by simp [hnames, AList.lookup_insert_ne hk]
    by_cases hj : j = id
    · subst hj
      simp [nameView, hget]
    · simp [nameView, hget j, hj]
  · intro p j hj
    rcases (hlisted p j).mp hj with hj | ⟨-, rfl⟩
    · by_cases hjid : j = id
      · simp [hget, hjid]
      · simpa [hget j, hjid] using hc.listed_live p j hj
    · simp [hget]
  · intro p q j hp hq
    -- the new key is listed only where the create filed it
    rcases (hlisted p j).mp hp with hp | ⟨hpl, rfl⟩ <;>
      rcases (hlisted q j).mp hq with hq | ⟨hql, hjq⟩
    · exact hc.listed_once p q j hp hq
    · exact absurd (hjq ▸ hp) (hc.unlisted_of_insert hins p)
    · exact absurd hq (hc.unlisted_of_insert hins q)
    · rw [hpl] at hql
      exact Option.some.inj hql

end Create

theorem Consistent.delete {s s' : ConsumerGroupsInner} {streamId topicId groupId : WireIdentifier}
    {reply : List UInt8} (hc : s.Consistent)
    (h : s.deleteConsumerGroup streamId topicId groupId = .ok (s', reply)) : s'.Consistent := by
  rcases deleteConsumerGroup_cases h with rfl |
    ⟨p, groups, id, items, group, hp, hgroups, hmem, hrem, hitems, hnames, hlists⟩
  · exact hc
  have hget := Slab.get_tryRemove hrem
  have hgroup := Slab.get_tryRemove_key hrem
  have hlisted : ∀ q j, s'.ListedAt q j ↔ s.ListedAt q j ∧ ¬ (q = p ∧ j = id) := by
    intro q j
    simp only [ListedAt, hlists q]
    split
    · -- the list the identifiers select is the one at `p`, filtered
      rename_i hq
      rw [hp] at hq
      cases hq
      simp [hgroups, and_comm]
    · rename_i hq
      have hqp : q ≠ p := fun hqp => hq (hqp ▸ hp)
      simp [hqp]
  refine ⟨?_, ?_, ?_⟩
  · refine hc.names.erase (i := id) (k := group.name) (by simp [nameView, hgroup])
      (fun j => ?_) (by simp [hnames]) fun k hk => by simp [hnames, AList.lookup_erase_ne hk]
    by_cases hj : j = id
    · subst hj
      simp [nameView, hitems, hget]
    · simp [nameView, hitems, hget j, hj]
  · intro q j hj
    obtain ⟨hj, hne⟩ := (hlisted q j).mp hj
    by_cases hjid : j = id
    · -- listed at `q` and at `p`, so `q` is the place the delete filtered
      subst hjid
      exact absurd ⟨hc.listed_once q p j hj ⟨groups, hgroups, hmem⟩, rfl⟩ hne
    · simpa [hitems, hget j, hjid] using hc.listed_live q j hj
  · intro q q' j hq hq'
    exact hc.listed_once q q' j ((hlisted q j).mp hq).1 ((hlisted q' j).mp hq').1

theorem Consistent.apply {s s' : ConsumerGroupsInner} {command : ConsumerGroupsCommand}
    {reply : List UInt8} (hc : s.Consistent) (h : s.apply command = .ok (s', reply)) :
    s'.Consistent := by
  cases command with
  | createConsumerGroup streamId topicId name => exact hc.create h
  | deleteConsumerGroup streamId topicId groupId => exact hc.delete h

/-- Every state a run of consumer group commands reaches from the empty one is consistent. -/
theorem consumer_groups_consistent {commands : List ConsumerGroupsCommand}
    {s : ConsumerGroupsInner} {replies : List (List UInt8)}
    (h : default.run commands = .ok (s, replies)) : s.Consistent :=
  runCollect_invariant apply Consistent (fun _ _ _ _ hc hstep => hc.apply hstep) commands
    default s replies consistent_default h

/-- A group created under a numeric stream and topic, then deleted by name. -/
theorem consumer_groups_consistent_create_delete :
    ∃ s replies, default.run
        [.createConsumerGroup (.numeric 1) (.numeric 1) ⟨"g", by decide, by decide⟩,
          .deleteConsumerGroup (.numeric 1) (.numeric 1) (.string ⟨"g", by decide, by decide⟩)] =
        .ok (s, replies) ∧ s.Consistent := by
  obtain ⟨s, replies, h⟩ : ∃ s replies, default.run
      [.createConsumerGroup (.numeric 1) (.numeric 1) ⟨"g", by decide, by decide⟩,
        .deleteConsumerGroup (.numeric 1) (.numeric 1) (.string ⟨"g", by decide, by decide⟩)] =
      .ok (s, replies) := ⟨_, _, rfl⟩
  exact ⟨s, replies, h, consumer_groups_consistent h⟩

/-! ## A group that no delete reaches -/

/-- A group created with a numeric stream and a named topic, or the other way round, is live
under its name but listed under no topic, and a delete with the same identifiers finds nothing,
whatever the group identifier. -/
theorem mixed_identifier_group_unreachable {s s' : ConsumerGroupsInner}
    {streamId topicId : WireIdentifier} {name : WireName} {reply : List UInt8}
    (hc : s.Consistent) (hmixed : placeOf streamId topicId = none)
    (hfresh : s.nameIndex.lookup name.value = none)
    (h : s.createConsumerGroup streamId topicId name = .ok (s', reply)) :
    ∃ id, s'.nameView id = some name.value ∧ (∀ p, ¬ s'.ListedAt p id) ∧
      ∀ groupId, s'.deleteConsumerGroup streamId topicId groupId = .ok (s', []) := by
  rcases createConsumerGroup_cases h with ⟨-, htaken⟩ | ⟨items, id, -, hins, hget, -, hlists⟩
  · simp [hfresh] at htaken
  refine ⟨id, by simp [nameView, hget], fun p hp => ?_, fun groupId => ?_⟩
  · rcases (listedAt_create hlists p id).mp hp with hp | ⟨hplace, -⟩
    · exact hc.unlisted_of_insert hins p hp
    · rw [hmixed] at hplace
      cases hplace
  · simp [deleteConsumerGroup, resolve_mixed hmixed]

theorem mixed_identifier_group_unreachable_default :
    ∃ s' reply, default.createConsumerGroup (.numeric 1) (.string ⟨"t", by decide, by decide⟩)
        ⟨"g", by decide, by decide⟩ = .ok (s', reply) ∧
      ∃ id, s'.nameView id = some "g" ∧ (∀ p, ¬ s'.ListedAt p id) ∧
        ∀ groupId, s'.deleteConsumerGroup (.numeric 1) (.string ⟨"t", by decide, by decide⟩)
          groupId = .ok (s', []) := by
  obtain ⟨s', reply, h⟩ : ∃ s' reply, default.createConsumerGroup (.numeric 1)
      (.string ⟨"t", by decide, by decide⟩) ⟨"g", by decide, by decide⟩ = .ok (s', reply) :=
    ⟨_, _, rfl⟩
  exact ⟨s', reply, h, mixed_identifier_group_unreachable consistent_default rfl rfl h⟩

end ConsumerGroupsInner

end IggyCore.Metadata
