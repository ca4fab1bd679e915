import IggyCore.Wire.Codec
import Mathlib.Data.List.AList
import Mathlib.Data.Finset.Basic

/-!
# The permissioner

`Permissioner` of `core/metadata/src/permissioner/`: each user's global permissions and
per-stream permissions, and four sets of users (or user and stream pairs) that may poll or send
everywhere (or on one stream). `init`, `update` and `delete_permissions_for_user` maintain
them; the rules of `permissioner_rules/` read them. A `BTreeMap` of the permissions is an
`AList`, whose keys are distinct; the `AHashMap`s are functions and the `AHashSet`s finite sets.

Every rule reads, for the user it is asked about, the user's global permissions, the user's
permissions on a stream, and whether the user is in each of the four sets: a `PermissionView`.
`Permissioner::rule(user_id, ...)` is `(p.view user_id).rule ...`.
-/

namespace IggyCore.Metadata

open IggyCore.Wire

structure GlobalPermissions where
  manageServers : Bool
  readServers : Bool
  manageUsers : Bool
  readUsers : Bool
  manageStreams : Bool
  readStreams : Bool
  manageTopics : Bool
  readTopics : Bool
  pollMessages : Bool
  sendMessages : Bool
  deriving DecidableEq, Repr

structure TopicPermissions where
  manageTopic : Bool
  readTopic : Bool
  pollMessages : Bool
  sendMessages : Bool
  deriving DecidableEq, Repr

structure StreamPermissions where
  manageStream : Bool
  readStream : Bool
  manageTopics : Bool
  readTopics : Bool
  pollMessages : Bool
  sendMessages : Bool
  topics : Option (AList fun _ : Nat => TopicPermissions)

structure Permissions where
  global : GlobalPermissions
  streams : Option (AList fun _ : Nat => StreamPermissions)

structure Permissioner where
  usersPermissions : Nat → Option GlobalPermissions
  usersStreamsPermissions : Nat × Nat → Option StreamPermissions
  usersThatCanPollMessagesFromAllStreams : Finset Nat
  usersThatCanSendMessagesToAllStreams : Finset Nat
  usersThatCanPollMessagesFromSpecificStreams : Finset (Nat × Nat)
  usersThatCanSendMessagesToSpecificStreams : Finset (Nat × Nat)

namespace Permissioner

def new : Permissioner := ⟨fun _ => none, fun _ => none, ∅, ∅, ∅, ∅⟩

/-- One round of `init_permissions_for_user`'s loop over the user's streams. -/
def initStreamPermissions (p : Permissioner) (userId streamId : Nat)
    (stream : StreamPermissions) : Permissioner :=
  let p := if stream.pollMessages then
      { p with
        usersThatCanPollMessagesFromSpecificStreams :=
          insert (userId, streamId) p.usersThatCanPollMessagesFromSpecificStreams }
    else p
  let p := if stream.sendMessages then
      { p with
        usersThatCanSendMessagesToSpecificStreams :=
          insert (userId, streamId) p.usersThatCanSendMessagesToSpecificStreams }
    else p
  { p with
    usersStreamsPermissions :=
      Function.update p.usersStreamsPermissions (userId, streamId) (some stream) }

/-- The loop of `init_permissions_for_user` over the user's streams. -/
def initStreams (p : Permissioner) (userId : Nat) (streams : List (Σ _ : Nat, StreamPermissions)) :
    Permissioner :=
  streams.foldl (fun p stream => p.initStreamPermissions userId stream.1 stream.2) p

/-- The part of `init_permissions_for_user` before the loop: the two global flags into their
sets, and the global permissions into the map. -/
def initGlobalPermissions (p : Permissioner) (userId : Nat) (global : GlobalPermissions) :
    Permissioner :=
  let p := if global.pollMessages then
      { p with
        usersThatCanPollMessagesFromAllStreams :=
          insert userId p.usersThatCanPollMessagesFromAllStreams }
    else p
  let p := if global.sendMessages then
      { p with
        usersThatCanSendMessagesToAllStreams :=
          insert userId p.usersThatCanSendMessagesToAllStreams }
    else p
  { p with usersPermissions := Function.update p.usersPermissions userId (some global) }

def initPermissionsForUser (p : Permissioner) (userId : Nat) :
    Option Permissions → Permissioner
  | none => p
  | some permissions =>
    let p := p.initGlobalPermissions userId permissions.global
    match permissions.streams with
    | none => p
    | some streams => p.initStreams userId streams.entries

def deletePermissionsForUser (p : Permissioner) (userId : Nat) : Permissioner :=
  { usersPermissions := Function.update p.usersPermissions userId none
    usersThatCanPollMessagesFromAllStreams := p.usersThatCanPollMessagesFromAllStreams.erase userId
    usersThatCanSendMessagesToAllStreams := p.usersThatCanSendMessagesToAllStreams.erase userId
    usersStreamsPermissions := fun key =>
      if key.1 = userId then none else p.usersStreamsPermissions key
    usersThatCanPollMessagesFromSpecificStreams :=
      p.usersThatCanPollMessagesFromSpecificStreams.filter (·.1 ≠ userId)
    usersThatCanSendMessagesToSpecificStreams :=
      p.usersThatCanSendMessagesToSpecificStreams.filter (·.1 ≠ userId) }

def updatePermissionsForUser (p : Permissioner) (userId : Nat)
    (permissions : Option Permissions) : Permissioner :=
  (p.deletePermissionsForUser userId).initPermissionsForUser userId permissions

end Permissioner

/-! ## The rules -/

/-- What the rules read of the permissioner for one user. -/
structure PermissionView where
  global : Option GlobalPermissions
  stream : Nat → Option StreamPermissions
  canPollMessagesFromAllStreams : Bool
  canSendMessagesToAllStreams : Bool
  canPollMessagesFromStream : Nat → Bool
  canSendMessagesToStream : Nat → Bool

def Permissioner.view (p : Permissioner) (userId : Nat) : PermissionView :=
  { global := p.usersPermissions userId
    stream := fun streamId => p.usersStreamsPermissions (userId, streamId)
    canPollMessagesFromAllStreams := decide (userId ∈ p.usersThatCanPollMessagesFromAllStreams)
    canSendMessagesToAllStreams := decide (userId ∈ p.usersThatCanSendMessagesToAllStreams)
    canPollMessagesFromStream := fun streamId =>
      decide ((userId, streamId) ∈ p.usersThatCanPollMessagesFromSpecificStreams)
    canSendMessagesToStream := fun streamId =>
      decide ((userId, streamId) ∈ p.usersThatCanSendMessagesToSpecificStreams) }

namespace PermissionView

/-- `Ok` when the check holds, `Unauthorized` otherwise. -/
def grantIf (check : Bool) : Except IggyError Unit :=
  if check then .ok () else .error .unauthorized

/-- The topic permissions of a stream's `topics` map. -/
def topic (stream : StreamPermissions) (topicId : Nat) : Option TopicPermissions :=
  stream.topics.bind (·.lookup topicId)

/-- A rule that only asks for a global permission. -/
def grantedGlobally (v : PermissionView) (flag : GlobalPermissions → Bool) :
    Except IggyError Unit :=
  grantIf (v.global.any flag)

variable (v : PermissionView) (streamId topicId : Nat)

/-- `poll_messages`. Inheritance: `manage_streams` -> `read_streams` -> `read_topics` ->
`poll_messages`. -/
def pollMessages : Except IggyError Unit :=
  if v.canPollMessagesFromAllStreams then .ok ()
  else if v.global.any fun g => g.readTopics || g.manageTopics || g.readStreams || g.manageStreams
  then .ok ()
  else if v.canPollMessagesFromStream streamId then .ok ()
  else match v.stream streamId with
    | none => .error .unauthorized
    | some stream =>
      if stream.manageStream || stream.readStream then .ok ()
      else if stream.manageTopics || stream.readTopics then .ok ()
      else if stream.pollMessages then .ok ()
      else grantIf ((topic stream topicId).any fun t =>
        t.manageTopic || t.readTopic || t.pollMessages)

/-- `append_messages`. Inheritance: `manage_streams` -> `manage_topics` -> `send_messages`. -/
def appendMessages : Except IggyError Unit :=
  if v.canSendMessagesToAllStreams then .ok ()
  else if v.global.any fun g => g.manageStreams || g.manageTopics then .ok ()
  else if v.canSendMessagesToStream streamId then .ok ()
  else match v.stream streamId with
    | none => .error .unauthorized
    | some stream =>
      if stream.manageStream || stream.manageTopics then .ok ()
      else if stream.sendMessages then .ok ()
      else grantIf ((topic stream topicId).any fun t => t.manageTopic || t.sendMessages)

/-- `get_topic`. Inheritance: `manage_streams` -> `read_streams` -> `read_topics`. -/
def getTopic : Except IggyError Unit :=
  if v.global.any fun g => g.readStreams || g.manageStreams || g.manageTopics || g.readTopics
  then .ok ()
  else match v.stream streamId with
    | none => .error .unauthorized
    | some stream =>
      if stream.manageStream || stream.readStream || stream.manageTopics || stream.readTopics
      then .ok ()
      else grantIf ((topic stream topicId).any fun t => t.manageTopic || t.readTopic)

def getTopics : Except IggyError Unit :=
  if v.global.any fun g => g.readStreams || g.manageStreams || g.manageTopics || g.readTopics
  then .ok ()
  else grantIf ((v.stream streamId).any fun stream =>
    stream.manageStream || stream.readStream || stream.manageTopics || stream.readTopics)

/-- `create_topic`. Inheritance: `manage_streams` -> `manage_topics`. -/
def createTopic : Except IggyError Unit :=
  if v.global.any fun g => g.manageStreams || g.manageTopics then .ok ()
  else grantIf ((v.stream streamId).any fun stream => stream.manageStream || stream.manageTopics)

/-- `manage_topic`. Inheritance: `manage_streams` -> `manage_topics`. -/
def manageTopic : Except IggyError Unit :=
  if v.global.any fun g => g.manageStreams || g.manageTopics then .ok ()
  else match v.stream streamId with
    | none => .error .unauthorized
    | some stream =>
      if stream.manageStream || stream.manageTopics then .ok ()
      else grantIf ((topic stream topicId).any (·.manageTopic))

def updateTopic : Except IggyError Unit := v.manageTopic streamId topicId
def deleteTopic : Except IggyError Unit := v.manageTopic streamId topicId
def purgeTopic : Except IggyError Unit := v.manageTopic streamId topicId

def createConsumerGroup : Except IggyError Unit := v.getTopic streamId topicId
def deleteConsumerGroup : Except IggyError Unit := v.getTopic streamId topicId
def getConsumerGroup : Except IggyError Unit := v.getTopic streamId topicId
def getConsumerGroups : Except IggyError Unit := v.getTopic streamId topicId
def joinConsumerGroup : Except IggyError Unit := v.getTopic streamId topicId
def leaveConsumerGroup : Except IggyError Unit := v.getTopic streamId topicId

def getConsumerOffset : Except IggyError Unit := v.pollMessages streamId topicId
def storeConsumerOffset : Except IggyError Unit := v.pollMessages streamId topicId
def deleteConsumerOffset : Except IggyError Unit := v.pollMessages streamId topicId

def createPartitions : Except IggyError Unit := v.updateTopic streamId topicId
def deletePartitions : Except IggyError Unit := v.updateTopic streamId topicId
def deleteSegments : Except IggyError Unit := v.updateTopic streamId topicId

def getStream : Except IggyError Unit :=
  if v.global.any fun g => g.manageStreams || g.readStreams then .ok ()
  else grantIf ((v.stream streamId).any fun stream => stream.manageStream || stream.readStream)

def getStreams : Except IggyError Unit :=
  v.grantedGlobally fun g => g.manageStreams || g.readStreams

def createStream : Except IggyError Unit := v.grantedGlobally (·.manageStreams)

def manageStream : Except IggyError Unit :=
  if v.global.any (·.manageStreams) then .ok ()
  else grantIf ((v.stream streamId).any (·.manageStream))

def updateStream : Except IggyError Unit := v.manageStream streamId
def deleteStream : Except IggyError Unit := v.manageStream streamId
def purgeStream : Except IggyError Unit := v.manageStream streamId

def getServerInfo : Except IggyError Unit :=
  v.grantedGlobally fun g => g.manageServers || g.readServers

def getStats : Except IggyError Unit := v.getServerInfo
def getClients : Except IggyError Unit := v.getServerInfo
def getClient : Except IggyError Unit := v.getServerInfo

def managerUsers : Except IggyError Unit := v.grantedGlobally (·.manageUsers)

def readUsers : Except IggyError Unit :=
  v.grantedGlobally fun g => g.manageUsers || g.readUsers

def getUser : Except IggyError Unit := v.readUsers
def getUsers : Except IggyError Unit := v.readUsers
def createUser : Except IggyError Unit := v.managerUsers
def deleteUser : Except IggyError Unit := v.managerUsers
def updateUser : Except IggyError Unit := v.managerUsers
def updatePermissions : Except IggyError Unit := v.managerUsers
def changePassword : Except IggyError Unit := v.managerUsers

/-! ## The inheritance the rules' comments state

Each implication holds for every view: the grants of the stronger rule are among those of the
weaker one. -/

variable {v : PermissionView} {streamId topicId : Nat}

theorem createTopic_ok_updateTopic (h : v.createTopic streamId = .ok ()) :
    v.updateTopic streamId topicId = .ok () := by
  unfold createTopic at h
  unfold updateTopic manageTopic
  -- each rule reads the user's global and stream permissions once; split on both
  cases hg : v.global <;> cases hs : v.stream streamId <;>
    simp only [hg, hs, grantIf, Option.any_none, Option.any_some] at h ⊢ <;>
    grind [Option.any_eq_true]

theorem updateTopic_ok_getTopic (h : v.updateTopic streamId topicId = .ok ()) :
    v.getTopic streamId topicId = .ok () := by
  unfold updateTopic manageTopic at h
  unfold getTopic
  -- each rule reads the user's global and stream permissions once; split on both
  cases hg : v.global <;> cases hs : v.stream streamId <;>
    simp only [hg, hs, grantIf, Option.any_none, Option.any_some] at h ⊢ <;>
    grind [Option.any_eq_true]

theorem getTopic_ok_pollMessages (h : v.getTopic streamId topicId = .ok ()) :
    v.pollMessages streamId topicId = .ok () := by
  unfold getTopic at h
  unfold pollMessages
  -- each rule reads the user's global and stream permissions once; split on both
  cases hg : v.global <;> cases hs : v.stream streamId <;>
    simp only [hg, hs, grantIf, Option.any_none, Option.any_some] at h ⊢ <;>
    grind [Option.any_eq_true]

theorem updateTopic_ok_appendMessages (h : v.updateTopic streamId topicId = .ok ()) :
    v.appendMessages streamId topicId = .ok () := by
  unfold updateTopic manageTopic at h
  unfold appendMessages
  -- each rule reads the user's global and stream permissions once; split on both
  cases hg : v.global <;> cases hs : v.stream streamId <;>
    simp only [hg, hs, grantIf, Option.any_none, Option.any_some] at h ⊢ <;>
    grind [Option.any_eq_true]

end PermissionView

/-! ## The caches and the plain permissions -/

namespace Permissions

def stream (permissions : Permissions) (streamId : Nat) : Option StreamPermissions :=
  permissions.streams.bind (·.lookup streamId)

/-- What the rules read for a user who holds `permissions`, each of the four sets read as the
flag it collects. -/
def view (permissions : Option Permissions) : PermissionView :=
  { global := permissions.map (·.global)
    stream := fun streamId => permissions.bind (·.stream streamId)
    canPollMessagesFromAllStreams := permissions.any (·.global.pollMessages)
    canSendMessagesToAllStreams := permissions.any (·.global.sendMessages)
    canPollMessagesFromStream := fun streamId =>
      (permissions.bind (·.stream streamId)).any (·.pollMessages)
    canSendMessagesToStream := fun streamId =>
      (permissions.bind (·.stream streamId)).any (·.sendMessages) }

end Permissions

/-- The reads of the rules with the four sets left out, as if each were empty. -/
def PermissionView.withoutCaches (v : PermissionView) : PermissionView :=
  { v with
    canPollMessagesFromAllStreams := false, canSendMessagesToAllStreams := false,
    canPollMessagesFromStream := fun _ => false, canSendMessagesToStream := fun _ => false }

namespace Permissioner

/-- The permissioner holds exactly `P`: its two maps are `P`'s global and per-stream
permissions, and its four sets collect `P`'s poll and send flags. -/
structure Caches (p : Permissioner) (P : Nat → Option Permissions) : Prop where
  global : ∀ u, p.usersPermissions u = (P u).map (·.global)
  stream : ∀ u s, p.usersStreamsPermissions (u, s) = (P u).bind (·.stream s)
  pollAll : ∀ u, u ∈ p.usersThatCanPollMessagesFromAllStreams ↔
    (P u).any (·.global.pollMessages)
  sendAll : ∀ u, u ∈ p.usersThatCanSendMessagesToAllStreams ↔
    (P u).any (·.global.sendMessages)
  pollStream : ∀ u s, (u, s) ∈ p.usersThatCanPollMessagesFromSpecificStreams ↔
    ((P u).bind (·.stream s)).any (·.pollMessages)
  sendStream : ∀ u s, (u, s) ∈ p.usersThatCanSendMessagesToSpecificStreams ↔
    ((P u).bind (·.stream s)).any (·.sendMessages)

/-- Every read a rule makes about a user is the plain permissions' answer. -/
theorem Caches.view_eq {p : Permissioner} {P : Nat → Option Permissions} (h : Caches p P)
    (u : Nat) : p.view u = Permissions.view (P u) := by
  simp only [view, Permissions.view, PermissionView.mk.injEq]
  refine ⟨h.global u, funext fun s => h.stream u s, ?_, ?_, funext fun s => ?_,
    funext fun s => ?_⟩
  · exact Bool.eq_iff_iff.mpr (by simpa using h.pollAll u)
  · exact Bool.eq_iff_iff.mpr (by simpa using h.sendAll u)
  · exact Bool.eq_iff_iff.mpr (by simpa using h.pollStream u s)
  · exact Bool.eq_iff_iff.mpr (by simpa using h.sendStream u s)

theorem caches_new : Caches new fun _ => none :=
  ⟨fun _ => rfl, fun _ _ => rfl, by simp [new], by simp [new], by simp [new], by simp [new]⟩

/-- No map or set of the permissioner holds anything for the user. -/
def HasNoEntries (p : Permissioner) (userId : Nat) : Prop :=
  p.view userId = Permissions.view none

theorem Caches.eq_none {p : Permissioner} {P : Nat → Option Permissions} (h : Caches p P)
    {u : Nat} (hfresh : p.HasNoEntries u) : P u = none := by
  have hglobal := congrArg PermissionView.global ((h.view_eq u).symm.trans hfresh)
  simpa [Permissions.view] using hglobal

theorem Caches.delete {p : Permissioner} {P : Nat → Option Permissions} (h : Caches p P)
    (u : Nat) : Caches (p.deletePermissionsForUser u) (Function.update P u none) where
  global u' := by
    by_cases hu : u' = u <;> simp [deletePermissionsForUser, hu, h.global]
  stream u' s := by
    by_cases hu : u' = u <;> simp [deletePermissionsForUser, hu, h.stream]
  pollAll u' := by
    by_cases hu : u' = u <;> simp [deletePermissionsForUser, hu, h.pollAll]
  sendAll u' := by
    by_cases hu : u' = u <;> simp [deletePermissionsForUser, hu, h.sendAll]
  pollStream u' s := by
    by_cases hu : u' = u <;>
      simp [deletePermissionsForUser, hu, h.pollStream]
  sendStream u' s := by
    by_cases hu : u' = u <;>
      simp [deletePermissionsForUser, hu, h.sendStream]

/-! ### `init_permissions_for_user`, field by field -/

section Init

variable (p : Permissioner) (u : Nat)

@[simp] theorem usersPermissions_initStreamPermissions (a : Nat) (b : StreamPermissions) :
    (p.initStreamPermissions u a b).usersPermissions = p.usersPermissions := by
  unfold initStreamPermissions
  split_ifs <;> rfl

@[simp] theorem pollAll_initStreamPermissions (a : Nat) (b : StreamPermissions) :
    (p.initStreamPermissions u a b).usersThatCanPollMessagesFromAllStreams =
      p.usersThatCanPollMessagesFromAllStreams := by
  unfold initStreamPermissions
  split_ifs <;> rfl

@[simp] theorem sendAll_initStreamPermissions (a : Nat) (b : StreamPermissions) :
    (p.initStreamPermissions u a b).usersThatCanSendMessagesToAllStreams =
      p.usersThatCanSendMessagesToAllStreams := by
  unfold initStreamPermissions
  split_ifs <;> rfl

@[simp] theorem usersStreamsPermissions_initStreamPermissions (a : Nat) (b : StreamPermissions) :
    (p.initStreamPermissions u a b).usersStreamsPermissions =
      Function.update p.usersStreamsPermissions (u, a) (some b) := by
  unfold initStreamPermissions
  split_ifs <;> rfl

@[simp] theorem mem_pollStream_initStreamPermissions (a : Nat) (b : StreamPermissions)
    (k : Nat × Nat) :
    k ∈ (p.initStreamPermissions u a b).usersThatCanPollMessagesFromSpecificStreams ↔
      (k = (u, a) ∧ b.pollMessages) ∨ k ∈ p.usersThatCanPollMessagesFromSpecificStreams := by
  unfold initStreamPermissions
  split_ifs <;> simp_all

@[simp] theorem mem_sendStream_initStreamPermissions (a : Nat) (b : StreamPermissions)
    (k : Nat × Nat) :
    k ∈ (p.initStreamPermissions u a b).usersThatCanSendMessagesToSpecificStreams ↔
      (k = (u, a) ∧ b.sendMessages) ∨ k ∈ p.usersThatCanSendMessagesToSpecificStreams := by
  unfold initStreamPermissions
  split_ifs <;> simp_all

/-- A field no round of the loop writes is the same after the loop. -/
theorem initStreams_of_keeps {α : Type} (f : Permissioner → α)
    (hf : ∀ p a b, f (p.initStreamPermissions u a b) = f p) :
    ∀ (l : List (Σ _ : Nat, StreamPermissions)) (p : Permissioner), f (p.initStreams u l) = f p
  | [], _ => rfl
  | _ :: l, p => (initStreams_of_keeps f hf l _).trans (hf p _ _)

/-- With distinct stream ids, the loop leaves each stream's permissions at the user's pair. -/
theorem usersStreamsPermissions_initStreams :
    ∀ (l : List (Σ _ : Nat, StreamPermissions)) (p : Permissioner), l.NodupKeys → ∀ k,
      (p.initStreams u l).usersStreamsPermissions k =
        (if k.1 = u then l.dlookup k.2 else none).or (p.usersStreamsPermissions k)
  | [], p, _, k => by simp [initStreams]
  | ⟨a, b⟩ :: l, p, hnodup, k => by
    rw [List.nodupKeys_cons] at hnodup
    have ih := usersStreamsPermissions_initStreams l (p.initStreamPermissions u a b) hnodup.2 k
    simp only [initStreams, List.foldl_cons] at ih ⊢
    rw [ih, usersStreamsPermissions_initStreamPermissions, Function.update_apply]
    by_cases hk : k = (u, a)
    · -- the only entry for this stream is the one just written
      subst hk
      simp [List.dlookup_eq_none.mpr hnodup.1]
    · by_cases hu : k.1 = u
      · have ha : k.2 ≠ a := fun ha => hk (Prod.ext hu ha)
        simp [hk, hu, List.dlookup_cons_ne l ⟨a, b⟩ ha]
      · simp [hk, hu]

theorem mem_pollStream_initStreams :
    ∀ (l : List (Σ _ : Nat, StreamPermissions)) (p : Permissioner), l.NodupKeys → ∀ k,
      k ∈ (p.initStreams u l).usersThatCanPollMessagesFromSpecificStreams ↔
        (k.1 = u ∧ (l.dlookup k.2).any (·.pollMessages)) ∨ k ∈ p.usersThatCanPollMessagesFromSpecificStreams
  | [], p, _, k => by simp [initStreams]
  | ⟨a, b⟩ :: l, p, hnodup, k => by
    rw [List.nodupKeys_cons] at hnodup
    have ih := mem_pollStream_initStreams l (p.initStreamPermissions u a b) hnodup.2 k
    simp only [initStreams, List.foldl_cons] at ih ⊢
    rw [ih, mem_pollStream_initStreamPermissions]
    obtain ⟨k1, k2⟩ := k
    by_cases ha : k2 = a
    · -- the stream just written has no other entry
      subst ha
      simp only [List.dlookup_eq_none.mpr hnodup.1, List.dlookup_cons_eq, Option.any_none,
        Option.any_some]
      simp only [Prod.mk.injEq, and_true]
      tauto
    · simp [List.dlookup_cons_ne l ⟨a, b⟩ ha, ha]

theorem mem_sendStream_initStreams :
    ∀ (l : List (Σ _ : Nat, StreamPermissions)) (p : Permissioner), l.NodupKeys → ∀ k,
      k ∈ (p.initStreams u l).usersThatCanSendMessagesToSpecificStreams ↔
        (k.1 = u ∧ (l.dlookup k.2).any (·.sendMessages)) ∨ k ∈ p.usersThatCanSendMessagesToSpecificStreams
  | [], p, _, k => by simp [initStreams]
  | ⟨a, b⟩ :: l, p, hnodup, k => by
    rw [List.nodupKeys_cons] at hnodup
    have ih := mem_sendStream_initStreams l (p.initStreamPermissions u a b) hnodup.2 k
    simp only [initStreams, List.foldl_cons] at ih ⊢
    rw [ih, mem_sendStream_initStreamPermissions]
    obtain ⟨k1, k2⟩ := k
    by_cases ha : k2 = a
    · -- the stream just written has no other entry
      subst ha
      simp only [List.dlookup_eq_none.mpr hnodup.1, List.dlookup_cons_eq, Option.any_none,
        Option.any_some]
      simp only [Prod.mk.injEq, and_true]
      tauto
    · simp [List.dlookup_cons_ne l ⟨a, b⟩ ha, ha]

@[simp] theorem usersPermissions_initGlobalPermissions (g : GlobalPermissions) :
    (p.initGlobalPermissions u g).usersPermissions = Function.update p.usersPermissions u (some g) := by
  unfold initGlobalPermissions
  split_ifs <;> rfl

@[simp] theorem usersStreamsPermissions_initGlobalPermissions (g : GlobalPermissions) :
    (p.initGlobalPermissions u g).usersStreamsPermissions = p.usersStreamsPermissions := by
  unfold initGlobalPermissions
  split_ifs <;> rfl

@[simp] theorem mem_pollAll_initGlobalPermissions (g : GlobalPermissions) (k : Nat) :
    k ∈ (p.initGlobalPermissions u g).usersThatCanPollMessagesFromAllStreams ↔
      (k = u ∧ g.pollMessages) ∨ k ∈ p.usersThatCanPollMessagesFromAllStreams := by
  unfold initGlobalPermissions
  split_ifs <;> simp_all

@[simp] theorem mem_sendAll_initGlobalPermissions (g : GlobalPermissions) (k : Nat) :
    k ∈ (p.initGlobalPermissions u g).usersThatCanSendMessagesToAllStreams ↔
      (k = u ∧ g.sendMessages) ∨ k ∈ p.usersThatCanSendMessagesToAllStreams := by
  unfold initGlobalPermissions
  split_ifs <;> simp_all

@[simp] theorem pollStream_initGlobalPermissions (g : GlobalPermissions) :
    (p.initGlobalPermissions u g).usersThatCanPollMessagesFromSpecificStreams =
      p.usersThatCanPollMessagesFromSpecificStreams := by
  unfold initGlobalPermissions
  split_ifs <;> rfl

@[simp] theorem sendStream_initGlobalPermissions (g : GlobalPermissions) :
    (p.initGlobalPermissions u g).usersThatCanSendMessagesToSpecificStreams =
      p.usersThatCanSendMessagesToSpecificStreams := by
  unfold initGlobalPermissions
  split_ifs <;> rfl

/-- Initialising with permissions is the global part, then the loop over their streams (none
when they have no `streams` map). -/
theorem initPermissionsForUser_some (q : Permissions) :
    p.initPermissionsForUser u (some q) =
      (p.initGlobalPermissions u q.global).initStreams u ((q.streams.map AList.entries).getD []) := by
  cases hs : q.streams <;> simp [initPermissionsForUser, hs, initStreams]

theorem nodupKeys_streamEntries (q : Permissions) :
    ((q.streams.map AList.entries).getD []).NodupKeys := by
  cases hs : q.streams with
  | none => exact List.nodupKeys_nil
  | some m => exact m.nodupKeys

theorem dlookup_streamEntries (q : Permissions) (s : Nat) :
    ((q.streams.map AList.entries).getD []).dlookup s = q.stream s := by
  cases hs : q.streams <;> simp [Permissions.stream, hs, AList.lookup]

end Init

/-- Initialising a user the caches hold nothing for records their permissions. -/
theorem Caches.init {p : Permissioner} {P : Nat → Option Permissions} (h : Caches p P) {u : Nat}
    (hnone : P u = none) (permissions : Option Permissions) :
    Caches (p.initPermissionsForUser u permissions) (Function.update P u permissions) := by
  cases permissions with
  | none =>
    have hP : Function.update P u none = P := by
      rw [← hnone]
      exact Function.update_eq_self u P
    rw [hP]
    exact h
  | some q =>
    rw [initPermissionsForUser_some]
    have hl := nodupKeys_streamEntries q
    -- the user had no entries, so every read about them comes from `q` alone
    have hglobal : P u = none → u ∉ p.usersThatCanPollMessagesFromAllStreams ∧
        u ∉ p.usersThatCanSendMessagesToAllStreams := fun hu => by
      simp [h.pollAll, h.sendAll, hu]
    refine ⟨fun u' => ?_, fun u' s => ?_, fun u' => ?_, fun u' => ?_, fun u' s => ?_,
      fun u' s => ?_⟩
    · rw [initStreams_of_keeps u usersPermissions (fun _ _ _ => by simp)]
      by_cases hu : u' = u <;> simp [hu, h.global]
    · rw [usersStreamsPermissions_initStreams u _ _ hl]
      by_cases hu : u' = u
      · subst hu
        simp [dlookup_streamEntries, h.stream, hnone]
      · simp [hu, h.stream]
    · rw [initStreams_of_keeps u usersThatCanPollMessagesFromAllStreams (fun _ _ _ => by simp)]
      by_cases hu : u' = u
      · subst hu
        simp [(hglobal hnone).1]
      · simp [hu, h.pollAll]
    · rw [initStreams_of_keeps u usersThatCanSendMessagesToAllStreams (fun _ _ _ => by simp)]
      by_cases hu : u' = u
      · subst hu
        simp [(hglobal hnone).2]
      · simp [hu, h.sendAll]
    · rw [mem_pollStream_initStreams u _ _ hl]
      by_cases hu : u' = u
      · subst hu
        simp [dlookup_streamEntries, h.pollStream, hnone]
      · simp [hu, h.pollStream]
    · rw [mem_sendStream_initStreams u _ _ hl]
      by_cases hu : u' = u
      · subst hu
        simp [dlookup_streamEntries, h.sendStream, hnone]
      · simp [hu, h.sendStream]

/-- The states the calls reach, with `P`, the permissions last given to each user. `init` is
called only on a user the permissioner holds nothing for. -/
inductive Reachable : Permissioner → (Nat → Option Permissions) → Prop
  | new : Reachable new fun _ => none
  | init {p P} (userId : Nat) (permissions : Option Permissions) (hfresh : p.HasNoEntries userId) :
      Reachable p P →
        Reachable (p.initPermissionsForUser userId permissions) (Function.update P userId permissions)
  | update {p P} (userId : Nat) (permissions : Option Permissions) :
      Reachable p P →
        Reachable (p.updatePermissionsForUser userId permissions)
          (Function.update P userId permissions)
  | delete {p P} (userId : Nat) :
      Reachable p P → Reachable (p.deletePermissionsForUser userId) (Function.update P userId none)

theorem Reachable.caches {p : Permissioner} {P : Nat → Option Permissions} (h : Reachable p P) :
    Caches p P := by
  induction h with
  | new => exact caches_new
  | init u permissions hfresh _ ih => exact ih.init (ih.eq_none hfresh) permissions
  | update u permissions _ ih =>
    -- `update` is `delete`, then `init` on the user `delete` has just emptied
    have hinit := (ih.delete u).init (u := u) (by simp) permissions
    rwa [Function.update_idem] at hinit
  | delete u _ ih => exact ih.delete u

/-- **The caches agree with the plain permissions.** In every reachable state, every read a
rule makes about a user is what the user's last given permissions answer, with each of the
four sets read as the flag it collects; so every rule, the topic and message rules among them,
grants exactly what it grants on those permissions. The rules also keep the inheritance their
comments state. -/
theorem permission_caches_agree {p : Permissioner} {P : Nat → Option Permissions}
    (h : Reachable p P) :
    (∀ u, p.view u = Permissions.view (P u)) ∧
      ∀ u s t,
        ((p.view u).pollMessages s t = .ok () ↔ (Permissions.view (P u)).pollMessages s t = .ok ()) ∧
        ((p.view u).appendMessages s t = .ok () ↔
          (Permissions.view (P u)).appendMessages s t = .ok ()) ∧
        ((p.view u).getTopic s t = .ok () ↔ (Permissions.view (P u)).getTopic s t = .ok ()) ∧
        ((p.view u).getTopics s = .ok () ↔ (Permissions.view (P u)).getTopics s = .ok ()) ∧
        ((p.view u).createTopic s = .ok () ↔ (Permissions.view (P u)).createTopic s = .ok ()) ∧
        ((p.view u).updateTopic s t = .ok () ↔ (Permissions.view (P u)).updateTopic s t = .ok ()) ∧
        ((p.view u).deleteTopic s t = .ok () ↔ (Permissions.view (P u)).deleteTopic s t = .ok ()) ∧
        ((p.view u).purgeTopic s t = .ok () ↔ (Permissions.view (P u)).purgeTopic s t = .ok ()) ∧
        ((p.view u).createTopic s = .ok () → (p.view u).updateTopic s t = .ok ()) ∧
        ((p.view u).updateTopic s t = .ok () → (p.view u).getTopic s t = .ok ()) ∧
        ((p.view u).getTopic s t = .ok () → (p.view u).pollMessages s t = .ok ()) ∧
        ((p.view u).updateTopic s t = .ok () → (p.view u).appendMessages s t = .ok ()) := by
  have hview := h.caches.view_eq
  refine ⟨hview, fun u s t => ?_⟩
  rw [hview u]
  exact ⟨Iff.rfl, Iff.rfl, Iff.rfl, Iff.rfl, Iff.rfl, Iff.rfl, Iff.rfl, Iff.rfl,
    PermissionView.createTopic_ok_updateTopic, PermissionView.updateTopic_ok_getTopic,
    PermissionView.getTopic_ok_pollMessages, PermissionView.updateTopic_ok_appendMessages⟩

theorem hasNoEntries_new (u : Nat) : new.HasNoEntries u := by
  simp [HasNoEntries, view, Permissions.view, new]

/-- Permissions that grant polling on every stream and nothing else. -/
def pollEverywhere : Permissions :=
  ⟨⟨false, false, false, false, false, false, false, false, true, false⟩, none⟩

/-- A user granted polling everywhere, then updated to no permissions, holds nothing. -/
theorem permission_caches_agree_update :
    ((new.initPermissionsForUser 1 (some pollEverywhere)).updatePermissionsForUser 1 none).view 1 =
      Permissions.view none := by
  have h := (permission_caches_agree ((Reachable.new.init 1 (some pollEverywhere)
    (hasNoEntries_new 1)).update 1 none)).1 1
  simpa using h

/-- Global `poll_messages` is honoured only through its set: with the four sets left out,
`poll_messages` refuses a user whose permissions grant polling on every stream. -/
theorem poll_grant_only_in_cache :
    Reachable (new.initPermissionsForUser 1 (some pollEverywhere))
        (Function.update (fun _ => none) 1 (some pollEverywhere)) ∧
      ((new.initPermissionsForUser 1 (some pollEverywhere)).view 1).pollMessages 0 0 = .ok () ∧
      (Permissions.view (some pollEverywhere)).withoutCaches.pollMessages 0 0 =
        .error .unauthorized :=
  ⟨Reachable.new.init 1 (some pollEverywhere) (hasNoEntries_new 1), by decide, rfl⟩

end Permissioner

end IggyCore.Metadata
