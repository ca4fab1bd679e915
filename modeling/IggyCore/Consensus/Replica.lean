import IggyCore.Consensus.ViewChangeQuorum
import IggyCore.Consensus.Timeout
import IggyCore.Library.Run

/-!
# The replica's consensus state

`VsrConsensus` of `core/consensus/src/impls.rs`, with the `LocalPipeline` the metadata plane
uses. The `Cell`s and `RefCell`s of the source become fields of one record, and each method
returns the updated record. The message bus, the simulator events and the `plane` argument
that only feeds them have no effect on the state and are left out.

The invariant `replica < replica_count` that `VsrConsensus::new` asserts is a field, so no
state with an out-of-range own id can be built.
-/

namespace IggyCore.Consensus

inductive Status
  | normal | viewChange | recovering
  deriving DecidableEq, Repr

/-- What the caller must do after a VSR event. -/
inductive VsrAction
  | sendStartViewChange (view nspace : Nat)
  | sendDoViewChange (view target logView op commit nspace : Nat)
  | sendStartView (view op commit nspace : Nat)
  | sendPrepareOk (view fromOp toOp target nspace : Nat)
  | retransmitPrepares (targets : List (PrepareHeader × List Nat))
  | rebuildPipeline (fromOp toOp : Nat)
  | commitJournal
  | sendCommit (view commit nspace timestampMonotonic : Nat)
  deriving DecidableEq, Repr

structure VsrConsensus where
  cluster : Nat
  replica : Nat
  replicaCount : Nat
  nspace : Nat
  view : Nat
  /-- The latest view in which this replica changed its head message. -/
  logView : Nat
  status : Status
  /-- Highest op executed locally. -/
  commitMin : Nat
  /-- Highest op known to be committed by the cluster. -/
  commitMax : Nat
  /-- `LocalSequencer`: the current op. -/
  sequencer : Nat
  lastTimestamp : Nat
  lastPrepareChecksum : Nat
  pipeline : LocalPipeline
  loopbackQueue : List PrepareOkHeader
  startViewChangeFromAllReplicas : Finset Nat
  doViewChangeFromAllReplicas : DvcQuorumArray
  doViewChangeQuorum : Bool
  sentOwnStartViewChange : Bool
  sentOwnDoViewChange : Bool
  timeouts : TimeoutManager
  heartbeatTimestamp : Nat
  replica_lt : replica < replicaCount

namespace VsrConsensus

/-- The state `VsrConsensus::new` builds once its assertion has passed. -/
def fresh (cluster replica replicaCount nspace : Nat) (h : replica < replicaCount) :
    VsrConsensus :=
  { cluster, replica, replicaCount, nspace, view := 0, logView := 0,
    status := .recovering, commitMin := 0, commitMax := 0, sequencer := 0,
    lastTimestamp := 0, lastPrepareChecksum := 0, pipeline := .new, loopbackQueue := [],
    startViewChangeFromAllReplicas := ∅, doViewChangeFromAllReplicas := dvcQuorumArrayEmpty,
    doViewChangeQuorum := false, sentOwnStartViewChange := false,
    sentOwnDoViewChange := false, timeouts := .new, heartbeatTimestamp := 0,
    replica_lt := h }

/-- `VsrConsensus::new`; the namespace check is a `debug_assert!` only. -/
def new (cluster replica replicaCount nspace : Nat) : Except Panic VsrConsensus :=
  if h : replica < replicaCount then .ok (fresh cluster replica replicaCount nspace h)
  else .error ⟨"replica index must be < replica_count"⟩

def primaryIndex (s : VsrConsensus) (view : Nat) : Nat := view % s.replicaCount

/-- Bootstrap only: set the view and nothing else. -/
def setView (s : VsrConsensus) (view : Nat) : VsrConsensus := { s with view }

def isPrimary (s : VsrConsensus) : Bool := s.primaryIndex s.view == s.replica

def isPrimaryForView (s : VsrConsensus) (view : Nat) : Bool := s.primaryIndex view == s.replica

/-- Sync is not implemented yet: always `false`. -/
def isSyncing (_ : VsrConsensus) : Bool := false

def isNormal (s : VsrConsensus) : Bool := s.status == .normal

def init (s : VsrConsensus) : VsrConsensus :=
  { s with
    status := .normal
    timeouts := if s.isPrimary then (s.timeouts.start .prepare).start .commitMessage
      else s.timeouts.start .normalHeartbeat }

/-- For a cluster of `2f + 1` replicas, `f`. -/
def maxFaulty (s : VsrConsensus) : Nat := (s.replicaCount - 1) / 2

def quorum (s : VsrConsensus) : Nat := s.maxFaulty + 1

def commitMaxInvariantMessage : String := "assertion failed: self.commit_max.get() >= self.commit_min.get()"

/-- Raise `commit_max` to `commit` if that is higher; it must not fall below `commit_min`. -/
def advanceCommitMax (s : VsrConsensus) (commit : Nat) : Except Panic VsrConsensus :=
  if max s.commitMax commit ≥ s.commitMin then .ok { s with commitMax := max s.commitMax commit }
  else .error ⟨commitMaxInvariantMessage⟩

/-- Advance `commit_min` by exactly one op, never past `commit_max`. -/
def advanceCommitMin (s : VsrConsensus) (op : Nat) : Except Panic VsrConsensus :=
  if op ≠ s.commitMin + 1 then
    .error ⟨s!"commit_min must advance sequentially: expected {s.commitMin + 1}, got {op}"⟩
  else if s.commitMax ≥ op then .ok { s with commitMin := op }
  else .error ⟨commitMaxInvariantMessage⟩

/-- Bootstrap restore of commit progress on a fresh instance. -/
def restoreCommitState (s : VsrConsensus) (commitMin commitMax : Nat) :
    Except Panic VsrConsensus :=
  if commitMin > commitMax then .error ⟨"commit_min must be <= commit_max"⟩
  else if s.commitMin ≠ 0 ∨ s.commitMax ≠ 0 then
    .error ⟨"restore_commit_state must only be used on a fresh consensus instance"⟩
  else .ok { s with commitMin, commitMax }

/-- A primary-stamped timestamp strictly above every earlier one; `now` is the wall clock. -/
def nextMonotonicTimestamp (s : VsrConsensus) (now : Nat) : VsrConsensus × Nat :=
  let next := max now (s.lastTimestamp + 1)
  ({ s with lastTimestamp := next }, next)

/-- SVCs counted from replicas other than this one. -/
def svcCountExcludingSelf (s : VsrConsensus) : Nat :=
  let total := s.startViewChangeFromAllReplicas.card
  if s.replica ∈ s.startViewChangeFromAllReplicas then total - 1 else total

/-- Reset view-change bookkeeping on a view transition; the prepare queue survives. -/
def resetViewChangeState (s : VsrConsensus) : VsrConsensus :=
  { s with
    startViewChangeFromAllReplicas := ∅
    doViewChangeFromAllReplicas := dvcReset s.doViewChangeFromAllReplicas
    doViewChangeQuorum := false
    sentOwnStartViewChange := false
    sentOwnDoViewChange := false
    loopbackQueue := []
    pipeline := s.pipeline.cancelAllSubscribers.clearRequestQueue }

/-- The block the heartbeat timeout and a higher-view SVC or DVC all run: move to `newView`
in view-change status and count our own StartViewChange. -/
def enterViewChange (s : VsrConsensus) (newView : Nat) : VsrConsensus :=
  let s := { s with view := newView, status := .viewChange }.resetViewChangeState
  { s with
    sentOwnStartViewChange := true
    startViewChangeFromAllReplicas := insert s.replica s.startViewChangeFromAllReplicas
    timeouts := ((s.timeouts.stop .normalHeartbeat).start .startViewChangeMessage).start
      .viewChangeStatus }

/-! ## Field lemmas -/

section Fields

variable (s : VsrConsensus)

@[simp] theorem resetViewChangeState_view : s.resetViewChangeState.view = s.view := rfl
@[simp] theorem resetViewChangeState_logView : s.resetViewChangeState.logView = s.logView := rfl
@[simp] theorem resetViewChangeState_status : s.resetViewChangeState.status = s.status := rfl
@[simp] theorem resetViewChangeState_commitMin :
    s.resetViewChangeState.commitMin = s.commitMin := rfl
@[simp] theorem resetViewChangeState_commitMax :
    s.resetViewChangeState.commitMax = s.commitMax := rfl
@[simp] theorem resetViewChangeState_replica : s.resetViewChangeState.replica = s.replica := rfl
@[simp] theorem resetViewChangeState_replicaCount :
    s.resetViewChangeState.replicaCount = s.replicaCount := rfl
@[simp] theorem resetViewChangeState_svc :
    s.resetViewChangeState.startViewChangeFromAllReplicas = ∅ := rfl
@[simp] theorem resetViewChangeState_dvc :
    s.resetViewChangeState.doViewChangeFromAllReplicas = dvcQuorumArrayEmpty := rfl

variable (v : Nat)

@[simp] theorem enterViewChange_view : (s.enterViewChange v).view = v := rfl
@[simp] theorem enterViewChange_logView : (s.enterViewChange v).logView = s.logView := rfl
@[simp] theorem enterViewChange_status : (s.enterViewChange v).status = .viewChange := rfl
@[simp] theorem enterViewChange_commitMin : (s.enterViewChange v).commitMin = s.commitMin := rfl
@[simp] theorem enterViewChange_commitMax : (s.enterViewChange v).commitMax = s.commitMax := rfl
@[simp] theorem enterViewChange_replica : (s.enterViewChange v).replica = s.replica := rfl
@[simp] theorem enterViewChange_replicaCount :
    (s.enterViewChange v).replicaCount = s.replicaCount := rfl
@[simp] theorem enterViewChange_sequencer : (s.enterViewChange v).sequencer = s.sequencer := rfl
@[simp] theorem enterViewChange_svc :
    (s.enterViewChange v).startViewChangeFromAllReplicas = {s.replica} := rfl
@[simp] theorem enterViewChange_dvc :
    (s.enterViewChange v).doViewChangeFromAllReplicas = dvcQuorumArrayEmpty := rfl
@[simp] theorem enterViewChange_sentOwnDoViewChange :
    (s.enterViewChange v).sentOwnDoViewChange = false := rfl
@[simp] theorem enterViewChange_doViewChangeQuorum :
    (s.enterViewChange v).doViewChangeQuorum = false := rfl

end Fields

theorem advanceCommitMax_spec {s t : VsrConsensus} {c : Nat} (h : s.advanceCommitMax c = .ok t) :
    t = { s with commitMax := max s.commitMax c } ∧ s.commitMin ≤ max s.commitMax c := by
  unfold advanceCommitMax at h
  split at h
  · cases h
    exact ⟨rfl, ‹_›⟩
  · cases h

theorem advanceCommitMax_outcome (s : VsrConsensus) (c : Nat) :
    IggyCore.Library.Outcome (fun p => p = ⟨commitMaxInvariantMessage⟩)
      (fun t => t = { s with commitMax := max s.commitMax c } ∧ s.commitMin ≤ max s.commitMax c)
      (s.advanceCommitMax c) := by
  unfold advanceCommitMax
  split
  · exact ⟨rfl, ‹_›⟩
  · rfl

theorem advanceCommitMax_ok {s : VsrConsensus} (h : s.commitMin ≤ s.commitMax) (c : Nat) :
    s.advanceCommitMax c = .ok { s with commitMax := max s.commitMax c } := by
  unfold advanceCommitMax
  rw [if_pos (by omega)]

theorem advanceCommitMin_spec {s t : VsrConsensus} {op : Nat} (h : s.advanceCommitMin op = .ok t) :
    op = s.commitMin + 1 ∧ op ≤ s.commitMax ∧ t = { s with commitMin := op } := by
  unfold advanceCommitMin at h
  split at h
  · cases h
  · split at h
    · cases h
      exact ⟨by omega, by omega, rfl⟩
    · cases h

end VsrConsensus

/-! ## Prepares built by the primary -/

/-- `size_of::<PrepareHeader>()`. -/
def prepareHeaderSize : Nat := 256

/-- The header both `build_prepare_message` and `project` write: the consensus fields of the
primary, the client fields of the request. -/
def prepareHeader (s : VsrConsensus) (request : RequestHeader) (size : Nat)
    (operation : Operation) (timestamp : Nat) : PrepareHeader :=
  { checksum := 0, cluster := s.cluster, size, view := s.view, release := request.release,
    command := .prepare, replica := s.replica, client := request.client,
    parent := s.lastPrepareChecksum, requestChecksum := request.requestChecksum,
    request := request.request, commit := s.commitMax, op := s.sequencer + 1, timestamp,
    operation, nspace := request.nspace }

/-- `Project::project` of a request: its own operation and body, under a prepare header; `now`
is the wall clock that `next_monotonic_timestamp` reads. -/
def project (s : VsrConsensus) (now : Nat) (message : Message RequestHeader) :
    VsrConsensus × Message PrepareHeader :=
  let (t, timestamp) := s.nextMonotonicTimestamp now
  (t, ⟨prepareHeader s message.header message.header.size message.header.operation timestamp,
    message.body⟩)

end IggyCore.Consensus
