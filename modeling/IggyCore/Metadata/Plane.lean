import IggyCore.Metadata.Prepare
import IggyCore.Journal.PrepareJournal
import IggyCore.Consensus.ClientTable
import IggyCore.Consensus.PrepareOk
import IggyCore.Consensus.ViewChange
import IggyCore.Server.Bootstrap

/-!
# A replica of the metadata plane

`IggyMetadata` (`core/metadata/src/impls/metadata.rs`) with the shard code that feeds it
(`core/shard/src/lib.rs`): the handlers a replica runs for a client request, a prepare, a
PrepareOk, the view-change messages, a primary heartbeat and a tick, and the dispatch of the
`VsrAction`s they return into messages for other replicas.

Each handler runs to completion: the model has no interleaving at an `.await` inside one
handler. A handler that can panic returns `Except Panic`; the messages it sends come back as a
list of envelopes. Replies and evictions sent to clients change no replica's state and are not
sent here. The snapshot coordinator is absent (`checkpoint_if_needed` returns at once), as in
a replica without a data directory.

The state machine behind the plane (`mux_stm`) is a parameter: what it does with a committed
prepare, and the partition counts `prepare_request` looks up. The replica also records, as
ghost state, the header of every prepare it commits, in the order `commit_min` passes them.
-/

namespace IggyCore.Metadata

open IggyCore.Consensus IggyCore.Journal IggyCore.Wire IggyCore.Server

/-- `CLIENTS_TABLE_MAX`. -/
def clientsTableMax : Nat := 8192

/-- A consensus message between replicas, as the bus decodes it into a `MessageBag`. -/
inductive ReplicaMessage
  | prepare (message : Message PrepareHeader)
  | prepareOk (header : PrepareOkHeader)
  | startViewChange (header : StartViewChangeHeader)
  | doViewChange (header : DoViewChangeHeader)
  | startView (header : StartViewHeader)
  | commit (header : CommitHeader)
  deriving DecidableEq, Repr

/-- A message on its way to the replica `target`. -/
structure Envelope where
  target : Nat
  message : ReplicaMessage
  deriving DecidableEq, Repr

/-- What the plane asks of its state machine. -/
structure MetadataStm (σ : Type) where
  /-- `StateMachine::update` on a committed prepare: the new state and the reply body. -/
  update : σ → Message PrepareHeader → Except IggyError (σ × List UInt8)
  /-- The partition counts `prepare_request` checks a `CreatePartitions` against. -/
  partitionCounts : σ → PartitionCounts

/-- A state machine without state that accepts every prepare with an empty reply and knows no
topics. -/
def MetadataStm.idle : MetadataStm Unit := ⟨fun s _ => .ok (s, []), fun _ _ _ => none⟩

structure MetadataReplica (σ : Type) where
  consensus : VsrConsensus
  journal : PrepareJournal
  clientTable : ClientTable
  allocator : ConsensusGroupAllocator
  stm : σ
  /-- Ghost: the headers of the committed prepares, in the order `commit_min` passed them. -/
  applied : List PrepareHeader

/-- `build_reply_message`: the reply to a committed prepare. Its `commit` is the prepare's
op, which orders evictions the same way on every replica. -/
def buildReplyMessage (h : PrepareHeader) (body : List UInt8) : Message ReplyHeader :=
  ⟨{ cluster := h.cluster, size := 256 + body.length, view := h.view, release := h.release,
      command := .reply, replica := h.replica, requestChecksum := h.requestChecksum,
      client := h.client, op := h.op, commit := h.op, timestamp := h.timestamp,
      request := h.request, operation := h.operation, nspace := h.nspace }, body⟩

/-- `is_caught_up_primary`: a normal primary that has executed everything it knows
committed. -/
def isCaughtUpPrimary (c : VsrConsensus) : Bool :=
  c.isPrimary && c.isNormal && !c.isSyncing && c.commitMin == c.commitMax

inductive EvictionReason
  | noSession | sessionTooLow
  deriving DecidableEq, Repr

/-- `PreflightOutcome`: what the primary does with a request before any prepare. -/
inductive PreflightOutcome
  | dispatch
  | replay (reply : Message ReplyHeader)
  | evict (reason : EvictionReason)
  | drop

/-- `request_preflight`: in-flight dedup, the catch-up gate, then the committed table. -/
def requestPreflight (c : VsrConsensus) (t : ClientTable) (client session request : Nat) :
    Except Panic PreflightOutcome := do
  if c.pipeline.hasMessageFromClient client then return .drop
  if !isCaughtUpPrimary c then return .drop
  match ← t.checkRequest client session request with
  | .duplicate reply => return .replay reply
  | .noSession => return .evict .noSession
  | .sessionMismatch expected received =>
    return if expected > received then .evict .sessionTooLow else .drop
  | .stale | .requestGap _ _ | .alreadyRegistered _ _ => return .drop
  | .new => return .dispatch

/-- `register_preflight`: `true` to dispatch the Register. -/
def registerPreflight (c : VsrConsensus) (t : ClientTable) (client : Nat) :
    Except Panic Bool := do
  if c.pipeline.hasMessageFromClient client then return false
  if !isCaughtUpPrimary c then return false
  match ← t.checkRegister client with
  | .new => return true
  | _ => return false

/-- The decision `on_request` and the request-queue drain both take: Register through
`register_preflight`, anything else through `request_preflight` and
`apply_preflight_consensus_plane`, which dispatches only on `Dispatch`. -/
def admits (c : VsrConsensus) (t : ClientTable) (message : Message RequestHeader) :
    Except Panic Bool :=
  let h := message.header
  if h.operation = .register then registerPreflight c t h.client
  else do
    match ← requestPreflight c t h.client h.session h.request with
    | .dispatch => return true
    | _ => return false

/-- `build_register_request_message`: a Register as `SimClient::register` sends it, session
and request 0, routed to the metadata namespace, with no body. -/
def buildRegisterRequestMessage (c : VsrConsensus) (client : Nat) : Message RequestHeader :=
  ⟨{ cluster := c.cluster, size := 256, view := c.view, release := 0, command := .request,
      replica := 0, client, requestChecksum := 0, timestamp := 0, request := 0,
      operation := .register, nspace := metadataConsensusNamespace, session := 0 }, []⟩

/-! ## Sending prepares and acknowledgements -/

/-- The panic of an `assert_eq!` without a message. -/
def assertEqPanic : Panic := ⟨"assertion `left == right` failed"⟩

/-- `replicate_to_next_in_chain`: forward to the next replica unless that is the primary. -/
def replicateToNextInChain (c : VsrConsensus) (m : Message PrepareHeader) :
    Except Panic (List Envelope) := do
  if m.header.command ≠ .prepare then throw assertEqPanic
  if m.header.op ≤ c.commitMin then
    throw ⟨"assertion failed: header.op > consensus.commit_min()"⟩
  let next := (c.replica + 1) % c.replicaCount
  if next = c.primaryIndex m.header.view then return []
  if next = c.replica then throw ⟨"assertion `left != right` failed"⟩
  return [⟨next, .prepare m⟩]

/-- `send_prepare_ok` (`plane_helpers.rs`) with `is_persisted`: acknowledge to the primary of
the current view, through the loopback queue when that is this replica. -/
def sendPrepareOk (c : VsrConsensus) (header : PrepareHeader) (persisted : Bool) :
    Except Panic (VsrConsensus × List Envelope) := do
  if header.command ≠ .prepare then throw assertEqPanic
  if c.status ≠ .normal then return (c, [])
  if c.isSyncing then return (c, [])
  if !persisted then return (c, [])
  if header.view > c.view then
    throw ⟨s!"send_prepare_ok: prepare view {header.view} > our view {c.view}"⟩
  if header.op > c.sequencer then return (c, [])
  let ok : PrepareOkHeader :=
    { cluster := c.cluster, view := c.view, command := .prepareOk, replica := c.replica,
      parent := header.parent, prepareChecksum := header.checksum, op := header.op,
      commit := c.commitMax, timestamp := header.timestamp, request := header.request,
      operation := header.operation, nspace := header.nspace }
  let primary := c.primaryIndex c.view
  if primary = c.replica then
    -- `push_loopback`
    if c.loopbackQueue.length ≥ pipelinePrepareQueueMax then
      throw ⟨s!"loopback queue overflow: {c.loopbackQueue.length} items"⟩
    return ({ c with loopbackQueue := c.loopbackQueue ++ [ok] }, [])
  return (c, [⟨primary, .prepareOk ok⟩])

section Plane

variable {σ : Type} (stm : MetadataStm σ)

/-! ## Committing -/

/-- Apply one committed prepare: a Register opens the client's session, a Logout closes it,
anything else goes to the state machine and its reply is cached under the client's session.
`context` names the caller in the panic of a failed apply; the error's own text is not
modelled. -/
def applyCommitted (r : MetadataReplica σ) (context : String) (header : PrepareHeader)
    (prepare : Message PrepareHeader) : Except Panic (MetadataReplica σ) :=
  if header.operation = .register then do
    let reply := buildReplyMessage header []
    let table ← r.clientTable.commitRegister header.client reply
      r.consensus.pipeline.hasMessageFromClient
    pure { r with clientTable := table }
  else if header.operation = .logout then do
    let (table, _) ← r.clientTable.removeClient header.client
    pure { r with clientTable := table }
  else
    match stm.update r.stm prepare with
    | .error _ => .error ⟨s!"{context}: committed metadata op={header.op} failed to apply"⟩
    | .ok (state, response) => do
      let reply := buildReplyMessage header response
      -- a client evicted while its prepare was in flight has no cached reply
      let table : ClientTable ← match r.clientTable.getSession header.client with
        | some session => r.clientTable.commitReply header.client session reply
        | none => pure r.clientTable
      pure { r with clientTable := table, stm := state }

/-- Apply a prepare, then move `commit_min` over its op. The table is updated before the
counter, with nothing in between. -/
def commitPrepare (r : MetadataReplica σ) (context : String) (header : PrepareHeader)
    (prepare : Message PrepareHeader) : Except Panic (MetadataReplica σ) := do
  let r ← applyCommitted stm r context header prepare
  let consensus ← r.consensus.advanceCommitMin header.op
  pure { r with consensus, applied := r.applied ++ [header] }

/-- The loop of `commit_journal`, with one round of fuel per op below `commit_max`. It stops
at the first op the journal does not hold: message repair is not implemented. -/
def commitJournalLoop (r : MetadataReplica σ) : Nat → Except Panic (MetadataReplica σ)
  | 0 => .ok r
  | fuel + 1 =>
    if r.consensus.commitMin < r.consensus.commitMax then
      let op := r.consensus.commitMin + 1
      match r.journal.header op with
      | none => .ok r
      | some header =>
        match r.journal.entry header with
        | none => .ok r
        | some prepare => do
          let r ← commitPrepare stm r "commit_journal" header prepare
          commitJournalLoop r fuel
    else .ok r

/-- `commit_journal`: apply the journal's ops `commit_min + 1 ..= commit_max`. -/
def commitJournal (r : MetadataReplica σ) : Except Panic (MetadataReplica σ) :=
  commitJournalLoop stm r (r.consensus.commitMax - r.consensus.commitMin)

/-! ## Replication -/

/-- `IggyMetadata::on_replicate`. A backup takes `commit_max` from the prepare, skips a prepare
whose op it has executed or already holds in its journal, and drops one that leaves a gap;
otherwise it appends it, forwards it down the chain, acknowledges it and commits what it
can. -/
def onReplicate (r : MetadataReplica σ) (m : Message PrepareHeader) :
    Except Panic (MetadataReplica σ × List Envelope) := do
  let header := m.header
  -- `replicate_preflight`
  if header.command ≠ .prepare then throw assertEqPanic
  if r.consensus.isSyncing then return (r, [])
  let currentOp := r.consensus.sequencer
  if r.consensus.status ≠ .normal then return (r, [])
  if header.view > r.consensus.view then return (r, [])
  let consensus ← if r.consensus.isPrimary then pure r.consensus
    else r.consensus.advanceCommitMax header.commit
  let r := { r with consensus }
  -- an old prepare: executed, or its op already has a journal entry
  if header.op ≤ consensus.commitMin ∨ (r.journal.header header.op).isSome then return (r, [])
  if let some previous := r.journal.previousHeader header then
    if previous.view = header.view ∧ header.parent ≠ previous.checksum then
      throw ⟨s!"hash chain broken in same view: op={header.op} parent={header.parent} " ++
        s!"expected={previous.checksum}"⟩
  if !consensus.isPrimary ∧ header.op ≠ currentOp + 1 then return (r, [])
  match r.journal.append m with
  | .error _ => return (r, [])
  | .ok journal =>
    let r := { r with journal }
    if (journal.header header.op).isNone then
      throw ⟨"replicate: prepare must be durable in local journal before chain-forward"⟩
    let forward ← replicateToNextInChain r.consensus m
    let allocator ← observePrepareRuntimeState r.allocator m
    let consensus := { r.consensus with
      sequencer := header.op, lastPrepareChecksum := header.checksum }
    let (consensus, acks) ← sendPrepareOk consensus header (journal.header header.op).isSome
    let r := { r with consensus, allocator }
    if consensus.isPrimary then return (r, forward ++ acks)
    let r ← commitJournal stm r
    return (r, forward ++ acks)

/-- `pipeline_prepare_common` on the network path: the primary pushes the prepare onto its
pipeline (`push_prepare_entry`), moving the sequencer with it, then replicates it. -/
def pipelinePrepare (r : MetadataReplica σ) (prepare : Message PrepareHeader) :
    Except Panic (MetadataReplica σ × List Envelope) := do
  let c := r.consensus
  if !c.isPrimary then throw ⟨"on_request: primary only"⟩
  if !c.isNormal then throw ⟨"on_request: status must be normal"⟩
  c.pipeline.verify
  let pipeline ← c.pipeline.push (PipelineEntry.new prepare.header)
  let c := { c with
    pipeline
    sequencer := prepare.header.op
    lastPrepareChecksum := prepare.header.checksum
    timeouts := if c.timeouts.isTicking .prepare then c.timeouts else c.timeouts.start .prepare }
  onReplicate stm { r with consensus := c } prepare

/-- Build the request's prepare and replicate it; a request `prepare_request` rejects is
dropped. -/
def dispatchRequest (r : MetadataReplica σ) (now : Nat) (message : Message RequestHeader) :
    Except Panic (MetadataReplica σ × List Envelope) := do
  match ← prepareRequest r.consensus r.allocator (stm.partitionCounts r.stm) now message with
  | .error _ => return (r, [])
  | .ok (consensus, allocator, prepare) =>
    pipelinePrepare stm { r with consensus, allocator } prepare

/-- `IggyMetadata::on_request`: preflight, then a prepare if the prepare queue has room, else
buffer the request (or drop it when both queues are full). -/
def onRequest (r : MetadataReplica σ) (now : Nat) (message : Message RequestHeader) :
    Except Panic (MetadataReplica σ × List Envelope) := do
  if !(← admits r.consensus r.clientTable message) then return (r, [])
  if r.consensus.pipeline.isFull then
    match r.consensus.pipeline.pushRequest ⟨message⟩ with
    | some pipeline => return ({ r with consensus := { r.consensus with pipeline } }, [])
    | none => return (r, [])
  dispatchRequest stm r now message

/-- `drain_request_queue_into_prepares`: promote up to `slots` buffered requests, each through
the preflight again. -/
def drainRequestQueue (r : MetadataReplica σ) (now : Nat) :
    Nat → Except Panic (MetadataReplica σ × List Envelope)
  | 0 => pure (r, [])
  | slots + 1 =>
    match r.consensus.pipeline.popRequest with
    | (none, _) => pure (r, [])
    | (some request, pipeline) => do
      let r := { r with consensus := { r.consensus with pipeline } }
      let (r, sent) ← if ← admits r.consensus r.clientTable request.message then
          dispatchRequest stm r now request.message
        else pure (r, [])
      let (r, more) ← drainRequestQueue r now slots
      pure (r, sent ++ more)

/-- The body of `on_ack`'s loop over the drained prefix: the prepare comes from the journal. -/
def commitDrained (r : MetadataReplica σ) (entry : PipelineEntry) :
    Except Panic (MetadataReplica σ) := do
  let header := entry.header
  let some prepare := r.journal.entry header
    | throw ⟨s!"on_ack: committed prepare op={header.op} checksum={header.checksum} " ++
        "must be in journal"⟩
  commitPrepare stm r "on_ack" header prepare

/-- `IggyMetadata::on_ack`: count the ack; once it completes a quorum, commit the drained
prefix of the pipeline and promote as many buffered requests. -/
def onAck (r : MetadataReplica σ) (now : Nat) (h : PrepareOkHeader) :
    Except Panic (MetadataReplica σ × List Envelope) := do
  -- `ack_preflight`
  if !r.consensus.isPrimary then return (r, [])
  if r.consensus.status ≠ .normal then return (r, [])
  if (r.consensus.pipeline.messageByOpAndChecksum h.op h.prepareChecksum).isNone then
    return (r, [])
  let (consensus, quorum) ← r.consensus.ackQuorumReached h
  let r := { r with consensus }
  if !quorum then return (r, [])
  let (consensus, drained) := consensus.drainCommittablePrefix
  let r ← drained.foldlM (commitDrained stm) { r with consensus }
  drainRequestQueue stm r now drained.length

end Plane

/-! ## Dispatching `VsrAction`s -/

/-- `broadcast`: one copy to every other replica. -/
def broadcast (c : VsrConsensus) (message : ReplicaMessage) : List Envelope :=
  ((List.range c.replicaCount).filter (· ≠ c.replica)).map fun target => ⟨target, message⟩

/-- The PrepareOks `SendPrepareOk` sends: one per op of the range the journal holds. -/
def prepareOksFor (c : VsrConsensus) (journal : PrepareJournal)
    (view fromOp toOp target nspace : Nat) : List Envelope :=
  (List.range' fromOp (toOp + 1 - fromOp)).filterMap fun op =>
    (journal.header op).map fun ph =>
      ⟨target, .prepareOk
        { cluster := c.cluster, view, command := .prepareOk, replica := c.replica,
          parent := ph.parent, prepareChecksum := ph.checksum, op, commit := c.commitMax,
          timestamp := ph.timestamp, request := ph.request, operation := ph.operation,
          nspace }⟩

/-- The entries `RebuildPipeline` recovers: the journal's headers from `fromOp` up to the first
op it lacks, each acked by this replica, and that missing op. -/
def rebuildEntries (c : VsrConsensus) (journal : PrepareJournal) :
    List Nat → List PipelineEntry × Option Nat
  | [] => ([], none)
  | op :: ops =>
    match journal.header op with
    | none => ([], some op)
    | some header =>
      let (entries, gap) := rebuildEntries c journal ops
      (((PipelineEntry.new header).addAck c.replica).1 :: entries, gap)

/-- One action of `dispatch_vsr_actions`. `CommitJournal` is left to the caller. -/
def dispatchAction (c : VsrConsensus) (journal : PrepareJournal) :
    VsrAction → Except Panic (VsrConsensus × List Envelope)
  | .sendStartViewChange view nspace =>
    .ok (c, broadcast c (.startViewChange
      { view, release := 0, command := .startViewChange, replica := c.replica, nspace }))
  | .sendDoViewChange view target logView op commit nspace =>
    .ok (c, [⟨target, .doViewChange
      { view, release := 0, command := .doViewChange, replica := c.replica, op, commit,
        nspace, logView }⟩])
  | .sendStartView view op commit nspace =>
    .ok (c, broadcast c (.startView
      { view, release := 0, command := .startView, replica := c.replica, op, commit, nspace }))
  | .sendPrepareOk view fromOp toOp target nspace =>
    .ok (c, prepareOksFor c journal view fromOp toOp target nspace)
  | .retransmitPrepares targets =>
    .ok (c, targets.flatMap fun (header, replicas) =>
      match journal.entry header with
      | none => []
      | some prepare => replicas.map fun target => ⟨target, .prepare prepare⟩)
  | .rebuildPipeline fromOp toOp => do
    let (entries, gap) := rebuildEntries c journal (List.range' fromOp (toOp + 1 - fromOp))
    -- a journal gap truncates the sequencer to the last op rebuilt
    let c := match gap with
      | some missing => { c with sequencer := missing - 1 }
      | none => c
    let pipeline ← entries.foldlM LocalPipeline.push c.pipeline
    pure ({ c with pipeline }, [])
  | .commitJournal => .ok (c, [])
  | .sendCommit view commit nspace timestampMonotonic =>
    .ok (c, broadcast c (.commit
      { size := 256, view, command := .commit, replica := c.replica, timestampMonotonic,
        commit, nspace }))

/-- `dispatch_vsr_actions`, in order. -/
def dispatchVsrActions (c : VsrConsensus) (journal : PrepareJournal) :
    List VsrAction → Except Panic (VsrConsensus × List Envelope)
  | [] => .ok (c, [])
  | action :: actions => do
    let (c, sent) ← dispatchAction c journal action
    let (c, more) ← dispatchVsrActions c journal actions
    pure (c, sent ++ more)

/-! ## The shard's handlers -/

section Shard

variable {σ : Type} (stm : MetadataStm σ)

/-- Run a consensus handler and dispatch its actions; `CommitJournal` among them runs
`commit_journal` when `commit` is set, as the DoViewChange path does. -/
def handleWith (r : MetadataReplica σ) (commit : Bool)
    (handler : VsrConsensus → Except Panic (VsrConsensus × List VsrAction)) :
    Except Panic (MetadataReplica σ × List Envelope) := do
  let (consensus, actions) ← handler r.consensus
  let (consensus, sent) ← dispatchVsrActions consensus r.journal actions
  let r := { r with consensus }
  if commit ∧ VsrAction.commitJournal ∈ actions then
    let r ← commitJournal stm r
    return (r, sent)
  return (r, sent)

/-- `on_start_view_change`: the shard never runs `commit_journal` here. -/
def onStartViewChange (r : MetadataReplica σ) (h : StartViewChangeHeader) :
    Except Panic (MetadataReplica σ × List Envelope) :=
  handleWith stm r false (·.handleStartViewChange h)

def onDoViewChange (r : MetadataReplica σ) (h : DoViewChangeHeader) :
    Except Panic (MetadataReplica σ × List Envelope) :=
  handleWith stm r true (·.handleDoViewChange h)

/-- `on_start_view`: the `CommitJournal` that `handle_start_view` returns is dropped by
`dispatch_vsr_actions`, and the shard does not run `commit_journal` itself. -/
def onStartView (r : MetadataReplica σ) (h : StartViewHeader) :
    Except Panic (MetadataReplica σ × List Envelope) :=
  handleWith stm r false (·.handleStartView h)

def onCommit (r : MetadataReplica σ) (h : CommitHeader) :
    Except Panic (MetadataReplica σ × List Envelope) := do
  let (consensus, advanced) ← r.consensus.handleCommit h
  let r := { r with consensus }
  if advanced then
    let r ← commitJournal stm r
    return (r, [])
  return (r, [])

/-- `tick_metadata`: the DVC a timeout resends carries the sequencer and `commit_min`. -/
def tickMetadata (r : MetadataReplica σ) (draw : Nat → Nat → Nat) :
    Except Panic (MetadataReplica σ × List Envelope) :=
  handleWith stm r false fun c => .ok (c.tick draw c.sequencer c.commitMin)

/-- `process_loopback` for the metadata plane: every queued self-ack goes to `on_ack`. -/
def processLoopback (r : MetadataReplica σ) (now : Nat) :
    Except Panic (MetadataReplica σ × List Envelope) :=
  let acks := r.consensus.loopbackQueue
  let r := { r with consensus := { r.consensus with loopbackQueue := [] } }
  acks.foldlM (fun (r, sent) ack => do
    let (r, more) ← onAck stm r now ack
    pure (r, sent ++ more)) (r, [])

/-- `on_message` for a message of the metadata namespace. The bus drops a header that fails
`validate`; a message of another namespace goes to the partitions plane, which is not
modelled. -/
def onMessage (r : MetadataReplica σ) (now : Nat) :
    ReplicaMessage → Except Panic (MetadataReplica σ × List Envelope)
  | .prepare m =>
    if m.header.validate.isOk ∧ m.header.nspace = r.consensus.nspace then onReplicate stm r m
    else .ok (r, [])
  | .prepareOk h =>
    if h.validate.isOk ∧ h.nspace = r.consensus.nspace then onAck stm r now h else .ok (r, [])
  | .startViewChange h =>
    if h.validate.isOk ∧ h.nspace = r.consensus.nspace then onStartViewChange stm r h
    else .ok (r, [])
  | .doViewChange h =>
    if h.validate.isOk ∧ h.nspace = r.consensus.nspace then onDoViewChange stm r h
    else .ok (r, [])
  | .startView h =>
    if h.validate.isOk ∧ h.nspace = r.consensus.nspace then onStartView stm r h
    else .ok (r, [])
  | .commit h =>
    if h.validate.isOk ∧ h.nspace = r.consensus.nspace then onCommit stm r h else .ok (r, [])

end Shard

/-! ## A failed append

`push_prepare_entry` moves the primary's sequencer and last prepare checksum to the prepare
before `on_replicate` appends it to the journal. When the append fails, `on_replicate` returns
without putting them back. -/

section FailedAppend

open IggyCore.Library

variable {σ : Type} (stm : MetadataStm σ) {r r' : MetadataReplica σ}
  {m : Message PrepareHeader} {sent : List Envelope}

end FailedAppend

end IggyCore.Metadata
