import IggyCore.Metadata.Plane
import IggyCore.Server.Bootstrap

/-!
# A cluster of metadata replicas

`n` replicas of the metadata plane and the messages they have sent. A sent message stays
deliverable for ever: delivering any of them, in any order and any number of times, is how
the network loses, reorders and duplicates messages. An event is one handler run on one
replica: a client request arriving, a message delivered, a tick, or the drain of the
replica's loopback queue. A panic in a handler stops the run.

Every replica boots as `restore_metadata_consensus` leaves it over an empty journal.
-/

namespace IggyCore.Metadata

open IggyCore.Consensus IggyCore.Journal IggyCore.Server IggyCore.Wire

structure Cluster (σ : Type) (n : Nat) where
  replicas : Fin n → MetadataReplica σ
  /-- Every message any replica has sent. -/
  sent : List Envelope

inductive Event
  | request (replica now : Nat) (message : Message RequestHeader)
  | deliver (index now : Nat)
  | tick (replica : Nat)
  | loopback (replica now : Nat)
  deriving DecidableEq, Repr

/-- A replica at boot, before any message: normal status in view 0, empty journal and
client table. -/
def bootReplica {σ : Type} (n : Nat) (stm : σ) (i : Fin n) : MetadataReplica σ :=
  { consensus := (VsrConsensus.fresh clusterId i n metadataConsensusNamespace i.isLt).init
    journal := PrepareJournal.empty 0
    clientTable := ClientTable.new clientsTableMax
    allocator := ⟨0⟩
    stm
    applied := [] }

namespace Cluster

variable {σ : Type} {n : Nat}

def boot (n : Nat) (stm : σ) : Cluster σ n := ⟨bootReplica n stm, []⟩

/-- Run a handler on replica `i` and add what it sends; an event for a replica that does not
exist changes nothing. -/
def act (c : Cluster σ n) (i : Nat)
    (handler : MetadataReplica σ → Except Panic (MetadataReplica σ × List Envelope)) :
    Except Panic (Cluster σ n) :=
  if h : i < n then do
    let (r, out) ← handler (c.replicas ⟨i, h⟩)
    pure ⟨Function.update c.replicas ⟨i, h⟩ r, c.sent ++ out⟩
  else .ok c

variable (stm : MetadataStm σ) (draw : Nat → Nat → Nat)

/-- One event. A request whose header fails `validate` is dropped by the bus. -/
def step (c : Cluster σ n) : Event → Except Panic (Cluster σ n)
  | .request i now message =>
    if message.header.validate.isOk then c.act i (onRequest stm · now message) else .ok c
  | .deliver k now =>
    match c.sent[k]? with
    | some envelope => c.act envelope.target (onMessage stm · now envelope.message)
    | none => .ok c
  | .tick i => c.act i (tickMetadata stm · draw)
  | .loopback i now => c.act i (processLoopback stm · now)

def run (c : Cluster σ n) (events : List Event) : Except Panic (Cluster σ n) :=
  events.foldlM (step stm draw) c

end Cluster

/-! ## Two runs of three replicas

Both runs use the state machine `MetadataStm.idle` and commit only Registers, which never
reach it; the ticks' backoff draws are never taken. -/

open IggyCore.Library

/-- The Register a client sends first, built against a replica at boot (view 0). -/
def registerFrom (client : Nat) : Message RequestHeader :=
  buildRegisterRequestMessage (bootReplica 3 () 0).consensus client

/-- Replica 0, primary of view 0, prepares client 1's Register as op 1, and the prepare is
lost. Replica 1 times out and becomes primary of view 1 with replica 2's vote; neither holds
op 1, so view 1 starts at op 0. Replica 0 accepts the StartView and keeps its journal entry.
Replica 1 prepares client 2's Register as op 1 and commits it with replica 2's ack; the
prepare reaches replica 0 along the chain, which skips it as old since its journal slot for
op 1 is taken. The heartbeat of replica 1 then tells replica 0 that op 1 is committed. -/
def staleEntryRun : List Event :=
  [.request 0 1 (registerFrom 1)] ++ List.replicate 500 (.tick 1) ++
    [.deliver 2 2, .deliver 5 3, .deliver 6 4, .deliver 7 5, .request 1 6 (registerFrom 2),
      .loopback 1 7, .deliver 8 8, .deliver 10 9, .deliver 9 10] ++
    List.replicate 50 (.tick 1) ++ [.deliver 11 11, .deliver 12 12]

theorem replicas_apply_different_prepares :
    ∃ events c, (Cluster.boot 3 ()).run MetadataStm.idle (fun _ _ => 0) events = .ok c ∧
      (c.replicas 0).applied.map (fun h => (h.op, h.client)) = [(1, 1)] ∧
      (c.replicas 1).applied.map (fun h => (h.op, h.client)) = [(1, 2)] := by
  obtain ⟨c, hrun, hc⟩ := exists_of_okAnd
    (x := (Cluster.boot 3 ()).run MetadataStm.idle (fun _ _ => 0) staleEntryRun)
    (p := fun c => (c.replicas 0).applied.map (fun h => (h.op, h.client)) == [(1, 1)] &&
      (c.replicas 1).applied.map (fun h => (h.op, h.client)) == [(1, 2)])
    (by decide +kernel)
  simp only [Bool.and_eq_true, beq_iff_eq] at hc
  exact ⟨staleEntryRun, c, hrun, hc⟩

/-- In view 0, op 1 commits on replicas 0 and 1 and op 2 reaches replica 1; replica 2
receives nothing. Replica 1 becomes primary of view 1 with replica 2's vote and commits op 2
with the ack replica 0 sends from its StartView handler. Replica 2 accepts the StartView at
op 2, which sets its sequencer without the entries, then appends op 3, and only op 3: it
cannot execute op 1. It becomes primary of view 2 with replica 1's vote (commit 2):
`commit_max` is 2, its `commit_min` stays 0, and `RebuildPipeline` puts op 3 back in its
pipeline. Replica 1's ack for op 3, sent from its StartView handler, completes the quorum,
and `on_ack` drains op 3 while `commit_min` is 0. -/
def gapEntryRun : List Event :=
  [.request 0 1 (registerFrom 1), .loopback 0 1, .deliver 0 2, .deliver 2 3,
    .request 0 4 (registerFrom 2), .deliver 3 5] ++ List.replicate 500 (.tick 2) ++
    [.deliver 7 6, .deliver 9 7, .deliver 11 8, .deliver 12 9, .deliver 14 10, .deliver 13 11,
      .request 1 12 (registerFrom 3), .deliver 15 13] ++ List.replicate 500 (.tick 2) ++
    [.deliver 19 14, .deliver 22 15, .deliver 24 16, .deliver 25 17]

/-- A registered client's `CreateStream` of the stream `s`, sent in view 0. -/
def createStreamFrom (client session request : Nat) : Message RequestHeader :=
  ⟨{ cluster := clusterId, size := 258, view := 0, release := 0, command := .request,
      replica := 0, client, requestChecksum := 0, timestamp := 0, request,
      operation := .createStream, nspace := metadataConsensusNamespace, session },
    WireName.encode ⟨"s", by decide, by decide⟩⟩

/-- Client 1 registers (op 1, session 1) and every replica executes it. Its request 1 becomes
op 2 on replica 0 only. Replica 1 becomes primary of view 1 at op 1 and commits client 2's
Register as op 2; replica 0 accepts the StartView, keeps its entry for op 2 and skips the new
op 2. Replica 2 becomes primary of view 2 at op 2, and client 1 retries request 1 there:
replica 2's table has not seen it, so it prepares it again as op 3. Replica 0 accepts the
StartView of view 2 and appends op 3, which carries commit 2: it executes its own op 2, the
request, then the heartbeat for commit 3 makes it execute op 3, the same request again. -/
def retriedRequestRun : List Event :=
  [.request 0 1 (registerFrom 1), .loopback 0 1, .deliver 0 2, .deliver 2 3, .deliver 1 4] ++
    List.replicate 50 (.tick 0) ++
    [.deliver 4 5, .deliver 5 6, .request 0 7 (createStreamFrom 1 1 1)] ++
    List.replicate 500 (.tick 1) ++
    [.deliver 8 8, .deliver 11 9, .deliver 12 10, .deliver 13 11, .request 1 12 (registerFrom 2),
      .loopback 1 13, .deliver 14 14, .deliver 16 15, .deliver 15 16] ++
    List.replicate 500 (.tick 2) ++
    [.deliver 18 17, .deliver 21 18, .deliver 22 19, .deliver 23 20,
      .request 2 21 (createStreamFrom 1 1 1), .loopback 2 22, .deliver 24 23, .deliver 26 24] ++
    List.replicate 50 (.tick 2) ++ [.deliver 27 25]

theorem replica_applies_request_twice :
    ∃ events c, (Cluster.boot 3 ()).run MetadataStm.idle (fun _ _ => 0) events = .ok c ∧
      (c.replicas 0).applied.map (fun h => (h.op, h.client, h.request, h.operation)) =
        [(1, 1, 0, .register), (2, 1, 1, .createStream), (3, 1, 1, .createStream)] ∧
      (c.replicas 0).clientTable.getSession 1 = some 1 := by
  obtain ⟨c, hrun, hc⟩ := exists_of_okAnd
    (x := (Cluster.boot 3 ()).run MetadataStm.idle (fun _ _ => 0) retriedRequestRun)
    (p := fun c =>
      (c.replicas 0).applied.map (fun h => (h.op, h.client, h.request, h.operation)) ==
        [(1, 1, 0, .register), (2, 1, 1, .createStream), (3, 1, 1, .createStream)] &&
      (c.replicas 0).clientTable.getSession 1 == some 1)
    (by decide +kernel)
  simp only [Bool.and_eq_true, beq_iff_eq] at hc
  exact ⟨retriedRequestRun, c, hrun, hc⟩

theorem new_primary_commit_min_panics :
    ∃ events, (Cluster.boot 3 ()).run MetadataStm.idle (fun _ _ => 0) events =
      .error ⟨"commit_min must advance sequentially: expected 1, got 3"⟩ :=
  ⟨gapEntryRun, eq_error_of_errorOf (by decide +kernel)⟩

end IggyCore.Metadata
