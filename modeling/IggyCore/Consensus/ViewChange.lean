import IggyCore.Consensus.Replica

/-!
# View change and timeouts

The view-change handlers of `VsrConsensus` (`impls.rs`, lines 1067 to 1878): `tick` and the
timeout handlers it fires, `handle_start_view_change`, `handle_do_view_change`,
`handle_start_view`, `handle_commit` and `complete_view_change_as_primary`. Each returns the
new state and the `VsrAction`s for the caller, or the panic of a failed assertion.
-/

namespace IggyCore.Consensus.VsrConsensus

/-- The vote the primary candidate records for itself. -/
def ownDvc (s : VsrConsensus) : StoredDvc := ⟨s.replica, s.logView, s.sequencer, s.commitMin⟩

/-- The panic of the capacity assertion in `complete_view_change_as_primary`. -/
def capacityPanic (maxCommit newOp : Nat) : Panic :=
  ⟨s!"view change: uncommitted range {maxCommit + 1}..={newOp} ({newOp - maxCommit} ops) " ++
    s!"exceeds pipeline capacity ({pipelinePrepareQueueMax}); " ++
    "DVC winner claims more in-flight ops than the pipeline can hold"⟩

/-- Complete the view change as the new primary once a DVC quorum is in. -/
def completeViewChangeAsPrimary (s : VsrConsensus) :
    Except Panic (VsrConsensus × List VsrAction) := do
  let some winner := dvcSelectWinner s.doViewChangeFromAllReplicas | return (s, [])
  let newOp := winner.op
  let maxCommit := dvcMaxCommit s.doViewChangeFromAllReplicas
  let s ← { s with logView := s.view, status := .normal }.advanceCommitMax maxCommit
  let s := { s with
    sequencer := newOp
    pipeline := s.pipeline.cancelAllSubscribers.clear
    loopbackQueue := []
    timeouts :=
      let t := (((s.timeouts.stop .viewChangeStatus).stop .doViewChangeMessage).stop
        .startViewChangeMessage).start .commitMessage
      if maxCommit < newOp then t.start .prepare else t }
  let actions := [.sendStartView s.view newOp maxCommit s.nspace, .commitJournal]
  if maxCommit < newOp then
    if newOp - maxCommit > pipelinePrepareQueueMax then
      throw (capacityPanic maxCommit newOp)
    return (s, actions ++ [.rebuildPipeline (maxCommit + 1) newOp])
  return (s, actions)

/-- The block a StartViewChange or a DoViewChange for a higher view runs: enter the view
change for that view and announce it with our own StartViewChange. -/
def adoptView (s : VsrConsensus) (view : Nat) : VsrConsensus × List VsrAction :=
  if view > s.view then (s.enterViewChange view, [.sendStartViewChange view s.nspace]) else (s, [])

/-- Record a DoViewChange vote in its sender's slot; a repeated vote is dropped. -/
def recordDvc (s : VsrConsensus) (dvc : StoredDvc) : Except Panic VsrConsensus := do
  let (dvcs, _) ← dvcRecord s.doViewChangeFromAllReplicas dvc
  return { s with doViewChangeFromAllReplicas := dvcs }

/-- The tail of `handle_start_view_change` once `f` other replicas voted: send our DoViewChange
to the candidate and, as the candidate, count it and complete on a quorum. -/
def sendOwnDoViewChange (s : VsrConsensus) : Except Panic (VsrConsensus × List VsrAction) := do
  let candidate := s.primaryIndex s.view
  let s := { s with
    sentOwnDoViewChange := true
    timeouts := s.timeouts.start .doViewChangeMessage }
  let actions := [.sendDoViewChange s.view candidate s.logView s.sequencer s.commitMin s.nspace]
  if candidate = s.replica then
    let s ← s.recordDvc s.ownDvc
    if dvcCount s.doViewChangeFromAllReplicas ≥ s.quorum then
      let (s, more) ← { s with doViewChangeQuorum := true }.completeViewChangeAsPrimary
      return (s, actions ++ more)
    return (s, actions)
  return (s, actions)

/-- Handle a `StartViewChange`: on `f` votes from other replicas, send our DoViewChange. The
status is not consulted: an SVC for the current view counts in normal status too. -/
def handleStartViewChange (s : VsrConsensus) (h : StartViewChangeHeader) :
    Except Panic (VsrConsensus × List VsrAction) := do
  if h.nspace ≠ s.nspace then throw ⟨"SVC routed to wrong group"⟩
  if h.view < s.view then return (s, [])
  let (s, actions) := s.adoptView h.view
  let s := { s with
    startViewChangeFromAllReplicas := insert h.replica s.startViewChangeFromAllReplicas }
  if !s.sentOwnDoViewChange && s.svcCountExcludingSelf ≥ s.maxFaulty then
    let (s, more) ← s.sendOwnDoViewChange
    return (s, actions ++ more)
  return (s, actions)

/-- The candidate's own vote, counted once when the first DoViewChange reaches it. -/
def recordOwnDoViewChange (s : VsrConsensus) : Except Panic VsrConsensus :=
  if !s.sentOwnDoViewChange then do
    let s ← s.recordDvc s.ownDvc
    pure { s with sentOwnDoViewChange := true }
  else pure s

/-- Handle a `DoViewChange`; only the primary candidate of the current view counts them. -/
def handleDoViewChange (s : VsrConsensus) (h : DoViewChangeHeader) :
    Except Panic (VsrConsensus × List VsrAction) := do
  if h.nspace ≠ s.nspace then throw ⟨"DVC routed to wrong group"⟩
  if h.view < s.view then return (s, [])
  let (s, actions) := s.adoptView h.view
  if !s.isPrimaryForView s.view then return (s, actions)
  if s.status ≠ .viewChange then return (s, actions)
  let s ← s.recordOwnDoViewChange
  let s ← s.recordDvc ⟨h.replica, h.logView, h.op, h.commit⟩
  if !s.doViewChangeQuorum && dvcCount s.doViewChangeFromAllReplicas ≥ s.quorum then
    let (s, more) ← { s with doViewChangeQuorum := true }.completeViewChangeAsPrimary
    return (s, actions ++ more)
  return (s, actions)

/-- Handle a `StartView` from the new primary (backups only). -/
def handleStartView (s : VsrConsensus) (h : StartViewHeader) :
    Except Panic (VsrConsensus × List VsrAction) := do
  if h.nspace ≠ s.nspace then throw ⟨"SV routed to wrong group"⟩
  if s.primaryIndex h.view ≠ h.replica then return (s, [])
  if h.view < s.view then return (s, [])
  if h.view = s.logView ∧ h.op < s.sequencer then return (s, [])
  if h.replica = s.replica then return (s, [])
  let s ← { s with view := h.view, logView := h.view, status := .normal }.advanceCommitMax h.commit
  let s := s.resetViewChangeState
  let s := { s with
    pipeline := s.pipeline.clear
    sequencer := h.op
    timeouts := (((s.timeouts.stop .viewChangeStatus).stop .doViewChangeMessage).stop
      .requestStartViewMessage).start .normalHeartbeat }
  let prepareOks :=
    if h.commit < h.op then [.sendPrepareOk h.view (h.commit + 1) h.op h.replica s.nspace] else []
  return (s, .commitJournal :: prepareOks)

/-- Handle a primary heartbeat; `true` when `commit_max` advanced. -/
def handleCommit (s : VsrConsensus) (h : CommitHeader) : Except Panic (VsrConsensus × Bool) := do
  if h.nspace ≠ s.nspace then throw ⟨"Commit routed to wrong group"⟩
  if s.isPrimary then return (s, false)
  if s.status ≠ .normal then return (s, false)
  if h.view ≠ s.view then return (s, false)
  if h.replica ≠ s.primaryIndex h.view then return (s, false)
  let s := if s.heartbeatTimestamp < h.timestampMonotonic then
      { s with
        heartbeatTimestamp := h.timestampMonotonic
        timeouts := s.timeouts.reset .normalHeartbeat }
    else s
  let s' ← s.advanceCommitMax h.commit
  return (s', s'.commitMax > s.commitMax)

/-! ## Timeouts -/

/-- A backup that has not heard from the primary starts a view change. -/
def handleNormalHeartbeatTimeout (s : VsrConsensus) : VsrConsensus × List VsrAction :=
  if s.isPrimary then (s, [])
  else if s.status = .viewChange then (s, [])
  else (s.enterViewChange (s.view + 1), [.sendStartViewChange (s.view + 1) s.nspace])

/-- Resend our SVC while we are voting. -/
def handleStartViewChangeMessageTimeout (s : VsrConsensus) : VsrConsensus × List VsrAction :=
  if !s.sentOwnStartViewChange then (s, [])
  else ({ s with timeouts := s.timeouts.reset .startViewChangeMessage },
    [.sendStartViewChange s.view s.nspace])

/-- Resend our DVC; `currentOp` and `currentCommit` come from the caller. -/
def handleDoViewChangeMessageTimeout (s : VsrConsensus) (currentOp currentCommit : Nat) :
    VsrConsensus × List VsrAction :=
  if s.status ≠ .viewChange then (s, [])
  else if !s.sentOwnDoViewChange then (s, [])
  else if s.isPrimary && s.doViewChangeQuorum then (s, [])
  else ({ s with timeouts := s.timeouts.reset .doViewChangeMessage },
    [.sendDoViewChange s.view (s.primaryIndex s.view) s.logView currentOp currentCommit s.nspace])

/-- Escalate to the next view while stuck in a view change. -/
def handleViewChangeStatusTimeout (s : VsrConsensus) : VsrConsensus × List VsrAction :=
  if s.status ≠ .viewChange then (s, [])
  else
    let s' := { s with view := s.view + 1 }.resetViewChangeState
    ({ s' with
        sentOwnStartViewChange := true
        startViewChangeFromAllReplicas := insert s'.replica s'.startViewChangeFromAllReplicas
        timeouts := s'.timeouts.reset .viewChangeStatus },
      [.sendStartViewChange (s.view + 1) s.nspace])

/-- Uncommitted prepares in `(commit_max, current op]` without quorum, with the replicas
that have not acked them. -/
def retransmitTargets (s : VsrConsensus) : List (PrepareHeader × List Nat) :=
  (List.range' (s.commitMax + 1) (s.sequencer - s.commitMax)).filterMap fun op =>
    match s.pipeline.messageByOp op with
    | some e =>
      if e.okQuorumReceived then none
      else
        let missing := (List.range s.replicaCount).filter fun r => !e.hasAck r
        if missing.isEmpty then none else some (e.header, missing)
    | none => none

def handlePrepareTimeout (s : VsrConsensus) (draw : Nat → Nat → Nat) :
    VsrConsensus × List VsrAction :=
  if !s.isPrimary || s.status ≠ .normal then (s, [])
  else if s.pipeline.isEmpty then (s, [])
  else
    let targets := s.retransmitTargets
    if targets.isEmpty then (s, [])
    else ({ s with timeouts := s.timeouts.backoff draw .prepare }, [.retransmitPrepares targets])

/-- Primary heartbeat: advertise `commit_min`, what this replica has executed. -/
def handleCommitMessageTimeout (s : VsrConsensus) : VsrConsensus × List VsrAction :=
  if !s.isPrimary || s.status ≠ .normal then (s, [])
  else
    let ts := s.heartbeatTimestamp + 1
    ({ s with timeouts := s.timeouts.reset .commitMessage, heartbeatTimestamp := ts },
      [.sendCommit s.view s.commitMin s.nspace ts])

/-- Run one handler if its timeout has fired, appending its actions. -/
def whenFired (k : TimeoutKind) (handler : VsrConsensus → VsrConsensus × List VsrAction)
    (sa : VsrConsensus × List VsrAction) : VsrConsensus × List VsrAction :=
  if sa.1.timeouts.fired k then
    let (s, more) := handler sa.1
    (s, sa.2 ++ more)
  else sa

/-- One tick: advance every timeout, then handle the fired ones in the source's order. -/
def tick (s : VsrConsensus) (draw : Nat → Nat → Nat) (currentOp currentCommit : Nat) :
    VsrConsensus × List VsrAction :=
  ({ s with timeouts := s.timeouts.tick }, [])
    |> whenFired .normalHeartbeat handleNormalHeartbeatTimeout
    |> whenFired .startViewChangeMessage handleStartViewChangeMessageTimeout
    |> whenFired .doViewChangeMessage (handleDoViewChangeMessageTimeout · currentOp currentCommit)
    |> whenFired .prepare (handlePrepareTimeout · draw)
    |> whenFired .commitMessage handleCommitMessageTimeout
    |> whenFired .viewChangeStatus handleViewChangeStatusTimeout

end IggyCore.Consensus.VsrConsensus
