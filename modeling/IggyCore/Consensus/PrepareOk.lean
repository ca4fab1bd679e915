import IggyCore.Consensus.Replica

/-!
# PrepareOk handling and the commit frontier

`VsrConsensus::handle_prepare_ok` (`impls.rs`) records one acknowledgement in the pipeline;
`ack_quorum_reached` and `drain_committable_prefix` (`plane_helpers.rs`) walk the commit
frontier forward over consecutive quorum flags and pop what it covers.
-/

namespace IggyCore.Consensus

inductive IgnoreReason
  | notPrimary | notNormal | syncing | newerView | olderView | oldPrepare | unknownPrepare
  | duplicateAck | checksumMismatch | invalidOperation | applyFailed | persistFailed
  deriving DecidableEq, Repr

inductive PrepareOkOutcome
  | accepted (ackCount : Nat) (quorumReached : Bool)
  | ignored (reason : IgnoreReason)
  deriving DecidableEq, Repr

namespace VsrConsensus

/-- Handle a `PrepareOk`; the caller has checked primary and normal status. -/
def handlePrepareOk (s : VsrConsensus) (h : PrepareOkHeader) :
    Except Panic (VsrConsensus × PrepareOkOutcome) := do
  if h.command ≠ .prepareOk then throw ⟨"assertion `left == right` failed"⟩
  if h.replica ≥ s.replicaCount then throw ⟨s!"handle_prepare_ok: invalid replica {h.replica}"⟩
  if h.view < s.view then return (s, .ignored .olderView)
  if h.view > s.view then return (s, .ignored .newerView)
  if s.isSyncing then return (s, .ignored .syncing)
  let some i := s.pipeline.messageByOpMut h.op | return (s, .ignored .unknownPrepare)
  -- `get_mut` after the bounds check in `message_by_op_mut`: always `some`
  let some e := s.pipeline.prepareQueue[i]? | return (s, .ignored .unknownPrepare)
  if e.header.checksum ≠ h.prepareChecksum then return (s, .ignored .checksumMismatch)
  if e.hasAck h.replica then return (s, .ignored .duplicateAck)
  let (e, ackCount) := e.addAck h.replica
  let quorumReached := decide (ackCount ≥ s.quorum) && !e.okQuorumReceived
  let e := if quorumReached then { e with okQuorumReceived := true } else e
  return ({ s with pipeline := s.pipeline.setEntry i e }, .accepted ackCount quorumReached)

/-- The forward walk of `ack_quorum_reached`: from `c`, advance while the next op is in the
pipeline with its quorum flag set. The loop of the source has no bound; the pipeline's length
is always enough fuel (`commitFrontier_fuel`). -/
def commitFrontier (p : LocalPipeline) : Nat → Nat → Nat
  | 0, c => c
  | fuel + 1, c =>
    match p.messageByOp (c + 1) with
    | some e => if e.okQuorumReceived then commitFrontier p fuel (c + 1) else c
    | none => c

/-- Record the ack; if it completed a quorum, advance `commit_max` over the consecutive
prefix of quorum flags. `true` when `commit_max` moved. -/
def ackQuorumReached (s : VsrConsensus) (ack : PrepareOkHeader) :
    Except Panic (VsrConsensus × Bool) := do
  let (s, outcome) ← s.handlePrepareOk ack
  match outcome with
  | .accepted _ true =>
    let newCommit := commitFrontier s.pipeline s.pipeline.prepareQueue.length s.commitMax
    if newCommit > s.commitMax then
      let s ← s.advanceCommitMax newCommit
      return (s, true)
    return (s, false)
  | _ => return (s, false)

/-- Pop the pipeline head while its op is covered by `commit_max`. -/
def drainCommittablePrefix (s : VsrConsensus) : VsrConsensus × List PipelineEntry :=
  let (drained, rest) := s.pipeline.prepareQueue.span (·.header.op ≤ s.commitMax)
  ({ s with pipeline := { s.pipeline with prepareQueue := rest } }, drained)

end VsrConsensus

end IggyCore.Consensus

namespace IggyCore.Consensus

/-- The entry an accepted ack leaves behind: the ack is recorded, and the quorum flag is up
once the ack set reaches `quorum`. -/
def PipelineEntry.acked (e : PipelineEntry) (replica quorum : Nat) : PipelineEntry :=
  { e with
    okFromReplicas := insert replica e.okFromReplicas
    okQuorumReceived := e.okQuorumReceived || decide (quorum ≤ (insert replica e.okFromReplicas).card) }

namespace VsrConsensus

/-- **Spec of `handle_prepare_ok`.** It panics on an out-of-range sender; otherwise it either
ignores the ack and changes nothing, or records it on the entry found by op, which carries the
ack's checksum, for an ack of the current view from a replica not yet counted. -/
theorem handlePrepareOk_spec {s t : VsrConsensus} {h : PrepareOkHeader} {out : PrepareOkOutcome}
    (hok : s.handlePrepareOk h = .ok (t, out)) :
    h.replica < s.replicaCount ∧
      ((t = s ∧ ∀ n b, out ≠ .accepted n b) ∨
        ∃ i e, s.pipeline.messageByOpMut h.op = some i ∧ s.pipeline.prepareQueue[i]? = some e ∧
          h.view = s.view ∧ e.header.checksum = h.prepareChecksum ∧
          h.replica ∉ e.okFromReplicas ∧
          t = { s with pipeline := s.pipeline.setEntry i (e.acked h.replica s.quorum) } ∧
          out = .accepted (insert h.replica e.okFromReplicas).card
            (decide (s.quorum ≤ (insert h.replica e.okFromReplicas).card) && !e.okQuorumReceived)) := by
  unfold handlePrepareOk at hok
  simp only at hok
  split at hok
  · cases hok
  split at hok
  · cases hok
  refine ⟨by omega, ?_⟩
  split at hok
  · cases hok
    exact .inl ⟨rfl, by simp⟩
  split at hok
  · cases hok
    exact .inl ⟨rfl, by simp⟩
  split at hok
  · cases hok
    exact .inl ⟨rfl, by simp⟩
  split at hok
  · rename_i i hi
    split at hok
    · rename_i e he
      split at hok
      · cases hok
        exact .inl ⟨rfl, by simp⟩
      split at hok
      · cases hok
        exact .inl ⟨rfl, by simp⟩
      rename_i hck hdup
      cases hok
      refine .inr ⟨i, e, hi, he, by omega, by simpa using hck, by simpa [PipelineEntry.hasAck] using hdup,
        ?_, ?_⟩
      · congr 2
        simp only [PipelineEntry.acked, PipelineEntry.addAck, ge_iff_le]
        by_cases hc : s.quorum ≤ (insert h.replica e.okFromReplicas).card
        · cases e.okQuorumReceived <;> simp [hc]
        · simp [hc]
      · simp [PipelineEntry.addAck, ge_iff_le]
    · cases hok
      exact .inl ⟨rfl, by simp⟩
  · cases hok
    exact .inl ⟨rfl, by simp⟩

/-- `handle_prepare_ok` panics only on its two assertions. -/
theorem handlePrepareOk_error {s : VsrConsensus} {h : PrepareOkHeader} {p : Panic}
    (herr : s.handlePrepareOk h = .error p) :
    h.command ≠ .prepareOk ∨ s.replicaCount ≤ h.replica := by
  unfold handlePrepareOk at herr
  simp only at herr
  split at herr
  · exact .inl ‹_›
  split at herr
  · exact .inr ‹_›
  -- every later exit returns
  repeat' (first | cases herr | split at herr)

end VsrConsensus

end IggyCore.Consensus
