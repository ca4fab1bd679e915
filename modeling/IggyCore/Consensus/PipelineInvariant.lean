import IggyCore.Consensus.PrepareOk
import IggyCore.Library.Run

/-!
# The prepare queue over any run of pipeline calls

`push` asserts that the new prepare's op follows the tail's, that its parent is the tail's
checksum and that its view does not go back; every other call removes entries from the front,
clears the queue, or rewrites an entry's acknowledgements without touching its header. So the
prepare queue is always a hash chain of consecutive ops, which is what `verify` checks and
what lets `message_by_op` index from the head's op instead of searching.
-/

namespace IggyCore.Consensus

/-- A call on a `LocalPipeline`. `updateByOp` is the write `handle_prepare_ok` makes through
`message_by_op_mut`: the entry's ack set and quorum flag. -/
inductive PipelineCall
  | push (entry : PipelineEntry)
  | popMessage
  | clear
  | updateByOp (op : Nat) (okFromReplicas : Finset Nat) (okQuorumReceived : Bool)
  | pushRequest (entry : RequestEntry)
  | popRequest
  | cancelAllSubscribers

namespace LocalPipeline

/-- Rewrite the acks of the entry `message_by_op_mut` finds, if it finds one. -/
def updateByOp (p : LocalPipeline) (op : Nat) (acks : Finset Nat) (quorum : Bool) :
    LocalPipeline :=
  match p.messageByOpMut op with
  | none => p
  | some i =>
    match p.prepareQueue[i]? with
    | some e => p.setEntry i { e with okFromReplicas := acks, okQuorumReceived := quorum }
    | none => p

/-- One call; only `push` can fail, on one of its assertions. A request `push_request`
refuses is handed back to the caller, which drops it. -/
def call (p : LocalPipeline) : PipelineCall → Except Panic LocalPipeline
  | .push entry => p.push entry
  | .popMessage => .ok p.popMessage.2
  | .clear => .ok p.clear
  | .updateByOp op acks quorum => .ok (p.updateByOp op acks quorum)
  | .pushRequest entry => .ok ((p.pushRequest entry).getD p)
  | .popRequest => .ok p.popRequest.2
  | .cancelAllSubscribers => .ok p.cancelAllSubscribers

def run (p : LocalPipeline) (calls : List PipelineCall) : Except Panic LocalPipeline :=
  calls.foldlM call p

/-! ## The invariant -/

/-- Two neighbours of the prepare queue as `push` admits them. -/
def Chained (a b : PrepareHeader) : Prop :=
  b.op = a.op + 1 ∧ b.parent = a.checksum ∧ a.view ≤ b.view

/-- What every pipeline a run reaches satisfies. -/
structure Valid (p : LocalPipeline) : Prop where
  prepare_length : p.prepareQueue.length ≤ pipelinePrepareQueueMax
  request_length : p.requestQueue.length ≤ pipelineRequestQueueMax
  chained : (p.prepareQueue.map (·.header)).IsChain Chained

/-- `op` lies between the ops of the head and the tail of the prepare queue. -/
def InRange (p : LocalPipeline) (op : Nat) : Prop :=
  ∃ h t, p.prepareQueue.head? = some h ∧ p.prepareQueue.getLast? = some t ∧
    h.header.op ≤ op ∧ op ≤ t.header.op

theorem valid_new : Valid new :=
  ⟨by decide, by decide, List.IsChain.nil⟩

/-- A chain of headers counts its ops up from the first. -/
theorem ops_of_isChain {h : PrepareHeader} {hs : List PrepareHeader}
    (hc : (h :: hs).IsChain Chained) : (h :: hs).map (·.op) = List.range' h.op (hs.length + 1) := by
  induction hs generalizing h with
  | nil => rfl
  | cons g hs ih =>
    rw [List.isChain_cons_cons] at hc
    rw [List.map_cons, ih hc.2, hc.1.1, List.length_cons]
    simp only [List.range'_succ]

theorem Valid.opsFrom {p : LocalPipeline} (hp : p.Valid) {e : PipelineEntry}
    {q : List PipelineEntry} (hq : p.prepareQueue = e :: q) : OpsFrom e.header.op p.prepareQueue := by
  have hc := hp.chained
  rw [hq, List.map_cons] at hc
  have hops := ops_of_isChain hc
  rw [← List.map_cons, List.map_map, List.length_map] at hops
  unfold OpsFrom
  rw [hq, List.length_cons]
  exact hops

theorem Valid.exists_opsFrom {p : LocalPipeline} (hp : p.Valid) :
    ∃ n, OpsFrom n p.prepareQueue := by
  cases hq : p.prepareQueue with
  | nil => exact ⟨0, opsFrom_nil 0⟩
  | cons e q => exact ⟨e.header.op, hq ▸ hp.opsFrom hq⟩

/-! ## Each call keeps it -/

theorem Valid.push {p p' : LocalPipeline} (hp : p.Valid) {e : PipelineEntry}
    (h : p.push e = .ok p') : p'.Valid := by
  unfold LocalPipeline.push at h
  split at h
  · cases h
  rename_i hroom
  have hlen : p.prepareQueue.length < pipelinePrepareQueueMax := by
    simpa [prepareQueueFull] using hroom
  split at h
  · cases h
    exact ⟨by simp [pipelinePrepareQueueMax], hp.request_length, List.isChain_singleton _⟩
  · rename_i tail htail
    split at h
    · cases h
    split at h
    · cases h
    split at h
    · cases h
    rename_i hop hparent hview
    cases h
    refine ⟨by simp; omega, hp.request_length, ?_⟩
    -- the new entry hangs off the old tail
    rw [List.map_append]
    refine hp.chained.append (List.isChain_singleton _) ?_
    intro x hx y hy
    simp only [List.getLast?_map, htail, Option.map_some, Option.mem_def,
      Option.some.injEq] at hx
    simp only [List.map_cons, List.map_nil, List.head?_cons, Option.mem_def,
      Option.some.injEq] at hy
    subst hx hy
    exact ⟨by omega, by simpa using hparent, by omega⟩

theorem Valid.popMessage {p : LocalPipeline} (hp : p.Valid) : p.popMessage.2.Valid := by
  unfold LocalPipeline.popMessage
  split
  · exact hp
  · rename_i e es hq
    have hc := hp.chained
    rw [hq, List.map_cons] at hc
    have hlen := hp.prepare_length
    rw [hq, List.length_cons] at hlen
    exact ⟨by simp only; omega, hp.request_length, hc.tail⟩

theorem valid_clear (p : LocalPipeline) : p.clear.Valid := valid_new

/-- Rewriting an entry's acks keeps every header, so the chain is the same. -/
theorem Valid.updateByOp {p : LocalPipeline} (hp : p.Valid) (op : Nat) (acks : Finset Nat)
    (quorum : Bool) : (p.updateByOp op acks quorum).Valid := by
  unfold LocalPipeline.updateByOp
  cases hm : p.messageByOpMut op with
  | none => exact hp
  | some i =>
    dsimp only
    split
    · rename_i e he
      obtain ⟨hi, rfl⟩ := List.getElem?_eq_some_iff.mp he
      have hheaders : (p.prepareQueue.set i
          { p.prepareQueue[i] with okFromReplicas := acks, okQuorumReceived := quorum }).map
          (·.header) = p.prepareQueue.map (·.header) := by
        have hi' : i < (p.prepareQueue.map (·.header)).length := by simpa using hi
        rw [List.map_set, show p.prepareQueue[i].header = (p.prepareQueue.map (·.header))[i] by
          simp]
        exact List.set_getElem_self hi'
      refine ⟨by simpa [setEntry] using hp.prepare_length, hp.request_length, ?_⟩
      simp only [setEntry]
      rw [hheaders]
      exact hp.chained
    · exact hp

theorem Valid.pushRequest {p : LocalPipeline} (hp : p.Valid) (r : RequestEntry) :
    ((p.pushRequest r).getD p).Valid := by
  unfold LocalPipeline.pushRequest
  split
  · exact hp
  · rename_i hroom
    have hlen : p.requestQueue.length < pipelineRequestQueueMax := by
      simpa [requestQueueFull] using hroom
    exact ⟨hp.prepare_length, by simp; omega, hp.chained⟩

theorem Valid.popRequest {p : LocalPipeline} (hp : p.Valid) : p.popRequest.2.Valid := by
  unfold LocalPipeline.popRequest
  split
  · exact hp
  · rename_i r rs hq
    have hlen := hp.request_length
    rw [hq, List.length_cons] at hlen
    exact ⟨hp.prepare_length, by simp only; omega, hp.chained⟩

theorem Valid.cancelAllSubscribers {p : LocalPipeline} (hp : p.Valid) :
    p.cancelAllSubscribers.Valid := by
  refine ⟨by simpa [LocalPipeline.cancelAllSubscribers] using hp.prepare_length,
    hp.request_length, ?_⟩
  simp only [LocalPipeline.cancelAllSubscribers, List.map_map]
  exact hp.chained

theorem Valid.call {p p' : LocalPipeline} (hp : p.Valid) {c : PipelineCall}
    (h : p.call c = .ok p') : p'.Valid := by
  cases c with
  | push e => exact hp.push h
  | popMessage => cases h; exact hp.popMessage
  | clear => cases h; exact valid_clear p
  | updateByOp op acks quorum => cases h; exact hp.updateByOp op acks quorum
  | pushRequest r => cases h; exact hp.pushRequest r
  | popRequest => cases h; exact hp.popRequest
  | cancelAllSubscribers => cases h; exact hp.cancelAllSubscribers

theorem Valid.run {p p' : LocalPipeline} (hp : p.Valid) {calls : List PipelineCall}
    (h : p.run calls = .ok p') : p'.Valid :=
  Library.foldlM_invariant LocalPipeline.call Valid (fun _ _ _ hs hc => hs.call hc) calls p p' hp h

/-! ## What the invariant gives -/

/-- `verify`'s walk accepts a hash chain of consecutive ops from its head. -/
theorem verifyChain_of_isChain {e : PipelineEntry} {q : List PipelineEntry}
    (hc : ((e :: q).map (·.header)).IsChain Chained) :
    verifyChain e.header.op e.header.parent (e :: q) = .ok () := by
  induction q generalizing e with
  | nil => simp [verifyChain]
  | cons f q ih =>
    rw [List.map_cons, List.map_cons, List.isChain_cons_cons] at hc
    obtain ⟨⟨hop, hparent, -⟩, hrest⟩ := hc
    simp only [verifyChain, ne_eq, not_true_eq_false, if_false]
    rw [← hop, ← hparent]
    exact ih (by rwa [List.map_cons])

theorem Valid.verify {p : LocalPipeline} (hp : p.Valid) : p.verify = .ok () := by
  have hreq : ¬p.requestQueue.length > pipelineRequestQueueMax := by
    have := hp.request_length
    omega
  have hprep : ¬p.prepareQueue.length > pipelinePrepareQueueMax := by
    have := hp.prepare_length
    omega
  unfold LocalPipeline.verify
  rw [if_neg hprep, if_neg hreq]
  split
  · rfl
  · rename_i e q hq
    have hc := hp.chained
    rw [hq] at hc ⊢
    exact verifyChain_of_isChain hc

/-- On a valid pipeline, `op` is in range when it is at most the queue's length past the
head's op. -/
theorem Valid.inRange_iff {p : LocalPipeline} (hp : p.Valid) {f : PipelineEntry}
    {fs : List PipelineEntry} (hq : p.prepareQueue = f :: fs) (op : Nat) :
    p.InRange op ↔ f.header.op ≤ op ∧ op - f.header.op < fs.length + 1 := by
  have hops := hp.opsFrom hq
  rw [hq] at hops
  -- the tail's op is the head's plus the queue's length less one
  have hlast : (f :: fs).getLast? = some (f :: fs)[fs.length] := by
    rw [List.getLast?_eq_getElem?]
    simp
  have htail : (f :: fs)[fs.length].header.op = f.header.op + fs.length :=
    hops.getElem_op (by simp)
  unfold InRange
  simp only [hq, List.head?_cons, hlast, Option.some.injEq, exists_and_left, exists_eq_left',
    htail]
  omega

/-- On a valid pipeline, `message_by_op` finds an entry exactly for the ops from the head's
to the tail's. -/
theorem Valid.messageByOp_isSome {p : LocalPipeline} (hp : p.Valid) (op : Nat) :
    (p.messageByOp op).isSome ↔ p.InRange op := by
  unfold messageByOp
  cases hq : p.prepareQueue with
  | nil => simp [InRange, hq]
  | cons f fs =>
    rw [hp.inRange_iff hq]
    simp only [List.head?_cons]
    split
    · simp only [Option.isSome_none, Bool.false_eq_true, false_iff]
      omega
    · rw [isSome_getElem?, List.length_cons]
      omega

theorem Valid.messageByOpMut_isSome {p : LocalPipeline} (hp : p.Valid) (op : Nat) :
    (p.messageByOpMut op).isSome ↔ p.InRange op := by
  unfold messageByOpMut
  cases hq : p.prepareQueue with
  | nil => simp [InRange, hq]
  | cons f fs =>
    rw [hp.inRange_iff hq]
    simp only [List.head?_cons, List.length_cons]
    split
    · simp only [Option.isSome_none, Bool.false_eq_true, false_iff]
      omega
    · split
      · simp only [Option.isSome_none, Bool.false_eq_true, false_iff]
        omega
      · simp only [Option.isSome_some, true_iff]
        omega

/-! ## Draining the committed prefix -/

/-- On consecutive ops, the prefix at or below `commit` is the entries at or below it. -/
theorem span_opsFrom {n : Nat} {q : List PipelineEntry} (hq : OpsFrom n q) (commit : Nat) :
    q.span (fun e => decide (e.header.op ≤ commit)) =
      (q.filter fun e => decide (e.header.op ≤ commit),
        q.filter fun e => !decide (e.header.op ≤ commit)) := by
  rw [List.span_eq_takeWhile_dropWhile]
  induction q generalizing n with
  | nil => rfl
  | cons e q ih =>
    have he : e.header.op = n := hq.head_op
    have hrest := ih hq.tail
    by_cases hc : e.header.op ≤ commit
    · simp only [List.takeWhile_cons, List.dropWhile_cons, List.filter_cons, hc, decide_true,
        if_true, Bool.not_true, Bool.false_eq_true, if_false] at hrest ⊢
      rw [Prod.mk.injEq] at hrest ⊢
      exact ⟨by rw [hrest.1], hrest.2⟩
    · -- every later op is above the head's, so nothing after it is committed either
      have habove : ∀ f ∈ e :: q, ¬f.header.op ≤ commit := by
        intro f hf
        obtain ⟨k, hk, rfl⟩ := List.getElem_of_mem hf
        rw [hq.getElem_op hk]
        omega
      rw [List.filter_eq_nil_iff.mpr (by simpa using habove),
        List.filter_eq_self.mpr (by simpa using habove)]
      simp [hc]

/-- `drain_committable_prefix` on a valid pipeline: the entries at or below `commit_max`, in
op order, come out; the others stay, and nothing else changes. -/
theorem Valid.drainCommittablePrefix {s : VsrConsensus} (hp : s.pipeline.Valid) :
    s.drainCommittablePrefix.2 =
        s.pipeline.prepareQueue.filter (fun e => decide (e.header.op ≤ s.commitMax)) ∧
      s.drainCommittablePrefix.1 = { s with pipeline := { s.pipeline with
        prepareQueue := s.pipeline.prepareQueue.filter fun e => !decide (e.header.op ≤ s.commitMax) } } ∧
      s.drainCommittablePrefix.2.Pairwise (fun a b => a.header.op < b.header.op) := by
  obtain ⟨n, hops⟩ := hp.exists_opsFrom
  have hsorted : s.pipeline.prepareQueue.Pairwise (fun a b => a.header.op < b.header.op) := by
    have hr : (s.pipeline.prepareQueue.map (·.header.op)).Pairwise (· < ·) := by
      rw [hops]
      exact List.pairwise_lt_range'
    exact List.pairwise_map.mp hr
  simp only [VsrConsensus.drainCommittablePrefix, span_opsFrom hops, true_and]
  exact hsorted.filter _

/-- **The prepare-queue invariant.** After any run of pipeline calls from a new pipeline in
which every `push` assertion holds, the queues are within their caps and the prepare queue is
a hash chain of consecutive ops with non-decreasing views, so `verify` passes. The lookups by
op find an entry exactly for the ops between the head's and the tail's, and it is the entry of
that op. `drain_committable_prefix` takes out exactly the entries at or below `commit_max`, in
increasing op order, and leaves the rest of the state as it was. -/
theorem prepare_queue_invariant {calls : List PipelineCall} {p : LocalPipeline}
    (hrun : new.run calls = .ok p) :
    p.Valid ∧ p.verify = .ok () ∧
      (∀ op, ((p.messageByOp op).isSome ↔ p.InRange op) ∧
        ∀ e, p.messageByOp op = some e → e.header.op = op) ∧
      (∀ op, ((p.messageByOpMut op).isSome ↔ p.InRange op) ∧
        ∀ i, p.messageByOpMut op = some i →
          ∃ hi : i < p.prepareQueue.length, p.prepareQueue[i].header.op = op) ∧
      ∀ s : VsrConsensus, s.pipeline = p →
        s.drainCommittablePrefix.2 =
            p.prepareQueue.filter (fun e => decide (e.header.op ≤ s.commitMax)) ∧
          s.drainCommittablePrefix.1 = { s with pipeline := { p with
            prepareQueue := p.prepareQueue.filter fun e => !decide (e.header.op ≤ s.commitMax) } } ∧
          s.drainCommittablePrefix.2.Pairwise (fun a b => a.header.op < b.header.op) := by
  have hp : p.Valid := valid_new.run hrun
  obtain ⟨n, hops⟩ := hp.exists_opsFrom
  refine ⟨hp, hp.verify, fun op => ⟨hp.messageByOp_isSome op, fun e he => ?_⟩,
    fun op => ⟨hp.messageByOpMut_isSome op, fun i hi => messageByOpMut_spec hops hi⟩, ?_⟩
  · exact (messageByOp_spec hops he).1
  · rintro s rfl
    exact hp.drainCommittablePrefix

/-- A prepare header that only sets what the pipeline checks. -/
def sampleHeader (op parent checksum view : Nat) : PrepareHeader :=
  { checksum, cluster := 0, size := 256, view, release := 0, command := .prepare, replica := 0,
    client := 0, parent, requestChecksum := 0, request := 0, commit := 0, op, timestamp := 0,
    operation := .register, nspace := 0 }

/-- Three chained prepares pushed, the first popped, and an ack recorded on op 2. -/
def sampleCalls : List PipelineCall :=
  [.push (PipelineEntry.new (sampleHeader 1 0 11 0)), .push (PipelineEntry.new (sampleHeader 2 11 12 0)),
    .push (PipelineEntry.new (sampleHeader 3 12 13 1)), .popMessage, .updateByOp 2 {1} true]

/-- What `sampleCalls` leave: op 2 acked by replica 1, then op 3. -/
def sampleResult : LocalPipeline :=
  ⟨[{ PipelineEntry.new (sampleHeader 2 11 12 0) with okFromReplicas := {1}, okQuorumReceived := true },
    PipelineEntry.new (sampleHeader 3 12 13 1)], []⟩

theorem prepare_queue_invariant_sample :
    new.run sampleCalls = .ok sampleResult ∧ sampleResult.verify = .ok () ∧
      (sampleResult.messageByOp 3).isSome ∧ ¬(sampleResult.messageByOp 1).isSome := by
  have h := @prepare_queue_invariant sampleCalls sampleResult rfl
  refine ⟨rfl, h.2.1, ((h.2.2.1 3).1).mpr ⟨_, _, rfl, rfl, by decide, by decide⟩, fun h1 => ?_⟩
  obtain ⟨_, _, hh, -, hle, -⟩ := ((h.2.2.1 1).1).mp h1
  cases hh
  exact absurd hle (by decide)

end LocalPipeline

end IggyCore.Consensus
