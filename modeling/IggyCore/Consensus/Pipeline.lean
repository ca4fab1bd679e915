import IggyCore.Consensus.Header
import Mathlib.Data.Finset.Card

/-!
# The two-queue pipeline

`LocalPipeline` of `core/consensus/src/impls.rs`: the prepare queue of in-flight prepares,
capped at `PIPELINE_PREPARE_QUEUE_MAX`, and the request queue of accepted requests waiting
for a prepare slot. A `VecDeque` is a list with its front first. An `assert!` of the source is
an `Except Panic` result carrying the assertion's text.

The ack bitmap `BitSet<u32>` of a pipeline entry is a finite set of replica ids: `insert`
grows it for any id and `count` is its cardinality.
-/

namespace IggyCore.Consensus

def pipelinePrepareQueueMax : Nat := 8

def pipelineRequestQueueMax : Nat := 64

def replicasMax : Nat := 32

/-- A failed `assert!`, `expect` or `panic!`: the text the source prints. -/
structure Panic where
  message : String
  deriving DecidableEq, Repr

/-- A frame as the bus hands it over: its header and its body bytes. -/
structure Message (H : Type) where
  header : H
  body : List UInt8
  deriving DecidableEq, Repr

/-- `PipelineEntry`. `replySender` records whether an in-process awaiter is attached. -/
structure PipelineEntry where
  header : PrepareHeader
  okFromReplicas : Finset Nat
  okQuorumReceived : Bool
  replySender : Bool
  deriving DecidableEq

namespace PipelineEntry

/-- Entry without subscriber (network path). -/
def new (header : PrepareHeader) : PipelineEntry := ⟨header, ∅, false, false⟩

def withSubscriber (header : PrepareHeader) : PipelineEntry := ⟨header, ∅, false, true⟩

/-- Record a `prepare_ok`; returns the entry and the new count of acknowledgments. -/
def addAck (e : PipelineEntry) (replica : Nat) : PipelineEntry × Nat :=
  let e' := { e with okFromReplicas := insert replica e.okFromReplicas }
  (e', e'.okFromReplicas.card)

def hasAck (e : PipelineEntry) (replica : Nat) : Bool := decide (replica ∈ e.okFromReplicas)

def ackCount (e : PipelineEntry) : Nat := e.okFromReplicas.card

@[simp] theorem addAck_fst_okFromReplicas (e : PipelineEntry) (r : Nat) :
    (e.addAck r).1.okFromReplicas = insert r e.okFromReplicas := rfl

@[simp] theorem addAck_fst_header (e : PipelineEntry) (r : Nat) :
    (e.addAck r).1.header = e.header := rfl

@[simp] theorem addAck_fst_okQuorumReceived (e : PipelineEntry) (r : Nat) :
    (e.addAck r).1.okQuorumReceived = e.okQuorumReceived := rfl

@[simp] theorem addAck_snd (e : PipelineEntry) (r : Nat) :
    (e.addAck r).2 = (insert r e.okFromReplicas).card := rfl

end PipelineEntry

/-- Accepted request waiting in the request queue for a prepare slot. -/
structure RequestEntry where
  message : Message RequestHeader
  deriving DecidableEq

structure LocalPipeline where
  prepareQueue : List PipelineEntry
  requestQueue : List RequestEntry
  deriving DecidableEq

namespace LocalPipeline

def new : LocalPipeline := ⟨[], []⟩

def prepareCount (p : LocalPipeline) : Nat := p.prepareQueue.length

def prepareQueueFull (p : LocalPipeline) : Bool := p.prepareQueue.length ≥ pipelinePrepareQueueMax

def requestQueueFull (p : LocalPipeline) : Bool := p.requestQueue.length ≥ pipelineRequestQueueMax

/-- True iff the prepare queue is full; the request queue is not counted. -/
def isFull (p : LocalPipeline) : Bool := p.prepareQueueFull

def isEmpty (p : LocalPipeline) : Bool := p.prepareQueue.isEmpty && p.requestQueue.isEmpty

/-- Buffer a request behind a full prepare queue; `none` is `Err(entry)` (request queue full). -/
def pushRequest (p : LocalPipeline) (entry : RequestEntry) : Option LocalPipeline :=
  if p.requestQueueFull then none else some { p with requestQueue := p.requestQueue ++ [entry] }

def popRequest (p : LocalPipeline) : Option RequestEntry × LocalPipeline :=
  match p.requestQueue with
  | [] => (none, p)
  | r :: rs => (some r, { p with requestQueue := rs })

/-- Push a new prepare: the queue has room, and the entry chains onto the tail. -/
def push (p : LocalPipeline) (entry : PipelineEntry) : Except Panic LocalPipeline :=
  if p.prepareQueueFull then .error ⟨"prepare queue is full"⟩
  else match p.prepareQueue.getLast? with
    | none => .ok { p with prepareQueue := [entry] }
    | some tail =>
      if entry.header.op ≠ tail.header.op + 1 then
        .error ⟨s!"sequence must be sequential: expected {tail.header.op + 1}, got {entry.header.op}"⟩
      else if entry.header.parent ≠ tail.header.checksum then
        .error ⟨"parent must chain to previous checksum"⟩
      else if entry.header.view < tail.header.view then .error ⟨"view cannot go backwards"⟩
      else .ok { p with prepareQueue := p.prepareQueue ++ [entry] }

/-- Pop the oldest prepare (after it has been committed). -/
def popMessage (p : LocalPipeline) : Option PipelineEntry × LocalPipeline :=
  match p.prepareQueue with
  | [] => (none, p)
  | e :: es => (some e, { p with prepareQueue := es })

def head (p : LocalPipeline) : Option PipelineEntry := p.prepareQueue.head?

/-- Find an entry by op alone, indexing from the head's op. -/
def messageByOp (p : LocalPipeline) (op : Nat) : Option PipelineEntry :=
  match p.prepareQueue.head? with
  | none => none
  | some h => if op < h.header.op then none else p.prepareQueue[op - h.header.op]?

/-- The position `message_by_op_mut` hands out a mutable reference to. -/
def messageByOpMut (p : LocalPipeline) (op : Nat) : Option Nat :=
  match p.prepareQueue.head? with
  | none => none
  | some h =>
    if op < h.header.op then none
    else if op - h.header.op ≥ p.prepareQueue.length then none
    else some (op - h.header.op)

/-- Find an entry by op and checksum; the consecutive-ops check is a `debug_assert!` only. -/
def messageByOpAndChecksum (p : LocalPipeline) (op checksum : Nat) : Option PipelineEntry :=
  match p.prepareQueue.head?, p.prepareQueue.getLast? with
  | some h, some t =>
    if op < h.header.op || op > t.header.op then none
    else match p.prepareQueue[op - h.header.op]? with
      | some e => if e.header.checksum = checksum then some e else none
      | none => none
  | _, _ => none

/-- Write back the entry at a position obtained from `messageByOpMut`. -/
def setEntry (p : LocalPipeline) (i : Nat) (e : PipelineEntry) : LocalPipeline :=
  { p with prepareQueue := p.prepareQueue.set i e }

/-- True if either queue holds a message from `client`. -/
def hasMessageFromClient (p : LocalPipeline) (client : Nat) : Bool :=
  p.prepareQueue.any (fun e => e.header.client == client) ||
    p.requestQueue.any (fun r => r.message.header.client == client)

/-- The hash-chain walk of `verify`: ops count up from the head, parents chain. -/
def verifyChain : Nat → Nat → List PipelineEntry → Except Panic Unit
  | _, _, [] => .ok ()
  | expectedOp, expectedParent, e :: es =>
    if e.header.op ≠ expectedOp then .error ⟨"ops must be sequential"⟩
    else if e.header.parent ≠ expectedParent then .error ⟨"must be hash-chained"⟩
    else verifyChain (expectedOp + 1) e.header.checksum es

def verify (p : LocalPipeline) : Except Panic Unit :=
  if p.prepareQueue.length > pipelinePrepareQueueMax then .error ⟨"prepare queue over capacity"⟩
  else if p.requestQueue.length > pipelineRequestQueueMax then
    .error ⟨"request queue over capacity"⟩
  else match p.prepareQueue with
    | [] => .ok ()
    | h :: _ => verifyChain h.header.op h.header.parent p.prepareQueue

/-- Clear both queues at view-change completion. -/
def clear (_ : LocalPipeline) : LocalPipeline := ⟨[], []⟩

/-- Drop every reply sender; the prepares survive for log reconciliation. -/
def cancelAllSubscribers (p : LocalPipeline) : LocalPipeline :=
  { p with prepareQueue := p.prepareQueue.map fun e => { e with replySender := false } }

def clearRequestQueue (p : LocalPipeline) : LocalPipeline := { p with requestQueue := [] }

end LocalPipeline

end IggyCore.Consensus

namespace IggyCore.Consensus.LocalPipeline

/-! ## Consecutive ops

`push` only appends `tail.op + 1`, so the prepare queue always holds a gap-free run of ops.
Lookups by op index from the head's op, which is exact on such a queue. -/

/-- The ops of `q` are `n, n + 1, ...` with no gap. -/
def OpsFrom (n : Nat) (q : List PipelineEntry) : Prop :=
  q.map (·.header.op) = List.range' n q.length

theorem OpsFrom.getElem_op {n : Nat} {q : List PipelineEntry} (h : OpsFrom n q) {k : Nat}
    (hk : k < q.length) : q[k].header.op = n + k := by
  have := congrArg (fun l => l[k]?) h
  simpa [List.getElem?_map, List.getElem?_eq_getElem hk, List.getElem?_range' hk] using this

theorem OpsFrom.head_op {n : Nat} {e : PipelineEntry} {q : List PipelineEntry}
    (h : OpsFrom n (e :: q)) : e.header.op = n := by
  have := h.getElem_op (k := 0) (by simp)
  rwa [List.getElem_cons_zero, Nat.add_zero] at this

theorem opsFrom_nil (n : Nat) : OpsFrom n [] := rfl

theorem OpsFrom.tail {n : Nat} {e : PipelineEntry} {q : List PipelineEntry}
    (h : OpsFrom n (e :: q)) : OpsFrom (n + 1) q := by
  simp only [OpsFrom, List.map_cons, List.length_cons, List.range'_succ] at h
  exact (List.cons.inj h).2

theorem OpsFrom.append {n : Nat} {q : List PipelineEntry} (h : OpsFrom n q) {e : PipelineEntry}
    (he : e.header.op = n + q.length) : OpsFrom n (q ++ [e]) := by
  simp only [OpsFrom, List.map_append, List.map_cons, List.map_nil, List.length_append,
    List.length_cons, List.length_nil, List.range'_concat, he, Nat.one_mul] at h ⊢
  rw [h]

theorem OpsFrom.set {n : Nat} {q : List PipelineEntry} (h : OpsFrom n q) {i : Nat}
    {e : PipelineEntry} (hi : i < q.length) (he : e.header.op = q[i].header.op) :
    OpsFrom n (q.set i e) := by
  have hmap : (q.set i e).map (·.header.op) = q.map (·.header.op) := by
    apply List.ext_getElem (by simp)
    intro j _ _
    simp only [List.getElem_map, List.getElem_set]
    split
    · subst i
      exact he
    · rfl
  unfold OpsFrom at h ⊢
  rw [hmap, List.length_set]
  exact h

/-- On a gap-free queue, `messageByOp` returns an entry of the queue carrying that op. -/
theorem messageByOp_spec {p : LocalPipeline} {n : Nat} (hq : OpsFrom n p.prepareQueue)
    {op : Nat} {e : PipelineEntry} (h : p.messageByOp op = some e) :
    e.header.op = op ∧ e ∈ p.prepareQueue := by
  unfold messageByOp at h
  cases hp : p.prepareQueue with
  | nil => simp [hp] at h
  | cons f fs =>
    rw [hp] at h hq
    have hf := hq.head_op
    simp only [List.head?_cons] at h
    split at h
    · cases h
    · obtain ⟨hk, rfl⟩ := List.getElem?_eq_some_iff.mp h
      refine ⟨?_, List.getElem_mem hk⟩
      rw [hq.getElem_op hk]
      omega

/-- On a gap-free queue, every entry is found by its own op. -/
theorem messageByOp_of_mem {p : LocalPipeline} {n : Nat} (hq : OpsFrom n p.prepareQueue)
    {e : PipelineEntry} (he : e ∈ p.prepareQueue) : p.messageByOp e.header.op = some e := by
  unfold messageByOp
  obtain ⟨f, fs, hp⟩ := List.exists_cons_of_ne_nil (List.ne_nil_of_mem he)
  rw [hp] at hq he ⊢
  obtain ⟨k, hk, rfl⟩ := List.getElem_of_mem he
  have hop : (f :: fs)[k].header.op = n + k := hq.getElem_op hk
  have hf : f.header.op = n := hq.head_op
  simp only [List.head?_cons]
  rw [if_neg (by omega), show (f :: fs)[k].header.op - f.header.op = k by omega]
  exact List.getElem?_eq_getElem hk

/-- `messageByOpMut` hands out the position of the entry carrying that op. -/
theorem messageByOpMut_spec {p : LocalPipeline} {n : Nat} (hq : OpsFrom n p.prepareQueue)
    {op i : Nat} (h : p.messageByOpMut op = some i) :
    ∃ hi : i < p.prepareQueue.length, p.prepareQueue[i].header.op = op := by
  unfold messageByOpMut at h
  cases hp : p.prepareQueue with
  | nil => simp [hp] at h
  | cons f fs =>
    rw [hp] at h hq
    have hf := hq.head_op
    simp only [List.head?_cons] at h
    split at h
    · cases h
    · split at h
      · cases h
      · cases h
        have hi : op - f.header.op < (f :: fs).length := by omega
        refine ⟨hi, ?_⟩
        rw [hq.getElem_op hi]
        omega

end IggyCore.Consensus.LocalPipeline
