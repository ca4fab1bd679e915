import IggyCore.Consensus.PrepareOk

/-!
# Soundness of the primary's commit frontier

`ack_quorum_reached` raises `commit_max` only over a gap-free run of ops whose pipeline
entries carry the quorum flag, and `handle_prepare_ok` raises that flag only once acks from
`quorum()` distinct replicas, each for the current view and the entry's checksum, are in.
The two facts are carried along an arbitrary sequence of acks by one invariant that relates
every pipeline entry to the entry it started from.
-/

namespace IggyCore.Consensus

open LocalPipeline

namespace VsrConsensus

/-! ## The forward walk -/

/-- Every op the walk passes over is in the pipeline with its quorum flag up. -/
theorem commitFrontier_flagged (p : LocalPipeline) (fuel c : Nat) :
    ∀ op, c < op → op ≤ commitFrontier p fuel c →
      ∃ e, p.messageByOp op = some e ∧ e.okQuorumReceived = true := by
  induction fuel generalizing c with
  | zero =>
    intro op hlt hle
    exact absurd hle (by simp [commitFrontier]; omega)
  | succ fuel ih =>
    intro op hlt hle
    unfold commitFrontier at hle
    split at hle
    · rename_i e he
      split at hle
      · rename_i hflag
        by_cases hop : op = c + 1
        · exact ⟨e, hop ▸ he, hflag⟩
        · exact ih (c + 1) op (by omega) hle
      · omega
    · omega

/-- The walk with the pipeline's length as fuel stops where the unbounded loop stops: at an
op that is missing from the pipeline or not yet at quorum. -/
theorem commitFrontier_stops (p : LocalPipeline) (fuel c : Nat)
    (hfuel : ∀ h ∈ p.prepareQueue.head?, p.prepareQueue.length ≤ fuel + (c + 1 - h.header.op)) :
    ∀ e, p.messageByOp (commitFrontier p fuel c + 1) = some e → e.okQuorumReceived = false := by
  induction fuel generalizing c with
  | zero =>
    intro e he
    unfold messageByOp at he
    split at he
    · cases he
    · rename_i h hh
      split at he
      · cases he
      · have := hfuel h hh
        rw [List.getElem?_eq_none (by simp [commitFrontier] at *; omega)] at he
        cases he
  | succ fuel ih =>
    intro e he
    unfold commitFrontier at he
    split at he
    · rename_i e' he'
      split at he
      · apply ih (c + 1) _ e he
        intro h hh
        have hlen := hfuel h hh
        unfold messageByOp at he'
        rw [hh] at he'
        simp only at he'
        split at he'
        · cases he'
        · omega
      · rename_i hflag
        simp only [Bool.not_eq_true] at hflag
        rw [he'] at he
        cases he
        exact hflag
    · rename_i hnone
      rw [hnone] at he
      cases he

theorem commitFrontier_fuel (p : LocalPipeline) (c : Nat) :
    ∀ e, p.messageByOp (commitFrontier p p.prepareQueue.length c + 1) = some e →
      e.okQuorumReceived = false :=
  commitFrontier_stops p _ c (fun _ _ => Nat.le_add_right _ _)

/-! ## Where acks come from -/

/-- The replicas among `acks` that acknowledged the prepare `header` in `view`, with its
checksum. -/
def ackers (acks : List PrepareOkHeader) (view : Nat) (header : PrepareHeader) : Finset Nat :=
  ((acks.filter fun a => a.view = view ∧ a.op = header.op ∧ a.prepareChecksum = header.checksum).map
    (·.replica)).toFinset

theorem mem_ackers {acks : List PrepareOkHeader} {a : PrepareOkHeader} (ha : a ∈ acks)
    {view : Nat} {header : PrepareHeader} (hv : a.view = view) (hop : a.op = header.op)
    (hck : a.prepareChecksum = header.checksum) : a.replica ∈ ackers acks view header := by
  simp only [ackers, List.mem_toFinset, List.mem_map, List.mem_filter]
  exact ⟨a, ⟨ha, by simp [hv, hop, hck]⟩, rfl⟩

/-- How a pipeline entry `e` may differ from the entry `e0` it started as: same prepare, its
acks grown only by replicas in `[0, n)` listed in `A`, and its quorum flag raised only with
`quorum` acks in. -/
structure AckProvenance (n quorum : Nat) (A : Finset Nat) (e0 e : PipelineEntry) : Prop where
  header_eq : e.header = e0.header
  acks_mono : e0.okFromReplicas ⊆ e.okFromReplicas
  acks_sub : e.okFromReplicas ⊆ e0.okFromReplicas ∪ A
  new_lt : ∀ r ∈ e.okFromReplicas, r ∉ e0.okFromReplicas → r < n
  flag_mono : e0.okQuorumReceived = true → e.okQuorumReceived = true
  flag_quorum : e.okQuorumReceived = true →
    e0.okQuorumReceived = true ∨ quorum ≤ e.okFromReplicas.card

theorem AckProvenance.refl (n quorum : Nat) (A : Finset Nat) (e : PipelineEntry) :
    AckProvenance n quorum A e e :=
  ⟨rfl, subset_refl _, Finset.subset_union_left, fun _ h h' => absurd h h', id, fun h => .inl h⟩

/-- Recording one more ack of `A` from a replica in range keeps the provenance. -/
theorem AckProvenance.acked {n quorum : Nat} {A : Finset Nat} {e0 e : PipelineEntry}
    (h : AckProvenance n quorum A e0 e) {r : Nat} (hr : r ∈ A) (hn : r < n) :
    AckProvenance n quorum A e0 (e.acked r quorum) where
  header_eq := h.header_eq
  acks_mono := h.acks_mono.trans (Finset.subset_insert r _)
  acks_sub := Finset.insert_subset (Finset.mem_union_right _ hr) h.acks_sub
  new_lt := by
    intro x hx hx0
    rcases Finset.mem_insert.mp hx with rfl | hx
    · exact hn
    · exact h.new_lt x hx hx0
  flag_mono := by
    intro h0
    simp [PipelineEntry.acked, h.flag_mono h0]
  flag_quorum := by
    intro hflag
    simp only [PipelineEntry.acked, Bool.or_eq_true, decide_eq_true_eq] at hflag ⊢
    rcases hflag with hflag | hq
    · rcases h.flag_quorum hflag with h0 | hq
      · exact .inl h0
      · exact .inr (hq.trans (Finset.card_le_card (Finset.subset_insert r _)))
    · exact .inr hq

theorem opsFrom_of_headers {n : Nat} {q0 q : List PipelineEntry} (h0 : OpsFrom n q0)
    (hlen : q.length = q0.length)
    (hh : ∀ i (h0 : i < q0.length) (h : i < q.length), q[i].header = q0[i].header) :
    OpsFrom n q := by
  have hmap : q.map (·.header.op) = q0.map (·.header.op) := by
    apply List.ext_getElem (by simp [hlen])
    intro i h1 h2
    simp only [List.getElem_map]
    rw [hh i (by simpa using h2) (by simpa using h1)]
  unfold OpsFrom at h0 ⊢
  rw [hmap, hlen]
  exact h0

/-! ## The run invariant -/

/-- What a run of `ack_quorum_reached` from `s0`, fed the acks `hs`, keeps true of every state
`s` it reaches: the view and cluster size stay, the pipeline keeps its prepares with their
provenance, and every op `commit_max` moved over is flagged in the pipeline. -/
structure FrontierInv (s0 : VsrConsensus) (hs : List PrepareOkHeader) (s : VsrConsensus) :
    Prop where
  view_eq : s.view = s0.view
  replicaCount_eq : s.replicaCount = s0.replicaCount
  commitMax_ge : s0.commitMax ≤ s.commitMax
  length_eq : s.pipeline.prepareQueue.length = s0.pipeline.prepareQueue.length
  entry : ∀ i (h0 : i < s0.pipeline.prepareQueue.length) (h : i < s.pipeline.prepareQueue.length),
    AckProvenance s0.replicaCount s0.quorum (ackers hs s0.view s0.pipeline.prepareQueue[i].header)
      s0.pipeline.prepareQueue[i] s.pipeline.prepareQueue[i]
  covered : ∀ op, s0.commitMax < op → op ≤ s.commitMax →
    ∃ e ∈ s.pipeline.prepareQueue, e.header.op = op ∧ e.okQuorumReceived = true

theorem FrontierInv.init (s0 : VsrConsensus) (hs : List PrepareOkHeader) :
    FrontierInv s0 hs s0 where
  view_eq := rfl
  replicaCount_eq := rfl
  commitMax_ge := le_refl _
  length_eq := rfl
  entry i _ _ := AckProvenance.refl _ _ _ _
  covered op h1 h2 := absurd h2 (by omega)

theorem FrontierInv.opsFrom {s0 s : VsrConsensus} {hs : List PrepareOkHeader}
    (hinv : FrontierInv s0 hs s) {n : Nat} (hq : OpsFrom n s0.pipeline.prepareQueue) :
    OpsFrom n s.pipeline.prepareQueue :=
  opsFrom_of_headers hq hinv.length_eq fun i h0 h => (hinv.entry i h0 h).header_eq

theorem FrontierInv.quorum_eq {s0 s : VsrConsensus} {hs : List PrepareOkHeader}
    (hinv : FrontierInv s0 hs s) : s.quorum = s0.quorum := by
  simp [quorum, maxFaulty, hinv.replicaCount_eq]

/-- An ack from the run's own input keeps the invariant through `handle_prepare_ok`. -/
theorem FrontierInv.handlePrepareOk {s0 s s1 : VsrConsensus} {hs : List PrepareOkHeader}
    (hinv : FrontierInv s0 hs s) {n : Nat} (hq : OpsFrom n s0.pipeline.prepareQueue)
    {h : PrepareOkHeader} (hh : h ∈ hs) {out : PrepareOkOutcome}
    (hok : s.handlePrepareOk h = .ok (s1, out)) : FrontierInv s0 hs s1 := by
  obtain ⟨hn, ⟨rfl, -⟩ | ⟨i, e, hi, he, hv, hck, -, rfl, -⟩⟩ := handlePrepareOk_spec hok
  · exact hinv
  obtain ⟨hil, hiop⟩ := messageByOpMut_spec (hinv.opsFrom hq) hi
  have hei : s.pipeline.prepareQueue[i] = e := by
    rw [List.getElem?_eq_getElem hil] at he
    exact Option.some.inj he
  subst hei
  have hil0 : i < s0.pipeline.prepareQueue.length := hinv.length_eq ▸ hil
  have hhdr := (hinv.entry i hil0 hil).header_eq
  have hA : h.replica ∈ ackers hs s0.view s0.pipeline.prepareQueue[i].header :=
    mem_ackers hh (hv.trans hinv.view_eq) (by rw [← hhdr, hiop]) (by rw [← hhdr, hck])
  refine ⟨hinv.view_eq, hinv.replicaCount_eq, hinv.commitMax_ge, ?_, ?_, ?_⟩
  · simpa [LocalPipeline.setEntry] using hinv.length_eq
  · intro j hj0 hj
    simp only [LocalPipeline.setEntry, List.getElem_set]
    split
    · subst j
      rw [hinv.quorum_eq]
      exact (hinv.entry i hj0 hil).acked hA (hinv.replicaCount_eq ▸ hn)
    · exact hinv.entry j hj0 (by simpa [LocalPipeline.setEntry] using hj)
  · intro op h1 h2
    obtain ⟨e', he', hop, hflag⟩ := hinv.covered op h1 h2
    obtain ⟨k, hk, rfl⟩ := List.getElem_of_mem he'
    simp only [LocalPipeline.setEntry]
    refine ⟨_, List.getElem_mem (by simpa using hk), ?_⟩
    simp only [List.getElem_set]
    split
    · subst k
      exact ⟨hop, by simp [PipelineEntry.acked, hflag]⟩
    · exact ⟨hop, hflag⟩

/-- Moving `commit_max` up over ops that are all flagged in the pipeline keeps the invariant. -/
theorem FrontierInv.advance {s0 s : VsrConsensus} {hs : List PrepareOkHeader}
    (hinv : FrontierInv s0 hs s) {n : Nat} (hq : OpsFrom n s0.pipeline.prepareQueue) {c : Nat}
    (hc : ∀ op, s.commitMax < op → op ≤ c →
      ∃ e, s.pipeline.messageByOp op = some e ∧ e.okQuorumReceived = true) :
    FrontierInv s0 hs { s with commitMax := max s.commitMax c } := by
  refine ⟨hinv.view_eq, hinv.replicaCount_eq, hinv.commitMax_ge.trans (le_max_left _ _),
    hinv.length_eq, hinv.entry, ?_⟩
  intro op h1 h2
  by_cases hold : op ≤ s.commitMax
  · exact hinv.covered op h1 hold
  · obtain ⟨e, he, hflag⟩ := hc op (by omega) (by simp at h2; omega)
    obtain ⟨hop, hmem⟩ := messageByOp_spec (hinv.opsFrom hq) he
    exact ⟨e, hmem, hop, hflag⟩

/-- **Step lemma.** One `ack_quorum_reached` on an ack of the run keeps the invariant. -/
theorem FrontierInv.ackQuorumReached {s0 s t : VsrConsensus} {hs : List PrepareOkHeader}
    (hinv : FrontierInv s0 hs s) {n : Nat} (hq : OpsFrom n s0.pipeline.prepareQueue)
    {h : PrepareOkHeader} (hh : h ∈ hs) {b : Bool} (hok : s.ackQuorumReached h = .ok (t, b)) :
    FrontierInv s0 hs t := by
  unfold VsrConsensus.ackQuorumReached at hok
  obtain ⟨⟨s1, out⟩, h1, hrest⟩ := IggyCore.Library.bind_eq_ok hok
  have hinv1 := hinv.handlePrepareOk hq hh h1
  simp only at hrest
  -- the outcome: only an accepted ack that completed a quorum walks the frontier
  split at hrest
  · split at hrest
    · obtain ⟨s2, h2, hret⟩ := IggyCore.Library.bind_eq_ok hrest
      cases hret
      obtain ⟨rfl, -⟩ := advanceCommitMax_spec h2
      exact hinv1.advance hq (commitFrontier_flagged s1.pipeline _ s1.commitMax)
    · cases hrest
      exact hinv1
  · cases hrest
    exact hinv1

/-! ## Runs of `ack_quorum_reached` -/

/-- Feed the acks `hs` one by one to `ack_quorum_reached`, as `on_ack` does on the primary. -/
def ackQuorumReachedRun (s : VsrConsensus) (hs : List PrepareOkHeader) :
    Except Panic VsrConsensus :=
  hs.foldlM (fun s h => (s.ackQuorumReached h).map Prod.fst) s

/-- **Run lemma.** Every state a run reaches satisfies the frontier invariant. -/
theorem FrontierInv.run {s0 t : VsrConsensus} {hs : List PrepareOkHeader} {n : Nat}
    (hq : OpsFrom n s0.pipeline.prepareQueue) (hrun : s0.ackQuorumReachedRun hs = .ok t) :
    FrontierInv s0 hs t := by
  refine IggyCore.Library.foldlM_invariant_of_mem _ (FrontierInv s0 hs) hs ?_ s0 t
    (FrontierInv.init s0 hs) hrun
  intro s h u hh hinv hstep
  obtain ⟨⟨u', b⟩, hok, rfl⟩ := IggyCore.Library.map_eq_ok hstep
  exact hinv.ackQuorumReached hq hh hok

/-- Commit-frontier soundness: after any run of acks, every op `commit_max` moved over is in
the prepare queue with its quorum flag up, and an entry whose flag the run raised still holds
its prepare and has `quorum` distinct acks, each recorded before the run or sent in the run
for this prepare's op and checksum in the primary's view. -/
theorem ackQuorumReachedRun_sound {s0 t : VsrConsensus} {hs : List PrepareOkHeader} {n : Nat}
    (hq : OpsFrom n s0.pipeline.prepareQueue) (hrun : s0.ackQuorumReachedRun hs = .ok t) :
    t.view = s0.view ∧
    (∀ op, s0.commitMax < op → op ≤ t.commitMax →
      ∃ e ∈ t.pipeline.prepareQueue, e.header.op = op ∧ e.okQuorumReceived = true) ∧
    ∀ i (h0 : i < s0.pipeline.prepareQueue.length) (h : i < t.pipeline.prepareQueue.length),
      t.pipeline.prepareQueue[i].okQuorumReceived = true →
      s0.pipeline.prepareQueue[i].okQuorumReceived = false →
      t.pipeline.prepareQueue[i].header = s0.pipeline.prepareQueue[i].header ∧
      s0.quorum ≤ t.pipeline.prepareQueue[i].okFromReplicas.card ∧
      t.pipeline.prepareQueue[i].okFromReplicas ⊆
        s0.pipeline.prepareQueue[i].okFromReplicas ∪
          ackers hs s0.view s0.pipeline.prepareQueue[i].header := by
  have hinv := FrontierInv.run hq hrun
  refine ⟨hinv.view_eq, hinv.covered, ?_⟩
  intro i h0 h hflag hflag0
  have hprov := hinv.entry i h0 h
  refine ⟨hprov.header_eq, ?_, hprov.acks_sub⟩
  rcases hprov.flag_quorum hflag with h0' | hquorum
  · rw [hflag0] at h0'
    cases h0'
  · exact hquorum

/-- The prepare of `op` in view 0 with checksum `checksum`, chained to `parent`. -/
def chainedPrepare (op checksum parent : Nat) : PrepareHeader :=
  ⟨checksum, 0, 256, 0, 0, .prepare, 0, 0, parent, 0, 0, 0, op, 0, .createStream, 0⟩

/-- A `PrepareOk` from `replica` in `view` for `op` and the prepare checksum `checksum`. -/
def sampleAck (replica view op checksum : Nat) : PrepareOkHeader :=
  ⟨0, view, .prepareOk, replica, 0, checksum, op, 0, 0, 0, .createStream, 0⟩

/-- The primary of three replicas in view 0, normal, with ops 1 and 2 in its prepare queue
and no acks yet. -/
def twoPreparePrimary : VsrConsensus :=
  { fresh 0 0 3 0 (Nat.zero_lt_succ 2) with
    status := .normal
    pipeline := ⟨[.new (chainedPrepare 1 11 0), .new (chainedPrepare 2 12 11)], []⟩ }

/-- Op 2 reaches its quorum first; an ack of a later view, a duplicate and one for another
checksum are ignored; the second ack of op 1 completes its quorum. -/
def twoPrepareAcks : List PrepareOkHeader :=
  [sampleAck 0 0 2 12, sampleAck 1 0 2 12, sampleAck 2 1 1 11, sampleAck 0 0 1 11,
    sampleAck 0 0 1 11, sampleAck 1 0 1 99, sampleAck 1 0 1 11]

/-- On that run `commit_max` stays at 0 while only op 2 has its quorum, and moves to 2 with
the quorum of op 1; both flags were raised by the run. -/
theorem ackQuorumReachedRun_sound_two_prepares :
    ∃ t, twoPreparePrimary.ackQuorumReachedRun twoPrepareAcks = .ok t ∧ t.commitMax = 2 ∧
      t.view = twoPreparePrimary.view ∧
      (∀ op, twoPreparePrimary.commitMax < op → op ≤ t.commitMax →
        ∃ e ∈ t.pipeline.prepareQueue, e.header.op = op ∧ e.okQuorumReceived = true) ∧
      ∀ i (h0 : i < twoPreparePrimary.pipeline.prepareQueue.length)
        (h : i < t.pipeline.prepareQueue.length),
        t.pipeline.prepareQueue[i].okQuorumReceived = true →
        twoPreparePrimary.pipeline.prepareQueue[i].okQuorumReceived = false →
        t.pipeline.prepareQueue[i].header = twoPreparePrimary.pipeline.prepareQueue[i].header ∧
        twoPreparePrimary.quorum ≤ t.pipeline.prepareQueue[i].okFromReplicas.card ∧
        t.pipeline.prepareQueue[i].okFromReplicas ⊆
          twoPreparePrimary.pipeline.prepareQueue[i].okFromReplicas ∪
            ackers twoPrepareAcks twoPreparePrimary.view
              twoPreparePrimary.pipeline.prepareQueue[i].header := by
  obtain ⟨t, hrun, hcommit⟩ := IggyCore.Library.exists_of_okAnd
    (x := twoPreparePrimary.ackQuorumReachedRun twoPrepareAcks) (p := fun t => t.commitMax == 2)
    (by decide)
  have hq : OpsFrom 1 twoPreparePrimary.pipeline.prepareQueue := rfl
  exact ⟨t, hrun, beq_iff_eq.mp hcommit, ackQuorumReachedRun_sound hq hrun⟩

end VsrConsensus

end IggyCore.Consensus
