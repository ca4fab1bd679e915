import IggyCore.Consensus.ViewChange
import IggyCore.Consensus.PrepareOk
import IggyCore.Library.SlotArray

/-!
# What the quorum counts count

Three counters decide the view change and the commit: the StartViewChange set
(`svc_count_excluding_self >= max_faulty`), the DoViewChange slots (`dvc_count >= quorum`)
and the per-prepare ack sets (`ack_count >= quorum`). Each is keyed by the raw `u8` replica
id of a header, and no `validate` bounds that id. `VotesInRange` says that every id these
structures hold is below `replica_count` and that each DoViewChange sits in its sender's slot;
on such a state each count is the number of distinct replicas below `replica_count` it
records. The handlers keep it for headers whose sender is below `replica_count`, the
precondition `handle_prepare_ok` asserts.
-/

namespace IggyCore.Consensus

open IggyCore.Library

/-- Every DoViewChange held sits in the slot of its sender, and that sender is below `n`. -/
def DvcSlotsBelow (n : Nat) (a : DvcQuorumArray) : Prop :=
  ∀ i d, a.slots[i]? = some (some d) → d.replica = i ∧ i < n

theorem dvcSlotsBelow_empty (n : Nat) : DvcSlotsBelow n dvcQuorumArrayEmpty := by
  intro i d hd
  simp [dvcQuorumArrayEmpty, List.getElem?_replicate] at hd

theorem dvcRecord_of_lt {a : DvcQuorumArray} {dvc : StoredDvc} (h : dvc.replica < replicasMax) :
    ∃ b fresh, dvcRecord a dvc = .ok (b, fresh) := by
  obtain ⟨⟨b, fresh⟩, hb⟩ := dvcRecord_ok_iff_lt.mpr h
  exact ⟨b, fresh, hb⟩

theorem DvcSlotsBelow.record {n : Nat} {a b : DvcQuorumArray} {dvc : StoredDvc} {fresh : Bool}
    (ha : DvcSlotsBelow n a) (hlt : dvc.replica < n) (h : dvcRecord a dvc = .ok (b, fresh)) :
    DvcSlotsBelow n b := by
  rcases dvcRecord_slots h with hb | hb
  · intro i d hd
    exact ha i d (hb ▸ hd)
  · intro i d hd
    rw [hb, List.getElem?_set] at hd
    split at hd
    · rename_i hi
      subst hi
      split at hd
      · cases hd
        exact ⟨rfl, hlt⟩
      · cases hd
    · exact ha i d hd

namespace VsrConsensus

/-- The counting structures of `s` hold only replica ids below `replica_count`, and
`commit_min <= commit_max` (the one other assertion the vote handlers reach). -/
structure VotesInRange (s : VsrConsensus) : Prop where
  replicaCount_le : s.replicaCount ≤ replicasMax
  commit_le : s.commitMin ≤ s.commitMax
  svc_lt : ∀ r ∈ s.startViewChangeFromAllReplicas, r < s.replicaCount
  dvc_slots : DvcSlotsBelow s.replicaCount s.doViewChangeFromAllReplicas
  acks_lt : ∀ e ∈ s.pipeline.prepareQueue, ∀ r ∈ e.okFromReplicas, r < s.replicaCount

theorem VotesInRange.fresh {cluster replica replicaCount nspace : Nat}
    (h : replica < replicaCount) (hn : replicaCount ≤ replicasMax) :
    VotesInRange (fresh cluster replica replicaCount nspace h) where
  replicaCount_le := hn
  commit_le := le_refl 0
  svc_lt := by simp [VsrConsensus.fresh]
  dvc_slots := dvcSlotsBelow_empty _
  acks_lt := by simp [VsrConsensus.fresh, LocalPipeline.new]

theorem VotesInRange.own_lt_max {s : VsrConsensus} (hv : VotesInRange s) :
    s.replica < replicasMax :=
  lt_of_lt_of_le s.replica_lt hv.replicaCount_le

/-! ## The state changes the vote handlers make -/

theorem VotesInRange.enterViewChange {s : VsrConsensus} (hv : VotesInRange s) (v : Nat) :
    VotesInRange (s.enterViewChange v) where
  replicaCount_le := hv.replicaCount_le
  commit_le := hv.commit_le
  svc_lt := by
    intro r hr
    rw [enterViewChange_svc, Finset.mem_singleton] at hr
    exact hr ▸ s.replica_lt
  dvc_slots := by
    rw [enterViewChange_dvc]
    exact dvcSlotsBelow_empty _
  acks_lt := by
    intro e he r hr
    simp only [VsrConsensus.enterViewChange, resetViewChangeState, LocalPipeline.clearRequestQueue,
      LocalPipeline.cancelAllSubscribers, List.mem_map] at he
    obtain ⟨e0, he0, rfl⟩ := he
    exact hv.acks_lt e0 he0 r hr

theorem VotesInRange.insertSvc {s : VsrConsensus} (hv : VotesInRange s) {r : Nat}
    (hr : r < s.replicaCount) :
    VotesInRange { s with
      startViewChangeFromAllReplicas := insert r s.startViewChangeFromAllReplicas } :=
  { hv with
    svc_lt := by
      intro x hx
      rcases Finset.mem_insert.mp hx with rfl | hx
      · exact hr
      · exact hv.svc_lt x hx }

theorem VotesInRange.adoptView {s : VsrConsensus} (hv : VotesInRange s) (v : Nat) :
    VotesInRange (s.adoptView v).1 := by
  unfold VsrConsensus.adoptView
  split
  · exact hv.enterViewChange v
  · exact hv

@[simp] theorem adoptView_replicaCount (s : VsrConsensus) (v : Nat) :
    (s.adoptView v).1.replicaCount = s.replicaCount := by
  unfold VsrConsensus.adoptView
  split <;> rfl

@[simp] theorem adoptView_replica (s : VsrConsensus) (v : Nat) :
    (s.adoptView v).1.replica = s.replica := by
  unfold VsrConsensus.adoptView
  split <;> rfl

/-- The one panic the vote handlers may still raise on in-range input. -/
def IsCapacityPanic (p : Panic) : Prop :=
  ∃ maxCommit newOp, pipelinePrepareQueueMax < newOp - maxCommit ∧ p = capacityPanic maxCommit newOp

/-- Completing the view change keeps the counting structures and panics only on the capacity
assertion: `commit_min <= commit_max` rules out the assertion of `advance_commit_max`. -/
theorem VotesInRange.completeViewChangeAsPrimary {s : VsrConsensus} (hv : VotesInRange s) :
    Outcome IsCapacityPanic (fun r => VotesInRange r.1) s.completeViewChangeAsPrimary := by
  unfold VsrConsensus.completeViewChangeAsPrimary
  have hv1 : ∀ t : VsrConsensus, t.replicaCount = s.replicaCount → t.commitMin = s.commitMin →
      s.commitMax ≤ t.commitMax →
      t.startViewChangeFromAllReplicas = s.startViewChangeFromAllReplicas →
      t.doViewChangeFromAllReplicas = s.doViewChangeFromAllReplicas →
      t.pipeline.prepareQueue = [] → VotesInRange t := by
    intro t hn hmin hmax hsvc hdvc hq
    exact ⟨hn ▸ hv.replicaCount_le, hmin ▸ hv.commit_le.trans hmax, hn ▸ hsvc ▸ hv.svc_lt,
      hn ▸ hdvc ▸ hv.dvc_slots, by simp [hq]⟩
  split
  · simp only
    rw [advanceCommitMax_ok (s := { s with logView := s.view, status := .normal }) hv.commit_le]
    simp only [bind_ok]
    -- the three exits: the capacity panic, and the two returns with the pipeline cleared
    split
    · split
      · exact ⟨_, _, by omega, rfl⟩
      · exact hv1 _ rfl rfl (le_max_left _ _) rfl rfl rfl
    · exact hv1 _ rfl rfl (le_max_left _ _) rfl rfl rfl
  · exact hv

theorem recordDvc_eq {s : VsrConsensus} {d : StoredDvc} (h : d.replica < replicasMax) :
    ∃ dvcs fresh, dvcRecord s.doViewChangeFromAllReplicas d = .ok (dvcs, fresh) ∧
      s.recordDvc d = .ok { s with doViewChangeFromAllReplicas := dvcs } := by
  obtain ⟨dvcs, fresh, hrec⟩ := dvcRecord_of_lt (a := s.doViewChangeFromAllReplicas) h
  refine ⟨dvcs, fresh, hrec, ?_⟩
  unfold VsrConsensus.recordDvc
  rw [hrec]
  rfl

/-- Recording a vote from a sender below `replica_count` never panics and keeps the
counting structures. -/
theorem VotesInRange.recordDvc {E : Panic → Prop} {s : VsrConsensus} (hv : VotesInRange s)
    {d : StoredDvc} (hlt : d.replica < s.replicaCount) :
    Outcome E (fun t => VotesInRange t ∧ t.replicaCount = s.replicaCount) (s.recordDvc d) := by
  obtain ⟨dvcs, fresh, hrec, heq⟩ := recordDvc_eq (s := s) (lt_of_lt_of_le hlt hv.replicaCount_le)
  rw [heq]
  exact ⟨{ hv with dvc_slots := hv.dvc_slots.record hlt hrec }, rfl⟩

theorem VotesInRange.sendOwnDoViewChange {s : VsrConsensus} (hv : VotesInRange s) :
    Outcome IsCapacityPanic (fun r => VotesInRange r.1) s.sendOwnDoViewChange := by
  unfold VsrConsensus.sendOwnDoViewChange
  simp only
  have hv1 : VotesInRange { s with
      sentOwnDoViewChange := true
      timeouts := s.timeouts.start .doViewChangeMessage } :=
    ⟨hv.1, hv.2, hv.3, hv.4, hv.5⟩
  split
  · -- the candidate counts its own vote, then completes on a quorum
    refine Outcome.bind (hv1.recordDvc s.replica_lt) ?_
    rintro t ⟨ht, -⟩
    split
    · refine Outcome.bind (VotesInRange.completeViewChangeAsPrimary ⟨ht.1, ht.2, ht.3, ht.4, ht.5⟩) ?_
      rintro ⟨u, more⟩ hu
      exact hu
    · exact ht
  · exact hv1

theorem VotesInRange.handleStartViewChange {s : VsrConsensus} (hv : VotesInRange s)
    {h : StartViewChangeHeader} (hns : h.nspace = s.nspace) (hr : h.replica < s.replicaCount) :
    Outcome IsCapacityPanic (fun r => VotesInRange r.1) (s.handleStartViewChange h) := by
  unfold VsrConsensus.handleStartViewChange
  simp only [hns, ne_eq, not_true_eq_false, if_false]
  split
  · exact hv
  have hv1 := hv.adoptView h.view
  have hn1 := adoptView_replicaCount s h.view
  generalize s.adoptView h.view = sa at hv1 hn1 ⊢
  obtain ⟨s1, a1⟩ := sa
  have hv2 := hv1.insertSvc (r := h.replica) (hn1 ▸ hr)
  simp only
  split
  · refine Outcome.bind hv2.sendOwnDoViewChange ?_
    rintro ⟨t, more⟩ ht
    exact ht
  · exact hv2

theorem VotesInRange.recordOwnDoViewChange {E : Panic → Prop} {s : VsrConsensus}
    (hv : VotesInRange s) :
    Outcome E (fun t => VotesInRange t ∧ t.replicaCount = s.replicaCount)
      s.recordOwnDoViewChange := by
  unfold VsrConsensus.recordOwnDoViewChange
  split
  · refine Outcome.bind (hv.recordDvc s.replica_lt) ?_
    rintro t ⟨ht, hn⟩
    exact ⟨⟨ht.1, ht.2, ht.3, ht.4, ht.5⟩, hn⟩
  · exact ⟨hv, rfl⟩

theorem VotesInRange.handleDoViewChange {s : VsrConsensus} (hv : VotesInRange s)
    {h : DoViewChangeHeader} (hns : h.nspace = s.nspace) (hr : h.replica < s.replicaCount) :
    Outcome IsCapacityPanic (fun r => VotesInRange r.1) (s.handleDoViewChange h) := by
  unfold VsrConsensus.handleDoViewChange
  simp only [hns, ne_eq, not_true_eq_false, if_false]
  split
  · exact hv
  have hv1 := hv.adoptView h.view
  have hn1 := adoptView_replicaCount s h.view
  generalize s.adoptView h.view = sa at hv1 hn1 ⊢
  obtain ⟨s1, a1⟩ := sa
  simp only
  split
  · exact hv1
  split
  · exact hv1
  -- our own vote first (once), then the sender's
  refine Outcome.bind hv1.recordOwnDoViewChange ?_
  rintro t ⟨ht, hnt⟩
  refine Outcome.bind (ht.recordDvc (d := ⟨h.replica, h.logView, h.op, h.commit⟩)
    (by rw [hnt, hn1]; exact hr)) ?_
  rintro u ⟨hu, -⟩
  split
  · refine Outcome.bind (VotesInRange.completeViewChangeAsPrimary ⟨hu.1, hu.2, hu.3, hu.4, hu.5⟩) ?_
    rintro ⟨w, more⟩ hw
    exact hw
  · exact hu

/-- `handle_prepare_ok` never panics on a sender below `replica_count`, and records only such
senders in the ack sets. -/
theorem VotesInRange.handlePrepareOk {s : VsrConsensus} (hv : VotesInRange s)
    {h : PrepareOkHeader} (hcmd : h.command = .prepareOk) (hr : h.replica < s.replicaCount) :
    ∃ t out, s.handlePrepareOk h = .ok (t, out) ∧ VotesInRange t := by
  cases hres : s.handlePrepareOk h with
  | error p =>
    rcases handlePrepareOk_error hres with hc | hc
    · exact absurd hcmd hc
    · omega
  | ok r =>
    obtain ⟨t, out⟩ := r
    refine ⟨t, out, rfl, ?_⟩
    obtain ⟨-, ⟨rfl, -⟩ | ⟨i, e, -, he, -, -, -, rfl, -⟩⟩ := handlePrepareOk_spec hres
    · exact hv
    refine { hv with acks_lt := ?_ }
    intro e' he' r hr'
    rcases List.mem_or_eq_of_mem_set he' with he' | rfl
    · exact hv.acks_lt e' he' r hr'
    -- the entry that took the ack: its old acks, and the sender
    rcases Finset.mem_insert.mp hr' with rfl | hr'
    · exact hr
    · exact hv.acks_lt e (List.mem_of_getElem? he) r hr'

/-! ## The vote handlers on in-range senders -/

/-- On a state whose counting structures hold only ids below `replica_count`, and for headers
whose sender is below `replica_count`: `handle_prepare_ok` never panics on a validated
PrepareOk, the StartViewChange and DoViewChange handlers of the replica's namespace panic only
on the capacity assertion of `complete_view_change_as_primary`, and each leaves the counting
structures in range, so that every count is of distinct replicas below `replica_count`. -/
theorem vote_counting_in_range {s : VsrConsensus} (hv : VotesInRange s) :
    (∀ h : PrepareOkHeader, h.validate = .ok () → h.replica < s.replicaCount →
      ∃ t out, s.handlePrepareOk h = .ok (t, out) ∧ VotesInRange t) ∧
    (∀ h : StartViewChangeHeader, h.nspace = s.nspace → h.replica < s.replicaCount →
      Outcome IsCapacityPanic (fun r => VotesInRange r.1) (s.handleStartViewChange h)) ∧
    (∀ h : DoViewChangeHeader, h.nspace = s.nspace → h.replica < s.replicaCount →
      Outcome IsCapacityPanic (fun r => VotesInRange r.1) (s.handleDoViewChange h)) := by
  refine ⟨?_, fun h hns hr => hv.handleStartViewChange hns hr,
    fun h hns hr => hv.handleDoViewChange hns hr⟩
  intro h hval hr
  have hcmd : h.command = .prepareOk := by
    unfold PrepareOkHeader.validate at hval
    split at hval
    · cases hval
    · rename_i hc
      simpa using hc
  exact hv.handlePrepareOk hcmd hr

theorem vote_counting_in_range_fresh :
    let s := fresh 0 0 3 0 (by decide)
    (∀ h : PrepareOkHeader, h.validate = .ok () → h.replica < s.replicaCount →
      ∃ t out, s.handlePrepareOk h = .ok (t, out) ∧ VotesInRange t) ∧
    (∀ h : StartViewChangeHeader, h.nspace = s.nspace → h.replica < s.replicaCount →
      Outcome IsCapacityPanic (fun r => VotesInRange r.1) (s.handleStartViewChange h)) ∧
    (∀ h : DoViewChangeHeader, h.nspace = s.nspace → h.replica < s.replicaCount →
      Outcome IsCapacityPanic (fun r => VotesInRange r.1) (s.handleDoViewChange h)) :=
  vote_counting_in_range (VotesInRange.fresh (by decide) (by decide))

/-- No check stops a validated header from an id at or above `replica_count`: a PrepareOk from
replica 3 of a three-replica cluster trips the assertion of `handle_prepare_ok`, and a single
StartViewChange from a replica 5 that does not exist is counted as the `f = 1` other vote
replica 1 needs, so it sends its DoViewChange. An in-range header can panic too: replica 2's
DoViewChange for view 1 claiming op 20 over commit 0 completes replica 1's quorum, and 20
uncommitted ops overflow the pipeline of 8, so `complete_view_change_as_primary` asserts. -/
theorem vote_counting_out_of_range :
    let ok : PrepareOkHeader := ⟨0, 0, .prepareOk, 3, 0, 0, 1, 0, 0, 1, .createStream, 0⟩
    let svc : StartViewChangeHeader := ⟨1, 0, .startViewChange, 5, 0⟩
    let dvc : DoViewChangeHeader := ⟨1, 0, .doViewChange, 2, 20, 0, 0, 0⟩
    ok.validate = .ok () ∧
      (fresh 0 0 3 0 (by decide)).handlePrepareOk ok =
        .error ⟨"handle_prepare_ok: invalid replica 3"⟩ ∧
      svc.validate = .ok () ∧
      ((fresh 0 1 3 0 (by decide)).handleStartViewChange svc).map Prod.snd =
        .ok [.sendStartViewChange 1 0, .sendDoViewChange 1 1 0 0 0 0] ∧
      dvc.validate = .ok () ∧ dvc.replica < 3 ∧
      (fresh 0 1 3 0 (by decide)).handleDoViewChange dvc = .error (capacityPanic 0 20) ∧
      IsCapacityPanic (capacityPanic 0 20) := by
  refine ⟨rfl, rfl, rfl, rfl, rfl, by decide, rfl, 0, 20, by decide, rfl⟩

end VsrConsensus

end IggyCore.Consensus
