import IggyCore.Consensus.VoteCounting
import IggyCore.Server.Bootstrap

/-!
# View, log view and status along a run

The replica's view never goes back, its `log_view` (the last view in which it was normal)
never passes its view, and in normal status the two agree. `ViewStep s t` says that `t` is a
legal successor of `s` in these terms; every handler is a `ViewStep`, so every run from a
state where the relation between `log_view`, `view` and status holds keeps it.

Two inputs break the picture the handlers keep. `handle_start_view_change` never looks at the
status, so a StartViewChange for the current view reaches a replica in normal status, which
then sends a DoViewChange and, as the candidate of a one-replica cluster, a StartView for a
view it never left. `restore_metadata_consensus` sets the view from the journal and leaves
`log_view` at 0, then `init()` declares the replica normal.
-/

namespace IggyCore.Consensus

open IggyCore.Library

/-- A replica event, as the shard's dispatch hands them to `VsrConsensus`. -/
inductive VsrEvent
  | tick (draw : Nat → Nat → Nat) (currentOp currentCommit : Nat)
  | startViewChange (h : StartViewChangeHeader)
  | doViewChange (h : DoViewChangeHeader)
  | startView (h : StartViewHeader)
  | commit (h : CommitHeader)
  | prepareOk (h : PrepareOkHeader)

namespace VsrConsensus

/-- Handle one event; the `Bool`s and outcomes of `handle_commit` and `handle_prepare_ok` only
feed the plane and are dropped here. -/
def handle (s : VsrConsensus) : VsrEvent → Except Panic (VsrConsensus × List VsrAction)
  | .tick draw currentOp currentCommit => .ok (s.tick draw currentOp currentCommit)
  | .startViewChange h => s.handleStartViewChange h
  | .doViewChange h => s.handleDoViewChange h
  | .startView h => s.handleStartView h
  | .commit h => (s.handleCommit h).map fun r => (r.1, [])
  | .prepareOk h => (s.handlePrepareOk h).map fun r => (r.1, [])

/-- Run a list of events from `s`, stopping at the first panic. -/
def run (s : VsrConsensus) (events : List VsrEvent) : Except Panic VsrConsensus :=
  events.foldlM (fun s e => (s.handle e).map Prod.fst) s

/-- The invariant tying `log_view` to the view and the status. -/
structure ViewInv (s : VsrConsensus) : Prop where
  logView_le : s.logView ≤ s.view
  normal_logView : s.status = .normal → s.logView = s.view

/-- `t` may follow `s`: the view does not go back, and the invariant carries over. -/
structure ViewStep (s t : VsrConsensus) : Prop where
  view_le : s.view ≤ t.view
  inv : ViewInv s → ViewInv t

theorem ViewStep.refl (s : VsrConsensus) : ViewStep s s := ⟨le_refl _, id⟩

theorem ViewStep.trans {s t u : VsrConsensus} (h1 : ViewStep s t) (h2 : ViewStep t u) :
    ViewStep s u :=
  ⟨h1.view_le.trans h2.view_le, h2.inv ∘ h1.inv⟩

/-- A step that keeps view, `log_view` and status is a `ViewStep`. -/
theorem ViewStep.of_eq {s t : VsrConsensus} (hv : t.view = s.view) (hl : t.logView = s.logView)
    (hs : t.status = s.status) : ViewStep s t :=
  ⟨hv.ge, fun h => ⟨hl ▸ hv ▸ h.logView_le, fun hn => hl ▸ hv ▸ h.normal_logView (hs ▸ hn)⟩⟩

/-- A step that keeps view, `log_view` and status may be prepended to any `ViewStep`. -/
theorem ViewStep.congr_left {s t u : VsrConsensus} (h : ViewStep t u) (hv : t.view = s.view)
    (hl : t.logView = s.logView) (hs : t.status = s.status) : ViewStep s u :=
  (ViewStep.of_eq hv hl hs).trans h

/-- Becoming normal in a view at least the current one, with `log_view` set to it. -/
theorem ViewStep.of_normal {s t : VsrConsensus} (hv : s.view ≤ t.view) (hl : t.logView = t.view) :
    ViewStep s t :=
  ⟨hv, fun _ => ⟨hl.le, fun _ => hl⟩⟩

/-- Moving to a later view in view-change status, `log_view` unchanged. -/
theorem ViewStep.of_viewChange {s t : VsrConsensus} (hv : s.view ≤ t.view)
    (hl : t.logView = s.logView) (hs : t.status = .viewChange) : ViewStep s t :=
  ⟨hv, fun h => ⟨hl ▸ h.logView_le.trans hv, fun hn => by rw [hs] at hn; cases hn⟩⟩

/-! ## One lemma per handler -/

theorem viewStep_enterViewChange (s : VsrConsensus) {v : Nat} (hv : s.view ≤ v) :
    ViewStep s (s.enterViewChange v) :=
  .of_viewChange hv rfl rfl

theorem viewStep_adoptView (s : VsrConsensus) (v : Nat) : ViewStep s (s.adoptView v).1 := by
  unfold adoptView
  split
  · exact viewStep_enterViewChange s (by omega)
  · exact .refl s

theorem viewStep_completeViewChangeAsPrimary (s : VsrConsensus) :
    Outcome (fun _ => True) (fun r => ViewStep s r.1) s.completeViewChangeAsPrimary := by
  unfold completeViewChangeAsPrimary
  split
  · simp only
    refine Outcome.bind ((advanceCommitMax_outcome _ _).imp (fun _ _ => trivial) fun _ h => h) ?_
    rintro t ⟨rfl, -⟩
    -- every exit leaves the replica normal in its view with `log_view = view`
    split
    · split
      · trivial
      · exact ViewStep.of_normal (le_refl _) rfl
    · exact ViewStep.of_normal (le_refl _) rfl
  · exact ViewStep.refl s

/-- `record_dvc` touches the DVC slots only. -/
theorem recordDvc_outcome (s : VsrConsensus) (d : StoredDvc) :
    Outcome (fun _ => True) (fun t => ∃ dvcs, t = { s with doViewChangeFromAllReplicas := dvcs })
      (s.recordDvc d) := by
  unfold recordDvc
  refine Outcome.bind (Q := fun _ => True) ?_ ?_
  · cases dvcRecord s.doViewChangeFromAllReplicas d <;> trivial
  · rintro ⟨dvcs, fresh⟩ -
    exact ⟨dvcs, rfl⟩

theorem viewStep_recordDvc (s : VsrConsensus) (d : StoredDvc) :
    Outcome (fun _ => True) (fun t => ViewStep s t) (s.recordDvc d) :=
  (recordDvc_outcome s d).imp (fun _ h => h) fun _ ⟨_, ht⟩ => ht ▸ .of_eq rfl rfl rfl

theorem viewStep_sendOwnDoViewChange (s : VsrConsensus) :
    Outcome (fun _ => True) (fun r => ViewStep s r.1) s.sendOwnDoViewChange := by
  unfold sendOwnDoViewChange
  simp only
  split
  · refine Outcome.bind (viewStep_recordDvc _ _) ?_
    intro t ht
    split
    · refine Outcome.bind (viewStep_completeViewChangeAsPrimary _) ?_
      rintro ⟨u, more⟩ hu
      exact .congr_left (ht.trans (.congr_left hu rfl rfl rfl)) rfl rfl rfl
    · exact .congr_left ht rfl rfl rfl
  · exact ViewStep.of_eq rfl rfl rfl

theorem viewStep_handleStartViewChange (s : VsrConsensus) (h : StartViewChangeHeader) :
    Outcome (fun _ => True) (fun r => ViewStep s r.1) (s.handleStartViewChange h) := by
  unfold handleStartViewChange
  simp only
  split
  · trivial
  split
  · exact ViewStep.refl s
  have h1 := viewStep_adoptView s h.view
  generalize s.adoptView h.view = sa at h1 ⊢
  obtain ⟨s1, a1⟩ := sa
  simp only
  split
  · refine Outcome.bind (viewStep_sendOwnDoViewChange _) ?_
    rintro ⟨t, more⟩ ht
    exact h1.trans (.congr_left ht rfl rfl rfl)
  · exact h1.trans (ViewStep.of_eq rfl rfl rfl)

theorem viewStep_recordOwnDoViewChange (s : VsrConsensus) :
    Outcome (fun _ => True) (fun t => ViewStep s t) s.recordOwnDoViewChange := by
  unfold recordOwnDoViewChange
  split
  · refine Outcome.bind (viewStep_recordDvc _ _) ?_
    intro t ht
    exact ht.trans (ViewStep.of_eq rfl rfl rfl)
  · exact ViewStep.refl s

theorem viewStep_handleDoViewChange (s : VsrConsensus) (h : DoViewChangeHeader) :
    Outcome (fun _ => True) (fun r => ViewStep s r.1) (s.handleDoViewChange h) := by
  unfold handleDoViewChange
  simp only
  split
  · trivial
  split
  · exact ViewStep.refl s
  have h1 := viewStep_adoptView s h.view
  generalize s.adoptView h.view = sa at h1 ⊢
  obtain ⟨s1, a1⟩ := sa
  simp only
  split
  · exact h1
  split
  · exact h1
  refine Outcome.bind (viewStep_recordOwnDoViewChange _) ?_
  intro t ht
  refine Outcome.bind (viewStep_recordDvc _ _) ?_
  intro u hu
  split
  · refine Outcome.bind (viewStep_completeViewChangeAsPrimary _) ?_
    rintro ⟨w, more⟩ hw
    exact h1.trans (ht.trans (hu.trans (.congr_left hw rfl rfl rfl)))
  · exact h1.trans (ht.trans hu)

theorem viewStep_handleStartView (s : VsrConsensus) (h : StartViewHeader) :
    Outcome (fun _ => True) (fun r => ViewStep s r.1) (s.handleStartView h) := by
  unfold handleStartView
  simp only
  split
  · trivial
  -- the four ignore branches
  split
  · exact ViewStep.refl s
  split
  · exact ViewStep.refl s
  rename_i hview
  split
  · exact ViewStep.refl s
  split
  · exact ViewStep.refl s
  refine Outcome.bind ((advanceCommitMax_outcome _ _).imp (fun _ _ => trivial) fun _ h => h) ?_
  rintro t ⟨rfl, -⟩
  -- the backup is now normal in the new view, with `log_view` moved to it
  exact ViewStep.of_normal (by simp only [resetViewChangeState_view]; omega) rfl

theorem viewStep_handleCommit (s : VsrConsensus) (h : CommitHeader) :
    Outcome (fun _ => True) (fun r => ViewStep s r.1) (s.handleCommit h) := by
  unfold handleCommit
  simp only
  split
  · trivial
  -- every exit keeps view, `log_view` and status; only `commit_max` and the heartbeat move
  repeat' (first | exact ViewStep.refl s | split)
  all_goals
    refine Outcome.bind ((advanceCommitMax_outcome _ _).imp (fun _ _ => trivial) fun _ h => h) ?_
    rintro t ⟨rfl, -⟩
    exact ViewStep.of_eq rfl rfl rfl

theorem viewStep_handlePrepareOk (s : VsrConsensus) (h : PrepareOkHeader) :
    Outcome (fun _ => True) (fun r => ViewStep s r.1) (s.handlePrepareOk h) := by
  cases hres : s.handlePrepareOk h with
  | error p => trivial
  | ok r =>
    obtain ⟨t, out⟩ := r
    obtain ⟨-, ⟨rfl, -⟩ | ⟨i, e, -, -, -, -, -, rfl, -⟩⟩ := handlePrepareOk_spec hres
    · exact ViewStep.refl t
    · exact ViewStep.of_eq rfl rfl rfl

/-! ## Timeouts -/

/-- A fired handler that is a `ViewStep` extends a `ViewStep` ending in its input. -/
theorem viewStep_whenFired {s : VsrConsensus} {handler : VsrConsensus → VsrConsensus × List VsrAction}
    {sa : VsrConsensus × List VsrAction} (hprev : ViewStep s sa.1)
    (hh : ∀ s, ViewStep s (handler s).1) (k : TimeoutKind) :
    ViewStep s (whenFired k handler sa).1 := by
  unfold whenFired
  split
  · exact hprev.trans (hh sa.1)
  · exact hprev

theorem viewStep_handleNormalHeartbeatTimeout (s : VsrConsensus) :
    ViewStep s s.handleNormalHeartbeatTimeout.1 := by
  unfold handleNormalHeartbeatTimeout
  split
  · exact ViewStep.refl s
  split
  · exact ViewStep.refl s
  · exact viewStep_enterViewChange s (Nat.le_succ _)

theorem viewStep_handleViewChangeStatusTimeout (s : VsrConsensus) :
    ViewStep s s.handleViewChangeStatusTimeout.1 := by
  unfold handleViewChangeStatusTimeout
  split
  · exact ViewStep.refl s
  · -- escalation stays in view-change status
    rename_i hvc
    exact ViewStep.of_viewChange (Nat.le_succ _) rfl (by simpa using hvc)

/-- A tick escalates the view at most by the two view-changing timeouts; the other handlers
touch timers and flags only. -/
theorem viewStep_tick (s : VsrConsensus) (draw : Nat → Nat → Nat) (currentOp currentCommit : Nat) :
    ViewStep s (s.tick draw currentOp currentCommit).1 := by
  have hkeep : ∀ {f : VsrConsensus → VsrConsensus × List VsrAction},
      (∀ s, (f s).1.view = s.view ∧ (f s).1.logView = s.logView ∧ (f s).1.status = s.status) →
      ∀ s, ViewStep s (f s).1 := by
    intro f hf s
    obtain ⟨hv, hl, hs⟩ := hf s
    exact ViewStep.of_eq hv hl hs
  unfold tick
  -- from the last handler back to the ticked timers
  refine viewStep_whenFired ?_ viewStep_handleViewChangeStatusTimeout _
  refine viewStep_whenFired ?_ (hkeep fun s => ?_) _
  rotate_left
  · unfold handleCommitMessageTimeout
    split <;> exact ⟨rfl, rfl, rfl⟩
  refine viewStep_whenFired ?_ (hkeep fun s => ?_) _
  rotate_left
  · unfold handlePrepareTimeout
    dsimp only
    repeat' (first | exact ⟨rfl, rfl, rfl⟩ | split)
  refine viewStep_whenFired ?_ (hkeep fun s => ?_) _
  rotate_left
  · unfold handleDoViewChangeMessageTimeout
    repeat' (first | exact ⟨rfl, rfl, rfl⟩ | split)
  refine viewStep_whenFired ?_ (hkeep fun s => ?_) _
  rotate_left
  · unfold handleStartViewChangeMessageTimeout
    split <;> exact ⟨rfl, rfl, rfl⟩
  refine viewStep_whenFired ?_ viewStep_handleNormalHeartbeatTimeout _
  exact ViewStep.of_eq rfl rfl rfl

/-! ## Runs -/

theorem viewStep_handle (s : VsrConsensus) (e : VsrEvent) :
    Outcome (fun _ => True) (fun r => ViewStep s r.1) (s.handle e) := by
  cases e with
  | tick draw currentOp currentCommit => exact viewStep_tick s draw currentOp currentCommit
  | startViewChange h => exact viewStep_handleStartViewChange s h
  | doViewChange h => exact viewStep_handleDoViewChange s h
  | startView h => exact viewStep_handleStartView s h
  | commit h => exact (viewStep_handleCommit s h).map fun _ h => h
  | prepareOk h => exact (viewStep_handlePrepareOk s h).map fun _ h => h

/-- **Run lemma.** Along every run the view never goes back and the invariant carries over. -/
theorem viewStep_run {s t : VsrConsensus} {events : List VsrEvent} (h : s.run events = .ok t) :
    ViewStep s t := by
  refine foldlM_rel _ (fun _ => True) ViewStep ViewStep.refl (fun _ _ _ => ViewStep.trans)
    (fun _ _ _ _ _ => trivial) ?_ events s t trivial h
  intro u e u' _ hstep
  obtain ⟨⟨w, acts⟩, hw, rfl⟩ := map_eq_ok hstep
  exact (viewStep_handle u e).of_eq_ok hw

theorem viewInv_init_fresh {cluster replica replicaCount nspace : Nat}
    (h : replica < replicaCount) : ViewInv (fresh cluster replica replicaCount nspace h).init :=
  ⟨le_refl 0, fun _ => rfl⟩

/-- A run goes on from any state one of its prefixes reaches. -/
theorem run_drop_of_take {s t u : VsrConsensus} {events : List VsrEvent} {k : Nat}
    (hrun : s.run events = .ok t) (hu : s.run (events.take k) = .ok u) :
    u.run (events.drop k) = .ok t := by
  rw [← List.take_append_drop k events, run, List.foldlM_append] at hrun
  rw [run] at hu
  rw [hu, bind_ok] at hrun
  exact hrun

/-- From `init()`, every run whose final view is a `u32` keeps `log_view <= view`, and
`log_view = view` in normal status. Views never decrease along a run (`viewStep_run`), so
every state it passes through has a view below `2 ^ 32`: no `old_view + 1` of the code wraps,
and the model's `Nat` views are the code's `u32` views. -/
theorem view_invariants_from_init {cluster replica replicaCount nspace : Nat}
    (h : replica < replicaCount) {events : List VsrEvent} {t : VsrConsensus}
    (hrun : (fresh cluster replica replicaCount nspace h).init.run events = .ok t)
    (hbound : t.view < 2 ^ 32) :
    t.logView ≤ t.view ∧ (t.status = .normal → t.logView = t.view) ∧
      ∀ k u, (fresh cluster replica replicaCount nspace h).init.run (events.take k) = .ok u →
        u.view < 2 ^ 32 := by
  have hinv := (viewStep_run hrun).inv (viewInv_init_fresh h)
  refine ⟨hinv.logView_le, hinv.normal_logView, fun k u hu => ?_⟩
  -- the rest of the run starts at `u`, and the view only grows from there
  exact lt_of_le_of_lt (viewStep_run (run_drop_of_take hrun hu)).view_le hbound

/-- Replica 1 of three: a StartViewChange of view 1 from replica 2 starts its view change, one
from replica 0 completes the quorum, and the DoViewChange of replica 0 makes it the primary of
view 1. -/
def viewChangeEvents : List VsrEvent :=
  [.startViewChange ⟨1, 0, .startViewChange, 2, 0⟩,
    .startViewChange ⟨1, 0, .startViewChange, 0, 0⟩,
    .doViewChange ⟨1, 0, .doViewChange, 0, 0, 0, 0, 0⟩]

/-- The run ends normal in view 1, with `log_view` caught up. -/
theorem view_invariants_from_init_view_change :
    ∃ t, (fresh 0 1 3 0 (by decide)).init.run viewChangeEvents = .ok t ∧ t.view = 1 ∧
      t.status = .normal ∧ t.logView ≤ t.view ∧ (t.status = .normal → t.logView = t.view) ∧
      ∀ k u, (fresh 0 1 3 0 (by decide)).init.run (viewChangeEvents.take k) = .ok u →
        u.view < 2 ^ 32 := by
  obtain ⟨t, hrun, ht⟩ := exists_of_okAnd
    (x := (fresh 0 1 3 0 (by decide)).init.run viewChangeEvents)
    (p := fun t => t.view == 1 && t.status == .normal) (by decide)
  simp only [Bool.and_eq_true, beq_iff_eq] at ht
  obtain ⟨hview, hstatus⟩ := ht
  exact ⟨t, hrun, hview, hstatus,
    view_invariants_from_init (by decide) hrun (by rw [hview]; decide)⟩

/-- Where the code leaves the invariants. A one-replica cluster in normal status that is sent a
StartViewChange for its own view answers with a DoViewChange and a StartView while it stays
normal in view 0, never having been in a view change. A replica booted from a journal whose
last prepare is of view 3 comes up normal in view 3 with `log_view = 0`. -/
theorem view_change_invariants_fail :
    StartViewChangeHeader.validate ⟨0, 0, .startViewChange, 0, 0⟩ = .ok () ∧
      (fresh 0 0 1 0 (by decide)).init.status = .normal ∧
      ((fresh 0 0 1 0 (by decide)).init.handleStartViewChange ⟨0, 0, .startViewChange, 0, 0⟩).map
          (fun r => (r.1.status, r.2)) =
        .ok (.normal, [.sendDoViewChange 0 0 0 0 0 0, .sendStartView 0 0 0 0, .commitJournal]) ∧
      (Server.restoreMetadataConsensus
          ((Journal.PrepareJournal.empty 0).store
            ⟨⟨0, 1, 256, 3, 0, .prepare, 0, 0, 0, 0, 0, 0, 1, 0, .createStream,
              Server.metadataConsensusNamespace⟩, []⟩) 1 0 3).map
          (fun t => (t.status, t.view, t.logView)) =
        .ok (.normal, 3, 0) := by
  refine ⟨rfl, rfl, rfl, rfl⟩

end VsrConsensus

end IggyCore.Consensus
