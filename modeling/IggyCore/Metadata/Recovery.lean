import IggyCore.Metadata.Cluster
import IggyCore.Journal.WalIndex

/-!
# Recovering the metadata plane from disk

`recover` (`core/metadata/src/impls/recovery.rs`) opens the WAL with the snapshot's sequence
number as its watermark, takes `iter_headers_from` the first op after the snapshot, reads
each entry back and passes it to the state machine, and returns the last op applied.

The snapshot is its sequence number and the state `restore_snapshot` (or `default`, without
a snapshot) builds from it: loading and restoring it happen before the WAL is opened. The
entries are read through `entry_at` of the file-level journal (`IggyCore.Journal.Wal`).
-/

namespace IggyCore.Metadata

open IggyCore.Consensus IggyCore.Journal IggyCore.Wire IggyCore.Library

/-- The `RecoveryError`s a replay can end with. -/
inductive RecoveryError
  /-- A `JournalError` of `PrepareJournal::open`. -/
  | journal (message : String)
  /-- The state machine refused an entry. -/
  | stateMachine (error : IggyError)
  /-- An `io::Error` reading an entry back. -/
  | io (message : String)

structure RecoveredMetadata (σ : Type) where
  journal : Wal.PrepareJournal
  /-- The snapshot's sequence number. -/
  snapshot : Option Nat
  muxStm : σ
  lastAppliedOp : Option Nat

/-- `iter_headers_from`: the headers of the slots with `op ≥ fromOp`, sorted by op. The slots
hold distinct ops, so the order the unstable sort leaves open between equal keys never
arises. -/
def iterHeadersFrom (j : Wal.PrepareJournal) (fromOp : Nat) : List PrepareHeader :=
  (j.headers.filterMap fun slot => slot.filter fun h => decide (fromOp ≤ h.op)).mergeSort
    fun a b => decide (a.op ≤ b.op)

/-- The text of the `InvalidData` error for an entry `entry_at` does not find. -/
def missingEntryMessage (op : Nat) : String := s!"failed to read journal entry for op={op}"

section Model

variable {σ : Type} (stm : MetadataStm σ) (journal : Wal.PrepareJournal)

/-- One turn of the replay loop: read the entry back, pass it to the state machine, and
record its op as the last applied. -/
def replayHeader (state : σ × Option Nat) (header : PrepareHeader) :
    Except RecoveryError (σ × Option Nat) := do
  let entry ← match journal.entryAt header with
    | .ok (some entry) => pure entry
    | .ok none => throw (.io (missingEntryMessage header.op))
    | .error e => throw (.io e)
  match stm.update state.1 entry with
  | .ok (muxStm, _) => pure (muxStm, some header.op)
  | .error e => throw (.stateMachine e)

def replayHeaders (muxStm : σ) (headers : List PrepareHeader) :
    Except RecoveryError (σ × Option Nat) :=
  headers.foldlM (replayHeader stm journal) (muxStm, none)

/-- `replay_from`: the first op after the snapshot's sequence number, or 0 without one. -/
def replayFrom : Option Nat → Nat
  | some sequenceNumber => sequenceNumber + 1
  | none => 0

/-- `recover`, from the WAL's bytes. -/
def recover (snapshot : Option Nat) (restored : σ) (file : List UInt8) :
    Except RecoveryError (RecoveredMetadata σ) := do
  let watermark := snapshot.getD 0
  let journal ← (Wal.PrepareJournal.scan file watermark).mapError .journal
  let headersToReplay := iterHeadersFrom journal (replayFrom snapshot)
  let (muxStm, lastAppliedOp) ← replayHeaders stm journal restored headersToReplay
  pure { journal, snapshot, muxStm, lastAppliedOp }

end Model

/-! ## The replay loop -/

section Replay

variable {σ : Type} {stm : MetadataStm σ} {journal : Wal.PrepareJournal}

theorem replayHeader_of_entryAt {state : σ × Option Nat} {header : PrepareHeader}
    {entry : Message PrepareHeader} (hentry : journal.entryAt header = .ok (some entry))
    {muxStm : σ} {body : List UInt8} (hupdate : stm.update state.1 entry = .ok (muxStm, body)) :
    replayHeader stm journal state header = .ok (muxStm, some header.op) := by
  simp only [replayHeader, hentry, pure_bind, hupdate]
  rfl

/-- Headers that all read back, replayed through a state machine that applies `apply` and
never refuses an entry: the state is `apply` folded over their entries in turn, and the last
applied op is the last header's. -/
theorem replayHeaders_fold (apply : σ → Message PrepareHeader → σ)
    (hupdate : ∀ s e, ∃ body, stm.update s e = .ok (apply s e, body)) :
    ∀ {headers : List PrepareHeader} (muxStm : σ) (last : Option Nat),
      (∀ h ∈ headers, ∃ e, journal.entryAt h = .ok (some e)) →
      headers.foldlM (replayHeader stm journal) (muxStm, last) =
        .ok ((headers.filterMap journal.entry).foldl apply muxStm,
          (headers.getLast?.map PrepareHeader.op).or last)
  | [], _, _, _ => rfl
  | header :: headers, muxStm, last, hread => by
    obtain ⟨e, he⟩ := hread header List.mem_cons_self
    obtain ⟨body, hbody⟩ := hupdate muxStm e
    have hentry : journal.entry header = some e := by
      rw [Wal.PrepareJournal.entry, he]
    rw [List.foldlM_cons, replayHeader_of_entryAt he hbody, bind_ok,
      replayHeaders_fold apply hupdate (apply muxStm e) (some header.op)
        fun h hh => hread h (List.mem_cons_of_mem header hh),
      List.filterMap_cons_some hentry, List.foldl_cons, List.getLast?_cons]
    cases headers.getLast? <;> rfl

end Replay

/-! ## The headers replayed -/

section Headers

variable {j : Wal.PrepareJournal} {fromOp : Nat} {h : PrepareHeader}

theorem mem_iterHeadersFrom :
    h ∈ iterHeadersFrom j fromOp ↔ some h ∈ j.headers ∧ fromOp ≤ h.op := by
  simp [iterHeadersFrom, List.mem_mergeSort, List.mem_filterMap, Option.filter_eq_some_iff]

theorem iterHeadersFrom_sorted (j : Wal.PrepareJournal) (fromOp : Nat) :
    (iterHeadersFrom j fromOp).Pairwise fun a b => a.op ≤ b.op := by
  have hsorted := @List.pairwise_mergeSort PrepareHeader (fun a b => decide (a.op ≤ b.op))
    (fun a b c hab hbc => by simp only [decide_eq_true_eq] at *; omega)
    (fun a b => by simp only [Bool.or_eq_true, decide_eq_true_eq]; omega)
    (j.headers.filterMap fun slot => slot.filter fun h => decide (fromOp ≤ h.op))
  unfold iterHeadersFrom
  simpa only [decide_eq_true_eq] using hsorted

/-- A header the slots hold is the one `header` answers for its op. -/
theorem header_of_mem_headers {a : PrepareJournal} (hr : Wal.Refines a j)
    (hmem : some h ∈ j.headers) : j.header h.op = some h := by
  obtain ⟨slot, hslot⟩ := List.mem_iff_getElem?.mp hmem
  obtain ⟨-, -, -, -, hslot_eq, -⟩ := hr.slot hslot
  rw [Wal.PrepareJournal.header, ← hslot_eq, hslot]
  simp

theorem mem_headers_of_header {op : Nat} (hh : j.header op = some h) :
    some h ∈ j.headers ∧ h.op = op := by
  unfold Wal.PrepareJournal.header at hh
  split at hh
  · rename_i stored hslot
    split at hh
    · cases hh
      exact ⟨List.mem_of_getElem? hslot, by assumption⟩
    · cases hh
  · cases hh

/-- Under the refinement, the headers replayed from `fromOp` are those of the ops at or above
it that the journal holds. -/
theorem mem_iterHeadersFrom_iff {a : PrepareJournal} (hr : Wal.Refines a j) :
    h ∈ iterHeadersFrom j fromOp ↔ fromOp ≤ h.op ∧ j.header h.op = some h := by
  rw [mem_iterHeadersFrom]
  constructor
  · rintro ⟨hmem, hle⟩
    exact ⟨hle, header_of_mem_headers hr hmem⟩
  · rintro ⟨hle, hh⟩
    exact ⟨(mem_headers_of_header hh).1, hle⟩

/-- Every header the journal answers for reads back as an entry. -/
theorem entryAt_of_header {a : PrepareJournal} (hr : Wal.Refines a j)
    (hh : j.header h.op = some h) : ∃ e, j.entryAt h = .ok (some e) := by
  rw [hr.header_eq] at hh
  unfold PrepareJournal.header at hh
  rw [hr.entryAt_eq, PrepareJournal.entry]
  split at hh
  · rename_i m hslot
    split at hh
    · rename_i hop
      exact ⟨m, by rw [if_pos hop]⟩
    · cases hh
  · cases hh

end Headers

/-! ## What recovery replays -/

section Recover

variable {σ : Type} {stm : MetadataStm σ}

/-- **Recovery replays what the WAL holds.** From a WAL of whole entries, with a state
machine that applies `apply` and refuses nothing, `recover` replays, in increasing op order,
the headers of exactly the ops at or above `replay_from` that the recovered journal holds:
the state is `apply` folded over their entries, and the last applied op is the last of them.
Nothing asks those ops to follow one another. -/
theorem recover_replays_held_ops {es : List (Message PrepareHeader)}
    (hes : ∀ e ∈ es, e.Framed ∧ e.header.size ≤ Wal.maxEntrySize)
    (apply : σ → Message PrepareHeader → σ)
    (hupdate : ∀ s e, ∃ body, stm.update s e = .ok (apply s e, body))
    (snapshot : Option Nat) (restored : σ) :
    ∃ r, recover stm snapshot restored (es.map Message.toBytes).flatten = .ok r ∧
      (∀ h, h ∈ iterHeadersFrom r.journal (replayFrom snapshot) ↔
        replayFrom snapshot ≤ h.op ∧ r.journal.header h.op = some h) ∧
      (iterHeadersFrom r.journal (replayFrom snapshot)).Pairwise (fun a b => a.op ≤ b.op) ∧
      r.muxStm = ((iterHeadersFrom r.journal (replayFrom snapshot)).filterMap
        r.journal.entry).foldl apply restored ∧
      r.lastAppliedOp =
        (iterHeadersFrom r.journal (replayFrom snapshot)).getLast?.map PrepareHeader.op := by
  -- the WAL opens to the journal its entries wrote, which refines their slot-level store
  set j := es.foldl Wal.PrepareJournal.write (Wal.PrepareJournal.empty [] (snapshot.getD 0))
  have hr : Wal.Refines (PrepareJournal.replay (snapshot.getD 0) es) j :=
    (Wal.refines_empty [] (snapshot.getD 0)).foldl_write fun e he => (hes e he).1
  set headers := iterHeadersFrom j (replayFrom snapshot)
  have hread : ∀ h ∈ headers, ∃ e, j.entryAt h = .ok (some e) :=
    fun h hh => entryAt_of_header hr ((mem_iterHeadersFrom_iff hr).mp hh).2
  have hreplay := replayHeaders_fold apply hupdate restored none hread
  refine ⟨⟨j, snapshot, (headers.filterMap j.entry).foldl apply restored,
    headers.getLast?.map PrepareHeader.op⟩, ?_, fun h => mem_iterHeadersFrom_iff hr,
    iterHeadersFrom_sorted j _, rfl, rfl⟩
  rw [Option.or_none] at hreplay
  simp only [recover, replayHeaders, Wal.PrepareJournal.scan_whole_entries hes,
    Except.mapError, bind_ok]
  rw [hreplay]
  rfl

/-- The journal `recover` returns is the WAL's scan at the snapshot's watermark. -/
theorem scan_of_recover {snapshot : Option Nat} {restored : σ} {file : List UInt8}
    {r : RecoveredMetadata σ} (h : recover stm snapshot restored file = .ok r) :
    Wal.PrepareJournal.scan file (snapshot.getD 0) = .ok r.journal := by
  unfold recover at h
  dsimp only at h
  cases hscan : Wal.PrepareJournal.scan file (snapshot.getD 0) with
  | error e => rw [hscan] at h; cases h
  | ok j =>
    rw [hscan] at h
    -- past the scan only the replay can fail, and it leaves the journal alone
    cases hreplay : replayHeaders stm j restored (iterHeadersFrom j (replayFrom snapshot)) with
    | error e =>
      simp only [Except.mapError, bind_ok, hreplay] at h
      cases h
    | ok v =>
      simp only [Except.mapError, bind_ok, hreplay] at h
      cases h
      rfl

/-- A state machine that records the op of every prepare it applies. -/
def opLogStm : MetadataStm (List Nat) := ⟨fun s e => .ok (s ++ [e.header.op], []), fun _ _ _ => none⟩

/-- A WAL holding ops 7, 3, 6 and 5, in that order, over a snapshot at op 4: recovery replays
ops 5, 6 and 7 in op order and skips op 3. -/
theorem recover_replays_held_ops_sample :
    ∃ r, recover opLogStm (some 4) []
        (([7, 3, 6, 5].map Wal.samplePrepareAt).map Message.toBytes).flatten = .ok r ∧
      (iterHeadersFrom r.journal (replayFrom (some 4))).map PrepareHeader.op = [5, 6, 7] ∧
      r.muxStm = [5, 6, 7] ∧ r.lastAppliedOp = some 7 ∧
      (∀ h, h ∈ iterHeadersFrom r.journal (replayFrom (some 4)) ↔
        replayFrom (some 4) ≤ h.op ∧ r.journal.header h.op = some h) ∧
      (iterHeadersFrom r.journal (replayFrom (some 4))).Pairwise (fun a b => a.op ≤ b.op) ∧
      r.muxStm = ((iterHeadersFrom r.journal (replayFrom (some 4))).filterMap
        r.journal.entry).foldl (fun s e => s ++ [e.header.op]) [] ∧
      r.lastAppliedOp =
        (iterHeadersFrom r.journal (replayFrom (some 4))).getLast?.map PrepareHeader.op := by
  have hes : ∀ e ∈ [7, 3, 6, 5].map Wal.samplePrepareAt,
      e.Framed ∧ e.header.size ≤ Wal.maxEntrySize := by
    intro e he
    simp only [List.map_cons, List.map_nil, List.mem_cons, List.not_mem_nil, or_false] at he
    rcases he with rfl | rfl | rfl | rfl <;>
      exact ⟨Wal.samplePrepareAt_framed (by decide), by decide⟩
  obtain ⟨r, hr, hops⟩ := @recover_replays_held_ops _ opLogStm _ hes
    (fun s e => s ++ [e.header.op]) (fun _ _ => ⟨[], rfl⟩) (some 4) []
  have hmux := hops.2.2.1
  have hlast := hops.2.2.2
  -- the recovered journal is the WAL's scan, which the kernel evaluates; `recover` itself sorts
  -- the headers with `mergeSort`, whose well-founded recursion the kernel does not unfold
  set hs := [(Wal.samplePrepareAt 5).header, (Wal.samplePrepareAt 6).header,
    (Wal.samplePrepareAt 7).header]
  obtain ⟨j, hj, hfacts⟩ := exists_of_okAnd
    (x := Wal.PrepareJournal.scan
      (([7, 3, 6, 5].map Wal.samplePrepareAt).map Message.toBytes).flatten 4)
    (p := fun j => j.headers.filterMap (fun slot => slot.filter fun h => decide (5 ≤ h.op)) == hs &&
      (hs.filterMap j.entry).foldl (fun s e => s ++ [e.header.op]) [] == [5, 6, 7])
    (by decide +kernel)
  simp only [Bool.and_eq_true, beq_iff_eq] at hfacts
  obtain ⟨hheld, hfold⟩ := hfacts
  have hjournal : r.journal = j := by
    have hscan := scan_of_recover hr
    rw [Option.getD_some, hj] at hscan
    cases hscan
    rfl
  -- the held headers are already in op order, so the sort keeps them
  have hreplayed : iterHeadersFrom r.journal (replayFrom (some 4)) = hs := by
    change iterHeadersFrom r.journal 5 = hs
    rw [hjournal, iterHeadersFrom, hheld]
    exact List.mergeSort_of_pairwise (by decide)
  have hstate : r.muxStm = [5, 6, 7] := by
    rw [hmux, hreplayed, hjournal, hfold]
  exact ⟨r, hr, by rw [hreplayed]; rfl, hstate, by rw [hlast, hreplayed]; rfl, hops⟩

end Recover

/-! ## A WAL with a gap

Replica 2 of `gapEntryRun`, stopped right after it appends op 3, holds op 3 and nothing
below it (`handle_start_view` moved its sequencer to op 2 without the entries). -/

theorem journal_eq_of_fields {a b : PrepareJournal} (hslots : a.slots = b.slots)
    (hlast : a.lastOp = b.lastOp) (hsnapshot : a.snapshotOp = b.snapshotOp) : a = b := by
  cases a
  cases b
  simp only at hslots hlast hsnapshot
  subst hslots hlast hsnapshot
  rfl

theorem recovery_replays_past_gap :
    ∃ events c, (Cluster.boot 3 ()).run MetadataStm.idle (fun _ _ => 0) events = .ok c ∧
      ∃ es, (c.replicas 2).journal = PrepareJournal.replay 0 es ∧
        ∃ r, recover MetadataStm.idle none () (es.map Message.toBytes).flatten = .ok r ∧
          (iterHeadersFrom r.journal 0).map PrepareHeader.op = [3] ∧
          r.lastAppliedOp = some 3 ∧ r.journal.header 2 = none := by
  -- the journal the run leaves is the store of the entries its slots hold, and their WAL
  -- recovers so; the entries are read off the slots in one pass (`entries` indexes each slot
  -- from the front, which the kernel pays for quadratically)
  obtain ⟨c, hrun, hc⟩ := exists_of_okAnd
    (x := (Cluster.boot 3 ()).run MetadataStm.idle (fun _ _ => 0) (gapEntryRun.take 514))
    (p := fun c =>
      (c.replicas 2).journal.slots ==
          (PrepareJournal.replay 0 ((c.replicas 2).journal.slots.filterMap id)).slots &&
        (c.replicas 2).journal.lastOp ==
          (PrepareJournal.replay 0 ((c.replicas 2).journal.slots.filterMap id)).lastOp &&
        (c.replicas 2).journal.snapshotOp ==
          (PrepareJournal.replay 0 ((c.replicas 2).journal.slots.filterMap id)).snapshotOp &&
        okAnd (fun r => (iterHeadersFrom r.journal 0).map PrepareHeader.op == [3] &&
            r.lastAppliedOp == some 3 && r.journal.header 2 == none)
          (recover MetadataStm.idle none ()
            (((c.replicas 2).journal.slots.filterMap id).map Message.toBytes).flatten))
    (by decide +kernel)
  simp only [Bool.and_eq_true, beq_iff_eq] at hc
  obtain ⟨⟨⟨hslots, hlast⟩, hsnapshot⟩, hrecover⟩ := hc
  obtain ⟨r, hr, hp⟩ := exists_of_okAnd hrecover
  simp only [Bool.and_eq_true, beq_iff_eq] at hp
  refine ⟨gapEntryRun.take 514, c, hrun, (c.replicas 2).journal.slots.filterMap id, ?_, r, hr,
    hp.1.1, hp.1.2, hp.2⟩
  exact journal_eq_of_fields hslots hlast hsnapshot

end IggyCore.Metadata
