import IggyCore.Consensus.Pipeline

/-!
# The prepare journal

`core/journal/src/prepare_journal.rs`: the write-ahead log of prepares. Its in-memory index
is a fixed array of `SLOT_COUNT` slots indexed by `op % SLOT_COUNT`; a lookup by op checks that
the slot still holds that op. The file itself is modelled by the message each slot points
at: what `entry` reads back from the slot's offset. IO errors are the `String` of the
`io::Error` the source builds.
-/

namespace IggyCore.Journal

open IggyCore.Consensus

def slotCount : Nat := 1024

structure PrepareJournal where
  /-- `headers` with, for each slot, the entry its offset points at in the WAL. -/
  slots : List (Option (Message PrepareHeader))
  /-- Highest op appended, `None` while empty. -/
  lastOp : Option Nat
  /-- Entries with `op <= snapshot_op` may be overwritten. -/
  snapshotOp : Nat
  length_eq : slots.length = slotCount

namespace PrepareJournal

/-- The journal `open` builds from an empty WAL. -/
def empty (snapshotOp : Nat) : PrepareJournal :=
  ⟨List.replicate slotCount none, none, snapshotOp, by simp⟩

/-- `Journal::header`: the header of `op` if its slot still holds that op. -/
def header (j : PrepareJournal) (op : Nat) : Option PrepareHeader :=
  match j.slots[op % slotCount]? with
  | some (some m) => if m.header.op = op then some m.header else none
  | _ => none

/-- `Journal::entry`: read back the entry of a header's op. -/
def entry (j : PrepareJournal) (h : PrepareHeader) : Option (Message PrepareHeader) :=
  match j.slots[h.op % slotCount]? with
  | some (some m) => if m.header.op = h.op then some m else none
  | _ => none

def previousHeader (j : PrepareJournal) (h : PrepareHeader) : Option PrepareHeader :=
  if h.op = 0 then none else j.header (h.op - 1)

/-- The message of the slot-collision error. -/
def slotCollisionMessage (op existing snapshotOp : Nat) : String :=
  s!"journal slot collision: appending op {op} would evict op {existing} " ++
    s!"which has not been snapshotted (snapshot_op={snapshotOp})"

/-- The in-memory part of a successful append: the entry takes its slot, `last_op` rises. -/
def store (j : PrepareJournal) (e : Message PrepareHeader) : PrepareJournal :=
  { slots := j.slots.set (e.header.op % slotCount) (some e)
    lastOp := match j.lastOp with
      | some current => if e.header.op > current then some e.header.op else some current
      | none => some e.header.op
    snapshotOp := j.snapshotOp
    length_eq := by simp [j.length_eq] }

/-- `Journal::append`: refuse to evict an entry above the snapshot watermark, else store the
entry. -/
def append (j : PrepareJournal) (e : Message PrepareHeader) : Except String PrepareJournal :=
  match j.slots[e.header.op % slotCount]? with
  | some (some existing) =>
    if existing.header.op > j.snapshotOp then
      .error (slotCollisionMessage e.header.op existing.header.op j.snapshotOp)
    else .ok (j.store e)
  | _ => .ok (j.store e)

/-! ## Lookups -/

theorem header_op {j : PrepareJournal} {op : Nat} {h : PrepareHeader} (hh : j.header op = some h) :
    h.op = op := by
  unfold header at hh
  split at hh
  · split at hh
    · cases hh
      assumption
    · cases hh
  · cases hh

theorem entry_header {j : PrepareJournal} {h : PrepareHeader} {m : Message PrepareHeader}
    (hm : j.entry h = some m) : m.header.op = h.op := by
  unfold entry at hm
  split at hm
  · split at hm
    · cases hm
      assumption
    · cases hm
  · cases hm

/-- After an append the journal answers for the appended op with the appended entry. -/
theorem store_entry (j : PrepareJournal) (e : Message PrepareHeader) (h : PrepareHeader)
    (hop : h.op = e.header.op) : (store j e).entry h = some e := by
  have hlt : e.header.op % slotCount < j.slots.length := by
    rw [j.length_eq]
    exact Nat.mod_lt _ (by decide)
  simp [entry, store, hop, hlt]

theorem store_header (j : PrepareJournal) (e : Message PrepareHeader) :
    (store j e).header e.header.op = some e.header := by
  have hlt : e.header.op % slotCount < j.slots.length := by
    rw [j.length_eq]
    exact Nat.mod_lt _ (by decide)
  simp [header, store, hlt]

theorem append_eq_store {j j' : PrepareJournal} {e : Message PrepareHeader}
    (h : j.append e = .ok j') : j' = store j e := by
  unfold append at h
  split at h
  · split at h
    · cases h
    · cases h
      rfl
  · cases h
    rfl

end PrepareJournal

end IggyCore.Journal
