import IggyCore.Journal.Wal
import IggyCore.Library.SlotArray

/-!
# The WAL file agrees with its index

The file-level journal of `Wal.lean` against the slot-level journal of `PrepareJournal.lean`,
which keeps the entry itself in each slot. `Refines a j` says that `j` has `a`'s headers, last
op and watermark, and that each entry of `a` lies in `j`'s file at its slot's offset. Opening
a file of complete entries gives the slot-level journal that stores them in turn, and each
call keeps the relation, failing alike, so every journal reached answers `entry`, `entry_at`
and `header` as the slot-level one does.

Scanning a file of complete entries followed by a torn final append recovers the journal that
wrote those entries, provided no entry is larger than `MAX_ENTRY_SIZE`. `append` does not
enforce that bound (its `debug_assert!` is compiled out of release builds), and one larger
entry makes every later scan of the file fail.
-/

namespace IggyCore.Journal

open IggyCore.Consensus IggyCore.Library

/-! ## The slot-level journal's drain -/

namespace PrepareJournal

variable {a : PrepareJournal}

/-- The entries the slots hold, in slot order. -/
def entries (a : PrepareJournal) : List (Message PrepareHeader) :=
  (List.range slotCount).filterMap fun slot => a.slots[slot]?.join

/-- Draining at the level of slots: the entries of `ops` leave their slots and come back in op
order, and the watermark rises to the range's end. -/
def drain (a : PrepareJournal) (ops : Wal.OpRange) :
    PrepareJournal × List (Message PrepareHeader) :=
  ({ slots := a.slots.map (Option.filter fun m => !ops.contains m.header.op)
     lastOp := a.lastOp
     snapshotOp := if ops.last > a.snapshotOp then ops.last else a.snapshotOp
     length_eq := by simp [a.length_eq] },
   (a.entries.filter fun m => ops.contains m.header.op).mergeSort
     fun m m' => decide (m.header.op ≤ m'.header.op))

def call (a : PrepareJournal) :
    Wal.Call → Except String (PrepareJournal × List (Message PrepareHeader))
  | .append entry => (a.append entry).map fun a => (a, [])
  | .drain ops => .ok (a.drain ops)

def run (a : PrepareJournal) (calls : List Wal.Call) :
    Except String (PrepareJournal × List (List (Message PrepareHeader))) :=
  runCollect call a calls

/-- The slot-level journal of a file of `entries`: each stored in turn. -/
def replay (snapshotOp : Nat) (entries : List (Message PrepareHeader)) : PrepareJournal :=
  entries.foldl store (empty snapshotOp)

theorem getElem?_slots_store (e : Message PrepareHeader) (slot : Nat) :
    (a.store e).slots[slot]? =
      if slot = e.header.op % slotCount then some (some e) else a.slots[slot]? :=
  getElem?_set_mod a.length_eq (by decide) e.header.op (some e) slot

theorem drain_snd (ops : Wal.OpRange) :
    (a.drain ops).2 = (a.entries.filter fun m => ops.contains m.header.op).mergeSort
      fun m m' => decide (m.header.op ≤ m'.header.op) := rfl

theorem getElem?_slots_drain (ops : Wal.OpRange) (slot : Nat) :
    (a.drain ops).1.slots[slot]? =
      a.slots[slot]?.map (Option.filter fun m => !ops.contains m.header.op) := by
  simp [drain]

/-- A drained op has left the index. -/
theorem header_drain_of_contains {ops : Wal.OpRange} {op : Nat} (hop : ops.contains op) :
    (a.drain ops).1.header op = none := by
  unfold header
  rw [getElem?_slots_drain]
  cases a.slots[op % slotCount]? with
  | none => rfl
  | some m =>
    cases m with
    | none => rfl
    | some m =>
      cases hc : ops.contains m.header.op
      · -- a kept entry is of another op
        have hm : m.header.op ≠ op := fun hm => by
          rw [hm, hop] at hc
          cases hc
        simp [Option.filter, hc, hm]
      · simp [Option.filter, hc]

/-- An op outside the range keeps its entry. -/
theorem entry_drain_of_not_contains {ops : Wal.OpRange} {h : PrepareHeader}
    (hop : ops.contains h.op = false) : (a.drain ops).1.entry h = a.entry h := by
  unfold entry
  rw [getElem?_slots_drain]
  cases a.slots[h.op % slotCount]? with
  | none => rfl
  | some m =>
    cases m with
    | none => rfl
    | some m =>
      cases hc : ops.contains m.header.op
      · simp [Option.filter, hc]
      · -- a drained entry is of another op
        have hm : m.header.op ≠ h.op := fun hm => by
          rw [hm, hop] at hc
          cases hc
        simp [Option.filter, hc, hm]

end PrepareJournal

/-! ## The refinement -/

namespace Wal

variable {a : Journal.PrepareJournal} {j : PrepareJournal} {e : Message PrepareHeader}

namespace PrepareJournal

@[simp] theorem file_index (j : PrepareJournal) (h : PrepareHeader) (offset : Nat) :
    (j.index h offset).file = j.file := rfl

@[simp] theorem lastOp_index (j : PrepareJournal) (h : PrepareHeader) (offset : Nat) :
    (j.index h offset).lastOp = raiseLastOp j.lastOp h.op := rfl

@[simp] theorem snapshotOp_index (j : PrepareJournal) (h : PrepareHeader) (offset : Nat) :
    (j.index h offset).snapshotOp = j.snapshotOp := rfl

theorem getElem?_headers_index (j : PrepareJournal) (h : PrepareHeader) (offset slot : Nat) :
    (j.index h offset).headers[slot]? =
      if slot = h.op % slotCount then some (some h) else j.headers[slot]? :=
  getElem?_set_mod j.headers_length (by decide) h.op (some h) slot

theorem getElem?_offsets_index (j : PrepareJournal) (h : PrepareHeader) (offset slot : Nat) :
    (j.index h offset).offsets[slot]? =
      if slot = h.op % slotCount then some (some offset) else j.offsets[slot]? :=
  getElem?_set_mod j.offsets_length (by decide) h.op (some offset) slot

@[simp] theorem file_write (j : PrepareJournal) (e : Message PrepareHeader) :
    (j.write e).file = j.file ++ e.toBytes := rfl

@[simp] theorem file_compact (j : PrepareJournal) (ops : OpRange) (live : List (PrepareHeader × Nat))
    (file : List UInt8) : (j.compact ops live file).file = file := rfl

theorem readAt_of_windowAt {file w : List UInt8} {offset : Nat} (h : WindowAt file offset w) :
    readAt file offset w.length = .ok w := by
  rw [readAt, h.sliceAt_eq]

end PrepareJournal

/-- Slot `slot` of `j` holds `e`: the slot is the one of `e`'s op, `e` is a whole prepare, and
the slot's offset points at `e`'s bytes in the file. -/
structure Stored (j : PrepareJournal) (slot : Nat) (e : Message PrepareHeader) : Prop where
  slot_eq : slot = e.header.op % slotCount
  framed : e.Framed
  offset : ∃ o, j.offsets[slot]? = some (some o) ∧ WindowAt j.file o e.toBytes

/-- The file-level journal `j` implements the slot-level journal `a`. -/
structure Refines (a : Journal.PrepareJournal) (j : PrepareJournal) : Prop where
  headers : ∀ slot : Nat, j.headers[slot]? = a.slots[slot]?.map (Option.map Message.header)
  stored : ∀ (slot : Nat) e, a.slots[slot]? = some (some e) → Stored j slot e
  lastOp : j.lastOp = a.lastOp
  snapshotOp : j.snapshotOp = a.snapshotOp

theorem refines_empty (file : List UInt8) (snapshotOp : Nat) :
    Refines (Journal.PrepareJournal.empty snapshotOp) (PrepareJournal.empty file snapshotOp) where
  headers slot := by
    simp [PrepareJournal.empty, Journal.PrepareJournal.empty, List.getElem?_replicate]
  stored slot e he := by
    simp [Journal.PrepareJournal.empty, List.getElem?_replicate] at he
  lastOp := rfl
  snapshotOp := rfl

/-! ### Appending -/

theorem Stored.write {slot : Nat} {e' : Message PrepareHeader} (h : Stored j slot e')
    (hslot : slot ≠ e.header.op % slotCount) : Stored (j.write e) slot e' := by
  obtain ⟨o, ho, hwin⟩ := h.offset
  refine ⟨h.slot_eq, h.framed, o, ?_, hwin.append e.toBytes⟩
  rw [PrepareJournal.write, PrepareJournal.getElem?_offsets_index, if_neg hslot, ho]

/-- The write of an append keeps the refinement, on the slot-level `store`. -/
theorem Refines.write (h : Refines a j) (he : e.Framed) : Refines (a.store e) (j.write e) where
  headers slot := by
    rw [PrepareJournal.write, PrepareJournal.getElem?_headers_index,
      Journal.PrepareJournal.getElem?_slots_store]
    split
    · rfl
    · exact h.headers slot
  stored slot e' he' := by
    rw [Journal.PrepareJournal.getElem?_slots_store] at he'
    by_cases hslot : slot = e.header.op % slotCount
    · -- the appended entry, at the old end of the file
      rw [if_pos hslot] at he'
      cases he'
      refine ⟨hslot, he, j.file.length, ?_, windowAt_append_length j.file e.toBytes⟩
      rw [PrepareJournal.write, PrepareJournal.getElem?_offsets_index, if_pos hslot]
    · rw [if_neg hslot] at he'
      exact (h.stored slot e' he').write hslot
  lastOp := by
    rw [PrepareJournal.write, PrepareJournal.lastOp_index, h.lastOp]
    rfl
  snapshotOp := h.snapshotOp

/-- An append fails on both levels with one message, or succeeds on both. -/
theorem Refines.append (h : Refines a j) (he : e.Framed) :
    ExceptRel Refines (a.append e) (j.append e) := by
  have hhead := h.headers (e.header.op % slotCount)
  unfold Journal.PrepareJournal.append PrepareJournal.append
  cases hslot : a.slots[e.header.op % slotCount]? with
  | none =>
    rw [hslot] at hhead
    simp only [hhead, Option.map_none]
    exact h.write he
  | some m =>
    cases m with
    | none =>
      rw [hslot] at hhead
      simp only [hhead, Option.map_some, Option.map_none]
      exact h.write he
    | some existing =>
      rw [hslot] at hhead
      simp only [hhead, Option.map_some, h.snapshotOp]
      split
      · rfl
      · exact h.write he

/-! ### Reading -/

theorem Refines.header_eq (h : Refines a j) (op : Nat) : j.header op = a.header op := by
  unfold PrepareJournal.header Journal.PrepareJournal.header
  rw [h.headers]
  cases a.slots[op % slotCount]? with
  | none => rfl
  | some m => cases m <;> rfl

theorem Refines.entryAt_eq (h : Refines a j) (header : PrepareHeader) :
    j.entryAt header = .ok (a.entry header) := by
  unfold PrepareJournal.entryAt Journal.PrepareJournal.entry
  dsimp only
  rw [h.headers]
  cases hslot : a.slots[header.op % slotCount]? with
  | none => rfl
  | some m =>
    cases m with
    | none => rfl
    | some e =>
      obtain ⟨-, hframed, o, ho, hwin⟩ := h.stored _ e hslot
      simp only [Option.map_some]
      by_cases hop : e.header.op = header.op
      · -- the slot's bytes are the entry's, which read back as the entry
        rw [if_pos hop, if_pos hop, ho, ← Message.length_toBytes hframed]
        simp only [PrepareJournal.readAt_of_windowAt hwin, bind_ok,
          Message.tryFromBytes_toBytes hframed, pure_eq_ok]
      · rw [if_neg hop, if_neg hop]

theorem Refines.entry_eq (h : Refines a j) (header : PrepareHeader) :
    j.entry header = a.entry header := by
  rw [PrepareJournal.entry, h.entryAt_eq]

/-- Each indexed slot is its header's op's slot and points at the bytes of the slot-level
entry, inside the file. -/
theorem Refines.slot (h : Refines a j) {slot : Nat} {header : PrepareHeader}
    (hslot : j.headers[slot]? = some (some header)) :
    ∃ e o, a.slots[slot]? = some (some e) ∧ e.header = header ∧
      slot = header.op % slotCount ∧ j.offsets[slot]? = some (some o) ∧
      o + header.size ≤ j.file.length ∧ sliceAt j.file o header.size = some e.toBytes := by
  rw [h.headers] at hslot
  obtain ⟨m, hm, hmh⟩ := Option.map_eq_some_iff.mp hslot
  obtain ⟨e, rfl, rfl⟩ := Option.map_eq_some_iff.mp hmh
  obtain ⟨hslot_eq, hframed, o, ho, hwin⟩ := h.stored slot e hm
  have hlen := Message.length_toBytes hframed
  exact ⟨e, o, hm, rfl, hslot_eq, ho, hlen ▸ hwin.le_length, hlen ▸ hwin.sliceAt_eq⟩


/-! ### Draining

The file-level drain lists the indexed slots with their offsets; under the refinement these
are the slot-level entries with their offsets in the file (`located`), so sorting, splitting
and reading them back can be done on that list and seen through either level. -/

/-- Slot `slot`'s slot-level entry, with the offset the file-level journal keeps for it. -/
def locatedAt (a : Journal.PrepareJournal) (j : PrepareJournal) (slot : Nat) :
    Option (Message PrepareHeader × Nat) :=
  match a.slots[slot]?.join, j.offsets[slot]?.join with
  | some e, some o => some (e, o)
  | _, _ => none

/-- The slot-level entries in slot order, each with its offset in the file. -/
def located (a : Journal.PrepareJournal) (j : PrepareJournal) :
    List (Message PrepareHeader × Nat) :=
  (List.range slotCount).filterMap (locatedAt a j)

/-- Entries with their offsets, sorted by op. -/
def sortLocated (l : List (Message PrepareHeader × Nat)) : List (Message PrepareHeader × Nat) :=
  l.mergeSort fun q q' => decide (q.1.header.op ≤ q'.1.header.op)

/-- The entries `drain` keeps, in op order. -/
def liveLocated (a : Journal.PrepareJournal) (j : PrepareJournal) (ops : OpRange) :
    List (Message PrepareHeader × Nat) :=
  sortLocated ((located a j).filter fun q => !ops.contains q.1.header.op)

theorem locatedAt_eq_some {slot : Nat} {q : Message PrepareHeader × Nat} :
    locatedAt a j slot = some q ↔
      a.slots[slot]? = some (some q.1) ∧ j.offsets[slot]? = some (some q.2) := by
  rw [← Option.join_eq_some_iff, ← Option.join_eq_some_iff (x := j.offsets[slot]?)]
  unfold locatedAt
  split
  · rename_i e o he ho
    rw [he, ho]
    constructor
    · rintro ⟨⟩
      exact ⟨rfl, rfl⟩
    · rintro ⟨⟨⟩, ⟨⟩⟩
      rfl
  · rename_i hnone
    constructor
    · rintro ⟨⟩
    · rintro ⟨he, ho⟩
      exact absurd ho (hnone _ _ he)

theorem sortByOp_map (l : List (Message PrepareHeader × Nat)) :
    PrepareJournal.sortByOp (l.map fun q => (q.1.header, q.2)) =
      (sortLocated l).map fun q => (q.1.header, q.2) := by
  unfold PrepareJournal.sortByOp sortLocated
  exact (List.map_mergeSort (l := l) (f := fun q => (q.1.header, q.2))
    (r := fun (q q' : Message PrepareHeader × Nat) => decide (q.1.header.op ≤ q'.1.header.op))
    (s := fun (a b : PrepareHeader × Nat) => decide (a.1.op ≤ b.1.op)) fun _ _ _ _ => rfl).symm

/-- A located entry is a whole prepare whose bytes lie at its offset. -/
theorem Refines.window_of_mem_located (h : Refines a j) {q : Message PrepareHeader × Nat}
    (hq : q ∈ located a j) : q.1.Framed ∧ WindowAt j.file q.2 q.1.toBytes := by
  obtain ⟨slot, -, hslot⟩ := List.mem_filterMap.mp hq
  obtain ⟨he, ho⟩ := locatedAt_eq_some.mp hslot
  obtain ⟨-, hframed, o, ho', hwin⟩ := h.stored slot q.1 he
  rw [ho] at ho'
  cases ho'
  exact ⟨hframed, hwin⟩

theorem Refines.mem_located_of_slot (h : Refines a j) {slot : Nat} {e : Message PrepareHeader}
    (hslot : a.slots[slot]? = some (some e)) :
    ∃ o, (e, o) ∈ located a j ∧ j.offsets[slot]? = some (some o) := by
  obtain ⟨o, ho, -⟩ := (h.stored slot e hslot).offset
  have hlt : slot < slotCount := by
    rw [← a.length_eq]
    exact (List.getElem?_eq_some_iff.mp hslot).1
  exact ⟨o, List.mem_filterMap.mpr ⟨slot, List.mem_range.mpr hlt, locatedAt_eq_some.mpr ⟨hslot, ho⟩⟩, ho⟩

/-- The file-level journal lists exactly the located entries' headers and offsets. -/
theorem Refines.indexed_eq (h : Refines a j) :
    j.indexed = (located a j).map fun q => (q.1.header, q.2) := by
  rw [PrepareJournal.indexed, located, List.map_filterMap]
  refine List.filterMap_congr fun slot _ => ?_
  have hhead := h.headers slot
  cases hslot : a.slots[slot]? with
  | none =>
    rw [hslot] at hhead
    simp [locatedAt, hslot, hhead]
  | some m =>
    rw [hslot] at hhead
    cases m with
    | none => simp [locatedAt, hslot, hhead]
    | some e =>
      obtain ⟨o, ho, -⟩ := (h.stored slot e hslot).offset
      simp [locatedAt, hslot, hhead, ho]

theorem Refines.entries_eq (h : Refines a j) : a.entries = (located a j).map Prod.fst := by
  rw [Journal.PrepareJournal.entries, located, List.map_filterMap]
  refine List.filterMap_congr fun slot _ => ?_
  cases hslot : a.slots[slot]? with
  | none => simp [locatedAt, hslot]
  | some m =>
    cases m with
    | none => simp [locatedAt, hslot]
    | some e =>
      obtain ⟨o, ho, -⟩ := (h.stored slot e hslot).offset
      simp [locatedAt, hslot, ho]

/-- Distinct located entries sit in distinct slots. -/
theorem Refines.nodup_located (h : Refines a j) :
    ((located a j).map fun q => q.1.header.op % slotCount).Nodup := by
  -- an entry located from `slot` has its op in `slot`
  have hkey : ∀ slot b, b ∈ (locatedAt a j slot).map (fun q => q.1.header.op % slotCount) →
      b = slot := by
    intro slot b hb
    obtain ⟨q, hq, rfl⟩ := Option.mem_map.mp hb
    exact ((h.stored slot q.1 (locatedAt_eq_some.mp hq).1).slot_eq).symm
  rw [located, List.map_filterMap]
  refine List.nodup_range.filterMap fun slot slot' b hb hb' => ?_
  rw [← hkey slot b hb, ← hkey slot' b hb']

theorem Refines.readAt_located (h : Refines a j) {q : Message PrepareHeader × Nat}
    (hq : q ∈ located a j) : PrepareJournal.readAt j.file q.2 q.1.header.size = .ok q.1.toBytes := by
  obtain ⟨hframed, hwin⟩ := h.window_of_mem_located hq
  rw [← Message.length_toBytes hframed]
  exact PrepareJournal.readAt_of_windowAt hwin

theorem Refines.readEntry_located (h : Refines a j) {q : Message PrepareHeader × Nat}
    (hq : q ∈ located a j) : j.readEntry (q.1.header, q.2) = .ok q.1 := by
  rw [PrepareJournal.readEntry, h.readAt_located hq, bind_ok,
    Message.tryFromBytes_toBytes (h.window_of_mem_located hq).1]

/-- The slot-level drain returns the located entries of the range, in op order. -/
theorem Refines.drained_eq (h : Refines a j) (ops : OpRange) :
    (a.drain ops).2 =
      (sortLocated ((located a j).filter fun q => ops.contains q.1.header.op)).map Prod.fst := by
  rw [Journal.PrepareJournal.drain_snd, h.entries_eq, List.filter_map]
  exact (List.map_mergeSort (f := Prod.fst)
    (r := fun (q q' : Message PrepareHeader × Nat) => decide (q.1.header.op ≤ q'.1.header.op))
    (s := fun (m m' : Message PrepareHeader) => decide (m.header.op ≤ m'.header.op))
    fun _ _ _ _ => rfl).symm

/-- Under the refinement `drain` reads every entry back, and returns the slot-level drained
entries over the file of the live entries in op order. -/
theorem Refines.drain_eq (h : Refines a j) (ops : OpRange) :
    j.drain ops = .ok (j.compact ops ((liveLocated a j ops).map fun q => (q.1.header, q.2))
      ((liveLocated a j ops).map fun q => q.1.toBytes).flatten, (a.drain ops).2) := by
  have hsub : ∀ (p : Message PrepareHeader × Nat → Bool) q,
      q ∈ sortLocated ((located a j).filter p) → q ∈ located a j := fun p q hq =>
    List.mem_of_mem_filter (List.mem_mergeSort.mp hq)
  unfold PrepareJournal.drain
  rw [h.indexed_eq, List.partition_eq_filter_filter]
  simp only [List.filter_map, sortByOp_map, List.mapM_map, Function.comp_def]
  rw [mapM_eq_ok_of_forall (g := Prod.fst) fun q hq => h.readEntry_located (hsub _ q hq),
    mapM_eq_ok_of_forall (g := fun q => q.1.toBytes) fun q hq => h.readAt_located (hsub _ q hq),
    h.drained_eq]
  rfl


/-- The live entries sit in distinct slots. -/
theorem Refines.nodup_liveLocated (h : Refines a j) (ops : OpRange) :
    ((liveLocated a j ops).map fun q => q.1.header.op % slotCount).Nodup := by
  have hsub := (List.filter_sublist (p := fun q => !ops.contains q.1.header.op)
    (l := located a j)).map fun q => q.1.header.op % slotCount
  exact ((List.mergeSort_perm _ _).map _).nodup_iff.mpr (h.nodup_located.sublist hsub)

/-- The bytes of the first `k` live entries are as long as their sizes add up to. -/
theorem Refines.length_flatten_take (h : Refines a j) (ops : OpRange) (k : Nat) :
    (((liveLocated a j ops).map fun q => q.1.toBytes).take k).flatten.length =
      (((liveLocated a j ops).take k).map fun q => q.1.header.size).sum := by
  rw [List.length_flatten, ← List.map_take, List.map_map]
  congr 1
  refine List.map_congr_left fun q hq => ?_
  have hlive := List.mem_of_mem_take hq
  simp only [liveLocated, sortLocated, List.mem_mergeSort, List.mem_filter] at hlive
  exact Message.length_toBytes (h.window_of_mem_located hlive.1).1

/-- After the rewrite, each kept entry lies in the new file at the offset `drain` gave it. -/
theorem Refines.compact (h : Refines a j) (ops : OpRange) :
    Refines (a.drain ops).1 (j.compact ops ((liveLocated a j ops).map fun q => (q.1.header, q.2))
      ((liveLocated a j ops).map fun q => q.1.toBytes).flatten) where
  headers slot := by
    simp only [PrepareJournal.compact, List.getElem?_map, h.headers slot,
      Journal.PrepareJournal.getElem?_slots_drain]
    cases a.slots[slot]? with
    | none => rfl
    | some m =>
      cases m with
      | none => rfl
      | some e => cases hc : ops.contains e.header.op <;> simp [Option.filter, hc]
  stored slot e he := by
    rw [Journal.PrepareJournal.getElem?_slots_drain] at he
    obtain ⟨m, hm, hfilter⟩ := Option.map_eq_some_iff.mp he
    obtain ⟨rfl, hkeep⟩ := Option.filter_eq_some_iff.mp hfilter
    have hst := h.stored slot e hm
    obtain ⟨o, hmem, ho⟩ := h.mem_located_of_slot hm
    -- the entry's place among the live entries
    have hlive : (e, o) ∈ liveLocated a j ops := by
      simp only [liveLocated, sortLocated, List.mem_mergeSort, List.mem_filter]
      exact ⟨hmem, hkeep⟩
    obtain ⟨k, hk, hVk⟩ := List.mem_iff_getElem.mp hlive
    refine ⟨hst.slot_eq, hst.framed, (((liveLocated a j ops).take k).map
      fun q => q.1.header.size).sum, ?_, ?_⟩
    · have hnodup : ((((liveLocated a j ops).map fun q => (q.1.header, q.2))).map
          fun e : PrepareHeader × Nat => e.1.op % slotCount).Nodup := by
        rw [List.map_map]
        exact h.nodup_liveLocated ops
      have hplace := @getElem?_placeOffsetsFrom _ (fun e : PrepareHeader × Nat => e.1.op % slotCount)
        (fun e => e.1.size) j.offsets 0 _ hnodup k (by simpa using hk)
        (by simp [j.offsets_length, Nat.mod_lt _ (show 0 < slotCount by decide)])
      simp only [List.getElem_map, hVk, ← hst.slot_eq, ← List.map_take, List.map_map,
        Function.comp_def, Nat.zero_add] at hplace
      have hkept : ops.contains e.header.op = false := by simpa using hkeep
      simp only [PrepareJournal.compact, List.getElem?_zipWith, h.headers slot, hm, hplace]
      simp [hkept]
    · have hwin := windowAt_flatten ((liveLocated a j ops).map fun q => q.1.toBytes)
        (k := k) (by simpa using hk)
      rw [h.length_flatten_take ops k] at hwin
      simpa [hVk, PrepareJournal.file_compact] using hwin
  lastOp := h.lastOp
  snapshotOp := by
    simp only [PrepareJournal.compact, Journal.PrepareJournal.drain, h.snapshotOp]

/-! ### Runs -/

/-- An appended entry is a whole prepare. -/
def Call.Framed : Call → Prop
  | .append entry => entry.Framed
  | .drain _ => True

theorem Refines.call (h : Refines a j) {c : Call} (hc : c.Framed) :
    ExceptRel (fun x y => Refines x.1 y.1 ∧ x.2 = y.2) (a.call c) (j.call c) := by
  cases c with
  | append e =>
    simp only [Journal.PrepareJournal.call, PrepareJournal.call]
    exact (h.append hc).map fun _ _ hr => ⟨hr, rfl⟩
  | drain ops =>
    -- draining from a refining journal reads every entry back
    show ExceptRel _ (.ok (a.drain ops)) (j.drain ops)
    rw [h.drain_eq ops]
    exact ⟨h.compact ops, rfl⟩

/-- **Simulation.** Along any calls that append whole prepares, the two levels fail alike or
reach refining journals, and return the same drained entries. -/
theorem Refines.run (h : Refines a j) {calls : List Call} (hcalls : ∀ c ∈ calls, c.Framed) :
    ExceptRel (fun x y => Refines x.1 y.1 ∧ x.2 = y.2) (a.run calls) (j.run calls) :=
  runCollect_exceptRel Journal.PrepareJournal.call PrepareJournal.call Refines Call.Framed
    (fun _ _ _ hc hr => hr.call hc) calls a j hcalls h


/-- A successful drain from a refining journal is the slot-level drain. -/
theorem Refines.drain_ok (h : Refines a j) {ops : OpRange} {j' : PrepareJournal}
    {drained : List (Message PrepareHeader)} (hd : j.drain ops = .ok (j', drained)) :
    Refines (a.drain ops).1 j' ∧ drained = (a.drain ops).2 := by
  rw [h.drain_eq ops] at hd
  cases hd
  exact ⟨h.compact ops, rfl⟩

/-! ### Opening -/

namespace PrepareJournal

theorem file_foldl_write (es : List (Message PrepareHeader)) (w : PrepareJournal) :
    (es.foldl write w).file = w.file ++ (es.map Message.toBytes).flatten := by
  induction es generalizing w with
  | nil => simp
  | cons e es ih => simp [ih]

theorem append_eq_write {j j' : PrepareJournal} (h : j.append e = .ok j') : j' = j.write e := by
  unfold append at h
  dsimp only at h
  split at h
  · split at h
    · cases h
    · cases h
      rfl
  · cases h
    rfl

/-- A run of appends is a run of their writes. -/
theorem foldlM_append_eq_write {es : List (Message PrepareHeader)} :
    ∀ {j j' : PrepareJournal}, es.foldlM append j = .ok j' → j' = es.foldl write j := by
  induction es with
  | nil =>
    intro j j' h
    cases h
    rfl
  | cons e es ih =>
    intro j j' h
    obtain ⟨u, hu, hrest⟩ := foldlM_cons_eq_ok h
    rw [append_eq_write hu] at hrest
    exact ih hrest

/-- A whole entry no larger than `MAX_ENTRY_SIZE` passes the scan's checks; the scan indexes
it at its position and moves past it. -/
theorem scanLoop_entry {j : PrepareJournal} {pre rest : List UInt8} (fuel : Nat)
    (hfile : j.file = pre ++ e.toBytes ++ rest) (he : e.Framed)
    (hmax : e.header.size ≤ maxEntrySize) :
    scanLoop (fuel + 1) j pre.length =
      scanLoop fuel (j.index e.header pre.length) (pre.length + e.header.size) := by
  have hlen : e.toBytes.length = e.header.size := Message.length_toBytes he
  have hheader : prepareHeaderSize ≤ e.header.size := by
    rw [he.size]
    omega
  have hread : (j.file.drop pre.length).take prepareHeaderSize = e.header.toBytes := by
    rw [hfile, List.append_assoc, List.drop_left, Message.toBytes, List.append_assoc,
      List.take_left' (PrepareHeader.length_toBytes _)]
  have hin : pre.length + e.header.size ≤ j.file.length := by
    rw [hfile]
    simp [hlen]
  rw [scanLoop, if_pos (by omega), hread, PrepareHeader.tryFromBytes_toBytes he.fits]
  simp only [he.command, ne_eq, not_true_eq_false, false_or]
  rw [if_neg (by omega), if_neg (by omega)]

/-- The scan over a file of whole entries followed by `tail` indexes every entry in turn, one
round each, as their writes did. -/
theorem scanLoop_entries (fuel : Nat) (tail : List UInt8) (es : List (Message PrepareHeader))
    (w : PrepareJournal) (hes : ∀ e ∈ es, e.Framed ∧ e.header.size ≤ maxEntrySize) :
    scanLoop (fuel + es.length) { w with file := (es.foldl write w).file ++ tail } w.file.length =
      scanLoop fuel { es.foldl write w with file := (es.foldl write w).file ++ tail }
        (es.foldl write w).file.length := by
  induction es generalizing w with
  | nil => rfl
  | cons e es ih =>
    obtain ⟨he, hmax⟩ := hes e List.mem_cons_self
    have hfile : (es.foldl write (w.write e)).file ++ tail =
        w.file ++ e.toBytes ++ ((es.map Message.toBytes).flatten ++ tail) := by
      simp [file_foldl_write]
    have hpos : w.file.length + e.header.size = (w.write e).file.length := by
      simp [Message.length_toBytes he]
    rw [List.foldl_cons, List.length_cons, ← Nat.add_assoc,
      scanLoop_entry (fuel + es.length) hfile he hmax, hpos]
    exact ih (w.write e) fun e' he' => hes e' (List.mem_cons_of_mem e he')

end PrepareJournal

/-- Each whole prepare takes at least a header's bytes, so a file of entries is at least as
long as their count. -/
theorem length_le_length_flatten {es : List (Message PrepareHeader)} (hes : ∀ e ∈ es, e.Framed) :
    es.length ≤ (es.map Message.toBytes).flatten.length := by
  rw [List.length_flatten, List.map_map]
  have hone : ∀ i ∈ es.map (List.length ∘ Message.toBytes), 1 ≤ i := fun i hi => by
    obtain ⟨e, he, rfl⟩ := List.mem_map.mp hi
    simp only [Function.comp_apply, Message.length_toBytes (hes e he), (hes e he).size,
      prepareHeaderSize]
    omega
  simpa using List.length_le_sum_of_one_le _ hone

/-- What a crash in the middle of an append leaves after the last whole entry: fewer bytes
than a header, or a strict prefix of a whole prepare no larger than `MAX_ENTRY_SIZE`. -/
inductive TornTail : List UInt8 → Prop
  | short {tail : List UInt8} : tail.length < prepareHeaderSize → TornTail tail
  | torn {e : Message PrepareHeader} {k : Nat} : e.Framed → e.header.size ≤ maxEntrySize →
      k < e.header.size → TornTail (e.toBytes.take k)

namespace PrepareJournal

/-- At a torn tail the scan stops where the whole entries end; past a complete header it has
already cut the tail off. -/
theorem scanLoop_tail (w : PrepareJournal) (fuel : Nat) {tail : List UInt8}
    (htail : TornTail tail) :
    scanLoop (fuel + 1) { w with file := w.file ++ tail } w.file.length =
        .ok ({ w with file := w.file ++ tail }, w.file.length) ∨
      scanLoop (fuel + 1) { w with file := w.file ++ tail } w.file.length =
        .ok (w, w.file.length) := by
  cases htail with
  | short hshort =>
    left
    rw [scanLoop, if_neg (by simp; omega)]
  | @torn e k he hmax hk =>
    by_cases hshort : k < prepareHeaderSize
    · left
      rw [scanLoop, if_neg (by simp; omega)]
    · -- the header is whole and valid, but the entry runs past the end of the file
      right
      have hlen : e.toBytes.length = e.header.size := Message.length_toBytes he
      have hread : (((w.file ++ e.toBytes.take k).drop w.file.length).take prepareHeaderSize) =
          e.header.toBytes := by
        rw [List.drop_left, List.take_take, Nat.min_eq_left (by omega), Message.toBytes,
          List.take_left' (PrepareHeader.length_toBytes _)]
      have hklen : (e.toBytes.take k).length = k := by
        simp [hlen]
        omega
      rw [scanLoop, if_pos (by simp [hklen]; omega), hread,
        PrepareHeader.tryFromBytes_toBytes he.fits]
      simp only [he.command, ne_eq, not_true_eq_false, false_or]
      rw [if_neg (by omega), if_pos (by simp [hklen]; omega), stopAt, truncateOrFail,
        if_neg (by simp [hklen]; omega), List.take_left]
      rfl

/-- **Recovery.** Scanning whole entries no larger than `MAX_ENTRY_SIZE`, followed by a torn
tail, gives the journal that wrote those entries: the tail is cut off, and nothing else. -/
theorem scan_entries {es : List (Message PrepareHeader)} {snapshotOp : Nat} {tail : List UInt8}
    (hes : ∀ e ∈ es, e.Framed ∧ e.header.size ≤ maxEntrySize) (htail : TornTail tail) :
    scan ((es.map Message.toBytes).flatten ++ tail) snapshotOp =
      .ok (es.foldl write (empty [] snapshotOp)) := by
  set w := es.foldl write (empty [] snapshotOp) with hw
  have hwfile : w.file = (es.map Message.toBytes).flatten := by
    rw [hw, file_foldl_write]
    rfl
  -- every entry takes at least one byte, so the fuel outlasts the entries
  have hcount := length_le_length_flatten fun e he => (hes e he).1
  obtain ⟨fuel, hfuel⟩ : ∃ fuel, ((es.map Message.toBytes).flatten ++ tail).length + 1 =
      fuel + 1 + es.length := ⟨((es.map Message.toBytes).flatten ++ tail).length - es.length,
        by simp only [List.length_append]; omega⟩
  have hstart : empty ((es.map Message.toBytes).flatten ++ tail) snapshotOp =
      { empty [] snapshotOp with file := (es.foldl write (empty [] snapshotOp)).file ++ tail } := by
    rw [← hw, hwfile]
    rfl
  unfold scan
  rw [hfuel, hstart, show (0 : Nat) = (empty [] snapshotOp).file.length from rfl,
    scanLoop_entries (fuel + 1) tail es (empty [] snapshotOp) hes, ← hw]
  rcases scanLoop_tail w fuel htail with hstop | hstop
  · rw [hstop, bind_ok]
    by_cases hnil : tail = []
    · subst hnil
      simp
    · -- the short tail is cut off
      have htrunc : truncateOrFail (w.file ++ tail) w.file.length
          "leftover bytes shorter than a header" = .ok w.file := by
        cases htail with
        | short hshort =>
          rw [truncateOrFail, if_neg (by simp [maxEntrySize, prepareHeaderSize] at hshort ⊢; omega)]
          simp
        | @torn e k he hmax hk =>
          rw [truncateOrFail, if_neg (by simp [Message.length_toBytes he]; omega)]
          simp
      have hlt : w.file.length < (w.file ++ tail).length := by
        simp only [List.length_append]
        have := List.length_pos_of_ne_nil hnil
        omega
      simp [htrunc]
  · rw [hstop, bind_ok]
    simp


/-- A scan of whole entries alone cuts nothing off. -/
theorem scan_whole_entries {es : List (Message PrepareHeader)} {snapshotOp : Nat}
    (hes : ∀ e ∈ es, e.Framed ∧ e.header.size ≤ maxEntrySize) :
    scan (es.map Message.toBytes).flatten snapshotOp =
      .ok (es.foldl write (empty [] snapshotOp)) := by
  have hnil : ([] : List UInt8).length < prepareHeaderSize := by decide
  simpa using scan_entries hes (TornTail.short hnil)

end PrepareJournal


/-- Whole prepares written in turn keep the refinement, against their stores. -/
theorem Refines.foldl_write (h : Refines a j) {es : List (Message PrepareHeader)}
    (hes : ∀ e ∈ es, e.Framed) :
    Refines (es.foldl Journal.PrepareJournal.store a) (es.foldl PrepareJournal.write j) := by
  induction es generalizing a j with
  | nil => exact h
  | cons e es ih =>
    exact ih (h.write (hes e List.mem_cons_self)) fun e' he' => hes e' (List.mem_cons_of_mem e he')

/-! ## The index agrees with the file -/

theorem wal_index_agrees_with_file {es : List (Message PrepareHeader)} {snapshotOp : Nat}
    {calls : List Call} {j : PrepareJournal} {outs : List (List (Message PrepareHeader))}
    (hwal : ∀ e ∈ es, e.Framed ∧ e.header.size ≤ maxEntrySize)
    (hcalls : ∀ c ∈ calls, c.Framed)
    (hrun : (do
      let j ← PrepareJournal.scan (es.map Message.toBytes).flatten snapshotOp
      j.run calls) = .ok (j, outs)) :
    ∃ a, (Journal.PrepareJournal.replay snapshotOp es).run calls = .ok (a, outs) ∧
      (∀ (slot : Nat) (h : PrepareHeader), j.headers[slot]? = some (some h) →
        ∃ e o, a.slots[slot]? = some (some e) ∧ e.header = h ∧ slot = h.op % slotCount ∧
          j.offsets[slot]? = some (some o) ∧ o + h.size ≤ j.file.length ∧
          sliceAt j.file o h.size = some e.toBytes) ∧
      (∀ h, j.entryAt h = .ok (a.entry h) ∧ j.entry h = a.entry h) ∧
      (∀ op, j.header op = a.header op) ∧
      (∀ ops j' drained, j.drain ops = .ok (j', drained) →
        (∀ op, ops.contains op → j'.header op = none) ∧
        (∀ h, ops.contains h.op = false → j'.entry h = j.entry h)) := by
  -- opening the file gives the journal that wrote its entries
  rw [PrepareJournal.scan_whole_entries hwal, bind_ok] at hrun
  have hopen : Refines (Journal.PrepareJournal.replay snapshotOp es)
      (es.foldl PrepareJournal.write (PrepareJournal.empty [] snapshotOp)) :=
    (refines_empty [] snapshotOp).foldl_write fun e he => (hwal e he).1
  -- then the two levels run in lockstep
  have hsim := hopen.run hcalls
  rw [hrun] at hsim
  cases hreplay : (Journal.PrepareJournal.replay snapshotOp es).run calls with
  | error msg =>
    rw [hreplay] at hsim
    exact hsim.elim
  | ok result =>
    rw [hreplay] at hsim
    obtain ⟨h, hout⟩ := hsim
    refine ⟨result.1, congrArg Except.ok (Prod.ext rfl hout), fun slot header hslot => h.slot hslot,
      fun header => ⟨h.entryAt_eq header, h.entry_eq header⟩, h.header_eq, ?_⟩
    intro ops j' drained hdrain
    obtain ⟨h', -⟩ := h.drain_ok hdrain
    refine ⟨fun op hop => ?_, fun header hop => ?_⟩
    · rw [h'.header_eq, Journal.PrepareJournal.header_drain_of_contains hop]
    · rw [h'.entry_eq, Journal.PrepareJournal.entry_drain_of_not_contains hop, h.entry_eq]

/-- A small whole prepare of op 5. -/
def samplePrepare : Message PrepareHeader :=
  ⟨{ checksum := 0, cluster := 0, size := 259, view := 0, release := 0, command := .prepare,
     replica := 0, client := 0, parent := 0, requestChecksum := 0, request := 0, commit := 0,
     op := 5, timestamp := 0, operation := .sendMessages, nspace := 0 }, [1, 2, 3]⟩

theorem samplePrepare_framed : samplePrepare.Framed where
  command := rfl
  fits := ⟨by decide, by decide, by decide, by decide, by decide, by decide, by decide, by decide,
    by decide, by decide, by decide, by decide, by decide, by decide⟩
  size := rfl

/-- `samplePrepare` as the prepare of `op`. -/
def samplePrepareAt (op : Nat) : Message PrepareHeader :=
  { samplePrepare with header := { samplePrepare.header with op } }

theorem samplePrepareAt_framed {op : Nat} (h : op < 256 ^ 8) : (samplePrepareAt op).Framed :=
  ⟨rfl, { samplePrepare_framed.fits with op := h }, rfl⟩

/-- Two appends after the WAL of `samplePrepare` (op 5), then the drain of ops 5 and 6. -/
def sampleCalls : List Call :=
  [.append (samplePrepareAt 6), .append (samplePrepareAt 7), .drain ⟨5, 6⟩]

/-- Opening the WAL of `samplePrepare`, appending ops 6 and 7 and draining ops 5 and 6: the
index holds op 7 alone and serves its entry from the file. -/
theorem wal_index_agrees_with_file_sample :
    ∃ j outs, (do
        let j ← PrepareJournal.scan ([samplePrepare].map Message.toBytes).flatten 0
        j.run sampleCalls) = .ok (j, outs) ∧
      j.header 5 = none ∧ j.header 6 = none ∧
      j.header 7 = some (samplePrepareAt 7).header ∧
      j.entry (samplePrepareAt 7).header = some (samplePrepareAt 7) := by
  have hwal : ∀ e ∈ [samplePrepare], e.Framed ∧ e.header.size ≤ maxEntrySize := fun e he => by
    rw [List.mem_singleton] at he
    subst he
    exact ⟨samplePrepare_framed, by decide⟩
  have hcalls : ∀ c ∈ sampleCalls, c.Framed := by
    intro c hc
    simp only [sampleCalls, List.mem_cons, List.not_mem_nil, or_false] at hc
    rcases hc with rfl | rfl | rfl
    · exact samplePrepareAt_framed (by decide)
    · exact samplePrepareAt_framed (by decide)
    · trivial
  -- the slot-level run succeeds; its drained list is left unevaluated
  obtain ⟨⟨a, outs⟩, hslot, hfacts⟩ := exists_of_okAnd
    (x := (Journal.PrepareJournal.replay 0 [samplePrepare]).run sampleCalls)
    (p := fun r => r.1.header 5 == none && r.1.header 6 == none &&
      r.1.header 7 == some (samplePrepareAt 7).header &&
      r.1.entry (samplePrepareAt 7).header == some (samplePrepareAt 7))
    (by decide +kernel)
  simp only [Bool.and_eq_true, beq_iff_eq] at hfacts
  obtain ⟨⟨⟨h5, h6⟩, h7⟩, he7⟩ := hfacts
  -- so does the file-level run, in lockstep with it
  have hopen : Refines (Journal.PrepareJournal.replay 0 [samplePrepare])
      ([samplePrepare].foldl PrepareJournal.write (PrepareJournal.empty [] 0)) :=
    (refines_empty [] 0).foldl_write fun e he => (hwal e he).1
  generalize hA : Journal.PrepareJournal.replay 0 [samplePrepare] = A at hopen hslot
  generalize hJ : [samplePrepare].foldl PrepareJournal.write (PrepareJournal.empty [] 0) = J at hopen
  have hsim := Refines.run hopen hcalls
  rw [hslot] at hsim
  cases hfile : J.run sampleCalls with
  | error msg =>
    rw [hfile] at hsim
    exact hsim.elim
  | ok result =>
    have hrun : (do
        let j ← PrepareJournal.scan ([samplePrepare].map Message.toBytes).flatten 0
        j.run sampleCalls) = .ok (result.1, result.2) := by
      rw [PrepareJournal.scan_whole_entries hwal, bind_ok, hJ, hfile]
    obtain ⟨a', hreplay, -, hentry, hheader, -⟩ := wal_index_agrees_with_file hwal hcalls hrun
    rw [hA, hslot] at hreplay
    cases hreplay
    exact ⟨result.1, result.2, hrun, (hheader 5).trans h5, (hheader 6).trans h6,
      (hheader 7).trans h7, (hentry _).2.trans he7⟩

/-! ## Recovery of an appended WAL -/

namespace PrepareJournal

/-- An entry larger than `MAX_ENTRY_SIZE` fails the scan's checks, and since more than
`MAX_ENTRY_SIZE` bytes follow its start, `truncate_or_fail` refuses to cut it off. -/
theorem scanLoop_oversized {j : PrepareJournal} {pre rest : List UInt8} (fuel : Nat)
    (hfile : j.file = pre ++ e.toBytes ++ rest) (he : e.Framed)
    (hbig : maxEntrySize < e.header.size) :
    scanLoop (fuel + 1) j pre.length = .error (midFileCorruptionMessage pre.length
      "corrupt or non-prepare entry" (e.header.size + rest.length)) := by
  have hlen : e.toBytes.length = e.header.size := Message.length_toBytes he
  have hread : (j.file.drop pre.length).take prepareHeaderSize = e.header.toBytes := by
    rw [hfile, List.append_assoc, List.drop_left, Message.toBytes, List.append_assoc,
      List.take_left' (PrepareHeader.length_toBytes _)]
  have htrailing : j.file.length - pre.length = e.header.size + rest.length := by
    rw [hfile]
    simp [hlen]
  rw [scanLoop, if_pos (by rw [hfile]; simp [hlen, maxEntrySize, prepareHeaderSize] at hbig ⊢; omega),
    hread, PrepareHeader.tryFromBytes_toBytes he.fits]
  simp only [he.command, ne_eq, not_true_eq_false, false_or]
  rw [if_pos (Or.inr hbig), stopAt, truncateOrFail]
  simp only [htrailing]
  rw [if_pos (by omega)]
  rfl

/-- Once an entry larger than `MAX_ENTRY_SIZE` follows whole entries, the scan of the file
fails, whatever comes after it. -/
theorem scan_oversized {es : List (Message PrepareHeader)} {snapshotOp : Nat}
    {rest : List UInt8} (hes : ∀ e ∈ es, e.Framed ∧ e.header.size ≤ maxEntrySize)
    (he : e.Framed) (hbig : maxEntrySize < e.header.size) :
    scan ((es.map Message.toBytes).flatten ++ (e.toBytes ++ rest)) snapshotOp =
      .error (midFileCorruptionMessage (es.map Message.toBytes).flatten.length
        "corrupt or non-prepare entry" (e.header.size + rest.length)) := by
  set w := es.foldl write (empty [] snapshotOp) with hw
  have hwfile : w.file = (es.map Message.toBytes).flatten := by
    rw [hw, file_foldl_write]
    rfl
  obtain ⟨fuel, hfuel⟩ : ∃ fuel, ((es.map Message.toBytes).flatten ++ (e.toBytes ++ rest)).length
      + 1 = fuel + 1 + es.length := by
    refine ⟨((es.map Message.toBytes).flatten ++ (e.toBytes ++ rest)).length - es.length, ?_⟩
    have hcount := length_le_length_flatten fun e he => (hes e he).1
    simp only [List.length_append] at hcount ⊢
    omega
  have hstart : empty ((es.map Message.toBytes).flatten ++ (e.toBytes ++ rest)) snapshotOp =
      { empty [] snapshotOp with file := w.file ++ (e.toBytes ++ rest) } := by
    rw [hwfile]
    rfl
  unfold scan
  rw [hfuel, hstart, show (0 : Nat) = (empty [] snapshotOp).file.length from rfl,
    scanLoop_entries (fuel + 1) (e.toBytes ++ rest) es (empty [] snapshotOp) hes, ← hw,
    scanLoop_oversized fuel (by rw [← List.append_assoc]) he hbig, hwfile]
  rfl

end PrepareJournal

/-- A prepare one byte larger than `MAX_ENTRY_SIZE`, whose body is zeros. -/
def oversizedPrepare : Message PrepareHeader :=
  ⟨{ checksum := 0, cluster := 0, size := maxEntrySize + 1, view := 0, release := 0,
     command := .prepare, replica := 0, client := 0, parent := 0, requestChecksum := 0,
     request := 0, commit := 0, op := 1, timestamp := 0, operation := .sendMessages,
     nspace := 0 },
   List.replicate (maxEntrySize + 1 - prepareHeaderSize) 0⟩

theorem oversized_append_breaks_recovery :
    oversizedPrepare.Framed ∧
      PrepareJournal.scan [] 0 = .ok (PrepareJournal.empty [] 0) ∧
      (PrepareJournal.empty [] 0).append oversizedPrepare =
        .ok ((PrepareJournal.empty [] 0).write oversizedPrepare) ∧
      PrepareJournal.scan ((PrepareJournal.empty [] 0).write oversizedPrepare).file 0 =
        .error (PrepareJournal.midFileCorruptionMessage 0 "corrupt or non-prepare entry"
          (maxEntrySize + 1)) := by
  have hsize : oversizedPrepare.header.size = maxEntrySize + 1 := rfl
  have hframed : oversizedPrepare.Framed := by
    refine ⟨rfl, ⟨by decide, by decide, by decide, by decide, by decide, by decide, by decide,
      by decide, by decide, by decide, by decide, by decide, by decide, by decide⟩, ?_⟩
    have hbody : oversizedPrepare.body =
        List.replicate (maxEntrySize + 1 - prepareHeaderSize) 0 := rfl
    rw [hsize, hbody, List.length_replicate]
    decide
  refine ⟨hframed, rfl, rfl, ?_⟩
  -- the journal opened on an empty file holds the one entry, and the scan refuses it
  have hscan := @PrepareJournal.scan_oversized oversizedPrepare [] 0 []
    (fun _ he => by cases he) hframed (by rw [hsize]; exact Nat.lt_succ_self _)
  simp only [List.map_nil, List.flatten_nil, List.nil_append, List.append_nil,
    List.length_nil, Nat.add_zero, hsize] at hscan
  show PrepareJournal.scan ([] ++ oversizedPrepare.toBytes) 0 = _
  rw [List.nil_append, hscan]

/-- **Recovery round trip.** Whole entries no larger than `MAX_ENTRY_SIZE`, appended to the
journal opened on an empty file, followed by any torn tail: the scan recovers exactly that
journal, cutting the tail off; the whole entries alone are scanned with nothing cut. -/
theorem scan_recovers_appended {es : List (Message PrepareHeader)} {snapshotOp : Nat}
    {j : PrepareJournal} {tail : List UInt8}
    (hes : ∀ e ∈ es, e.Framed ∧ e.header.size ≤ maxEntrySize)
    (happ : es.foldlM PrepareJournal.append (PrepareJournal.empty [] snapshotOp) = .ok j)
    (htail : TornTail tail) :
    PrepareJournal.scan (j.file ++ tail) snapshotOp = .ok j ∧
      PrepareJournal.scan j.file snapshotOp = .ok j := by
  have hj := PrepareJournal.foldlM_append_eq_write happ
  have hfile : j.file = (es.map Message.toBytes).flatten := by
    rw [hj, PrepareJournal.file_foldl_write]
    rfl
  rw [hfile, hj]
  exact ⟨PrepareJournal.scan_entries hes htail, PrepareJournal.scan_whole_entries hes⟩

/-- Appending `samplePrepare` and tearing a second copy after its header: reopening recovers
the one entry. -/
theorem scan_recovers_appended_sample :
    PrepareJournal.scan
        (([samplePrepare].foldl PrepareJournal.write (PrepareJournal.empty [] 0)).file ++
          samplePrepare.toBytes.take 257) 0 =
      .ok ([samplePrepare].foldl PrepareJournal.write (PrepareJournal.empty [] 0)) := by
  have hes : ∀ e ∈ [samplePrepare], e.Framed ∧ e.header.size ≤ maxEntrySize := fun e he => by
    rw [List.mem_singleton] at he
    subst he
    exact ⟨samplePrepare_framed, by decide⟩
  exact (scan_recovers_appended hes rfl
    (TornTail.torn samplePrepare_framed (by decide) (by decide))).1

end Wal

end IggyCore.Journal
