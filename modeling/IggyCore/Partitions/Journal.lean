import IggyCore.Partitions.Partition
import IggyCore.Library.OrdMap
import IggyCore.Consensus.HeaderBytes
import Mathlib.Data.Prod.Lex

/-!
# The partition journal

`PartitionJournal` of `core/partitions/src/journal.rs` over its in-memory storage
`PartitionJournalMemStorage`. `append` stores a prepare's bytes at the storage's next offset
and indexes it by op; a `SendMessages` prepare whose batch decodes and holds messages is also
indexed by its batch's first offset and by its origin timestamp. A poll (`get`) looks up the op
to start at (`candidate_start_op`) and then walks the stored prepares in op order
(`load_polled_batches_from_storage`), cutting from each batch the messages the query selects
(`select_batch_slice`) into fragments (`push_selected_batch_fragments`).

The three `BTreeMap`s are `OrdMap`s; the key of the timestamp index is the lexicographic pair
`(origin_timestamp, op)`. A timestamp poll starts at the batch whose origin timestamp is the
queried one when there is one, and otherwise at the last batch whose origin timestamp is below
it: a batch before the first one stamped exactly at the queried timestamp is skipped, even
when it holds messages at or after that timestamp (`timestamp_poll_skips_earlier_batch`).
-/

namespace IggyCore.Partitions

open IggyCore.Library IggyCore.Consensus

/-- `MessageLookup`. -/
inductive MessageLookup
  | offset (offset count : Nat)
  | timestamp (timestamp count : Nat)
  deriving DecidableEq, Repr

def MessageLookup.count : MessageLookup → Nat
  | offset _ count | timestamp _ count => count

/-! ## Storage -/

/-- `PartitionJournalMemStorage`: the buffers in write order, the index of each buffer by the
byte offset it was written at (a `HashMap`), and the next write offset. -/
structure MemStorage where
  entries : List (Message PrepareHeader)
  offsetToIndex : Nat → Option Nat
  currentOffset : Nat

namespace MemStorage

def empty : MemStorage := ⟨[], fun _ => none, 0⟩

/-- `write_at`: whatever offset it is passed, the buffer goes at the end, indexed under the
current offset, which moves past it. -/
def writeAt (s : MemStorage) (buf : Message PrepareHeader) : MemStorage :=
  { entries := s.entries ++ [buf]
    offsetToIndex := Function.update s.offsetToIndex s.currentOffset (some s.entries.length)
    currentOffset := s.currentOffset + buf.toBytes.length }

/-- `read_at`: the buffer written at `offset`; `none` stands for the empty buffer it returns
for an offset nothing was written at. -/
def readAt (s : MemStorage) (offset : Nat) : Option (Message PrepareHeader) :=
  match s.offsetToIndex offset with
  | none => none
  | some index => s.entries[index]?

end MemStorage

/-! ## The journal -/

/-- `PartitionJournal`: op to storage offset for every entry, first message offset to op and
`(origin_timestamp, op)` to op for the entries that carry messages, the headers in append
order, and the storage. -/
structure PartitionJournal where
  opToStorageOffset : OrdMap Nat Nat
  offsetToOp : OrdMap Nat Nat
  timestampToOp : OrdMap (Nat ×ₗ Nat) Nat
  headers : List PrepareHeader
  storage : MemStorage

namespace PartitionJournal

/-- `Default`. -/
def empty : PartitionJournal := ⟨.empty, .empty, .empty, [], .empty⟩

/-- The first offset and the origin timestamp `append` indexes a prepare under: those of its
batch, for a `SendMessages` prepare whose batch decodes and holds messages. -/
def firstOffsetAndTimestamp (hash : List UInt8 → UInt64) (entry : Message PrepareHeader) :
    Option (Nat × Nat) :=
  if entry.header.operation = .sendMessages then
    match decodePrepareSlice hash entry with
    | .ok batch =>
      if batch.header.messageCount.toNat ≠ 0 then
        some (batch.header.baseOffset.toNat, batch.header.originTimestamp.toNat)
      else none
    | .error _ => none
  else none

/-- `append`. The in-memory storage never fails a write. -/
def append (hash : List UInt8 → UInt64) (j : PartitionJournal) (entry : Message PrepareHeader) :
    PartitionJournal :=
  let op := entry.header.op
  let storageOffset := j.storage.currentOffset
  let j := { j with
    headers := j.headers ++ [entry.header]
    storage := j.storage.writeAt entry
    opToStorageOffset := j.opToStorageOffset.insert op storageOffset }
  match firstOffsetAndTimestamp hash entry with
  | some (offset, timestamp) =>
    { j with
      offsetToOp := j.offsetToOp.insert offset op
      timestampToOp := j.timestampToOp.insert (toLex (timestamp, op)) op }
  | none => j

/-- The journal after appending `entries` in order. -/
def appendAll (hash : List UInt8 → UInt64) (j : PartitionJournal)
    (entries : List (Message PrepareHeader)) : PartitionJournal :=
  entries.foldl (append hash) j

/-- `bytes_by_op`, which `entry` returns: the buffer stored for `op`. -/
def bytesByOp (j : PartitionJournal) (op : Nat) : Option (Message PrepareHeader) := do
  let storageOffset ← (j.opToStorageOffset.entries.find? (·.1 = op)).map (·.2)
  j.storage.readAt storageOffset

/-- `candidate_start_op`. By offset: the entry whose first offset is the last at or before the
queried one, else the first after it. By timestamp: the first entry stamped exactly at the
queried timestamp, else the last stamped before it, else the first stamped after it. -/
def candidateStartOp (j : PartitionJournal) : MessageLookup → Option Nat
  | .offset offset _ =>
    ((j.offsetToOp.lastLe offset).or (j.offsetToOp.firstGe offset)).map (·.2)
  | .timestamp timestamp _ =>
    let nextAtOrAfter := j.timestampToOp.firstGe (toLex (timestamp, 0))
    let fallback :=
      ((j.timestampToOp.lastLt (toLex (timestamp, 0))).map (·.2)).or (nextAtOrAfter.map (·.2))
    match nextAtOrAfter with
    | some (key, op) => if (ofLex key).1 = timestamp then some op else fallback
    | none => fallback

end PartitionJournal

/-! ## Selecting messages -/

/-- `SelectedBatchSlice`: where the selected messages lie in the blob. -/
structure SelectedBatchSlice where
  start : Nat
  stop : Nat
  matchedMessages : Nat
  lastMatchingOffset : Nat
  deriving DecidableEq, Repr

/-- Whether `select_batch_slice` selects a message: its offset at or after the queried one, or
its timestamp (`origin_timestamp + timestamp_delta`) at or after the queried one. -/
def MessageLookup.selects (query : MessageLookup) (batch : BatchRef) (record : MessageView) :
    Bool :=
  match query with
  | .offset queryOffset _ =>
    queryOffset ≤ batch.header.baseOffset.toNat + record.header.offsetDelta.toNat
  | .timestamp queryTimestamp _ =>
    queryTimestamp ≤ batch.header.originTimestamp.toNat + record.header.timestampDelta.toNat

/-- The loop of `select_batch_slice`: the first selected record's start, the last one's end,
how many were selected and the last selected offset. It stops once `remaining` are selected. -/
def selectRecords (batch : BatchRef) (query : MessageLookup) (remaining : Nat) :
    List MessageView → Option Nat → Nat → Nat → Option Nat →
      Option Nat × Nat × Nat × Option Nat
  | [], start, stop, matched, last => (start, stop, matched, last)
  | record :: records, start, stop, matched, last =>
    if query.selects batch record then
      let offset := batch.header.baseOffset.toNat + record.header.offsetDelta.toNat
      -- `start.get_or_insert(record.start)`
      let start := start.or (some record.start)
      if matched + 1 = remaining then (start, record.stop, matched + 1, some offset)
      else selectRecords batch query remaining records start record.stop (matched + 1) (some offset)
    else selectRecords batch query remaining records start stop matched last

/-- `select_batch_slice`. -/
def selectBatchSlice (batch : BatchRef) (query : MessageLookup) (alreadyMatched : Nat) :
    Option SelectedBatchSlice :=
  let remaining := query.count - alreadyMatched
  if remaining = 0 ∨ batch.header.messageCount.toNat = 0 then none
  else
    match selectRecords batch query remaining (iterWithOffsets batch.blob 0) none 0 0 none with
    | (some start, stop, matched, some last) => some ⟨start, stop, matched, last⟩
    | _ => none

/-! ## Fragments -/

/-- The buffer a fragment borrows: a stored prepare, or a rewritten batch header
(`into_frozen`). -/
inductive FragmentSource
  | prepare (prepare : Message PrepareHeader)
  | header (header : SendMessages2Header)

def FragmentSource.bytes : FragmentSource → List UInt8
  | prepare p => p.toBytes
  | header h => h.encode

/-- `Fragment`: the bytes `[start, stop)` of its source. `slice` asserts
`start ≤ stop ≤ source.len()`. -/
structure Fragment where
  source : FragmentSource
  start : Nat
  stop : Nat

namespace Fragment

def whole (source : FragmentSource) : Fragment := ⟨source, 0, source.bytes.length⟩

def slice (source : FragmentSource) (start stop : Nat) : Fragment := ⟨source, start, stop⟩

def bytes (f : Fragment) : List UInt8 := (f.source.bytes.take f.stop).drop f.start

end Fragment

/-- `push_selected_batch_fragments`: the whole batch body when every message is selected;
otherwise a header rewritten for the selected messages, then their bytes. It returns the
fragments, the last matching offset and the running count of matched messages. -/
def pushSelectedBatchFragments (hash : List UInt8 → UInt64) (fragments : List Fragment)
    (matchedMessages : Nat) (prepare : Message PrepareHeader) (batch : BatchRef)
    (selection : SelectedBatchSlice) : List Fragment × Option Nat × Nat :=
  let prepareSize := prepare.header.size
  let fullBodySelected := selection.start = 0 ∧ selection.stop = batch.blob.length
  let fragments :=
    if fullBodySelected then
      fragments ++ [.slice (.prepare prepare) prepareHeaderSize prepareSize]
    else
      let rewritten := { batch.header with
        batchLength := UInt64.ofNat (commandHeaderSize + (selection.stop - selection.start))
        messageCount := UInt32.ofNat selection.matchedMessages }
      let rewritten := { rewritten with
        batchChecksum := calculateBatchChecksum hash rewritten
          ((batch.blob.take selection.stop).drop selection.start) }
      fragments ++ [.whole (.header rewritten),
        .slice (.prepare prepare) (prepareHeaderSize + commandHeaderSize + selection.start)
          (prepareHeaderSize + commandHeaderSize + selection.stop)]
  (fragments, some selection.lastMatchingOffset, matchedMessages + selection.matchedMessages)

/-! ## Polling -/

/-- The loop of `load_polled_batches_from_storage` over the `(op, storage offset)` pairs: it
stops once `count` messages are matched, and skips an empty read, a prepare of another
operation, a batch that does not decode and a batch with nothing selected. -/
def loadBatches (hash : List UInt8 → UInt64) (storage : MemStorage) (query : MessageLookup) :
    List (Nat × Nat) → List Fragment → Option Nat → Nat → List Fragment × Option Nat
  | [], fragments, last, _ => (fragments, last)
  | (_, storageOffset) :: opOffsets, fragments, last, matched =>
    if query.count ≤ matched then (fragments, last)
    else
      match storage.readAt storageOffset with
      | none => loadBatches hash storage query opOffsets fragments last matched
      | some bytes =>
        if bytes.header.operation ≠ .sendMessages then
          loadBatches hash storage query opOffsets fragments last matched
        else
          match decodePrepareSlice hash bytes with
          | .error _ => loadBatches hash storage query opOffsets fragments last matched
          | .ok batch =>
            match selectBatchSlice batch query matched with
            | none => loadBatches hash storage query opOffsets fragments last matched
            | some selection =>
              let (fragments, last, matched) :=
                pushSelectedBatchFragments hash fragments matched bytes batch selection
              loadBatches hash storage query opOffsets fragments last matched

namespace PartitionJournal

/-- `load_polled_batches_from_storage`: the stored prepares from `startOp` on, in op order. -/
def loadPolledBatchesFromStorage (hash : List UInt8 → UInt64) (j : PartitionJournal)
    (startOp : Nat) (query : MessageLookup) : List Fragment × Option Nat :=
  if query.count = 0 then ([], none)
  else loadBatches hash j.storage query (j.opToStorageOffset.rangeFrom startOp) [] none 0

/-- `QueryableJournal::get`. -/
def get (hash : List UInt8 → UInt64) (j : PartitionJournal) (query : MessageLookup) :
    Option (List Fragment × Option Nat) := do
  let startOp ← j.candidateStartOp query
  let result := j.loadPolledBatchesFromStorage hash startOp query
  if result.1.isEmpty then none else some result

end PartitionJournal

/-! ## The journal's maps agree with its storage -/

namespace MemStorage

/-- Every indexed offset was written before the current one, and indexes a stored buffer. -/
def IndexInBounds (s : MemStorage) : Prop :=
  ∀ offset index, s.offsetToIndex offset = some index →
    offset < s.currentOffset ∧ index < s.entries.length

theorem IndexInBounds.lt_currentOffset {s : MemStorage} (h : s.IndexInBounds) {offset : Nat}
    {p : Message PrepareHeader} (hread : s.readAt offset = some p) : offset < s.currentOffset := by
  unfold readAt at hread
  split at hread
  · cases hread
  · exact (h _ _ ‹_›).1

/-- A write leaves every earlier offset reading what it read, and the current one reads the new
buffer. -/
theorem readAt_writeAt {s : MemStorage} (h : s.IndexInBounds) (buf : Message PrepareHeader)
    (offset : Nat) :
    (s.writeAt buf).readAt offset = if offset = s.currentOffset then some buf else s.readAt offset := by
  by_cases hcur : offset = s.currentOffset
  · subst hcur
    simp [readAt, writeAt]
  · rw [if_neg hcur]
    cases hidx : s.offsetToIndex offset with
    | none => simp [readAt, writeAt, hcur, hidx]
    | some index =>
      have hlt := (h _ _ hidx).2
      simp [readAt, writeAt, hcur, hidx, List.getElem?_append_left hlt]

theorem IndexInBounds.writeAt {s : MemStorage} (h : s.IndexInBounds) (buf : Message PrepareHeader) :
    (s.writeAt buf).IndexInBounds := by
  have hpos : 0 < buf.toBytes.length := by simp [Message.toBytes, prepareHeaderSize]
  intro offset index hidx
  simp only [MemStorage.writeAt, List.length_append, List.length_singleton] at hidx ⊢
  by_cases hcur : offset = s.currentOffset
  · subst hcur
    simp only [Function.update_self, Option.some.injEq] at hidx
    omega
  · rw [Function.update_of_ne hcur] at hidx
    have := h _ _ hidx
    omega

end MemStorage

namespace PartitionJournal

/-- The journal's maps agree with its storage: the storage's index is in bounds, the buffer
stored for an op is a prepare of that op, and the timestamp index keeps each op under a key
that ends in it. -/
structure Consistent (j : PartitionJournal) : Prop where
  indexInBounds : j.storage.IndexInBounds
  op_stored : ∀ e ∈ j.opToStorageOffset.entries,
    ∃ p, j.storage.readAt e.2 = some p ∧ p.header.op = e.1
  timestamp_key : ∀ e ∈ j.timestampToOp.entries, (ofLex e.1).2 = e.2

theorem consistent_empty : empty.Consistent :=
  ⟨fun _ _ h => by simp [empty, MemStorage.empty] at h, fun _ h => by simp [empty] at h,
    fun _ h => by simp [empty] at h⟩

variable {hash : List UInt8 → UInt64}

/-- What `append` does to the op index and the storage, whatever the entry carries. -/
theorem append_storage (j : PartitionJournal) (entry : Message PrepareHeader) :
    (j.append hash entry).storage = j.storage.writeAt entry ∧
      (j.append hash entry).opToStorageOffset =
        j.opToStorageOffset.insert entry.header.op j.storage.currentOffset := by
  unfold append
  split <;> exact ⟨rfl, rfl⟩

/-- What `append` does to the timestamp index. -/
theorem append_timestampToOp (j : PartitionJournal) (entry : Message PrepareHeader) :
    (j.append hash entry).timestampToOp =
      match firstOffsetAndTimestamp hash entry with
      | some (_, timestamp) =>
        j.timestampToOp.insert (toLex (timestamp, entry.header.op)) entry.header.op
      | none => j.timestampToOp := by
  unfold append
  split <;> rfl

/-- **`append` keeps the journal consistent.** -/
theorem Consistent.append {j : PartitionJournal} (h : j.Consistent)
    (entry : Message PrepareHeader) : (j.append hash entry).Consistent := by
  obtain ⟨hstorage, hops⟩ := @append_storage hash j entry
  refine ⟨?_, ?_, ?_⟩
  · rw [hstorage]
    exact h.indexInBounds.writeAt entry
  · intro e he
    rw [hops, OrdMap.mem_insert] at he
    rw [hstorage, MemStorage.readAt_writeAt h.indexInBounds]
    rcases he with rfl | ⟨he, hne⟩
    · exact ⟨entry, by simp, rfl⟩
    · -- an older entry's offset was written before the current one
      obtain ⟨p, hread, hop⟩ := h.op_stored e he
      have hlt := h.indexInBounds.lt_currentOffset hread
      exact ⟨p, by rw [if_neg (Nat.ne_of_lt hlt), hread], hop⟩
  · intro e he
    rw [append_timestampToOp] at he
    split at he
    · rcases OrdMap.mem_insert.mp he with rfl | ⟨he, -⟩
      · simp
      · exact h.timestamp_key e he
    · exact h.timestamp_key e he

theorem Consistent.appendAll {j : PartitionJournal} (h : j.Consistent)
    (entries : List (Message PrepareHeader)) : (j.appendAll hash entries).Consistent := by
  induction entries generalizing j with
  | nil => exact h
  | cons entry entries ih => exact ih (h.append entry)

/-- After an `append`, the timestamp index holds what it held and the entry's key, if the
entry carries messages. -/
theorem mem_timestampToOp_append {j : PartitionJournal} (h : j.Consistent)
    (entry : Message PrepareHeader) (e : (Nat ×ₗ Nat) × Nat) :
    e ∈ (j.append hash entry).timestampToOp.entries ↔ e ∈ j.timestampToOp.entries ∨
      (∃ offset, firstOffsetAndTimestamp hash entry = some (offset, (ofLex e.1).1)) ∧
        (ofLex e.1).2 = entry.header.op ∧ e.2 = entry.header.op := by
  rw [append_timestampToOp]
  split
  · rename_i offset timestamp hindexed
    rw [OrdMap.mem_insert]
    constructor
    · rintro (rfl | ⟨he, -⟩)
      · exact Or.inr ⟨⟨offset, by simp [hindexed]⟩, by simp, rfl⟩
      · exact Or.inl he
    · rintro (he | ⟨⟨offset', hsome⟩, hop, hval⟩)
      · -- an old entry under the new key already holds the entry's op
        by_cases hkey : e.1 = toLex (timestamp, entry.header.op)
        · have hkeyOp := h.timestamp_key e he
          rw [hkey] at hkeyOp
          exact Or.inl (Prod.ext hkey (by simpa using hkeyOp.symm))
        · exact Or.inr ⟨he, hkey⟩
      · simp only [hindexed, Option.some.injEq, Prod.mk.injEq] at hsome
        left
        refine Prod.ext ?_ hval
        rw [← toLex_ofLex e.1]
        exact congrArg toLex (Prod.ext hsome.2.symm hop)
  · rename_i hnone
    simp [hnone]

/-- **The timestamp index of a journal built by appends.** It holds, under `(t, op)`, exactly
the appended entries of op `op` whose batch holds messages and has origin timestamp `t`. -/
theorem mem_timestampToOp_appendAll (entries : List (Message PrepareHeader))
    (e : (Nat ×ₗ Nat) × Nat) :
    e ∈ (empty.appendAll hash entries).timestampToOp.entries ↔
      ∃ entry ∈ entries, (∃ offset, firstOffsetAndTimestamp hash entry =
        some (offset, (ofLex e.1).1)) ∧ (ofLex e.1).2 = entry.header.op ∧ e.2 = entry.header.op := by
  -- the index of a journal built from `j` holds `j`'s entries and the appended ones
  suffices hrun : ∀ (j : PartitionJournal), j.Consistent →
      (e ∈ (j.appendAll hash entries).timestampToOp.entries ↔ e ∈ j.timestampToOp.entries ∨
        ∃ entry ∈ entries, (∃ offset, firstOffsetAndTimestamp hash entry =
          some (offset, (ofLex e.1).1)) ∧ (ofLex e.1).2 = entry.header.op ∧
          e.2 = entry.header.op) by
    simpa [empty] using hrun empty consistent_empty
  induction entries with
  | nil => intro j _; simp [appendAll]
  | cons entry entries ih =>
    intro j hj
    have happ := ih (j.append hash entry) (hj.append entry)
    simp only [appendAll, List.foldl_cons] at happ ⊢
    rw [happ, mem_timestampToOp_append hj entry e]
    simp only [List.mem_cons, exists_eq_or_imp]
    exact or_assoc

/-- A stamped prepare is indexed under its batch's first offset and origin timestamp when the
batch holds messages. -/
theorem firstOffsetAndTimestamp_of_carries {m : Message PrepareHeader} {b : BatchRef}
    (hm : CarriesBatch hash m b) (hop : m.header.operation = .sendMessages) :
    firstOffsetAndTimestamp hash m =
      if b.header.messageCount.toNat ≠ 0 then
        some (b.header.baseOffset.toNat, b.header.originTimestamp.toNat)
      else none := by
  simp only [firstOffsetAndTimestamp, hop, if_true, decodePrepareSlice_of_carries hm]

end PartitionJournal

/-! ## Where a poll reads from -/

theorem mem_pushSelectedBatchFragments {hash : List UInt8 → UInt64} {fragments : List Fragment}
    {matched : Nat} {prepare : Message PrepareHeader} {batch : BatchRef}
    {selection : SelectedBatchSlice} {f : Fragment}
    (hf : f ∈ (pushSelectedBatchFragments hash fragments matched prepare batch selection).1) :
    f ∈ fragments ∨ f.source = .prepare prepare ∨ ∃ h, f.source = .header h := by
  unfold pushSelectedBatchFragments at hf
  dsimp only at hf
  split at hf
  · simp only [List.mem_append, List.mem_singleton] at hf
    rcases hf with hf | rfl
    · exact Or.inl hf
    · exact Or.inr (Or.inl rfl)
  · simp only [List.mem_append, List.mem_cons, List.not_mem_nil, or_false] at hf
    rcases hf with hf | rfl | rfl
    · exact Or.inl hf
    · exact Or.inr (Or.inr ⟨_, rfl⟩)
    · exact Or.inr (Or.inl rfl)

/-- **The poll loop reads only the pairs it is given.** A fragment of the loop's result that
borrows a prepare was there before, or borrows the prepare stored at one of the pairs. -/
theorem loadBatches_source {hash : List UInt8 → UInt64} {storage : MemStorage}
    {query : MessageLookup} :
    ∀ (opOffsets : List (Nat × Nat)) (fragments : List Fragment) (last : Option Nat)
      (matched : Nat), ∀ f ∈ (loadBatches hash storage query opOffsets fragments last matched).1,
      ∀ p, f.source = .prepare p → f ∈ fragments ∨ ∃ e ∈ opOffsets, storage.readAt e.2 = some p := by
  intro opOffsets
  induction opOffsets with
  | nil => intro fragments last matched f hf _ _; exact Or.inl hf
  | cons e opOffsets ih =>
    intro fragments last matched f hf p hp
    obtain ⟨op, storageOffset⟩ := e
    -- a skipped pair leaves the fragments as they were
    have hskip : f ∈ (loadBatches hash storage query opOffsets fragments last matched).1 →
        f ∈ fragments ∨ ∃ e ∈ (op, storageOffset) :: opOffsets, storage.readAt e.2 = some p := by
      intro hf'
      rcases ih fragments last matched f hf' p hp with hin | ⟨e, he, hread⟩
      · exact Or.inl hin
      · exact Or.inr ⟨e, List.mem_cons_of_mem _ he, hread⟩
    simp only [loadBatches] at hf
    split at hf
    · exact Or.inl hf
    · split at hf
      · exact hskip hf
      · rename_i bytes hbytes
        split at hf
        · exact hskip hf
        · split at hf
          · exact hskip hf
          · rename_i batch _
            split at hf
            · exact hskip hf
            · rename_i selection _
              rcases ih _ _ _ f hf p hp with hin | ⟨e, he, hread⟩
              · rcases mem_pushSelectedBatchFragments hin with hin | hsrc | ⟨h, hsrc⟩
                · exact Or.inl hin
                · rw [hp] at hsrc
                  cases hsrc
                  exact Or.inr ⟨(op, storageOffset), List.mem_cons_self, hbytes⟩
                · rw [hp] at hsrc
                  cases hsrc
              · exact Or.inr ⟨e, List.mem_cons_of_mem _ he, hread⟩

namespace PartitionJournal

/-- A poll of a consistent journal that starts at `startOp` borrows only prepares of op
`startOp` or later. -/
theorem Consistent.loadPolledBatchesFromStorage_source {hash : List UInt8 → UInt64}
    {j : PartitionJournal} (h : j.Consistent) (startOp : Nat) (query : MessageLookup) :
    ∀ f ∈ (j.loadPolledBatchesFromStorage hash startOp query).1, ∀ p, f.source = .prepare p →
      startOp ≤ p.header.op := by
  intro f hf p hp
  unfold loadPolledBatchesFromStorage at hf
  split at hf
  · simp at hf
  · rcases loadBatches_source _ _ _ _ f hf p hp with hin | ⟨e, he, hread⟩
    · simp at hin
    · obtain ⟨hmem, hle⟩ := OrdMap.mem_rangeFrom.mp he
      obtain ⟨p', hread', hop⟩ := h.op_stored e hmem
      rw [hread] at hread'
      cases hread'
      rw [hop]
      exact hle

/-- A timestamp poll starts at the least op stamped exactly at the queried timestamp, when the
timestamp index holds one. -/
theorem candidateStartOp_timestamp_of_least {j : PartitionJournal} {timestamp count op : Nat}
    (hmem : (toLex (timestamp, op), op) ∈ j.timestampToOp.entries)
    (hleast : ∀ e ∈ j.timestampToOp.entries, toLex (timestamp, 0) ≤ e.1 →
      toLex (timestamp, op) ≤ e.1) :
    j.candidateStartOp (.timestamp timestamp count) = some op := by
  have hfirst : j.timestampToOp.firstGe (toLex (timestamp, 0)) = some (toLex (timestamp, op), op) :=
    OrdMap.firstGe_eq_some_iff.mpr
      ⟨hmem, Prod.Lex.toLex_le_toLex.mpr (Or.inr ⟨rfl, Nat.zero_le _⟩), hleast⟩
  simp [candidateStartOp, hfirst]

end PartitionJournal

/-- **A timestamp poll skips the batches before the first one stamped at its timestamp.** Take
any journal built by appending prepares, and a timestamp `t` at which some appended batch `b`
is stamped (its origin timestamp), `b` being the earliest op so stamped. A poll from `t`
starts at `b`'s op, and every prepare it returns bytes of has an op at or after `b`'s. A batch
appended before `b` is never read, whatever messages at or after `t` it holds. -/
theorem timestamp_poll_skips_earlier_batch (hash : List UInt8 → UInt64)
    (prepares : List (Message PrepareHeader)) (t count : Nat) (b : Message PrepareHeader)
    (offset : Nat) (hb : b ∈ prepares)
    (hindexed : PartitionJournal.firstOffsetAndTimestamp hash b = some (offset, t))
    (hearliest : ∀ p ∈ prepares, ∀ o, PartitionJournal.firstOffsetAndTimestamp hash p = some (o, t) →
      b.header.op ≤ p.header.op) :
    (PartitionJournal.empty.appendAll hash prepares).candidateStartOp (.timestamp t count) =
        some b.header.op ∧
      ∀ result, (PartitionJournal.empty.appendAll hash prepares).get hash (.timestamp t count) =
          some result →
        ∀ f ∈ result.1, ∀ p, f.source = .prepare p → b.header.op ≤ p.header.op := by
  set j := PartitionJournal.empty.appendAll hash prepares with hj
  have hconsistent : j.Consistent := PartitionJournal.consistent_empty.appendAll prepares
  -- `b`'s key is in the index, and it is the least key at or after `(t, 0)`
  have hmem : (toLex (t, b.header.op), b.header.op) ∈ j.timestampToOp.entries :=
    (PartitionJournal.mem_timestampToOp_appendAll prepares _).mpr
      ⟨b, hb, ⟨offset, by simpa using hindexed⟩, by simp, rfl⟩
  have hleast : ∀ e ∈ j.timestampToOp.entries, toLex (t, 0) ≤ e.1 →
      toLex (t, b.header.op) ≤ e.1 := by
    intro e he hle
    obtain ⟨p, hp, ⟨o, hindexedp⟩, hop, -⟩ :=
      (PartitionJournal.mem_timestampToOp_appendAll prepares e).mp he
    rw [← toLex_ofLex e.1] at hle ⊢
    rcases Prod.Lex.toLex_le_toLex.mp hle with hlt | ⟨heq, -⟩
    · exact Prod.Lex.toLex_le_toLex.mpr (Or.inl hlt)
    · -- stamped exactly at `t`: its op is at or after `b`'s
      rw [← heq] at hindexedp
      exact Prod.Lex.toLex_le_toLex.mpr
        (Or.inr ⟨heq, hop ▸ hearliest p hp o hindexedp⟩)
  have hstart : j.candidateStartOp (.timestamp t count) = some b.header.op :=
    PartitionJournal.candidateStartOp_timestamp_of_least hmem hleast
  refine ⟨hstart, fun result hget f hf p hp => ?_⟩
  simp only [PartitionJournal.get, hstart, Option.bind_eq_bind, Option.bind_some] at hget
  split at hget
  · cases hget
  · cases hget
    exact hconsistent.loadPolledBatchesFromStorage_source _ _ f hf p hp

/-- A stamped `SendMessages` prepare of op `op` carrying `blob` behind the header `h`. -/
def stampedPrepare (op : Nat) (h : SendMessages2Header) (blob : List UInt8) :
    Message PrepareHeader :=
  ⟨⟨0, 0, prepareHeaderSize + commandHeaderSize + blob.length, 0, 0, .prepare, 0, 0, 0, 0, 0, 0,
    op, 0, .sendMessages, 0⟩, h.encode ++ blob⟩

theorem carriesBatch_stampedPrepare {hash : List UInt8 → UInt64} {b : BatchRef}
    (hb : b.Sealed hash) (op : Nat) : CarriesBatch hash (stampedPrepare op b.header b.blob) b :=
  ⟨hb, rfl, by simp [stampedPrepare, Nat.add_assoc]⟩

/-- Messages at offsets 0 and 1, stamped 5 and 10. -/
def earlierBlob : List UInt8 :=
  encodeMessages [(⟨0, 1, 0, 0, 0, 1⟩, [], [1]), (⟨0, 2, 1, 5, 0, 1⟩, [], [2])]

/-- A message at offset 2, stamped 10. -/
def laterBlob : List UInt8 := encodeMessages [(⟨0, 3, 0, 0, 0, 1⟩, [], [3])]

/-- Op 1 carries the first two messages, with origin timestamp 5. -/
def earlierPrepare : Message PrepareHeader :=
  stampedPrepare 1 (restamp (fun _ => 0) ⟨0, 0, 0, 5, 256 + 98, 0, 2⟩ earlierBlob 0 0) earlierBlob

/-- Op 2 carries the third message, with origin timestamp 10. -/
def laterPrepare : Message PrepareHeader :=
  stampedPrepare 2 (restamp (fun _ => 0) ⟨0, 0, 0, 10, 256 + 49, 0, 1⟩ laterBlob 2 0) laterBlob

theorem timestamp_poll_skips_earlier_batch_sample :
    (∃ v ∈ iterWithOffsets earlierBlob 0, 10 ≤ 5 + v.header.timestampDelta.toNat) ∧
      (PartitionJournal.empty.appendAll (fun _ => 0) [earlierPrepare, laterPrepare]).candidateStartOp
          (.timestamp 10 1) = some 2 ∧
      ∀ result, (PartitionJournal.empty.appendAll (fun _ => 0) [earlierPrepare, laterPrepare]).get
          (fun _ => 0) (.timestamp 10 1) = some result →
        ∀ f ∈ result.1, ∀ p, f.source = .prepare p → 2 ≤ p.header.op := by
  have hearlier : CarriesBatch (fun _ => 0) earlierPrepare
      ⟨restamp (fun _ => 0) ⟨0, 0, 0, 5, 256 + 98, 0, 2⟩ earlierBlob 0 0, earlierBlob⟩ :=
    carriesBatch_stampedPrepare (restamp_sealed (b := ⟨_, earlierBlob⟩)
      ⟨by simp [earlierBlob, commandHeaderSize, messageHeaderSize], rfl⟩ 0 0) 1
  have hlater : CarriesBatch (fun _ => 0) laterPrepare
      ⟨restamp (fun _ => 0) ⟨0, 0, 0, 10, 256 + 49, 0, 1⟩ laterBlob 2 0, laterBlob⟩ :=
    carriesBatch_stampedPrepare (restamp_sealed (b := ⟨_, laterBlob⟩)
      ⟨by simp [laterBlob, commandHeaderSize, messageHeaderSize], rfl⟩ 2 0) 2
  have hindexedEarlier := PartitionJournal.firstOffsetAndTimestamp_of_carries hearlier rfl
  have hindexedLater := PartitionJournal.firstOffsetAndTimestamp_of_carries hlater rfl
  simp only [restamp] at hindexedEarlier hindexedLater
  -- the second message of op 1 is stamped 5 + 5
  have hiter := iterWithOffsets_encodeMessages
    [(⟨0, 1, 0, 0, 0, 1⟩, [], [1]), (⟨0, 2, 1, 5, 0, 1⟩, [], [2])] [] (by decide)
  refine ⟨?_, timestamp_poll_skips_earlier_batch (fun _ => 0) [earlierPrepare, laterPrepare] 10 1
    laterPrepare 2 (by simp) (by simpa using hindexedLater) ?_⟩
  · have hmem : ((⟨0, 2, 1, 5, 0, 1⟩ : MessageHeader), ([] : List UInt8), [(2 : UInt8)]) ∈
        (iterWithOffsets earlierBlob 0).map fun v => (v.header, v.userHeaders, v.payload) := by
      simp only [List.nil_append, List.length_nil] at hiter
      rw [earlierBlob, hiter]
      simp
    obtain ⟨v, hv, hfields⟩ := List.mem_map.mp hmem
    simp only [Prod.mk.injEq] at hfields
    exact ⟨v, hv, by rw [hfields.1]; decide⟩
  · intro p hp o hindexed
    simp only [List.mem_cons, List.not_mem_nil, or_false] at hp
    rcases hp with rfl | rfl
    · simp [hindexedEarlier] at hindexed
    · exact le_rfl

end IggyCore.Partitions
