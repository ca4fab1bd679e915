import IggyCore.Journal.PrepareJournal
import IggyCore.Consensus.HeaderBytes
import IggyCore.Library.Layout
import IggyCore.Library.Run

/-!
# The write-ahead log as a file

`PrepareJournal.lean` keeps, for each slot, the entry its offset points at. Here the WAL is
the byte sequence `prepare_journal.rs` writes: `headers` and `offsets` are its two slot
arrays, `append` writes an entry's bytes at the end of the file, `scan` rebuilds the index
from the file when the journal is opened (`open` is `FileStorage::open`, which reads the
file, then `scan`), `drain` rewrites the file without the drained entries, and `entry_at`
reads an entry back from its offset with `Message::try_from`.

Storage calls succeed, except a read past the end of the file (`read_exact_at`); the poison
state, which only a failed storage call after `drain`'s rename can set, is left out. An error
is the text of the `io::Error` the source builds.
-/

namespace IggyCore.Journal.Wal

open IggyCore.Consensus IggyCore.Library

/-- `MAX_ENTRY_SIZE`: 64 MiB. -/
def maxEntrySize : Nat := 64 * 1024 * 1024

structure PrepareJournal where
  /-- The WAL's bytes; `file_len` is their count. -/
  file : List UInt8
  headers : List (Option PrepareHeader)
  /-- The offset in `file` of each slot's entry. -/
  offsets : List (Option Nat)
  lastOp : Option Nat
  snapshotOp : Nat
  headers_length : headers.length = slotCount
  offsets_length : offsets.length = slotCount

/-- A `RangeInclusive<u64>` of ops: `start..=last`. -/
structure OpRange where
  start : Nat
  last : Nat
  deriving DecidableEq, Repr

def OpRange.contains (ops : OpRange) (op : Nat) : Bool := ops.start ≤ op && op ≤ ops.last

/-- A call on the journal. -/
inductive Call
  | append (entry : Message PrepareHeader)
  | drain (ops : OpRange)

namespace PrepareJournal

/-- The index of a journal over `file` before `scan` has read anything. -/
def empty (file : List UInt8) (snapshotOp : Nat) : PrepareJournal :=
  ⟨file, List.replicate slotCount none, List.replicate slotCount none, none, snapshotOp,
    by simp, by simp⟩

/-- `last_op` after an entry of `op`: it only rises. -/
def raiseLastOp (lastOp : Option Nat) (op : Nat) : Option Nat :=
  match lastOp with
  | some current => if op > current then some op else some current
  | none => some op

/-- What `scan` and `append` both do with an entry at `offset`: its header and offset take
the op's slot, and `last_op` rises to its op. -/
def index (j : PrepareJournal) (header : PrepareHeader) (offset : Nat) : PrepareJournal :=
  { j with
    headers := j.headers.set (header.op % slotCount) (some header)
    offsets := j.offsets.set (header.op % slotCount) (some offset)
    lastOp := raiseLastOp j.lastOp header.op
    headers_length := by simp [j.headers_length]
    offsets_length := by simp [j.offsets_length] }

/-! ## Opening: the scan -/

/-- The message of the error `truncate_or_fail` refuses a repair with. -/
def midFileCorruptionMessage (pos : Nat) (reason : String) (trailing : Nat) : String :=
  s!"mid-file WAL corruption at pos {pos}: {reason}; {trailing} bytes follow " ++
    s!"(> MAX_ENTRY_SIZE {maxEntrySize}), refusing to truncate and discard committed entries"

/-- `truncate_or_fail`: cut the file at `pos`, unless more than `MAX_ENTRY_SIZE` bytes follow
it, which a torn final append cannot leave. -/
def truncateOrFail (file : List UInt8) (pos : Nat) (reason : String) :
    Except String (List UInt8) :=
  let trailing := file.length - pos
  if trailing > maxEntrySize then .error (midFileCorruptionMessage pos reason trailing)
  else .ok (file.take pos)

/-- A `truncate_or_fail` followed by `break`: the scan ends at `pos`. -/
def stopAt (j : PrepareJournal) (pos : Nat) (reason : String) :
    Except String (PrepareJournal × Nat) :=
  (truncateOrFail j.file pos reason).map fun file => ({ j with file := file }, pos)

/-- The loop of `scan` from `pos`. A complete entry moves `pos` past at least a header, so
the `file.length + 1` rounds `scan` gives it are never all used. -/
def scanLoop : Nat → PrepareJournal → Nat → Except String (PrepareJournal × Nat)
  | 0, j, pos => .ok (j, pos)
  | fuel + 1, j, pos =>
    if pos + prepareHeaderSize ≤ j.file.length then
      match PrepareHeader.tryFromBytes ((j.file.drop pos).take prepareHeaderSize) with
      | none => j.stopAt pos "corrupt header (invalid bit pattern)"
      | some header =>
        if header.command ≠ .prepare ∨ header.size < prepareHeaderSize ∨
            header.size > maxEntrySize then
          j.stopAt pos "corrupt or non-prepare entry"
        else if pos + header.size > j.file.length then
          j.stopAt pos "truncated entry at tail"
        else
          -- a later entry of the same slot overwrites this one
          scanLoop fuel (j.index header pos) (pos + header.size)
    else .ok (j, pos)

/-- `scan`: rebuild the index from the file, then cut off a tail too short for a header. -/
def scan (file : List UInt8) (snapshotOp : Nat) : Except String PrepareJournal := do
  let (j, pos) ← scanLoop (file.length + 1) (empty file snapshotOp) 0
  if pos < j.file.length then
    let file ← truncateOrFail j.file pos "leftover bytes shorter than a header"
    pure { j with file := file }
  else pure j

/-! ## Appending and reading -/

/-- The part of `append` after its check: the entry's bytes go at the end of the file, and
the entry is indexed at the old end. -/
def write (j : PrepareJournal) (entry : Message PrepareHeader) : PrepareJournal :=
  { j with file := j.file ++ entry.toBytes }.index entry.header j.file.length

/-- `Journal::append`: refuse to evict an entry above the snapshot watermark. -/
def append (j : PrepareJournal) (entry : Message PrepareHeader) : Except String PrepareJournal :=
  let header := entry.header
  match j.headers[header.op % slotCount]? with
  | some (some existing) =>
    if existing.op > j.snapshotOp then
      .error (Journal.PrepareJournal.slotCollisionMessage header.op existing.op j.snapshotOp)
    else .ok (j.write entry)
  | _ => .ok (j.write entry)

/-- `FileStorage::read_at`: exactly `len` bytes at `offset`, or the error of
`read_exact_at` at the end of the file. -/
def readAt (file : List UInt8) (offset len : Nat) : Except String (List UInt8) :=
  match sliceAt file offset len with
  | some buf => .ok buf
  | none => .error "failed to fill whole buffer"

/-- `Journal::header`: the header of `op` if its slot still holds that op. -/
def header (j : PrepareJournal) (op : Nat) : Option PrepareHeader :=
  match j.headers[op % slotCount]? with
  | some (some h) => if h.op = op then some h else none
  | _ => none

def previousHeader (j : PrepareJournal) (h : PrepareHeader) : Option PrepareHeader :=
  if h.op = 0 then none else j.header (h.op - 1)

/-- `entry_at`: the entry of `header`'s op, read back from its slot's offset. -/
def entryAt (j : PrepareJournal) (header : PrepareHeader) :
    Except String (Option (Message PrepareHeader)) :=
  let slot := header.op % slotCount
  match j.headers[slot]? with
  | some (some stored) =>
    if stored.op = header.op then
      match j.offsets[slot]? with
      | some (some offset) => do
        let buf ← readAt j.file offset stored.size
        let msg ← Message.tryFromBytes buf
        pure (some msg)
      | _ => .ok none
    else .ok none
  | _ => .ok none

/-- `Journal::entry`: `entry_at` with every failure read as `None`. -/
def entry (j : PrepareJournal) (header : PrepareHeader) : Option (Message PrepareHeader) :=
  match j.entryAt header with
  | .ok msg => msg
  | .error _ => none

/-! ## Draining -/

/-- The slots whose header and offset are both set, in slot order. -/
def indexed (j : PrepareJournal) : List (PrepareHeader × Nat) :=
  (List.range slotCount).filterMap fun slot =>
    match j.headers[slot]?.join, j.offsets[slot]?.join with
    | some h, some offset => some (h, offset)
    | _, _ => none

/-- `sort_unstable_by_key` on the op. The slots of one journal hold distinct ops, so the
order between equal keys, which an unstable sort leaves open, never arises. -/
def sortByOp (entries : List (PrepareHeader × Nat)) : List (PrepareHeader × Nat) :=
  entries.mergeSort fun a b => decide (a.1.op ≤ b.1.op)

/-- Read an indexed entry back: its `size` bytes at its offset, through `Message::try_from`. -/
def readEntry (j : PrepareJournal) (indexedEntry : PrepareHeader × Nat) :
    Except String (Message PrepareHeader) := do
  let buf ← readAt j.file indexedEntry.2 indexedEntry.1.size
  Message.tryFromBytes buf

/-- The journal after `drain`'s rename, over the new `file` of the `live` entries in op order:
each live entry at the sum of the sizes before it, the drained slots cleared, and the snapshot
watermark raised to the range's end. -/
def compact (j : PrepareJournal) (ops : OpRange) (live : List (PrepareHeader × Nat))
    (file : List UInt8) : PrepareJournal :=
  let offsets :=
    placeOffsetsFrom (fun e => e.1.op % slotCount) (fun e => e.1.size) j.offsets 0 live
  let drainedSlot : Option PrepareHeader → Bool := fun slot => slot.any fun h => ops.contains h.op
  { file := file
    headers := j.headers.map fun slot => if drainedSlot slot then none else slot
    offsets := List.zipWith (fun slot offset => if drainedSlot slot then none else offset)
      j.headers offsets
    lastOp := j.lastOp
    snapshotOp := if ops.last > j.snapshotOp then ops.last else j.snapshotOp
    headers_length := by simp [j.headers_length]
    offsets_length := by simp [offsets, j.headers_length, j.offsets_length] }

/-- `Journal::drain`: return the entries of `ops` in op order and rewrite the file as the
other entries in op order. -/
def drain (j : PrepareJournal) (ops : OpRange) :
    Except String (PrepareJournal × List (Message PrepareHeader)) := do
  let (toDrain, live) := j.indexed.partition fun e => ops.contains e.1.op
  let toDrain := sortByOp toDrain
  let live := sortByOp live
  -- the drained entries are read before the file is rewritten
  let drained ← toDrain.mapM j.readEntry
  let tmp ← live.mapM fun e => readAt j.file e.2 e.1.size
  pure (j.compact ops live tmp.flatten, drained)

/-- One call, with the entries it returns. -/
def call (j : PrepareJournal) : Call → Except String (PrepareJournal × List (Message PrepareHeader))
  | .append entry => (j.append entry).map fun j => (j, [])
  | .drain ops => j.drain ops

/-- A sequence of calls, stopping at the first that fails. -/
def run (j : PrepareJournal) (calls : List Call) :
    Except String (PrepareJournal × List (List (Message PrepareHeader))) :=
  runCollect call j calls

end PrepareJournal

end IggyCore.Journal.Wal
