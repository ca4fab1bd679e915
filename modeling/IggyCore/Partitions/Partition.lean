import IggyCore.Partitions.Batch

/-!
# Appending batches to a partition

`IggyPartition::append_messages` (`core/partitions/src/iggy_partition.rs`) with
`stamp_prepare_for_persistence` and `convert_request_message` of
`core/server_common/src/send_messages2.rs`.

A `SendMessages` request reaches a partition's primary, passes `convert_request_message`,
is projected into a prepare and, on every replica, appended: `stamp_prepare_for_persistence`
writes the partition's next offset into the batch's `base_offset`, and the partition advances
its offset counter by the batch's `message_count`. The offsets the stored messages carry are
`base_offset + offset_delta`, read back through `decode_prepare_slice` as the journal does.

The partition keeps only what `append_messages` reads or writes: the offset counter and its
flag, the last segment's write position, the journal's info and the journal's entries. The
journal's `append` on storage is taken to succeed; the wall clock is a parameter.
-/

namespace IggyCore.Partitions

open IggyCore.Library IggyCore.Wire IggyCore.Consensus

/-- `PREPARE_SPLIT_POINT`: where the blob starts in a prepare's bytes. -/
def prepareSplitPoint : Nat := 512

/-- `stamp_prepare_for_persistence`: set the batch's base offset and timestamp and reseal it.
The prepare's bytes are its 256-byte header, then its body; the framing of the message bus
makes `size` their length, so the slice up to `total_size` never runs past them. -/
def stampPrepareForPersistence (hash : List UInt8 → UInt64) (message : Message PrepareHeader)
    (baseOffset baseTimestamp : Nat) :
    Except IggyError (Message PrepareHeader × SendMessages2Header × Nat) := do
  let totalSize := message.header.size
  if prepareHeaderSize + message.body.length < prepareSplitPoint ∨ totalSize < prepareSplitPoint then
    throw .invalidCommand
  let command ← SendMessages2Header.decode (message.body.take commandHeaderSize)
  let command := { command with
    baseOffset := UInt64.ofNat baseOffset, baseTimestamp := UInt64.ofNat baseTimestamp }
  let blob := (message.body.drop commandHeaderSize).take (totalSize - prepareSplitPoint)
  let command := { command with batchChecksum := calculateBatchChecksum hash command blob }
  pure (⟨message.header, command.encode ++ message.body.drop commandHeaderSize⟩, command,
    command.messageCount.toNat)

/-- `AppendResult`: the first and last offset given to the batch, and its message count. -/
structure AppendResult where
  startOffset : Nat
  endOffset : Nat
  messagesCount : Nat
  deriving DecidableEq, Repr

/-- The fields of `JournalInfo` that an append writes. -/
structure JournalInfo where
  currentOffset : Nat
  firstTimestamp : Nat
  endTimestamp : Nat
  maxTimestamp : Nat
  messagesCount : Nat
  size : Nat
  deriving DecidableEq, Repr

/-- What `append_messages` reads and writes of an `IggyPartition`. -/
structure PartitionLog where
  dirtyOffset : Nat
  shouldIncrementOffset : Bool
  /-- `current_position` of the last segment. -/
  segmentPosition : Nat
  /-- `journal.info`. -/
  journalInfo : JournalInfo
  /-- The journal's entries, oldest first. -/
  entries : List (Message PrepareHeader)
  deriving DecidableEq, Repr

/-- A partition as `IggyPartition::new` leaves it: no message yet. -/
def PartitionLog.empty : PartitionLog :=
  ⟨0, false, 0, ⟨0, 0, 0, 0, 0, 0⟩, []⟩

/-- `IggyPartition::append_messages`; `now` is the wall clock in microseconds. The partition
comes back with the result, also on an error: the offset counter is stored before the segment
position's `checked_add`, so that error leaves it advanced. -/
def appendMessages (hash : List UInt8 → UInt64) (now : Nat) (p : PartitionLog)
    (message : Message PrepareHeader) : PartitionLog × Except IggyError AppendResult :=
  if message.header.operation ≠ .sendMessages then (p, .error .cannotAppendMessage)
  else
    let dirtyOffset := if p.shouldIncrementOffset then p.dirtyOffset + 1 else 0
    match stampPrepareForPersistence hash message dirtyOffset now with
    | .error _ => (p, .error .cannotAppendMessage)
    | .ok (message, batch, count) =>
      if count = 0 then (p, .ok ⟨0, 0, 0⟩)
      else
        let batchSize := batch.totalSize
        let lastDirtyOffset := dirtyOffset + count - 1
        let p := { p with dirtyOffset := lastDirtyOffset, shouldIncrementOffset := true }
        if p.segmentPosition + batchSize ≥ 2 ^ 64 then (p, .error .cannotAppendMessage)
        else
          let journal := p.journalInfo
          let firstTimestamp :=
            if journal.firstTimestamp = 0 then batch.baseTimestamp.toNat else journal.firstTimestamp
          let journal : JournalInfo :=
            { currentOffset := lastDirtyOffset, firstTimestamp := firstTimestamp,
              endTimestamp := batch.baseTimestamp.toNat,
              maxTimestamp := max journal.maxTimestamp batch.baseTimestamp.toNat,
              messagesCount := journal.messagesCount + count, size := journal.size + batchSize }
          let p := { p with
            segmentPosition := p.segmentPosition + batchSize
            journalInfo := journal
            entries := p.entries ++ [message] }
          (p, .ok ⟨dirtyOffset, lastDirtyOffset, count⟩)

/-- The offsets of the messages in the stored batches, in append order, as the journal reads
them back: batches that `decode_prepare_slice` rejects yield nothing. -/
def storedOffsets (hash : List UInt8 → UInt64) (p : PartitionLog) : List Nat :=
  p.entries.flatMap fun m =>
    match decodePrepareSlice hash m with
    | .ok batch => batch.offsets
    | .error _ => []

/-- `convert_request_message` on a native batch: a body that passes `decode_request_slice` is
kept as it is. -/
def keepsNativeBatch (hash : List UInt8 → UInt64) (message : Message RequestHeader) : Bool :=
  match decodeRequestSlice hash message.body with
  | .ok _ => true
  | .error _ => false

/-! ## A sealed batch through the append path -/

section Sealed

variable {hash : List UInt8 → UInt64}

/-- The batch a stamp produces: the new base offset and timestamp, resealed over the same blob. -/
def restamp (hash : List UInt8 → UInt64) (h : SendMessages2Header) (blob : List UInt8)
    (baseOffset baseTimestamp : Nat) : SendMessages2Header :=
  let command := { h with
    baseOffset := UInt64.ofNat baseOffset, baseTimestamp := UInt64.ofNat baseTimestamp }
  { command with batchChecksum := calculateBatchChecksum hash command blob }

theorem restamp_sealed {b : BatchRef} (hb : b.Sealed hash) (baseOffset baseTimestamp : Nat) :
    (BatchRef.mk (restamp hash b.header b.blob baseOffset baseTimestamp) b.blob).Sealed hash :=
  ⟨hb.batchLength_eq, rfl⟩

/-- A prepare whose body is a sealed batch and whose `size` counts exactly its bytes. -/
structure CarriesBatch (hash : List UInt8 → UInt64) (m : Message PrepareHeader) (b : BatchRef) :
    Prop where
  sealed : b.Sealed hash
  body_eq : m.body = b.header.encode ++ b.blob
  size_eq : m.header.size = prepareHeaderSize + m.body.length

theorem CarriesBatch.length_body {m : Message PrepareHeader} {b : BatchRef}
    (hm : CarriesBatch hash m b) : m.body.length = commandHeaderSize + b.blob.length := by
  simp [hm.body_eq]

/-- Stamping a prepare whose body is a batch header followed by `rest`: the checksum is
recomputed over all of `rest`, up to the prepare's `size`, whatever the header announces. -/
theorem stampPrepareForPersistence_eq {m : Message PrepareHeader} {h : SendMessages2Header}
    {rest : List UInt8} (hbody : m.body = h.encode ++ rest)
    (hsize : m.header.size = prepareHeaderSize + m.body.length)
    (hle : commandHeaderSize ≤ h.batchLength.toNat) (baseOffset baseTimestamp : Nat) :
    stampPrepareForPersistence hash m baseOffset baseTimestamp =
      .ok (⟨m.header, (restamp hash h rest baseOffset baseTimestamp).encode ++ rest⟩,
        restamp hash h rest baseOffset baseTimestamp, h.messageCount.toNat) := by
  have hlen : m.body.length = commandHeaderSize + rest.length := by simp [hbody]
  have hfits : ¬(prepareHeaderSize + m.body.length < prepareSplitPoint ∨
      m.header.size < prepareSplitPoint) := by
    simp only [prepareHeaderSize, prepareSplitPoint, commandHeaderSize] at *
    omega
  have hdec : SendMessages2Header.decode (m.body.take commandHeaderSize) = .ok h := by
    rw [hbody, List.take_left' (SendMessages2Header.length_encode _)]
    simpa using SendMessages2Header.decode_encode h [] hle
  have hdrop : m.body.drop commandHeaderSize = rest := by
    rw [hbody, List.drop_left' (SendMessages2Header.length_encode _)]
  -- the slice up to `size` is everything after the header
  have hblob : rest.take (m.header.size - prepareSplitPoint) = rest := by
    rw [List.take_of_length_le]
    simp only [prepareHeaderSize, prepareSplitPoint, commandHeaderSize] at *
    omega
  simp only [stampPrepareForPersistence, hfits, if_false, hdec, hdrop, hblob, bind, Except.bind,
    pure, Except.pure]
  simp only [restamp]

theorem stampPrepareForPersistence_spec {m : Message PrepareHeader} {b : BatchRef}
    (hm : CarriesBatch hash m b) (baseOffset baseTimestamp : Nat) :
    stampPrepareForPersistence hash m baseOffset baseTimestamp =
      .ok (⟨m.header, (restamp hash b.header b.blob baseOffset baseTimestamp).encode ++ b.blob⟩,
        restamp hash b.header b.blob baseOffset baseTimestamp, b.header.messageCount.toNat) := by
  have hle : commandHeaderSize ≤ b.header.batchLength.toNat := by
    rw [hm.sealed.batchLength_eq]
    omega
  exact stampPrepareForPersistence_eq hm.body_eq hm.size_eq hle baseOffset baseTimestamp

/-- The stamped prepare carries the restamped batch. -/
theorem CarriesBatch.stamp {m : Message PrepareHeader} {b : BatchRef} (hm : CarriesBatch hash m b)
    (baseOffset baseTimestamp : Nat) :
    CarriesBatch hash ⟨m.header, (restamp hash b.header b.blob baseOffset baseTimestamp).encode ++
      b.blob⟩ ⟨restamp hash b.header b.blob baseOffset baseTimestamp, b.blob⟩ :=
  ⟨restamp_sealed hm.sealed baseOffset baseTimestamp, rfl, by
    rw [hm.size_eq, hm.length_body]
    simp⟩

/-- The journal reads back exactly the batch a prepare carries. -/
theorem decodePrepareSlice_of_carries {m : Message PrepareHeader} {b : BatchRef}
    (hm : CarriesBatch hash m b) : decodePrepareSlice hash m = .ok b := by
  have hsize := hm.size_eq
  have hok : ¬(m.header.size < prepareHeaderSize ∨
      prepareHeaderSize + m.body.length < m.header.size) := by omega
  have htake : m.body.take (m.header.size - prepareHeaderSize) = b.header.encode ++ b.blob ++ [] := by
    rw [hsize, Nat.add_sub_cancel_left, List.take_length, hm.body_eq, List.append_nil]
  simp only [decodePrepareSlice, hok, if_false, htake]
  exact decodeBatch_encode hm.sealed []

theorem keepsNativeBatch_of_sealed {b : BatchRef} (hb : b.Sealed hash) (header : RequestHeader) :
    keepsNativeBatch hash ⟨header, b.encode⟩ = true := by
  have hdec : decodeRequestSlice hash b.encode = .ok b := by
    simpa [decodeRequestSlice, BatchRef.encode] using decodeBatch_encode hb []
  simp [keepsNativeBatch, hdec]

/-- The offset `append_messages` gives the next batch. -/
def PartitionLog.nextOffset (p : PartitionLog) : Nat :=
  if p.shouldIncrementOffset then p.dirtyOffset + 1 else 0

/-- One append of a prepare that carries a non-empty batch: the batch is stamped with the next
offset, the counter advances by its message count, and the stamped prepare is stored. -/
theorem appendMessages_carries {p : PartitionLog} {m : Message PrepareHeader} {b : BatchRef}
    (hm : CarriesBatch hash m b) (hop : m.header.operation = .sendMessages)
    (hcount : b.header.messageCount.toNat ≠ 0)
    (hpos : p.segmentPosition + b.header.batchLength.toNat < 2 ^ 64) (now : Nat) :
    ∃ p', appendMessages hash now p m = (p', .ok ⟨p.nextOffset,
        p.nextOffset + b.header.messageCount.toNat - 1, b.header.messageCount.toNat⟩) ∧
      p'.dirtyOffset = p.nextOffset + b.header.messageCount.toNat - 1 ∧
      p'.shouldIncrementOffset = true ∧
      p'.journalInfo.currentOffset = p.nextOffset + b.header.messageCount.toNat - 1 ∧
      p'.entries = p.entries ++ [⟨m.header,
        (restamp hash b.header b.blob p.nextOffset now).encode ++ b.blob⟩] := by
  have hstamp := stampPrepareForPersistence_spec hm p.nextOffset now
  have hfits : ¬(p.segmentPosition + (restamp hash b.header b.blob p.nextOffset now).totalSize ≥
      2 ^ 64) := by
    simp only [SendMessages2Header.totalSize, restamp]
    omega
  refine ⟨?_, ?step, ?_, ?_, ?_, ?_⟩
  case step =>
    simp only [appendMessages, hop, ne_eq, not_true_eq_false, if_false]
    rw [← PartitionLog.nextOffset, hstamp]
    simp only [restamp] at hfits ⊢
    simp only [hcount, if_false, hfits]
    rfl
  all_goals rfl

/-- Storing a prepare that carries a batch adds that batch's offsets after the others. -/
theorem storedOffsets_append {p p' : PartitionLog} {m : Message PrepareHeader} {b : BatchRef}
    (hm : CarriesBatch hash m b) (hp' : p'.entries = p.entries ++ [m]) :
    storedOffsets hash p' = storedOffsets hash p ++ b.offsets := by
  simp [storedOffsets, hp', decodePrepareSlice_of_carries hm]

/-- A batch followed by bytes its `batch_length` does not cover passes `decode_request_slice`,
so `convert_request_message` keeps the request. Stamping its prepare hashes those bytes into the
batch checksum, and `decode_prepare_slice`, which hashes only the `blob_len` bytes, rejects the
stamped prepare unless the two hashes agree. -/
theorem stamp_breaks_trailing_bytes {b : BatchRef} (hb : b.Sealed hash) (extra : List UInt8)
    (s : VsrConsensus) (request : RequestHeader)
    (hsize : request.size = prepareHeaderSize + (b.encode ++ extra).length)
    (now baseOffset baseTimestamp : Nat)
    (hdiff : calculateBatchChecksum hash
        { b.header with
          baseOffset := UInt64.ofNat baseOffset, baseTimestamp := UInt64.ofNat baseTimestamp }
        (b.blob ++ extra) ≠
      calculateBatchChecksum hash
        { b.header with
          baseOffset := UInt64.ofNat baseOffset, baseTimestamp := UInt64.ofNat baseTimestamp }
        b.blob) :
    keepsNativeBatch hash ⟨request, b.encode ++ extra⟩ = true ∧
      ∃ stamped, stampPrepareForPersistence hash (project s now ⟨request, b.encode ++ extra⟩).2
          baseOffset baseTimestamp =
          .ok (stamped, restamp hash b.header (b.blob ++ extra) baseOffset baseTimestamp,
            b.header.messageCount.toNat) ∧
        decodePrepareSlice hash stamped = .error (.invalidBatchChecksum
          (restamp hash b.header (b.blob ++ extra) baseOffset baseTimestamp).batchChecksum.toNat
          (calculateBatchChecksum hash
            { b.header with
              baseOffset := UInt64.ofNat baseOffset, baseTimestamp := UInt64.ofNat baseTimestamp }
            b.blob).toNat
          (UInt64.ofNat baseOffset).toNat) := by
  have hkeep : decodeRequestSlice hash (b.encode ++ extra) = .ok b := by
    simpa [decodeRequestSlice, BatchRef.encode] using decodeBatch_encode hb extra
  have hle : commandHeaderSize ≤ b.header.batchLength.toNat := by
    rw [hb.batchLength_eq]
    omega
  -- the projected prepare keeps the request's size and body
  have hbody : (project s now ⟨request, b.encode ++ extra⟩).2.body =
      b.header.encode ++ (b.blob ++ extra) := by
    simp [project, BatchRef.encode]
  have hsize' : (project s now ⟨request, b.encode ++ extra⟩).2.header.size =
      prepareHeaderSize + (project s now ⟨request, b.encode ++ extra⟩).2.body.length := by
    simp only [project, prepareHeader]
    exact hsize
  refine ⟨by simp [keepsNativeBatch, hkeep], _,
    stampPrepareForPersistence_eq hbody hsize' hle baseOffset baseTimestamp, ?_⟩
  -- the journal reads the whole stamped body and checks the first `blob_len` bytes only
  have htake : ((restamp hash b.header (b.blob ++ extra) baseOffset baseTimestamp).encode ++
      (b.blob ++ extra)).take
      ((project s now ⟨request, b.encode ++ extra⟩).2.header.size - prepareHeaderSize) =
      (restamp hash b.header (b.blob ++ extra) baseOffset baseTimestamp).encode ++ b.blob ++
        extra := by
    rw [hsize', hbody]
    simp
  have hok : ¬((project s now ⟨request, b.encode ++ extra⟩).2.header.size < prepareHeaderSize ∨
      prepareHeaderSize + ((restamp hash b.header (b.blob ++ extra) baseOffset
        baseTimestamp).encode ++ (b.blob ++ extra)).length <
        (project s now ⟨request, b.encode ++ extra⟩).2.header.size) := by
    rw [hsize', hbody]
    simp
  simp only [decodePrepareSlice, hok, if_false, htake]
  rw [decodeBatch_header_encode (by simpa [restamp] using hb.batchLength_eq)]
  -- the checksum hashes the header's fields but not the checksum itself
  have hne : (restamp hash b.header (b.blob ++ extra) baseOffset baseTimestamp).batchChecksum ≠
      calculateBatchChecksum hash (restamp hash b.header (b.blob ++ extra) baseOffset baseTimestamp)
        b.blob := hdiff
  rw [if_neg hne]
  rfl

end Sealed

/-- A hash that tells byte strings of different lengths apart. -/
def lengthHash (bytes : List UInt8) : UInt64 := UInt64.ofNat bytes.length

/-- An empty batch followed by one stray byte. -/
def trailingByteRequest : Message RequestHeader :=
  ⟨⟨1, 256 + 257, 0, 0, .request, 0, 7, 0, 0, 1, .sendMessages, 1, 1⟩,
    (sealBatch lengthHash ⟨0, 0, 0, 0, 0, 0, 0⟩ []).encode ++ [0]⟩

theorem stamp_breaks_trailing_bytes_one_byte :
    keepsNativeBatch lengthHash trailingByteRequest = true ∧
      ∃ stamped batch count, stampPrepareForPersistence lengthHash
          (project (VsrConsensus.fresh 1 0 3 1 (by decide)).init 0 trailingByteRequest).2 0 0 =
          .ok (stamped, batch, count) ∧
        ∃ e, decodePrepareSlice lengthHash stamped = .error e := by
  obtain ⟨hkeep, stamped, hstamp, hdecode⟩ := stamp_breaks_trailing_bytes
    (@sealBatch_sealed lengthHash ⟨0, 0, 0, 0, 0, 0, 0⟩ [] (by decide)) [0]
    (VsrConsensus.fresh 1 0 3 1 (by decide)).init ⟨1, 256 + 257, 0, 0, .request, 0, 7, 0, 0, 1,
      .sendMessages, 1, 1⟩ (by simp [BatchRef.encode, sealBatch, prepareHeaderSize, commandHeaderSize])
    0 0 0
    (by decide)
  exact ⟨hkeep, stamped, _, _, hstamp, _, hdecode⟩

/-- A client's native batch whose one message claims offset delta 5: the partition's primary
keeps the request as it is, every replica appends it as the partition's first message and
advances the offset counter to 0, and the stored message reads back at offset 5. -/
theorem native_batch_offset_not_dense (hash : List UInt8 → UInt64) :
    keepsNativeBatch hash
        ⟨⟨1, 256 + 305, 0, 0, .request, 0, 7, 0, 0, 1, .sendMessages, 1, 1⟩,
          (sealBatch hash ⟨0, 0, 0, 0, 0, 0, 1⟩
            (MessageHeader.encode ⟨0, 1, 5, 0, 0, 1⟩ ++ [42])).encode⟩ = true ∧
    ∃ p, appendMessages hash 0 PartitionLog.empty
        (project (VsrConsensus.fresh 1 0 3 1 (by decide)).init 0
          ⟨⟨1, 256 + 305, 0, 0, .request, 0, 7, 0, 0, 1, .sendMessages, 1, 1⟩,
            (sealBatch hash ⟨0, 0, 0, 0, 0, 0, 1⟩
              (MessageHeader.encode ⟨0, 1, 5, 0, 0, 1⟩ ++ [42])).encode⟩).2 =
        (p, .ok ⟨0, 0, 1⟩) ∧
      p.dirtyOffset = 0 ∧ storedOffsets hash p = [5] := by
  -- the client's blob: one message header claiming offset delta 5, then a one-byte payload
  set blob := MessageHeader.encode ⟨0, 1, 5, 0, 0, 1⟩ ++ [42] with hblob
  have hlen : blob.length = 49 := by simp [hblob, MessageHeader.encode]
  set b := sealBatch hash ⟨0, 0, 0, 0, 0, 0, 1⟩ blob with hbdef
  have hb : b.Sealed hash := sealBatch_sealed hash _ (by rw [hlen]; decide)
  refine ⟨keepsNativeBatch_of_sealed hb _, ?_⟩
  -- projecting the request keeps its body, so the prepare carries the client's batch
  have hm : CarriesBatch hash (project (VsrConsensus.fresh 1 0 3 1 (by decide)).init 0
      ⟨⟨1, 256 + 305, 0, 0, .request, 0, 7, 0, 0, 1, .sendMessages, 1, 1⟩, b.encode⟩).2 b := by
    refine ⟨hb, rfl, ?_⟩
    simp [project, prepareHeader, BatchRef.encode, hbdef, sealBatch, hlen, commandHeaderSize,
      prepareHeaderSize]
  obtain ⟨p, happ, hdirty, -, -, hentries⟩ :=
    appendMessages_carries (p := PartitionLog.empty) hm rfl (by simp [hbdef, sealBatch])
      (by simp [PartitionLog.empty, hbdef, sealBatch, hlen, commandHeaderSize]) 0
  have hcount : b.header.messageCount.toNat = 1 := by simp [hbdef, sealBatch]
  refine ⟨p, ?_, ?_, ?_⟩
  · simpa [PartitionLog.nextOffset, PartitionLog.empty, hcount] using happ
  · simpa [PartitionLog.nextOffset, PartitionLog.empty, hcount] using hdirty
  · -- the stored batch is the client's, stamped at offset 0: its message reads back at 0 + 5
    rw [storedOffsets_append (hm.stamp _ 0) hentries]
    simp only [storedOffsets, PartitionLog.empty, List.flatMap_nil, List.nil_append,
      PartitionLog.nextOffset, Bool.false_eq_true, if_false]
    have hiter : iterWithOffsets blob 0 = [⟨⟨0, 1, 5, 0, 0, 1⟩, [], [42], 0, 49⟩] := by
      rw [iterWithOffsets]
      simp [hblob, MessageHeader.decode, readLe, sliceAt, MessageHeader.encode, leBytes,
        ofLeBytes, messageHeaderSize]
      -- the next message would start at the end of the blob
      have hsize : MessageHeader.totalSize ⟨0, 1, 5, 0, 0, 1⟩ = 49 := rfl
      rw [hsize, iterWithOffsets]
      simp
    have hbb : b.blob = blob := rfl
    simp [BatchRef.offsets, hbb, hiter, restamp]

end IggyCore.Partitions
