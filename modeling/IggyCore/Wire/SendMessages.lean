import IggyCore.Wire.Identifier

/-!
# The legacy `SendMessages` body

`SendMessagesEncoder::encode` of `core/binary_protocol/src/requests/messages/send_messages.rs`
writes a length-prefixed metadata block (stream, topic, partitioning, message count), an index
array of cumulative message sizes, then the messages: each a 64-byte header followed by its
payload and then its user headers. The server's converter reads this body back
(`IggyCore.Partitions.Legacy`).

`encode` casts every length to `u32` with `as`; `RawMessage.Fits` says when those casts are
exact, and `WirePartitioning.Valid` is the key length `encode` asserts.
-/

namespace IggyCore.Wire

open IggyCore.Library

/-! ## Partitioning -/

/-- `KIND_BALANCED`, `KIND_PARTITION_ID`, `KIND_MESSAGES_KEY` and `MAX_MESSAGES_KEY_LENGTH`. -/
def kindBalanced : UInt8 := 1
def kindPartitionId : UInt8 := 2
def kindMessagesKey : UInt8 := 3
def maxMessagesKeyLength : Nat := 255

inductive WirePartitioning
  | balanced
  | partitionId (id : UInt32)
  | messagesKey (key : List UInt8)
  deriving DecidableEq

namespace WirePartitioning

def encodedSize : WirePartitioning → Nat
  | balanced => 2
  | partitionId _ => 2 + 4
  | messagesKey key => 2 + key.length

/-- `encode`: kind byte, length byte, then the value. -/
def encode : WirePartitioning → List UInt8
  | balanced => [kindBalanced, 0]
  | partitionId id => kindPartitionId :: 4 :: putU32Le id
  | messagesKey key => kindMessagesKey :: UInt8.ofNat key.length :: key

/-- What `encode` asserts of a messages key, and `messages_key` checks: 1 to 255 bytes. -/
def Valid : WirePartitioning → Prop
  | messagesKey key => key ≠ [] ∧ key.length ≤ maxMessagesKeyLength
  | _ => True

instance : (p : WirePartitioning) → Decidable p.Valid
  | balanced => isTrue trivial
  | partitionId _ => isTrue trivial
  | messagesKey key => inferInstanceAs (Decidable (key ≠ [] ∧ key.length ≤ maxMessagesKeyLength))

@[simp] theorem length_encode (p : WirePartitioning) : p.encode.length = p.encodedSize := by
  cases p with
  | messagesKey key =>
    simp only [encode, encodedSize, List.length_cons]
    omega
  | _ => rfl

theorem encodedSize_le {p : WirePartitioning} (hp : p.Valid) :
    p.encodedSize ≤ 2 + maxMessagesKeyLength := by
  cases p with
  | messagesKey key => exact Nat.add_le_add_left hp.2 2
  | _ => simp [encodedSize, maxMessagesKeyLength]

end WirePartitioning

/-! ## Messages -/

/-- `WIRE_MESSAGE_HEADER_SIZE` and `WIRE_MESSAGE_INDEX_SIZE`. -/
def wireMessageHeaderSize : Nat := 64
def wireMessageIndexSize : Nat := 16

/-- `RawMessage`; the borrowed payload and user headers are lists here. -/
structure RawMessage where
  id : BitVec 128
  originTimestamp : UInt64
  headers : Option (List UInt8)
  payload : List UInt8
  deriving DecidableEq

namespace RawMessage

/-- `headers.map_or(0, len)`. -/
def headersLen (m : RawMessage) : Nat := (m.headers.map List.length).getD 0

def wireSize (m : RawMessage) : Nat := wireMessageHeaderSize + m.payload.length + m.headersLen

/-- `encode_header`: the 64-byte header, with checksum, offset, timestamp and reserved zero. -/
def encodeHeader (m : RawMessage) : List UInt8 :=
  putU64Le 0 ++ leBytes 16 m.id.toNat ++ putU64Le 0 ++ putU64Le 0 ++ putU64Le m.originTimestamp ++
    putU32Le (UInt32.ofNat m.headersLen) ++ putU32Le (UInt32.ofNat m.payload.length) ++ putU64Le 0

/-- What `encode` writes for one message: the same header bytes as `encode_header`, the payload,
then the user headers if there are any. -/
def encodeData (m : RawMessage) : List UInt8 := m.encodeHeader ++ m.payload ++ m.headers.getD []

/-- The lengths `encode` casts to `u32` are exact. -/
structure Fits (m : RawMessage) : Prop where
  payload_lt : m.payload.length < 2 ^ 32
  headersLen_lt : m.headersLen < 2 ^ 32

instance (m : RawMessage) : Decidable m.Fits :=
  decidable_of_iff (m.payload.length < 2 ^ 32 ∧ m.headersLen < 2 ^ 32)
    ⟨fun h => ⟨h.1, h.2⟩, fun h => ⟨h.1, h.2⟩⟩

@[simp] theorem length_headers_getD (m : RawMessage) : (m.headers.getD []).length = m.headersLen := by
  cases h : m.headers <;> simp [headersLen, h]

@[simp] theorem length_encodeHeader (m : RawMessage) :
    m.encodeHeader.length = wireMessageHeaderSize := by
  simp [encodeHeader, wireMessageHeaderSize]

@[simp] theorem length_encodeData (m : RawMessage) : m.encodeData.length = m.wireSize := by
  simp only [encodeData, List.length_append, length_encodeHeader, length_headers_getD, wireSize]

end RawMessage

/-! ## The body -/

namespace SendMessagesEncoder

/-- `metadata_inner`: what the metadata block holds after its own length. -/
def metadataInner (streamId topicId : WireIdentifier) (partitioning : WirePartitioning) : Nat :=
  streamId.encodedSize + topicId.encodedSize + partitioning.encodedSize + 4

/-- The index array: per message, zero, the cumulative size so far, zero. The size is a `u32`
and the additions wrap here; the server skips the array and reads only its length. -/
def encodeIndexes : UInt32 → List RawMessage → List UInt8
  | _, [] => []
  | cumulativeSize, msg :: messages =>
    let cumulativeSize := cumulativeSize + UInt32.ofNat msg.wireSize
    putU32Le 0 ++ putU32Le cumulativeSize ++ putU64Le 0 ++ encodeIndexes cumulativeSize messages

def encode (streamId topicId : WireIdentifier) (partitioning : WirePartitioning)
    (messages : List RawMessage) : List UInt8 :=
  putU32Le (UInt32.ofNat (metadataInner streamId topicId partitioning)) ++ streamId.encode ++
    topicId.encode ++ partitioning.encode ++ putU32Le (UInt32.ofNat messages.length) ++
    encodeIndexes 0 messages ++ messages.flatMap RawMessage.encodeData

def encodedSize (streamId topicId : WireIdentifier) (partitioning : WirePartitioning)
    (messages : List RawMessage) : Nat :=
  4 + metadataInner streamId topicId partitioning + messages.length * wireMessageIndexSize +
    (messages.map RawMessage.wireSize).sum

@[simp] theorem length_encodeIndexes (cumulativeSize : UInt32) (messages : List RawMessage) :
    (encodeIndexes cumulativeSize messages).length = messages.length * wireMessageIndexSize := by
  induction messages generalizing cumulativeSize with
  | nil => rfl
  | cons msg messages ih =>
    simp only [encodeIndexes, List.length_append, length_putU32Le, length_putU64Le, ih,
      List.length_cons, wireMessageIndexSize]
    ring

theorem length_flatMap_encodeData (messages : List RawMessage) :
    (messages.flatMap RawMessage.encodeData).length = (messages.map RawMessage.wireSize).sum := by
  induction messages with
  | nil => rfl
  | cons msg messages ih => simp [ih]

/-- `encoded_size` is the length of what `encode` writes. -/
theorem length_encode (streamId topicId : WireIdentifier) (partitioning : WirePartitioning)
    (messages : List RawMessage) :
    (encode streamId topicId partitioning messages).length =
      encodedSize streamId topicId partitioning messages := by
  simp only [encode, encodedSize, metadataInner, List.length_append, length_putU32Le,
    WireIdentifier.length_encode, WirePartitioning.length_encode, length_encodeIndexes,
    length_flatMap_encodeData]
  omega

/-- The metadata block's length fits its `u32` field. -/
theorem metadataInner_lt {streamId topicId : WireIdentifier} {partitioning : WirePartitioning}
    (hp : partitioning.Valid) : metadataInner streamId topicId partitioning < 2 ^ 32 := by
  have hs := streamId.valueLen_lt
  have ht := topicId.valueLen_lt
  have hpart := WirePartitioning.encodedSize_le hp
  simp only [metadataInner, WireIdentifier.encodedSize, maxMessagesKeyLength] at hpart ⊢
  omega

end SendMessagesEncoder

end IggyCore.Wire
