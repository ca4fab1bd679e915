import IggyCore.Consensus.Replica
import IggyCore.Library.LittleEndian

/-!
# Prepares as bytes

A `PrepareHeader` is a `#[repr(C)]` record of 256 bytes that `bytemuck` casts to and from
bytes: `checksum`, `checksum_body` and `cluster` (`u128`), `size`, `view` and `release`
(`u32`), `command` and `replica` (`u8`), 66 reserved bytes, `client`, `parent` and
`request_checksum` (`u128`), `op`, `commit`, `timestamp` and `request` (`u64`), `operation`
(`u8`) and 7 bytes of padding, `namespace` (`u64`) and 32 reserved bytes, every integer
little-endian. The checked cast back (`try_from_bytes`) fails only on a command or operation
byte that is no discriminant. The model's header has no `checksum_body` and no reserved bytes:
they are written as zeros, which is what every producer writes, and skipped when read.

A prepare is its header's bytes followed by its body, `size` bytes in all, and
`Message::try_from` reads one back from a buffer.
-/

namespace IggyCore.Consensus

open IggyCore.Library

namespace Command2

/-- The `#[repr(u8)]` discriminant. -/
def toU8 : Command2 → Nat
  | reserved => 0 | ping => 1 | pong => 2 | pingClient => 3 | pongClient => 4
  | request => 5 | prepare => 6 | prepareOk => 7 | reply => 8 | commit => 9
  | startViewChange => 10 | doViewChange => 11 | startView => 12 | eviction => 13

/-- `CheckedBitPattern`: a byte up to 13 is a command. -/
def ofU8? : Nat → Option Command2
  | 0 => some reserved | 1 => some ping | 2 => some pong | 3 => some pingClient
  | 4 => some pongClient | 5 => some request | 6 => some prepare | 7 => some prepareOk
  | 8 => some reply | 9 => some commit | 10 => some startViewChange
  | 11 => some doViewChange | 12 => some startView | 13 => some eviction
  | _ => none

/-- The name `{:?}` prints. -/
def debugName : Command2 → String
  | reserved => "Reserved" | ping => "Ping" | pong => "Pong" | pingClient => "PingClient"
  | pongClient => "PongClient" | request => "Request" | prepare => "Prepare"
  | prepareOk => "PrepareOk" | reply => "Reply" | commit => "Commit"
  | startViewChange => "StartViewChange" | doViewChange => "DoViewChange"
  | startView => "StartView" | eviction => "Eviction"

@[simp] theorem ofU8?_toU8 (c : Command2) : ofU8? c.toU8 = some c := by
  cases c <;> rfl

theorem toU8_lt (c : Command2) : c.toU8 < 256 := by
  cases c <;> decide

end Command2

namespace Operation

def all : List Operation :=
  [reserved, register, nonReplicated, logout, createTopicWithAssignments,
    createPartitionsWithAssignments, createStream, updateStream, deleteStream, purgeStream,
    createTopic, updateTopic, deleteTopic, purgeTopic, createPartitions, deletePartitions,
    deleteSegments, createConsumerGroup, deleteConsumerGroup, createUser, updateUser, deleteUser,
    changePassword, updatePermissions, createPersonalAccessToken, deletePersonalAccessToken,
    sendMessages, storeConsumerOffset, deleteConsumerOffset, storeConsumerOffset2,
    deleteConsumerOffset2]

/-- `CheckedBitPattern`: a byte is an operation when it is one of the discriminants. -/
def ofU8? (b : Nat) : Option Operation := all.find? (·.toU8 = b)

@[simp] theorem ofU8?_toU8 (op : Operation) : ofU8? op.toU8 = some op := by
  cases op <;> rfl

theorem toU8_lt (op : Operation) : op.toU8 < 256 := by
  cases op <;> decide

end Operation

/-- Read a `width`-byte little-endian field off the front of a buffer. -/
def readField (width : Nat) (buf : List UInt8) : Nat × List UInt8 :=
  (ofLeBytes (buf.take width), buf.drop width)

theorem readField_leBytes (width n : Nat) (rest : List UInt8) :
    readField width (leBytes width n ++ rest) = (n % 256 ^ width, rest) := by
  rw [readField, List.take_left' (length_leBytes width n), List.drop_left' (length_leBytes width n),
    ofLeBytes_leBytes]

theorem readField_replicate (width : Nat) (rest : List UInt8) :
    (readField width (List.replicate width 0 ++ rest)).2 = rest :=
  List.drop_left' (List.length_replicate ..)

namespace PrepareHeader

/-- The header's 256 bytes. -/
def toBytes (h : PrepareHeader) : List UInt8 :=
  leBytes 16 h.checksum ++ (List.replicate 16 0 ++ (leBytes 16 h.cluster ++ (leBytes 4 h.size ++
    (leBytes 4 h.view ++ (leBytes 4 h.release ++ (leBytes 1 h.command.toU8 ++
    (leBytes 1 h.replica ++ (List.replicate 66 0 ++ (leBytes 16 h.client ++
    (leBytes 16 h.parent ++ (leBytes 16 h.requestChecksum ++ (leBytes 8 h.op ++
    (leBytes 8 h.commit ++ (leBytes 8 h.timestamp ++ (leBytes 8 h.request ++
    (leBytes 1 h.operation.toU8 ++ (List.replicate 7 0 ++ (leBytes 8 h.nspace ++
    List.replicate 32 0))))))))))))))))))

/-- `bytemuck::checked::try_from_bytes::<PrepareHeader>`: the fields in layout order. -/
def tryFromBytes (buf : List UInt8) : Option PrepareHeader :=
  if buf.length ≠ 256 then none
  else
    let (checksum, b) := readField 16 buf
    let (_, b) := readField 16 b
    let (cluster, b) := readField 16 b
    let (size, b) := readField 4 b
    let (view, b) := readField 4 b
    let (release, b) := readField 4 b
    let (commandByte, b) := readField 1 b
    let (replica, b) := readField 1 b
    let (_, b) := readField 66 b
    let (client, b) := readField 16 b
    let (parent, b) := readField 16 b
    let (requestChecksum, b) := readField 16 b
    let (op, b) := readField 8 b
    let (commit, b) := readField 8 b
    let (timestamp, b) := readField 8 b
    let (request, b) := readField 8 b
    let (operationByte, b) := readField 1 b
    let (_, b) := readField 7 b
    let (nspace, _) := readField 8 b
    match Command2.ofU8? commandByte, Operation.ofU8? operationByte with
    | some command, some operation =>
      some {
        checksum := checksum, cluster := cluster, size := size, view := view,
        release := release, command := command, replica := replica, client := client,
        parent := parent, requestChecksum := requestChecksum, request := request,
        commit := commit, op := op, timestamp := timestamp, operation := operation,
        nspace := nspace }
    | _, _ => none

/-- Every field within the width of its wire type. -/
structure Fits (h : PrepareHeader) : Prop where
  checksum : h.checksum < 256 ^ 16
  cluster : h.cluster < 256 ^ 16
  size : h.size < 256 ^ 4
  view : h.view < 256 ^ 4
  release : h.release < 256 ^ 4
  replica : h.replica < 256
  client : h.client < 256 ^ 16
  parent : h.parent < 256 ^ 16
  requestChecksum : h.requestChecksum < 256 ^ 16
  op : h.op < 256 ^ 8
  commit : h.commit < 256 ^ 8
  timestamp : h.timestamp < 256 ^ 8
  request : h.request < 256 ^ 8
  nspace : h.nspace < 256 ^ 8

@[simp] theorem length_toBytes (h : PrepareHeader) : h.toBytes.length = prepareHeaderSize := by
  unfold toBytes
  simp only [List.length_append, length_leBytes, List.length_replicate]
  rfl

/-- The cast back reads every field of a header that fits its layout. -/
theorem tryFromBytes_toBytes {h : PrepareHeader} (hfits : h.Fits) :
    tryFromBytes h.toBytes = some h := by
  have hlen : h.toBytes.length = 256 := length_toBytes h
  unfold tryFromBytes
  rw [if_neg (by omega)]
  unfold toBytes
  simp only [readField_leBytes, readField_replicate]
  -- each field reads back as itself modulo its width, which it fits
  simp only [Nat.mod_eq_of_lt hfits.checksum, Nat.mod_eq_of_lt hfits.cluster,
    Nat.mod_eq_of_lt hfits.size, Nat.mod_eq_of_lt hfits.view, Nat.mod_eq_of_lt hfits.release,
    Nat.mod_eq_of_lt (show h.replica < 256 ^ 1 by simpa using hfits.replica),
    Nat.mod_eq_of_lt hfits.client, Nat.mod_eq_of_lt hfits.parent,
    Nat.mod_eq_of_lt hfits.requestChecksum, Nat.mod_eq_of_lt hfits.op,
    Nat.mod_eq_of_lt hfits.commit, Nat.mod_eq_of_lt hfits.timestamp,
    Nat.mod_eq_of_lt hfits.request, Nat.mod_eq_of_lt hfits.nspace,
    Nat.mod_eq_of_lt (show h.command.toU8 < 256 ^ 1 by simpa using h.command.toU8_lt),
    Nat.mod_eq_of_lt (show h.operation.toU8 < 256 ^ 1 by simpa using h.operation.toU8_lt),
    Command2.ofU8?_toU8, Operation.ofU8?_toU8]

end PrepareHeader

namespace Message

/-- A prepare's bytes: its header, then its body. -/
def toBytes (e : Message PrepareHeader) : List UInt8 := e.header.toBytes ++ e.body

/-- A prepare as `Message` keeps it: a valid `Prepare` header whose fields fit their widths
and whose `size` counts the header and the body. -/
structure Framed (e : Message PrepareHeader) : Prop where
  command : e.header.command = .prepare
  fits : e.header.Fits
  size : e.header.size = prepareHeaderSize + e.body.length

/-- The `to_string` of `ConsensusError::InvalidCommand`. -/
def invalidCommandMessage (found : Command2) : String :=
  "invalid command: expected Prepare, found " ++ found.debugName

/-- `Message::<PrepareHeader>::try_from`, with the error's text: at least a header's bytes, a
header that casts and validates, and at least `size` bytes in all. -/
def tryFromBytes (bytes : List UInt8) : Except String (Message PrepareHeader) :=
  if bytes.length < prepareHeaderSize then .error (invalidCommandMessage .reserved)
  else
    match PrepareHeader.tryFromBytes (bytes.take prepareHeaderSize) with
    | none => .error "invalid bit pattern in header (enum discriminant out of range)"
    | some header =>
      if header.command ≠ .prepare then .error (invalidCommandMessage header.command)
      else if bytes.length < header.size then .error (invalidCommandMessage .reserved)
      else .ok ⟨header, bytes.drop prepareHeaderSize⟩

@[simp] theorem length_toBytes {e : Message PrepareHeader} (he : e.Framed) :
    e.toBytes.length = e.header.size := by
  rw [toBytes, List.length_append, PrepareHeader.length_toBytes, he.size]

/-- A framed prepare reads back from its own bytes. -/
theorem tryFromBytes_toBytes {e : Message PrepareHeader} (he : e.Framed) :
    tryFromBytes e.toBytes = .ok e := by
  have hheader : e.toBytes.take prepareHeaderSize = e.header.toBytes :=
    List.take_left' (PrepareHeader.length_toBytes _)
  have hbody : e.toBytes.drop prepareHeaderSize = e.body :=
    List.drop_left' (PrepareHeader.length_toBytes _)
  have hlen := length_toBytes he
  unfold tryFromBytes
  rw [if_neg (by rw [hlen, he.size]; omega), hheader, PrepareHeader.tryFromBytes_toBytes he.fits]
  simp only [he.command, ne_eq, not_true_eq_false, if_false, hlen, Nat.lt_irrefl, hbody]

end Message

end IggyCore.Consensus
