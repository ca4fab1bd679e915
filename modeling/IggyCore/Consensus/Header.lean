import Mathlib.Order.Basic

/-!
# Consensus wire headers

The header records of `core/binary_protocol/src/consensus/header.rs` that a replica's
handlers read, with the `validate` check each one runs when the message bus decodes it.
Fields no modelled function reads (padding, `reserved`, `checksum_body`) are left out.
Integer widths (`u8` replica ids, `u32` views, `u64` ops, `u128` clients and checksums)
become `Nat`, and each id keeps the full range its wire type allows. Views are where this
matters: the code's `view + 1` is a `u32` sum, so a replica that accepts a `StartView` at
`u32::MAX` and then times out wraps (or panics in a debug build), while the model goes on
to `2 ^ 32`. The model agrees with the code while every view stays below `2 ^ 32`, and the
view-change lemmas that rely on it carry that bound.
-/

namespace IggyCore.Consensus

/-- `Command2`, the frame kind of every consensus header. -/
inductive Command2
  | reserved | ping | pong | pingClient | pongClient
  | request | prepare | prepareOk | reply | commit
  | startViewChange | doViewChange | startView | eviction
  deriving DecidableEq, Repr

/-- `Operation`, what a request or prepare asks the state machine to do. -/
inductive Operation
  | reserved | register | nonReplicated | logout
  | createTopicWithAssignments | createPartitionsWithAssignments
  | createStream | updateStream | deleteStream | purgeStream
  | createTopic | updateTopic | deleteTopic | purgeTopic
  | createPartitions | deletePartitions | deleteSegments
  | createConsumerGroup | deleteConsumerGroup
  | createUser | updateUser | deleteUser | changePassword | updatePermissions
  | createPersonalAccessToken | deletePersonalAccessToken
  | sendMessages | storeConsumerOffset | deleteConsumerOffset
  | storeConsumerOffset2 | deleteConsumerOffset2
  deriving DecidableEq, Repr

namespace Operation

/-- The `#[repr(u8)]` discriminant. -/
def toU8 : Operation → Nat
  | reserved => 0 | register => 1 | nonReplicated => 2 | logout => 3
  | createTopicWithAssignments => 64 | createPartitionsWithAssignments => 65
  | createStream => 128 | updateStream => 129 | deleteStream => 130 | purgeStream => 131
  | createTopic => 132 | updateTopic => 133 | deleteTopic => 134 | purgeTopic => 135
  | createPartitions => 136 | deletePartitions => 137 | deleteSegments => 138
  | createConsumerGroup => 139 | deleteConsumerGroup => 140
  | createUser => 141 | updateUser => 142 | deleteUser => 143 | changePassword => 144
  | updatePermissions => 145 | createPersonalAccessToken => 146
  | deletePersonalAccessToken => 147
  | sendMessages => 160 | storeConsumerOffset => 161 | deleteConsumerOffset => 162
  | storeConsumerOffset2 => 164 | deleteConsumerOffset2 => 165

/-- `INTERNAL_START <= op < METADATA_START`: replica-only operations. -/
def isInternal (op : Operation) : Bool := 64 ≤ op.toU8 && op.toU8 < 128

def isClientAllowed (op : Operation) : Bool := op != reserved && !op.isInternal

end Operation

/-- The `ConsensusError` variants raised by the checks modelled here. -/
inductive ConsensusError
  | invalidCommand (expected found : Command2)
  | invalidField (message : String)
  | commitInvalidCommand2
  | commitInvalidSize (size : Nat)
  | replyInvalidCommand2
  deriving DecidableEq, Repr

/-- Client to primary. -/
structure RequestHeader where
  cluster : Nat
  size : Nat
  view : Nat
  release : Nat
  command : Command2
  replica : Nat
  client : Nat
  requestChecksum : Nat
  timestamp : Nat
  request : Nat
  operation : Operation
  nspace : Nat
  session : Nat
  deriving DecidableEq, Repr

/-- Primary to backups: one log entry. `checksum` and `parent` chain the log. -/
structure PrepareHeader where
  checksum : Nat
  cluster : Nat
  size : Nat
  view : Nat
  release : Nat
  command : Command2
  replica : Nat
  client : Nat
  parent : Nat
  requestChecksum : Nat
  request : Nat
  commit : Nat
  op : Nat
  timestamp : Nat
  operation : Operation
  nspace : Nat
  deriving DecidableEq, Repr

/-- Replica to primary: acknowledge a prepare. -/
structure PrepareOkHeader where
  cluster : Nat
  view : Nat
  command : Command2
  replica : Nat
  parent : Nat
  prepareChecksum : Nat
  op : Nat
  commit : Nat
  timestamp : Nat
  request : Nat
  operation : Operation
  nspace : Nat
  deriving DecidableEq, Repr

/-- Primary to client. `commit` is the prepare's op, which drives eviction order. -/
structure ReplyHeader where
  cluster : Nat
  size : Nat
  view : Nat
  release : Nat
  command : Command2
  replica : Nat
  requestChecksum : Nat
  client : Nat
  op : Nat
  commit : Nat
  timestamp : Nat
  request : Nat
  operation : Operation
  nspace : Nat
  deriving DecidableEq, Repr

/-- Primary heartbeat. -/
structure CommitHeader where
  size : Nat
  view : Nat
  command : Command2
  replica : Nat
  timestampMonotonic : Nat
  commit : Nat
  nspace : Nat
  deriving DecidableEq, Repr

structure StartViewChangeHeader where
  view : Nat
  release : Nat
  command : Command2
  replica : Nat
  nspace : Nat
  deriving DecidableEq, Repr

/-- A vote for the new view: the sender's `log_view`, head op and executed commit. -/
structure DoViewChangeHeader where
  view : Nat
  release : Nat
  command : Command2
  replica : Nat
  op : Nat
  commit : Nat
  nspace : Nat
  logView : Nat
  deriving DecidableEq, Repr

structure StartViewHeader where
  view : Nat
  release : Nat
  command : Command2
  replica : Nat
  op : Nat
  commit : Nat
  nspace : Nat
  deriving DecidableEq, Repr

/-! ## `ConsensusHeader::validate` -/

def RequestHeader.validate (h : RequestHeader) : Except ConsensusError Unit :=
  if h.command != .request then .error (.invalidCommand .request h.command)
  else if h.client == 0 then .error (.invalidField "request: client must be != 0")
  else if h.operation == .register then
    if h.session != 0 then .error (.invalidField "register: session must be 0")
    else if h.request != 0 then .error (.invalidField "register: request must be 0")
    else .ok ()
  else if h.operation != .reserved then
    if h.session == 0 then .error (.invalidField "non-register: session must be > 0")
    else if h.request == 0 then .error (.invalidField "non-register: request must be > 0")
    else .ok ()
  else .ok ()

def PrepareHeader.validate (h : PrepareHeader) : Except ConsensusError Unit :=
  if h.command != .prepare then .error (.invalidCommand .prepare h.command) else .ok ()

def PrepareOkHeader.validate (h : PrepareOkHeader) : Except ConsensusError Unit :=
  if h.command != .prepareOk then .error (.invalidCommand .prepareOk h.command) else .ok ()

def ReplyHeader.validate (h : ReplyHeader) : Except ConsensusError Unit :=
  if h.command != .reply then .error .replyInvalidCommand2 else .ok ()

def CommitHeader.validate (h : CommitHeader) : Except ConsensusError Unit :=
  if h.command != .commit then .error .commitInvalidCommand2
  else if h.size != 256 then .error (.commitInvalidSize h.size)
  else .ok ()

def StartViewChangeHeader.validate (h : StartViewChangeHeader) : Except ConsensusError Unit :=
  if h.command != .startViewChange then .error (.invalidCommand .startViewChange h.command)
  else if h.release != 0 then .error (.invalidField "release != 0")
  else .ok ()

def DoViewChangeHeader.validate (h : DoViewChangeHeader) : Except ConsensusError Unit :=
  if h.command != .doViewChange then .error (.invalidCommand .doViewChange h.command)
  else if h.release != 0 then .error (.invalidField "release must be 0")
  else if h.logView > h.view then .error (.invalidField "log_view cannot exceed view")
  else if h.commit > h.op then .error (.invalidField "commit cannot exceed op")
  else .ok ()

def StartViewHeader.validate (h : StartViewHeader) : Except ConsensusError Unit :=
  if h.command != .startView then .error (.invalidCommand .startView h.command)
  else if h.release != 0 then .error (.invalidField "release must be 0")
  else if h.commit > h.op then .error (.invalidField "commit cannot exceed op")
  else .ok ()

/-- No `validate` looks at the sender's `replica` field: any `u8` passes. -/
theorem StartViewChangeHeader.validate_replica (h : StartViewChangeHeader) (r : Nat) :
    { h with replica := r }.validate = h.validate := rfl

theorem DoViewChangeHeader.validate_replica (h : DoViewChangeHeader) (r : Nat) :
    { h with replica := r }.validate = h.validate := rfl

theorem PrepareOkHeader.validate_replica (h : PrepareOkHeader) (r : Nat) :
    { h with replica := r }.validate = h.validate := rfl

end IggyCore.Consensus
