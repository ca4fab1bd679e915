import IggyCore.Wire.Identifier
import IggyCore.Library.Run

/-!
# A request with passwords on the wire

`ChangePasswordRequest` (`core/binary_protocol/src/requests/users/change_password.rs`): a user
identifier and two passwords. A password is a plain `String`, not a `WireName`: nothing bounds
its length, and the encoder writes that length as `len() as u8`, which keeps only the low byte.
The decoder reads the byte back as the length, so a password of 256 bytes or more is read back
as a shorter one, and the rest of its bytes are taken for the next field.

The other user requests are kept as the records the users state machine reads, with the
permissions they carry and the encoder of `UserDetailsResponse`, the reply to `CreateUser`.
-/

namespace IggyCore.Wire

open IggyCore.Library

/-- `read_str` returns a string of exactly the bytes it was asked for. -/
theorem utf8ByteSize_of_readStr {buf : List UInt8} {pos len : Nat} {s : String}
    (h : readStr buf pos len = .ok s) : s.utf8ByteSize = len := by
  unfold readStr at h
  cases hb : readBytes buf pos len with
  | error e =>
    rw [hb] at h
    cases h
  | ok bytes =>
    rw [hb] at h
    have hlen : bytes.length = len := by
      unfold readBytes at hb
      split at hb
      · cases hb
        exact (sliceAt_length ‹_›).1
      · cases hb
    simp only [bind, Except.bind] at h
    split at h
    · rename_i str hstr
      cases h
      unfold String.fromUTF8? at hstr
      split at hstr
      · cases hstr
        simpa [String.fromUTF8, String.utf8ByteSize_ofByteArray, ByteArray.size] using hlen
      · cases hstr
    · cases h

/-- `ChangePasswordRequest`: `[user_id][current_password_len:u8][current_password]`
`[new_password_len:u8][new_password]`. -/
structure ChangePasswordRequest where
  userId : WireIdentifier
  currentPassword : String
  newPassword : String
  deriving DecidableEq

namespace ChangePasswordRequest

/-- A password as `put_u8(len() as u8)` and `put_slice(as_bytes())` write it. -/
def encodePassword (password : String) : List UInt8 :=
  UInt8.ofNat password.utf8ByteSize :: utf8Bytes password

def encode (r : ChangePasswordRequest) : List UInt8 :=
  r.userId.encode ++ encodePassword r.currentPassword ++ encodePassword r.newPassword

def encodedSize (r : ChangePasswordRequest) : Nat :=
  r.userId.encodedSize + 1 + r.currentPassword.utf8ByteSize + 1 + r.newPassword.utf8ByteSize

def decode (buf : List UInt8) : Except WireError (ChangePasswordRequest × Nat) := do
  let (userId, pos) ← WireIdentifier.decode buf
  let currentLen := (← readU8 buf pos).toNat
  let pos := pos + 1
  let currentPassword ← readStr buf pos currentLen
  let pos := pos + currentLen
  let newLen := (← readU8 buf pos).toNat
  let pos := pos + 1
  let newPassword ← readStr buf pos newLen
  let pos := pos + newLen
  pure (⟨userId, currentPassword, newPassword⟩, pos)

@[simp] theorem length_encodePassword (password : String) :
    (encodePassword password).length = 1 + password.utf8ByteSize := by
  simp [encodePassword, Nat.add_comm]

theorem length_encode (r : ChangePasswordRequest) : r.encode.length = r.encodedSize := by
  simp only [encode, List.length_append, WireIdentifier.length_encode, length_encodePassword,
    encodedSize]
  omega

/-- A password of fewer than 256 bytes keeps its length in the length byte. -/
theorem readPassword_of_suffixAt {buf rest : List UInt8} {pos : Nat} {password : String}
    (h : SuffixAt buf pos (encodePassword password ++ rest))
    (hlen : password.utf8ByteSize < 256) :
    readU8 buf pos = .ok (UInt8.ofNat password.utf8ByteSize) ∧
      (UInt8.ofNat password.utf8ByteSize).toNat = password.utf8ByteSize ∧
      readStr buf (pos + 1) password.utf8ByteSize = .ok password ∧
      SuffixAt buf (pos + 1 + password.utf8ByteSize) rest := by
  have h1 : SuffixAt buf (pos + 1) (utf8Bytes password ++ rest) := h.skip_cons
  refine ⟨readU8_of_suffixAt h, by simp; omega, readStr_of_suffixAt h1, ?_⟩
  simpa using h1.skip

/-- Passwords of at most 255 bytes read back, whatever follows the request. -/
theorem decode_encode (r : ChangePasswordRequest) (rest : List UInt8)
    (hcurrent : r.currentPassword.utf8ByteSize < 256) (hnew : r.newPassword.utf8ByteSize < 256) :
    decode (r.encode ++ rest) = .ok (r, r.encodedSize) := by
  have hid := WireIdentifier.decode_encode r.userId
    (encodePassword r.currentPassword ++ encodePassword r.newPassword ++ rest)
  have h0 : SuffixAt (r.encode ++ rest) r.userId.encodedSize
      (encodePassword r.currentPassword ++ (encodePassword r.newPassword ++ rest)) :=
    ⟨r.userId.encode, by simp, by simp [encode]⟩
  obtain ⟨hc₁, hc₂, hc₃, h1⟩ := readPassword_of_suffixAt h0 hcurrent
  obtain ⟨hn₁, hn₂, hn₃, -⟩ := readPassword_of_suffixAt h1 hnew
  simp only [List.append_assoc] at hid
  simp only [decode, encode, List.append_assoc] at hc₁ hc₃ hn₁ hn₃ ⊢
  simp only [hid, bind, Except.bind, hc₁, hc₂, hc₃, hn₁, hn₂, hn₃, pure, Except.pure, encodedSize]

/-- The decoder takes the current password's length from the length byte: whatever it returns
carries a current password of the original length modulo 256. -/
theorem decode_currentPassword_length (r : ChangePasswordRequest) (rest : List UInt8)
    {r' : ChangePasswordRequest} {consumed : Nat}
    (hdec : decode (r.encode ++ rest) = .ok (r', consumed)) :
    r'.currentPassword.utf8ByteSize = r.currentPassword.utf8ByteSize % 256 := by
  have hid := WireIdentifier.decode_encode r.userId
    (encodePassword r.currentPassword ++ encodePassword r.newPassword ++ rest)
  have h0 : SuffixAt (r.encode ++ rest) r.userId.encodedSize
      (encodePassword r.currentPassword ++ (encodePassword r.newPassword ++ rest)) :=
    ⟨r.userId.encode, by simp, by simp [encode]⟩
  have hbyte := readU8_of_suffixAt h0
  simp only [decode, encode, List.append_assoc] at hid hbyte hdec
  rw [hid, bind_ok] at hdec
  simp only [hbyte, bind_ok] at hdec
  -- the result carries whatever the read of the current password returned
  obtain ⟨current, hcur, hdec⟩ := bind_eq_ok hdec
  obtain ⟨newLen, -, hdec⟩ := bind_eq_ok hdec
  obtain ⟨newPassword, -, hdec⟩ := bind_eq_ok hdec
  cases hdec
  simpa using utf8ByteSize_of_readStr hcur

/-- A request whose current password has 256 bytes or more never decodes back to itself. -/
theorem change_password_round_trip_fails (r : ChangePasswordRequest) (rest : List UInt8)
    (hlong : 256 ≤ r.currentPassword.utf8ByteSize) :
    decode (r.encode ++ rest) ≠ .ok (r, r.encodedSize) := by
  intro hdec
  have hlen := decode_currentPassword_length r rest hdec
  have hlt : r.currentPassword.utf8ByteSize % 256 < 256 := Nat.mod_lt _ (by decide)
  omega

/-- Sixty-four ASCII bytes. -/
def ascii64 : String := "aaaaaaaaaaaaaaaaaaaaaaaaaaaaaaaaaaaaaaaaaaaaaaaaaaaaaaaaaaaaaaaa"

/-- A password of 256 bytes, one more than the length byte holds. -/
def password256 : String := ascii64 ++ ascii64 ++ ascii64 ++ ascii64

theorem change_password_round_trip_fails_at_256 :
    256 ≤ password256.utf8ByteSize ∧
      decode ((mk (.numeric 1) password256 "").encode ++ []) ≠
        .ok (mk (.numeric 1) password256 "", (mk (.numeric 1) password256 "").encodedSize) := by
  have h64 : ascii64.utf8ByteSize = 64 := by decide
  have hsize : password256.utf8ByteSize = 256 := by
    simp only [password256, String.utf8ByteSize_append, h64]
  exact ⟨hsize.ge, change_password_round_trip_fails (mk (.numeric 1) password256 "") [] hsize.ge⟩

end ChangePasswordRequest

/-! ## Permissions and the other user requests -/

/-- `bool_to_u8`. -/
def boolToU8 (b : Bool) : UInt8 := if b then 1 else 0

/-- The items of a `HAS_NEXT`/`NO_NEXT` chain after its first byte: each item followed by
`HAS_NEXT` (1), the last by `NO_NEXT` (0). -/
def chainItems {α : Type} (enc : α → List UInt8) : α → List α → List UInt8
  | x, [] => enc x ++ [0]
  | x, y :: ys => enc x ++ [1] ++ chainItems enc y ys

/-- A list as `WirePermissions` writes its streams and a stream its topics: `NO_NEXT` alone
when empty, else `HAS_NEXT` and the chain. -/
def encodeChain {α : Type} (enc : α → List UInt8) : List α → List UInt8
  | [] => [0]
  | x :: xs => 1 :: chainItems enc x xs

structure WireGlobalPermissions where
  manageServers : Bool
  readServers : Bool
  manageUsers : Bool
  readUsers : Bool
  manageStreams : Bool
  readStreams : Bool
  manageTopics : Bool
  readTopics : Bool
  pollMessages : Bool
  sendMessages : Bool
  deriving DecidableEq, Repr

def WireGlobalPermissions.encode (g : WireGlobalPermissions) : List UInt8 :=
  [g.manageServers, g.readServers, g.manageUsers, g.readUsers, g.manageStreams, g.readStreams,
    g.manageTopics, g.readTopics, g.pollMessages, g.sendMessages].map boolToU8

structure WireTopicPermissions where
  topicId : UInt32
  manageTopic : Bool
  readTopic : Bool
  pollMessages : Bool
  sendMessages : Bool
  deriving DecidableEq, Repr

def WireTopicPermissions.encode (t : WireTopicPermissions) : List UInt8 :=
  putU32Le t.topicId ++ [t.manageTopic, t.readTopic, t.pollMessages, t.sendMessages].map boolToU8

structure WireStreamPermissions where
  streamId : UInt32
  manageStream : Bool
  readStream : Bool
  manageTopics : Bool
  readTopics : Bool
  pollMessages : Bool
  sendMessages : Bool
  topics : List WireTopicPermissions
  deriving DecidableEq, Repr

def WireStreamPermissions.encode (s : WireStreamPermissions) : List UInt8 :=
  putU32Le s.streamId ++
    [s.manageStream, s.readStream, s.manageTopics, s.readTopics, s.pollMessages,
      s.sendMessages].map boolToU8 ++
    encodeChain WireTopicPermissions.encode s.topics

structure WirePermissions where
  global : WireGlobalPermissions
  streams : List WireStreamPermissions
  deriving DecidableEq, Repr

def WirePermissions.encode (p : WirePermissions) : List UInt8 :=
  p.global.encode ++ encodeChain WireStreamPermissions.encode p.streams

structure CreateUserRequest where
  username : WireName
  password : String
  status : UInt8
  permissions : Option WirePermissions
  deriving DecidableEq

structure UpdateUserRequest where
  userId : WireIdentifier
  username : Option WireName
  status : Option UInt8
  deriving DecidableEq

structure DeleteUserRequest where
  userId : WireIdentifier
  deriving DecidableEq

structure UpdatePermissionsRequest where
  userId : WireIdentifier
  permissions : Option WirePermissions
  deriving DecidableEq

structure UserResponse where
  id : UInt32
  createdAt : UInt64
  status : UInt8
  username : WireName

def UserResponse.encode (u : UserResponse) : List UInt8 :=
  putU32Le u.id ++ putU64Le u.createdAt ++ [u.status] ++ u.username.encode

structure UserDetailsResponse where
  user : UserResponse
  permissions : Option WirePermissions

/-- The permissions follow a flag byte and their length, or stand as a zero length. -/
def UserDetailsResponse.toBytes (r : UserDetailsResponse) : List UInt8 :=
  r.user.encode ++
    match r.permissions with
    | some perms => 1 :: putU32Le (UInt32.ofNat perms.encode.length) ++ perms.encode
    | none => putU32Le 0

end IggyCore.Wire
