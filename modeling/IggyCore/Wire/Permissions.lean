import IggyCore.Wire.UserRequests
import IggyCore.Library.FlagChain

/-!
# Permissions on the wire

`core/binary_protocol/src/primitives/permissions.rs`: a user's permissions are ten global
flags, then the streams as a `HAS_NEXT`/`NO_NEXT` chain, each stream its id, six flags and its
topics as a chain of their own. Each flag is written as `0` or `1` and read back as "non-zero".
The decoder reads the chains with `FlagChain`.

`CreateUserRequest` and `UpdatePermissionsRequest`
(`core/binary_protocol/src/requests/users/`) carry the permissions as an optional field:
a byte that is `1` when they follow, their length as a `u32`, and their bytes, which the
decoder reads from `&buf[pos..]` and checks against the length.

The permissions decode back from their encoding whatever follows them
(`WirePermissions.decode_encode`), `encoded_size` is the encoding's length, and both requests
read back when the password fits its length byte and the permissions fit their `u32` length.
-/

namespace IggyCore.Wire

open IggyCore.Library

/-! ## Flags -/

/-- `read_bool`: any non-zero byte is `true`. -/
def readBool (buf : List UInt8) (offset : Nat) : Except WireError Bool := do
  pure ((← readU8 buf offset) != 0)

theorem lt_length_of_readBool {buf : List UInt8} {offset : Nat} {b : Bool}
    (h : readBool buf offset = .ok b) : offset < buf.length := by
  unfold readBool at h
  cases hb : readU8 buf offset with
  | error e => simp [hb, bind, Except.bind] at h
  | ok byte => exact lt_length_of_readU8 hb

/-- `read_bool` as the reader of a chain's `HAS_NEXT` flags. -/
def nextFlag : FlagChain.FlagReader UInt8 WireError := ⟨readBool, lt_length_of_readBool⟩

/-! ## Decoders -/

/-- `WireGlobalPermissions::decode_at`. -/
def WireGlobalPermissions.decodeAt (buf : List UInt8) (pos : Nat) :
    Except WireError (WireGlobalPermissions × Nat) := do
  let manageServers ← readBool buf pos
  let readServers ← readBool buf (pos + 1)
  let manageUsers ← readBool buf (pos + 2)
  let readUsers ← readBool buf (pos + 3)
  let manageStreams ← readBool buf (pos + 4)
  let readStreams ← readBool buf (pos + 5)
  let manageTopics ← readBool buf (pos + 6)
  let readTopics ← readBool buf (pos + 7)
  let pollMessages ← readBool buf (pos + 8)
  let sendMessages ← readBool buf (pos + 9)
  pure (⟨manageServers, readServers, manageUsers, readUsers, manageStreams, readStreams,
    manageTopics, readTopics, pollMessages, sendMessages⟩, pos + 10)

/-- `WireTopicPermissions::decode_at`. -/
def WireTopicPermissions.decodeAt (buf : List UInt8) (pos : Nat) :
    Except WireError (WireTopicPermissions × Nat) := do
  let topicId ← readU32Le buf pos
  let manageTopic ← readBool buf (pos + 4)
  let readTopic ← readBool buf (pos + 5)
  let pollMessages ← readBool buf (pos + 6)
  let sendMessages ← readBool buf (pos + 7)
  pure (⟨topicId, manageTopic, readTopic, pollMessages, sendMessages⟩, pos + 8)

theorem WireTopicPermissions.pos_of_decodeAt {buf : List UInt8} {pos q : Nat}
    {t : WireTopicPermissions} (h : decodeAt buf pos = .ok (t, q)) : q = pos + 8 := by
  simp only [decodeAt, bind, Except.bind] at h
  repeat' split at h <;> try cases h
  rfl

def topicReader : FlagChain.ItemReader UInt8 WireError WireTopicPermissions :=
  ⟨WireTopicPermissions.decodeAt, fun h => by
    rw [WireTopicPermissions.pos_of_decodeAt h]
    omega⟩

/-- `WireStreamPermissions::decode_at`: the stream's fields, then its topics. -/
def WireStreamPermissions.decodeAt (buf : List UInt8) (pos : Nat) :
    Except WireError (WireStreamPermissions × Nat) := do
  let streamId ← readU32Le buf pos
  let manageStream ← readBool buf (pos + 4)
  let readStream ← readBool buf (pos + 5)
  let manageTopics ← readBool buf (pos + 6)
  let readTopics ← readBool buf (pos + 7)
  let pollMessages ← readBool buf (pos + 8)
  let sendMessages ← readBool buf (pos + 9)
  let (topics, p) ← FlagChain.decode topicReader nextFlag buf (pos + 10)
  pure (⟨streamId, manageStream, readStream, manageTopics, readTopics, pollMessages,
    sendMessages, topics⟩, p)

theorem WireStreamPermissions.lt_of_decodeAt {buf : List UInt8} {pos q : Nat}
    {s : WireStreamPermissions} (h : decodeAt buf pos = .ok (s, q)) : pos < q := by
  simp only [decodeAt, bind, Except.bind] at h
  repeat' split at h <;> try cases h
  rename_i hchain
  have := FlagChain.lt_of_decode hchain
  omega

def streamReader : FlagChain.ItemReader UInt8 WireError WireStreamPermissions :=
  ⟨WireStreamPermissions.decodeAt, fun h => (WireStreamPermissions.lt_of_decodeAt h).le⟩

/-- `<WirePermissions as WireDecode>::decode`: the global flags, then the streams. -/
def WirePermissions.decode (buf : List UInt8) : Except WireError (WirePermissions × Nat) := do
  let (global, p) ← WireGlobalPermissions.decodeAt buf 0
  let (streams, p) ← FlagChain.decode streamReader nextFlag buf p
  pure (⟨global, streams⟩, p)

/-! ## Encoded sizes -/

/-- `WireTopicPermissions::ENCODED_SIZE`: the id, four flags and the `HAS_NEXT` flag. -/
def WireTopicPermissions.encodedSize : Nat := 4 + 4 + 1

/-- `WireStreamPermissions::encoded_size`, which counts the `HAS_NEXT` flag after the stream. -/
def WireStreamPermissions.encodedSize (s : WireStreamPermissions) : Nat :=
  let topicsSize := if s.topics.isEmpty then 0 else s.topics.length * WireTopicPermissions.encodedSize
  4 + 6 + 1 + topicsSize + 1

/-- `<WirePermissions as WireEncode>::encoded_size`. -/
def WirePermissions.encodedSize (p : WirePermissions) : Nat :=
  let streamsSize :=
    if p.streams.isEmpty then 0 else (p.streams.map WireStreamPermissions.encodedSize).sum
  10 + 1 + streamsSize

/-! ## Reading back what was written -/

/-- The chains of `WirePermissions::encode` are `FlagChain` lists with `HAS_NEXT = 1` and
`NO_NEXT = 0`. -/
theorem chainItems_eq_items {α : Type} (enc : α → List UInt8) (x : α) (xs : List α) :
    chainItems enc x xs = FlagChain.items enc 1 0 x xs := by
  induction xs generalizing x with
  | nil => rfl
  | cons y ys ih => rw [chainItems, ih, FlagChain.items]

theorem encodeChain_eq_encode {α : Type} (enc : α → List UInt8) (xs : List α) :
    encodeChain enc xs = FlagChain.encode enc 1 0 xs := by
  cases xs with
  | nil => rfl
  | cons x xs => rw [encodeChain, chainItems_eq_items, FlagChain.encode]

section RoundTrip

variable {buf rest : List UInt8} {pos : Nat}

theorem getElem?_of_suffixAt {s : List UInt8} (h : SuffixAt buf pos s) (i : Nat) :
    buf[pos + i]? = s[i]? := by
  obtain ⟨pre, rfl, rfl⟩ := h
  rw [List.getElem?_append_right (by omega), Nat.add_sub_cancel_left]

theorem readBool_of_suffixAt {byte : UInt8} (h : SuffixAt buf pos (byte :: rest)) :
    readBool buf pos = .ok (byte != 0) := by
  simp [readBool, readU8_of_suffixAt h, bind, Except.bind, pure, Except.pure]

@[simp] theorem boolToU8_bne_zero (b : Bool) : (boolToU8 b != 0) = b := by
  cases b <;> rfl

/-- The flags of a record read back at their offsets. -/
theorem readBool_of_suffixAt_map {bs : List Bool} (h : SuffixAt buf pos (bs.map boolToU8 ++ rest))
    {i : Nat} (hi : i < bs.length) : readBool buf (pos + i) = .ok (bs.getD i false) := by
  have hget := getElem?_of_suffixAt h i
  rw [List.getElem?_append_left (by simpa using hi), List.getElem?_map,
    List.getElem?_eq_getElem hi] at hget
  simp [readBool, readU8, hget, bind, Except.bind, pure, Except.pure, List.getElem?_eq_getElem hi]

theorem WireGlobalPermissions.decodeAt_encode (g : WireGlobalPermissions)
    (h : SuffixAt buf pos (g.encode ++ rest)) : decodeAt buf pos = .ok (g, pos + 10) := by
  have hb := fun i (hi : i < 10) => readBool_of_suffixAt_map h hi
  have h0 := hb 0 (by decide)
  rw [Nat.add_zero] at h0
  simp [decodeAt, h0, hb, bind, Except.bind, pure, Except.pure]

theorem readBool_one (h : SuffixAt buf pos (1 :: rest)) : readBool buf pos = .ok true :=
  readBool_of_suffixAt h

theorem readBool_zero (h : SuffixAt buf pos (0 :: rest)) : readBool buf pos = .ok false :=
  readBool_of_suffixAt h

@[simp] theorem WireGlobalPermissions.length_encode (g : WireGlobalPermissions) :
    g.encode.length = 10 := by
  simp [encode]

@[simp] theorem WireTopicPermissions.length_encode (t : WireTopicPermissions) :
    t.encode.length = 8 := by
  simp [encode]

theorem WireTopicPermissions.decodeAt_encode (t : WireTopicPermissions)
    (h : SuffixAt buf pos (t.encode ++ rest)) : decodeAt buf pos = .ok (t, pos + t.encode.length) := by
  rw [encode, List.append_assoc] at h
  have hflags := h.skip
  rw [length_putU32Le] at hflags
  have hb := fun i (hi : i < 4) => readBool_of_suffixAt_map hflags hi
  have h4 : readBool buf (pos + 4) = .ok t.manageTopic := hb 0 (by decide)
  have h5 : readBool buf (pos + 5) = .ok t.readTopic := hb 1 (by decide)
  have h6 : readBool buf (pos + 6) = .ok t.pollMessages := hb 2 (by decide)
  have h7 : readBool buf (pos + 7) = .ok t.sendMessages := hb 3 (by decide)
  simp only [decodeAt, readU32Le_of_suffixAt h, h4, h5, h6, h7, bind, Except.bind, pure,
    Except.pure, length_encode]

/-- The topic reader and `read_bool` read back a chain of topics. -/
theorem topicInverse : FlagChain.Inverse topicReader nextFlag WireTopicPermissions.encode 1 0 :=
  ⟨fun h => WireTopicPermissions.decodeAt_encode _ h, readBool_one, readBool_zero⟩

theorem WireStreamPermissions.decodeAt_encode (s : WireStreamPermissions)
    (h : SuffixAt buf pos (s.encode ++ rest)) : decodeAt buf pos = .ok (s, pos + s.encode.length) := by
  rw [encode, List.append_assoc, List.append_assoc] at h
  have hflags := h.skip
  rw [length_putU32Le] at hflags
  have hb := fun i (hi : i < 6) => readBool_of_suffixAt_map hflags hi
  have h4 : readBool buf (pos + 4) = .ok s.manageStream := hb 0 (by decide)
  have h5 : readBool buf (pos + 5) = .ok s.readStream := hb 1 (by decide)
  have h6 : readBool buf (pos + 6) = .ok s.manageTopics := hb 2 (by decide)
  have h7 : readBool buf (pos + 7) = .ok s.readTopics := hb 3 (by decide)
  have h8 : readBool buf (pos + 8) = .ok s.pollMessages := hb 4 (by decide)
  have h9 : readBool buf (pos + 9) = .ok s.sendMessages := hb 5 (by decide)
  -- the topics' chain starts after the id and the six flags
  have htopics := hflags.skip
  simp only [List.length_map, List.length_cons, List.length_nil, Nat.add_assoc, Nat.reduceAdd,
    encodeChain_eq_encode] at htopics
  have hchain := FlagChain.decode_encode topicInverse s.topics htopics
  simp only [decodeAt, readU32Le_of_suffixAt h, h4, h5, h6, h7, h8, h9, bind, Except.bind,
    pure, Except.pure]
  rw [hchain]
  simp only [encode, encodeChain_eq_encode, List.length_append, length_putU32Le, List.length_map,
    List.length_cons, List.length_nil]
  congr 2
  omega

/-- The stream reader and `read_bool` read back a chain of streams. -/
theorem streamInverse : FlagChain.Inverse streamReader nextFlag WireStreamPermissions.encode 1 0 :=
  ⟨fun h => WireStreamPermissions.decodeAt_encode _ h, readBool_one, readBool_zero⟩

end RoundTrip

/-- Permissions decode back from their encoding, whatever follows them, and the decoder
consumes exactly the encoding. -/
theorem WirePermissions.decode_encode (p : WirePermissions) (rest : List UInt8) :
    decode (p.encode ++ rest) = .ok (p, p.encode.length) := by
  have h : SuffixAt (p.encode ++ rest) 0
      (p.global.encode ++ (FlagChain.encode WireStreamPermissions.encode 1 0 p.streams ++ rest)) := by
    rw [← List.append_assoc, ← encodeChain_eq_encode]
    exact suffixAt_zero _
  have hstreams := h.skip
  rw [WireGlobalPermissions.length_encode, Nat.zero_add] at hstreams
  simp only [decode, WireGlobalPermissions.decodeAt_encode p.global h, bind, Except.bind,
    FlagChain.decode_encode streamInverse p.streams hstreams, pure, Except.pure]
  rw [encode, List.length_append, WireGlobalPermissions.length_encode, encodeChain_eq_encode]

/-! ## Encoded sizes are the encodings' lengths -/

/-- A stream's `encoded_size` counts the flag that follows it in the chain. -/
theorem WireStreamPermissions.encodedSize_eq (s : WireStreamPermissions) :
    s.encodedSize = s.encode.length + 1 := by
  have hchain : (FlagChain.encode WireTopicPermissions.encode 1 0 s.topics).length =
      1 + 9 * s.topics.length := by
    rw [FlagChain.length_encode]
    simp only [WireTopicPermissions.length_encode, Nat.reduceAdd, List.map_const',
      List.sum_replicate_nat]
    omega
  simp only [encodedSize, encode, List.length_append, length_putU32Le, List.length_map,
    List.length_cons, List.length_nil, encodeChain_eq_encode, hchain, WireTopicPermissions.encodedSize]
  split <;> rename_i hempty
  · simp only [List.isEmpty_iff] at hempty
    simp [hempty]
  · omega

theorem WirePermissions.length_encode (p : WirePermissions) : p.encode.length = p.encodedSize := by
  have hsum : (p.streams.map WireStreamPermissions.encodedSize).sum =
      (p.streams.map fun s => s.encode.length + 1).sum :=
    congrArg List.sum (List.map_congr_left fun s _ => WireStreamPermissions.encodedSize_eq s)
  rw [encode, List.length_append, WireGlobalPermissions.length_encode, encodeChain_eq_encode,
    FlagChain.length_encode, encodedSize]
  split <;> rename_i hempty
  · simp only [List.isEmpty_iff] at hempty
    simp [hempty]
  · rw [hsum]
    omega

/-- The permissions decoder consumes exactly the `encoded_size` bytes of an encoding and returns
the permissions written, whatever follows them. -/
theorem WirePermissions.permissions_round_trip (p : WirePermissions) (rest : List UInt8) :
    decode (p.encode ++ rest) = .ok (p, p.encodedSize) := by
  rw [decode_encode, length_encode]

/-! ## The requests that carry permissions -/

def permissionsLengthMessage (permLen consumed : Nat) : String :=
  s!"permissions length mismatch: header says {permLen}, decoded {consumed}"

/-- The optional permissions as `CreateUserRequest::encode` and
`UpdatePermissionsRequest::encode` write them. -/
def encodePermissionsField : Option WirePermissions → List UInt8
  | some perms => 1 :: (putU32Le (UInt32.ofNat perms.encode.length) ++ perms.encode)
  | none => [0]

/-- The optional permissions as both decoders read them: the flag byte, and when it is `1` the
length and the permissions, decoded from `&buf[pos..]` and checked against the length. Any
other flag byte means no permissions. -/
def decodePermissionsField (buf : List UInt8) (pos : Nat) :
    Except WireError (Option WirePermissions × Nat) := do
  let hasPermissions ← readU8 buf pos
  let pos := pos + 1
  if hasPermissions = 1 then
    let permLen := (← readU32Le buf pos).toNat
    let pos := pos + 4
    let (perms, consumed) ← WirePermissions.decode (buf.drop pos)
    if consumed ≠ permLen then
      throw (.validation (permissionsLengthMessage permLen consumed))
    pure (some perms, pos + consumed)
  else pure (none, pos)

namespace CreateUserRequest

def encode (r : CreateUserRequest) : List UInt8 :=
  r.username.encode ++ ChangePasswordRequest.encodePassword r.password ++ [r.status] ++
    encodePermissionsField r.permissions

def encodedSize (r : CreateUserRequest) : Nat :=
  r.username.encodedSize + 1 + r.password.utf8ByteSize + 1 + 1 +
    match r.permissions with
    | some p => 4 + p.encodedSize
    | none => 0

def decode (buf : List UInt8) : Except WireError (CreateUserRequest × Nat) := do
  let (username, pos) ← WireName.decode buf
  let passwordLen := (← readU8 buf pos).toNat
  let pos := pos + 1
  let password ← readStr buf pos passwordLen
  let pos := pos + passwordLen
  let status ← readU8 buf pos
  let pos := pos + 1
  let (permissions, pos) ← decodePermissionsField buf pos
  pure (⟨username, password, status, permissions⟩, pos)

end CreateUserRequest

namespace UpdatePermissionsRequest

def encode (r : UpdatePermissionsRequest) : List UInt8 :=
  r.userId.encode ++ encodePermissionsField r.permissions

def encodedSize (r : UpdatePermissionsRequest) : Nat :=
  r.userId.encodedSize + 1 +
    match r.permissions with
    | some p => 4 + p.encodedSize
    | none => 0

def decode (buf : List UInt8) : Except WireError (UpdatePermissionsRequest × Nat) := do
  let (userId, pos) ← WireIdentifier.decode buf
  let (permissions, pos) ← decodePermissionsField buf pos
  pure (⟨userId, permissions⟩, pos)

end UpdatePermissionsRequest

section Field

variable {buf rest : List UInt8} {pos : Nat}

theorem length_encodePermissionsField (perm : Option WirePermissions) :
    (encodePermissionsField perm).length =
      1 + match perm with
        | some p => 4 + p.encodedSize
        | none => 0 := by
  cases perm with
  | none => rfl
  | some p =>
    simp only [encodePermissionsField, List.length_cons, List.length_append, length_putU32Le,
      WirePermissions.length_encode]
    omega

/-- The permissions field reads back when the permissions' length fits its `u32`. -/
theorem decodePermissionsField_encode (perm : Option WirePermissions)
    (hlen : ∀ p ∈ perm, p.encode.length < 2 ^ 32)
    (h : SuffixAt buf pos (encodePermissionsField perm ++ rest)) :
    decodePermissionsField buf pos = .ok (perm, pos + (encodePermissionsField perm).length) := by
  cases perm with
  | none =>
    simp only [decodePermissionsField, readU8_of_suffixAt h, bind, Except.bind]
    rfl
  | some p =>
    simp only [encodePermissionsField, List.cons_append, List.append_assoc] at h
    have hperms := h.skip_cons.skip
    rw [length_putU32Le] at hperms
    have hread := readU32Le_of_suffixAt h.skip_cons
    have hfit : (UInt32.ofNat p.encode.length).toNat = p.encode.length :=
      UInt32.toNat_ofNat_of_lt' (hlen p rfl)
    -- the permissions are decoded from the rest of the buffer, which starts with them
    simp only [decodePermissionsField, readU8_of_suffixAt h, hread, hfit, bind, Except.bind,
      if_true, hperms.drop_eq, WirePermissions.decode_encode, ne_eq, not_true_eq_false, if_false,
      pure, Except.pure]
    simp only [encodePermissionsField, List.length_cons, List.length_append, length_putU32Le]
    congr 2
    omega

/-- A length header that disagrees with the permissions that follow it is refused, with both
lengths in the message. -/
theorem decodePermissionsField_mismatch (p : WirePermissions) {n : UInt32}
    (hne : n.toNat ≠ p.encode.length)
    (h : SuffixAt buf pos (1 :: (putU32Le n ++ (p.encode ++ rest)))) :
    decodePermissionsField buf pos =
      .error (.validation (permissionsLengthMessage n.toNat p.encode.length)) := by
  have hperms := h.skip_cons.skip
  rw [length_putU32Le] at hperms
  simp only [decodePermissionsField, readU8_of_suffixAt h, readU32Le_of_suffixAt h.skip_cons,
    bind, Except.bind, if_true, hperms.drop_eq, WirePermissions.decode_encode]
  rw [if_pos (Ne.symm hne)]
  rfl

end Field

/-! ## The requests read back -/

namespace CreateUserRequest

theorem length_encode (r : CreateUserRequest) : r.encode.length = r.encodedSize := by
  simp only [encode, List.length_append, WireName.length_encode,
    ChangePasswordRequest.length_encodePassword, List.length_singleton,
    length_encodePermissionsField, encodedSize]
  omega

/-- A request whose password fits its length byte and whose permissions fit their `u32` length
reads back, whatever follows it. -/
theorem create_user_round_trip (r : CreateUserRequest) (rest : List UInt8)
    (hpassword : r.password.utf8ByteSize < 256)
    (hperm : ∀ p ∈ r.permissions, p.encode.length < 2 ^ 32) :
    decode (r.encode ++ rest) = .ok (r, r.encodedSize) := by
  have hname : WireName.decode (r.encode ++ rest) = .ok (r.username, r.username.encodedSize) := by
    have := WireName.decode_encode r.username (ChangePasswordRequest.encodePassword r.password ++
      [r.status] ++ encodePermissionsField r.permissions ++ rest)
    simpa only [encode, List.append_assoc] using this
  have h0 : SuffixAt (r.encode ++ rest) r.username.encodedSize
      (ChangePasswordRequest.encodePassword r.password ++
        (r.status :: (encodePermissionsField r.permissions ++ rest))) :=
    ⟨r.username.encode, by simp, by simp [encode]⟩
  obtain ⟨hp₁, hp₂, hp₃, h1⟩ := ChangePasswordRequest.readPassword_of_suffixAt h0 hpassword
  have hfield := decodePermissionsField_encode r.permissions hperm h1.skip_cons
  simp only [decode, hname, hp₁, hp₂, hp₃, readU8_of_suffixAt h1, hfield, bind, Except.bind,
    pure, Except.pure, length_encodePermissionsField, encodedSize]
  congr 2
  omega

/-- Permissions to read the servers and, on stream 1, to manage it and read its topic 2. -/
def samplePermissions : WirePermissions :=
  ⟨⟨false, true, false, false, false, false, false, false, false, false⟩,
    [⟨1, true, true, false, false, false, false, [⟨2, false, true, false, false⟩]⟩]⟩

theorem create_user_round_trip_sample :
    "secret".utf8ByteSize < 256 ∧ (∀ p ∈ some samplePermissions, p.encode.length < 2 ^ 32) ∧
      decode ((mk ⟨"admin", by decide, by decide⟩ "secret" 1 (some samplePermissions)).encode ++ []) =
        .ok (mk ⟨"admin", by decide, by decide⟩ "secret" 1 (some samplePermissions),
          (mk ⟨"admin", by decide, by decide⟩ "secret" 1 (some samplePermissions)).encodedSize) :=
  ⟨by decide, by decide,
    create_user_round_trip (mk ⟨"admin", by decide, by decide⟩ "secret" 1 (some samplePermissions)) []
      (by decide) (by decide)⟩

end CreateUserRequest

namespace UpdatePermissionsRequest

theorem length_encode (r : UpdatePermissionsRequest) : r.encode.length = r.encodedSize := by
  simp only [encode, List.length_append, WireIdentifier.length_encode,
    length_encodePermissionsField, encodedSize]
  omega

/-- A request whose permissions fit their `u32` length reads back, whatever follows it. -/
theorem update_permissions_round_trip (r : UpdatePermissionsRequest) (rest : List UInt8)
    (hperm : ∀ p ∈ r.permissions, p.encode.length < 2 ^ 32) :
    decode (r.encode ++ rest) = .ok (r, r.encodedSize) := by
  have hid : WireIdentifier.decode (r.encode ++ rest) = .ok (r.userId, r.userId.encodedSize) := by
    have := WireIdentifier.decode_encode r.userId (encodePermissionsField r.permissions ++ rest)
    simpa only [encode, List.append_assoc] using this
  have h0 : SuffixAt (r.encode ++ rest) r.userId.encodedSize
      (encodePermissionsField r.permissions ++ rest) :=
    ⟨r.userId.encode, by simp, by simp [encode]⟩
  simp only [decode, hid, decodePermissionsField_encode r.permissions hperm h0, bind, Except.bind,
    pure, Except.pure, length_encodePermissionsField, encodedSize]
  congr 2
  omega

theorem update_permissions_round_trip_sample :
    (∀ p ∈ some CreateUserRequest.samplePermissions, p.encode.length < 2 ^ 32) ∧
      decode ((mk (.numeric 7) (some CreateUserRequest.samplePermissions)).encode ++ []) =
        .ok (mk (.numeric 7) (some CreateUserRequest.samplePermissions),
          (mk (.numeric 7) (some CreateUserRequest.samplePermissions)).encodedSize) :=
  ⟨by decide, update_permissions_round_trip (mk (.numeric 7) (some CreateUserRequest.samplePermissions)) []
    (by decide)⟩

end UpdatePermissionsRequest

end IggyCore.Wire
