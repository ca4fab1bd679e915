import Mathlib
import IggyCore.Metadata.Streams
import IggyCore.Wire.UserRequests
import IggyCore.Library.Run

/-!
# The users state machine and token logins

`Users` of `core/metadata/src/stm/user.rs`: the users live in a slab whose keys are their ids,
with an index from usernames to ids. Beside them, `personal_access_tokens` keeps each user id's
tokens by name, and `personal_access_token_index` maps a token's hash back to the user id and
the name. A login with a token (`verify_pat_credentials` of `server-ng/src/auth.rs`) goes from
the hash through the index to the token map, and from there to the user.

`CreatePersonalAccessToken` and `DeletePersonalAccessToken` carry the user id the primary
authenticated; the state machine does not check it against the users. The permissioner that
`Users` also holds is read and written by none of these commands. `UserId` is `UInt32`, and a
user's id is its slab key cast `as UserId`.
-/

namespace IggyCore.Metadata

open IggyCore.Library IggyCore.Wire IggyCore.Consensus

inductive UserStatus
  | active
  | inactive
  deriving DecidableEq, Repr

/-- `UserStatus::from_code`. -/
def UserStatus.fromCode : UInt8 → Option UserStatus
  | 1 => some .active
  | 2 => some .inactive
  | _ => none

structure User where
  id : UInt32
  username : String
  passwordHash : String
  status : UserStatus
  createdAt : Nat
  permissions : Option WirePermissions
  deriving DecidableEq

/-- `IggyExpiry`, as `From<u64>` reads a request's expiry. -/
inductive IggyExpiry
  | expireDuration (micros : Nat)
  | neverExpire
  | serverDefault
  deriving DecidableEq, Repr

def IggyExpiry.ofU64 (value : UInt64) : IggyExpiry :=
  if value = 18446744073709551615 then .neverExpire
  else if value = 0 then .serverDefault
  else .expireDuration value.toNat

structure PersonalAccessToken where
  userId : UInt32
  name : String
  token : String
  expiryAt : Option Nat
  deriving DecidableEq

namespace PersonalAccessToken

/-- `calculate_expiry_at`; the `u64` sum wraps. -/
def calculateExpiryAt (now : Nat) : IggyExpiry → Option Nat
  | .expireDuration micros => some ((now + micros) % 2 ^ 64)
  | .neverExpire => none
  | .serverDefault => none

def isExpired (pat : PersonalAccessToken) (now : Nat) : Bool :=
  match pat.expiryAt with
  | none => false
  | some expiryAt => decide (expiryAt ≤ now)

end PersonalAccessToken

/-- `CreatePersonalAccessTokenRequest`: the user id the primary authenticated and the hash of
the token it minted. -/
structure CreatePersonalAccessTokenRequest where
  userId : UInt32
  name : WireName
  expiry : UInt64
  tokenHash : Vector UInt8 64
  deriving DecidableEq

structure DeletePersonalAccessTokenRequest where
  userId : UInt32
  name : WireName
  deriving DecidableEq

/-- One user's tokens by name. -/
abbrev UserTokens := AList (fun _ : String => PersonalAccessToken)

/-- `UsersInner` without the permissioner. -/
structure UsersInner where
  index : AList (fun _ : String => UInt32)
  items : Slab User
  personalAccessTokens : AList (fun _ : UInt32 => UserTokens)
  personalAccessTokenIndex : AList (fun _ : String => UInt32 × String)
  deriving DecidableEq

namespace UsersInner

def default : UsersInner := ⟨∅, .new, ∅, ∅⟩

def resolveUserId (s : UsersInner) : WireIdentifier → Option Nat
  | .numeric id => if s.items.contains id.toNat then some id.toNat else none
  | .string name => (s.index.lookup name.value).map UInt32.toNat

/-- `CreateUserRequest::apply`: a new user at the slab's next key, which becomes its id, and an
empty token map under that id. -/
def createUser (s : UsersInner) (r : CreateUserRequest) (timestamp : Nat) :
    Except Panic (UsersInner × List UInt8) :=
  if (s.index.lookup r.username.value).isSome then .ok (s, [])
  else
    let user : User := ⟨0, r.username.value, r.password,
      (UserStatus.fromCode r.status).getD .active, timestamp, r.permissions⟩
    match s.items.insert user with
    | none => .error StreamsInner.invalidKey
    | some (items, id) =>
      let items := { items with
        entries := items.entries.set id (.occupied { user with id := UInt32.ofNat id }) }
      .ok (⟨s.index.insert r.username.value (UInt32.ofNat id), items,
          s.personalAccessTokens.insert (UInt32.ofNat id) ∅, s.personalAccessTokenIndex⟩,
        UserDetailsResponse.toBytes
          ⟨⟨UInt32.ofNat id, UInt64.ofNat timestamp, r.status, r.username⟩, r.permissions⟩)

/-- The index and user that `UpdateUserRequest::apply` leaves after its rename; `none` when
another user has the new name, which ends the command. -/
def renameUser (index : AList (fun _ : String => UInt32)) (userId : Nat) (user : User) :
    Option WireName → Option (AList (fun _ : String => UInt32) × User)
  | none => some (index, user)
  | some newUsername =>
    if (index.lookup newUsername.value).any (· != UInt32.ofNat userId) then none
    else some ((index.erase user.username).insert newUsername.value (UInt32.ofNat userId),
      { user with username := newUsername.value })

/-- `UpdateUserRequest::apply`: a rename, then the status, which an unknown code leaves. -/
def updateUser (s : UsersInner) (r : UpdateUserRequest) : UsersInner × List UInt8 :=
  match s.resolveUserId r.userId with
  | none => (s, [])
  | some userId =>
    match s.items.get userId with
    | none => (s, [])
    | some user =>
      match renameUser s.index userId user r.username with
      | none => (s, [])
      | some (index, user) =>
        let user := match r.status.bind UserStatus.fromCode with
          | some status => { user with status }
          | none => user
        ({ s with index, items := { s.items with
            entries := s.items.entries.set userId (.occupied user) } }, [])

/-- `DeleteUserRequest::apply`: the user, its name and its token map go, and each token of the
map leaves the token index. -/
def deleteUser (s : UsersInner) (r : DeleteUserRequest) :
    Except Panic (UsersInner × List UInt8) :=
  match s.resolveUserId r.userId with
  | none => .ok (s, [])
  | some userId =>
    match s.items.get userId with
    | none => .ok (s, [])
    | some user =>
      match s.items.tryRemove userId with
      | none => .error ⟨"invalid key"⟩
      | some (items, _) =>
        let tokenIndex := match s.personalAccessTokens.lookup (UInt32.ofNat userId) with
          | some tokens =>
            tokens.entries.foldl (fun index pat => index.erase pat.2.token)
              s.personalAccessTokenIndex
          | none => s.personalAccessTokenIndex
        .ok (⟨s.index.erase user.username, items,
          s.personalAccessTokens.erase (UInt32.ofNat userId), tokenIndex⟩, [])

/-- What `ChangePassword` and `UpdatePermissions` share: change the user the identifier
resolves to, if it is live. -/
def modifyUser (s : UsersInner) (userId : WireIdentifier) (f : User → User) :
    UsersInner × List UInt8 :=
  match s.resolveUserId userId with
  | none => (s, [])
  | some userId =>
    match s.items.get userId with
    | none => (s, [])
    | some user =>
      ({ s with items := { s.items with
        entries := s.items.entries.set userId (.occupied (f user)) } }, [])

/-- `ChangePasswordRequest::apply`; the current password is not compared. -/
def changePassword (s : UsersInner) (r : ChangePasswordRequest) : UsersInner × List UInt8 :=
  s.modifyUser r.userId fun user => { user with passwordHash := r.newPassword }

def updatePermissions (s : UsersInner) (r : UpdatePermissionsRequest) :
    UsersInner × List UInt8 :=
  s.modifyUser r.userId fun user => { user with permissions := r.permissions }

/-- `CreatePersonalAccessTokenRequest::apply`. The user id's token map is put in place by
`entry().or_default()` before any check, so it stays also when the command does nothing else. -/
def createPersonalAccessToken (s : UsersInner) (r : CreatePersonalAccessTokenRequest)
    (timestamp : Nat) : Except Panic (UsersInner × List UInt8) :=
  let userTokens := (s.personalAccessTokens.lookup r.userId).getD ∅
  let s := { s with personalAccessTokens := s.personalAccessTokens.insert r.userId userTokens }
  if (userTokens.lookup r.name.value).isSome then .ok (s, [])
  else
    let expiryAt := PersonalAccessToken.calculateExpiryAt timestamp (IggyExpiry.ofU64 r.expiry)
    if expiryAt.any (fun expiryAt => decide (expiryAt ≤ timestamp)) then .ok (s, [])
    else
      match String.fromUTF8? ⟨r.tokenHash.toArray⟩ with
      | none => .error ⟨"token_hash is hex-ASCII generated by the primary"⟩
      | some tokenHash =>
        let pat : PersonalAccessToken := ⟨r.userId, r.name.value, tokenHash, expiryAt⟩
        .ok ({ s with
          personalAccessTokens :=
            s.personalAccessTokens.insert r.userId (userTokens.insert r.name.value pat)
          personalAccessTokenIndex :=
            s.personalAccessTokenIndex.insert tokenHash (r.userId, r.name.value) }, [])

def deletePersonalAccessToken (s : UsersInner) (r : DeletePersonalAccessTokenRequest) :
    UsersInner × List UInt8 :=
  match s.personalAccessTokens.lookup r.userId with
  | none => (s, [])
  | some userTokens =>
    match userTokens.lookup r.name.value with
    | none => (s, [])
    | some pat =>
      ({ s with
        personalAccessTokens := s.personalAccessTokens.insert r.userId
          (userTokens.erase r.name.value)
        personalAccessTokenIndex := s.personalAccessTokenIndex.erase pat.token }, [])

end UsersInner

inductive UsersCommand
  | createUser (r : CreateUserRequest)
  | updateUser (r : UpdateUserRequest)
  | deleteUser (r : DeleteUserRequest)
  | changePassword (r : ChangePasswordRequest)
  | updatePermissions (r : UpdatePermissionsRequest)
  | createPersonalAccessToken (r : CreatePersonalAccessTokenRequest)
  | deletePersonalAccessToken (r : DeletePersonalAccessTokenRequest)

namespace UsersInner

/-- A command at the timestamp of its prepare. -/
def apply (s : UsersInner) : UsersCommand × Nat → Except Panic (UsersInner × List UInt8)
  | (.createUser r, timestamp) => s.createUser r timestamp
  | (.updateUser r, _) => .ok (s.updateUser r)
  | (.deleteUser r, _) => s.deleteUser r
  | (.changePassword r, _) => .ok (s.changePassword r)
  | (.updatePermissions r, _) => .ok (s.updatePermissions r)
  | (.createPersonalAccessToken r, timestamp) => s.createPersonalAccessToken r timestamp
  | (.deletePersonalAccessToken r, _) => .ok (s.deletePersonalAccessToken r)

def run (s : UsersInner) (commands : List (UsersCommand × Nat)) :
    Except Panic (UsersInner × List (List UInt8)) :=
  runCollect apply s commands

end UsersInner

/-! ## Logins -/

inductive LoginRegisterError
  | invalidCredentials
  | invalidToken
  | userInactive
  deriving DecidableEq, Repr

namespace UsersInner

/-- `verify_login_credentials`, with the password check `crypto::verify_password` given. -/
def verifyLoginCredentials (verifyPassword : String → String → Bool) (s : UsersInner)
    (username password : String) : Except LoginRegisterError UInt32 :=
  match s.index.lookup username with
  | none => .error .invalidCredentials
  | some userId =>
    match s.items.get userId.toNat with
    | none => .error .invalidCredentials
    | some user =>
      if user.status ≠ .active then .error .userInactive
      else if !verifyPassword password user.passwordHash then .error .invalidCredentials
      else .ok user.id

/-- `verify_pat_credentials`, with the hash `PersonalAccessToken::hash_token` given. -/
def verifyPatCredentials (hashToken : String → String) (s : UsersInner) (token : String)
    (now : Nat) : Except LoginRegisterError UInt32 :=
  match s.personalAccessTokenIndex.lookup (hashToken token) with
  | none => .error .invalidToken
  | some (userId, tokenName) =>
    match (s.personalAccessTokens.lookup userId).bind (·.lookup tokenName) with
    | none => .error .invalidToken
    | some pat =>
      if pat.isExpired now then .error .invalidToken
      else
        match s.items.get userId.toNat with
        | none => .error .invalidToken
        | some user => if user.status ≠ .active then .error .userInactive else .ok user.id

end UsersInner

/-! ## What the token maps should keep -/

namespace UsersInner

/-- The token index is exact: a hash maps to a user id and a name exactly when that user id's
tokens hold a token of that name with that hash. -/
def TokenIndexExact (s : UsersInner) : Prop :=
  ∀ hash userId name, s.personalAccessTokenIndex.lookup hash = some (userId, name) ↔
    ∃ pat, (s.personalAccessTokens.lookup userId).bind (·.lookup name) = some pat ∧
      pat.token = hash

/-- Every user id with a token map is a live user's. -/
def TokenOwnersLive (s : UsersInner) : Prop :=
  ∀ userId, (s.personalAccessTokens.lookup userId).isSome → (s.items.get userId.toNat).isSome

variable {s s' : UsersInner} {reply : List UInt8} {timestamp : Nat}

theorem not_tokenIndexExact {hash name : String} {userId : UInt32} {pat : PersonalAccessToken}
    (hidx : s.personalAccessTokenIndex.lookup hash = some (userId, name))
    (hpat : (s.personalAccessTokens.lookup userId).bind (·.lookup name) = some pat)
    (hne : pat.token ≠ hash) : ¬ s.TokenIndexExact := by
  intro hexact
  obtain ⟨pat', hpat', htoken⟩ := (hexact hash userId name).mp hidx
  rw [hpat] at hpat'
  cases hpat'
  exact hne htoken

theorem not_tokenOwnersLive {userId : UInt32}
    (hkey : (s.personalAccessTokens.lookup userId).isSome)
    (hdead : s.items.get userId.toNat = none) : ¬ s.TokenOwnersLive := by
  intro hlive
  have := hlive userId hkey
  rw [hdead] at this
  cases this

/-- A token login goes through: the hash is indexed, the token it names is there and has not
expired, and the user at the token's user id is active. Which token the index names is not
compared with the hash. -/
theorem verifyPatCredentials_eq_ok {hashToken : String → String} {token tokenName : String}
    {now : Nat} {userId : UInt32} {pat : PersonalAccessToken} {user : User}
    (hidx : s.personalAccessTokenIndex.lookup (hashToken token) = some (userId, tokenName))
    (hpat : (s.personalAccessTokens.lookup userId).bind (·.lookup tokenName) = some pat)
    (hlive : pat.isExpired now = false) (huser : s.items.get userId.toNat = some user)
    (hactive : user.status = .active) :
    s.verifyPatCredentials hashToken token now = .ok user.id := by
  simp [verifyPatCredentials, hidx, hpat, hlive, huser, hactive]

end UsersInner

/-! ## A token that outlives its user

Alice's token request is applied after her deletion: both were prepared while she was live, and
the token names her id 0. Bob then takes key 0, which empties the token map of id 0 but keeps
the index entry of her token, and makes a token of the same name. Her token logs in as bob. -/

/-- The hash of alice's token: `0` sixty-four times. -/
def aliceTokenHash : String := "0000000000000000000000000000000000000000000000000000000000000000"

def tokenReuseRun : List (UsersCommand × Nat) :=
  [(.createUser ⟨⟨"alice", by decide, by decide⟩, "secret", 1, none⟩, 1),
    (.deleteUser ⟨.numeric 0⟩, 2),
    (.createPersonalAccessToken
      ⟨0, ⟨"t", utf8ByteSize_t_pos, utf8ByteSize_t_le⟩, 0, Vector.replicate 64 48⟩, 3),
    (.createUser ⟨⟨"bob", by decide, by decide⟩, "secret", 1, none⟩, 4),
    (.createPersonalAccessToken
      ⟨0, ⟨"t", utf8ByteSize_t_pos, utf8ByteSize_t_le⟩, 0, Vector.replicate 64 49⟩, 5)]

theorem stale_token_logs_in_as_new_user :
    (∃ s replies, UsersInner.default.run (tokenReuseRun.take 3) = .ok (s, replies) ∧
        ¬ s.TokenOwnersLive) ∧
      ∃ s replies, UsersInner.default.run tokenReuseRun = .ok (s, replies) ∧
        ¬ s.TokenIndexExact ∧ (s.items.get 0).map User.username = some "bob" ∧
        ∀ (hashToken : String → String) (token : String) (now : Nat),
          hashToken token = aliceTokenHash → s.verifyPatCredentials hashToken token now = .ok 0 := by
  -- after alice's token: a token map for id 0, which no user has
  obtain ⟨⟨s₃, r₃⟩, hrun₃, hs₃⟩ := exists_of_okAnd
    (x := UsersInner.default.run (tokenReuseRun.take 3))
    (p := fun s => (s.1.personalAccessTokens.lookup 0).isSome && s.1.items.get 0 == none)
    (by decide +kernel)
  simp only [Bool.and_eq_true, beq_iff_eq] at hs₃
  -- after bob's token: alice's hash still names token `t` of id 0, which is now bob's
  let bobToken : PersonalAccessToken :=
    ⟨0, "t", "1111111111111111111111111111111111111111111111111111111111111111", none⟩
  let bob : User := ⟨0, "bob", "secret", .active, 4, none⟩
  obtain ⟨⟨s, replies⟩, hrun, hs⟩ := exists_of_okAnd
    (x := UsersInner.default.run tokenReuseRun)
    (p := fun s => s.1.personalAccessTokenIndex.lookup aliceTokenHash == some (0, "t") &&
      (s.1.personalAccessTokens.lookup 0).bind (·.lookup "t") == some bobToken &&
      s.1.items.get 0 == some bob)
    (by decide +kernel)
  simp only [Bool.and_eq_true, beq_iff_eq] at hs
  obtain ⟨⟨hidx, hpat⟩, huser⟩ := hs
  refine ⟨⟨s₃, r₃, hrun₃, UsersInner.not_tokenOwnersLive hs₃.1 hs₃.2⟩, s, replies, hrun,
    UsersInner.not_tokenIndexExact hidx hpat (by decide), by simp [huser, bob], ?_⟩
  intro hashToken token now htoken
  exact UsersInner.verifyPatCredentials_eq_ok (htoken ▸ hidx) hpat rfl huser rfl

end IggyCore.Metadata
