import IggyCore.Library.KeyIndex
import IggyCore.Library.Run

/-!
# Sessions of server-ng

`core/server-ng/src/session_manager.rs`: the shard's map from transport connections to the
consensus sessions they are bound to. A connection goes `Connected → Authenticated → Bound`;
binding a client id that another connection holds sends that connection back to `Connected`,
and a reverse index from client ids to connections routes the consensus replies.

`core/server-ng/src/auth.rs` (`complete_login_register`) is the only caller of `login` and
`bind_session`: once the register commits, it runs both in one borrow, so no other request
sees a connection in `Authenticated`.

Connection and client ids are `u128`s, kept as naturals. A connection's address and transport
kind are carried and never looked at; they are the type parameters `Addr` and `Transport`.
The hash maps are `AList`s, which the model reads only through `lookup`.
-/

namespace IggyCore.Server

open IggyCore.Library

/-- `ConnectionState`. -/
inductive ConnectionState
  | connected
  | authenticated (userId : UInt32)
  | bound (userId : UInt32) (clientId : Nat) (session : UInt64)
  deriving DecidableEq, Repr

namespace ConnectionState

/-- `state_name`. -/
def stateName : ConnectionState → String
  | connected => "Connected"
  | authenticated _ => "Authenticated"
  | bound .. => "Bound"

/-- The client a state is bound to. -/
def boundClient : ConnectionState → Option Nat
  | bound _ clientId _ => some clientId
  | _ => none

end ConnectionState

/-- `Connection`. -/
structure Connection (Addr Transport : Type) where
  address : Addr
  transport : Transport
  state : ConnectionState

/-- `SessionError`; `from` and `to` are the names of the two states. -/
inductive SessionError
  | connectionNotFound (connectionId : Nat)
  | invalidTransition (connectionId : Nat) (source target : String)
  deriving DecidableEq, Repr

/-- `SessionManager`. -/
structure SessionManager (Addr Transport : Type) where
  connections : AList (fun _ : Nat => Connection Addr Transport)
  clientToConnection : AList (fun _ : Nat => Nat)

namespace SessionManager

variable {Addr Transport : Type}

def new : SessionManager Addr Transport := ⟨∅, ∅⟩

/-- `ensure_connection`: a new connection starts `Connected`; a known one is left as it is. -/
def ensureConnection (m : SessionManager Addr Transport) (connectionId : Nat) (address : Addr)
    (transport : Transport) : SessionManager Addr Transport :=
  match m.connections.lookup connectionId with
  | some _ => m
  | none => { m with connections := m.connections.insert connectionId ⟨address, transport, .connected⟩ }

/-- `remove_connection`: the bound `(client_id, session)` of the removed connection, if any,
whose reverse entry goes with it. -/
def removeConnection (m : SessionManager Addr Transport) (connectionId : Nat) :
    SessionManager Addr Transport × Option (Nat × UInt64) :=
  match m.connections.lookup connectionId with
  | some ⟨_, _, .bound _ clientId session⟩ =>
    (⟨m.connections.erase connectionId, m.clientToConnection.erase clientId⟩, some (clientId, session))
  | some _ => ({ m with connections := m.connections.erase connectionId }, none)
  | none => (m, none)

/-- `login`: `Connected` to `Authenticated`. -/
def login (m : SessionManager Addr Transport) (connectionId : Nat) (userId : UInt32) :
    Except SessionError (SessionManager Addr Transport) :=
  match m.connections.lookup connectionId with
  | none => .error (.connectionNotFound connectionId)
  | some conn =>
    match conn.state with
    | .connected =>
      .ok { m with connections := m.connections.insert connectionId { conn with state := .authenticated userId } }
    | state => .error (.invalidTransition connectionId state.stateName "Authenticated")

/-- The connections after `bind_session` evicts whatever connection other than `connectionId`
the reverse index holds for `clientId`. -/
def evict (m : SessionManager Addr Transport) (connectionId clientId : Nat) :
    AList (fun _ : Nat => Connection Addr Transport) :=
  match m.clientToConnection.lookup clientId with
  | some old =>
    if old ≠ connectionId then
      match m.connections.lookup old with
      | some oldConn => m.connections.insert old { oldConn with state := .connected }
      | none => m.connections
    else m.connections
  | none => m.connections

/-- `bind_session`: `Authenticated` to `Bound`, after evicting the client's previous
connection. The source's `unwrap` of the target connection cannot fail, since the eviction
changes only another connection; the model keeps the connection it looked up. -/
def bindSession (m : SessionManager Addr Transport) (connectionId clientId : Nat) (session : UInt64) :
    Except SessionError (SessionManager Addr Transport) :=
  match m.connections.lookup connectionId with
  | none => .error (.connectionNotFound connectionId)
  | some conn =>
    match conn.state with
    | .authenticated userId =>
      .ok ⟨(m.evict connectionId clientId).insert connectionId
          { conn with state := .bound userId clientId session },
        m.clientToConnection.insert clientId connectionId⟩
    | state => .error (.invalidTransition connectionId state.stateName "Bound")

/-- `get_session`. -/
def getSession (m : SessionManager Addr Transport) (connectionId : Nat) : Option (Nat × UInt64) :=
  match (m.connections.lookup connectionId).map Connection.state with
  | some (.bound _ clientId session) => some (clientId, session)
  | _ => none

/-- `get_user_id`. -/
def getUserId (m : SessionManager Addr Transport) (connectionId : Nat) : Option UInt32 :=
  match (m.connections.lookup connectionId).map Connection.state with
  | some (.authenticated userId) | some (.bound userId _ _) => some userId
  | _ => none

/-- The session-manager half of `complete_login_register`, once the register has committed
`session`: the sessions after it and its result. A connection that already has a session keeps
it; any other goes through `login` and `bind_session` with no await between them. A failed
`bind_session` is not rolled back, since the register has committed cluster-wide. -/
def completeLoginRegister (m : SessionManager Addr Transport) (transportClientId vsrClientId : Nat)
    (userId : UInt32) (session : UInt64) : SessionManager Addr Transport × Except SessionError Unit :=
  match m.getSession transportClientId with
  | some _ => (m, .ok ())
  | none =>
    match m.login transportClientId userId with
    | .error e => (m, .error e)
    | .ok m₁ =>
      match m₁.bindSession transportClientId vsrClientId session with
      | .ok m₂ => (m₂, .ok ())
      | .error e => (m₁, .error e)

/-! ## Runs -/

/-- What reaches a shard's session manager: a transport connects or disconnects, or a
login/register commits `session` for a connection. -/
inductive Event (Addr Transport : Type)
  | connect (connectionId : Nat) (address : Addr) (transport : Transport)
  | disconnect (connectionId : Nat)
  | loginRegister (transportClientId vsrClientId : Nat) (userId : UInt32) (session : UInt64)

/-- One event; the caller only replies with a login/register's result. -/
def step (m : SessionManager Addr Transport) : Event Addr Transport → SessionManager Addr Transport
  | .connect connectionId address transport => m.ensureConnection connectionId address transport
  | .disconnect connectionId => (m.removeConnection connectionId).1
  | .loginRegister transportClientId vsrClientId userId session =>
    (m.completeLoginRegister transportClientId vsrClientId userId session).1

def run (m : SessionManager Addr Transport) (events : List (Event Addr Transport)) :
    SessionManager Addr Transport :=
  events.foldl step m

/-! ## The reverse index -/

/-- The client each connection is bound to, if any. -/
def boundView (m : SessionManager Addr Transport) (connectionId : Nat) : Option Nat :=
  (m.connections.lookup connectionId).bind fun conn => conn.state.boundClient

/-- `client_to_connection` is exactly the inverse of the bound connections. -/
def IndexConsistent (m : SessionManager Addr Transport) : Prop :=
  InverseIndex m.clientToConnection.lookup m.boundView

variable {m m' : SessionManager Addr Transport}

theorem indexConsistent_new : (new : SessionManager Addr Transport).IndexConsistent := by
  intro c k
  simp [new, boundView]

theorem IndexConsistent.ensureConnection (h : m.IndexConsistent) (connectionId : Nat)
    (address : Addr) (transport : Transport) :
    (m.ensureConnection connectionId address transport).IndexConsistent := by
  unfold SessionManager.ensureConnection
  cases hk : m.connections.lookup connectionId with
  | some _ => exact h
  | none =>
    -- the new connection is `Connected`, bound to no client, like the absent one
    refine InverseIndex.congr h fun j => ?_
    by_cases hj : j = connectionId
    · subst hj
      simp [boundView, hk, ConnectionState.boundClient]
    · simp [boundView, AList.lookup_insert_ne hj]

theorem IndexConsistent.removeConnection (h : m.IndexConsistent) (connectionId : Nat) :
    (m.removeConnection connectionId).1.IndexConsistent := by
  cases hk : m.connections.lookup connectionId with
  | none =>
    simp only [SessionManager.removeConnection, hk]
    exact h
  | some conn =>
    obtain ⟨address, transport, state⟩ := conn
    have hview : ∀ j, (m.connections.erase connectionId).lookup j =
        if j = connectionId then none else m.connections.lookup j := by
      intro j
      by_cases hj : j = connectionId
      · subst hj
        simp
      · simp [hj, AList.lookup_erase_ne hj]
    cases state with
    | bound userId clientId session =>
      simp only [SessionManager.removeConnection, hk]
      exact InverseIndex.alist_erase (i := connectionId) h
        (by simp [boundView, hk, ConnectionState.boundClient])
        fun j => by by_cases hj : j = connectionId <;> simp [boundView, hview, hj]
    | connected | authenticated _ =>
      simp only [SessionManager.removeConnection, hk]
      refine InverseIndex.congr h fun j => ?_
      by_cases hj : j = connectionId
      · subst hj
        simp [boundView, hview, hk, ConnectionState.boundClient]
      · simp [boundView, hview, hj]

theorem IndexConsistent.login (h : m.IndexConsistent) {connectionId : Nat} {userId : UInt32}
    (hlogin : m.login connectionId userId = .ok m') : m'.IndexConsistent := by
  unfold SessionManager.login at hlogin
  cases hk : m.connections.lookup connectionId with
  | none => simp [hk] at hlogin
  | some conn =>
    obtain ⟨address, transport, state⟩ := conn
    cases state with
    | connected =>
      simp only [hk, Except.ok.injEq] at hlogin
      subst hlogin
      -- `Authenticated` is bound to no client, like `Connected`
      refine InverseIndex.congr h fun j => ?_
      by_cases hj : j = connectionId
      · subst hj
        simp [boundView, hk, ConnectionState.boundClient]
      · simp [boundView, AList.lookup_insert_ne hj]
    | authenticated _ => simp [hk] at hlogin
    | bound _ _ _ => simp [hk] at hlogin

theorem IndexConsistent.bindSession (h : m.IndexConsistent) {connectionId clientId : Nat}
    {session : UInt64} (hbind : m.bindSession connectionId clientId session = .ok m') :
    m'.IndexConsistent := by
  unfold SessionManager.bindSession at hbind
  cases hk : m.connections.lookup connectionId with
  | none => simp [hk] at hbind
  | some conn =>
    obtain ⟨address, transport, state⟩ := conn
    cases state with
    | connected => simp [hk] at hbind
    | bound _ _ _ => simp [hk] at hbind
    | authenticated userId =>
      simp only [hk, Except.ok.injEq] at hbind
      subst hbind
      have hfree : m.boundView connectionId = none := by
        simp [boundView, hk, ConnectionState.boundClient]
      cases hc : m.clientToConnection.lookup clientId with
      | none =>
        -- a client no connection holds: index it at the connection
        have hev : m.evict connectionId clientId = m.connections := by simp [evict, hc]
        refine InverseIndex.alist_insert h hfree hc fun j => ?_
        by_cases hj : j = connectionId
        · subst hj
          simp [boundView, hev, ConnectionState.boundClient]
        · simp [boundView, hev, hj, AList.lookup_insert_ne hj]
      | some old =>
        -- the client's old connection is bound to it, and is not this one
        have hold : m.boundView old = some clientId := h.view_eq hc
        have hne : old ≠ connectionId := by
          rintro rfl
          rw [hfree] at hold
          cases hold
        obtain ⟨oldConn, hoc, -⟩ := Option.bind_eq_some_iff.mp hold
        have hev : m.evict connectionId clientId =
            m.connections.insert old { oldConn with state := .connected } := by
          simp [evict, hc, hne, hoc]
        refine InverseIndex.alist_move h hold hfree fun j => ?_
        by_cases hj : j = connectionId
        · subst hj
          simp [boundView, hev, ConnectionState.boundClient]
        · by_cases hjo : j = old
          · subst hjo
            simp [boundView, hev, hj, AList.lookup_insert_ne hj, ConnectionState.boundClient]
          · simp [boundView, hev, hj, hjo, AList.lookup_insert_ne hj, AList.lookup_insert_ne hjo]

/-! ## No connection rests in `Authenticated` -/

/-- Every connection other than `connectionId` is `Connected` or `Bound`. -/
def SettledExcept (m : SessionManager Addr Transport) (connectionId : Nat) : Prop :=
  ∀ j conn userId, j ≠ connectionId → m.connections.lookup j = some conn →
    conn.state ≠ .authenticated userId

/-- No connection is `Authenticated`. -/
def Settled (m : SessionManager Addr Transport) : Prop :=
  ∀ j conn userId, m.connections.lookup j = some conn → conn.state ≠ .authenticated userId

theorem Settled.except (h : m.Settled) (connectionId : Nat) : m.SettledExcept connectionId :=
  fun j conn userId _ hj => h j conn userId hj

theorem settled_new : (new : SessionManager Addr Transport).Settled := by
  intro j conn userId hj
  simp [new] at hj

theorem Settled.ensureConnection (h : m.Settled) (connectionId : Nat) (address : Addr)
    (transport : Transport) : (m.ensureConnection connectionId address transport).Settled := by
  intro j conn userId hj
  unfold SessionManager.ensureConnection at hj
  cases hk : m.connections.lookup connectionId with
  | some _ =>
    rw [hk] at hj
    exact h j conn userId hj
  | none =>
    rw [hk] at hj
    by_cases hjk : j = connectionId
    · subst hjk
      simp only [AList.lookup_insert, Option.some.injEq] at hj
      subst hj
      simp
    · rw [AList.lookup_insert_ne hjk] at hj
      exact h j conn userId hj

theorem Settled.removeConnection (h : m.Settled) (connectionId : Nat) :
    (m.removeConnection connectionId).1.Settled := by
  -- the removal erases one connection and changes none
  have herase : ∀ j conn, (m.connections.erase connectionId).lookup j = some conn →
      m.connections.lookup j = some conn := by
    intro j conn hj
    by_cases hjk : j = connectionId
    · subst hjk
      simp at hj
    · rwa [AList.lookup_erase_ne hjk] at hj
  intro j conn userId hj
  unfold SessionManager.removeConnection at hj
  split at hj
  · exact h j conn userId (herase j conn hj)
  · exact h j conn userId (herase j conn hj)
  · exact h j conn userId hj

/-- A login leaves only its own connection `Authenticated`. -/
theorem Settled.login (h : m.Settled) {connectionId : Nat} {userId : UInt32}
    (hlogin : m.login connectionId userId = .ok m') : m'.SettledExcept connectionId := by
  unfold SessionManager.login at hlogin
  cases hk : m.connections.lookup connectionId with
  | none => simp [hk] at hlogin
  | some conn =>
    obtain ⟨address, transport, state⟩ := conn
    cases state with
    | connected =>
      simp only [hk, Except.ok.injEq] at hlogin
      subst hlogin
      intro j conn userId' hjk hj
      rw [AList.lookup_insert_ne hjk] at hj
      exact h j conn userId' hj
    | authenticated _ => simp [hk] at hlogin
    | bound _ _ _ => simp [hk] at hlogin

/-- The eviction only sends a connection back to `Connected`. -/
theorem lookup_evict {connectionId clientId j : Nat} {conn : Connection Addr Transport}
    (hj : (m.evict connectionId clientId).lookup j = some conn) :
    m.connections.lookup j = some conn ∨ conn.state = .connected := by
  unfold evict at hj
  cases hc : m.clientToConnection.lookup clientId with
  | none =>
    simp only [hc] at hj
    exact .inl hj
  | some old =>
    simp only [hc] at hj
    by_cases hne : old = connectionId
    · simp only [hne, ne_eq, not_true_eq_false, if_false] at hj
      exact .inl hj
    · cases hoc : m.connections.lookup old with
      | none =>
        simp only [hne, hoc, ne_eq, not_false_eq_true, if_true] at hj
        exact .inl hj
      | some oldConn =>
        simp only [hne, hoc, ne_eq, not_false_eq_true, if_true] at hj
        by_cases hjo : j = old
        · subst hjo
          simp only [AList.lookup_insert, Option.some.injEq] at hj
          subst hj
          exact .inr rfl
        · rw [AList.lookup_insert_ne hjo] at hj
          exact .inl hj

/-- Binding the one `Authenticated` connection leaves none. -/
theorem SettledExcept.bindSession {connectionId clientId : Nat} {session : UInt64}
    (h : m.SettledExcept connectionId)
    (hbind : m.bindSession connectionId clientId session = .ok m') : m'.Settled := by
  unfold SessionManager.bindSession at hbind
  cases hk : m.connections.lookup connectionId with
  | none => simp [hk] at hbind
  | some conn =>
    obtain ⟨address, transport, state⟩ := conn
    cases state with
    | connected => simp [hk] at hbind
    | bound _ _ _ => simp [hk] at hbind
    | authenticated userId =>
      simp only [hk, Except.ok.injEq] at hbind
      subst hbind
      intro j conn userId' hj
      by_cases hjk : j = connectionId
      · subst hjk
        simp only [AList.lookup_insert, Option.some.injEq] at hj
        subst hj
        simp
      · rw [AList.lookup_insert_ne hjk] at hj
        rcases lookup_evict hj with hj | hconnected
        · exact h j conn userId' hjk hj
        · rw [hconnected]
          simp

/-- `bind_session` right after a successful `login` cannot fail: the branch of
`complete_login_register` that keeps a half-done login is never taken. -/
theorem bindSession_ok_of_login {connectionId : Nat} {userId : UInt32} (clientId : Nat)
    (session : UInt64) (hlogin : m.login connectionId userId = .ok m') :
    ∃ m'', m'.bindSession connectionId clientId session = .ok m'' := by
  unfold SessionManager.login at hlogin
  cases hk : m.connections.lookup connectionId with
  | none => simp [hk] at hlogin
  | some conn =>
    obtain ⟨address, transport, state⟩ := conn
    cases state with
    | connected =>
      simp only [hk, Except.ok.injEq] at hlogin
      subst hlogin
      simp [SessionManager.bindSession]
    | authenticated _ => simp [hk] at hlogin
    | bound _ _ _ => simp [hk] at hlogin

/-! ## Every run -/

/-- What every run keeps: the reverse index, and no connection left `Authenticated`. -/
structure Invariant (m : SessionManager Addr Transport) : Prop where
  index : m.IndexConsistent
  settled : m.Settled

theorem invariant_new : (new : SessionManager Addr Transport).Invariant :=
  ⟨indexConsistent_new, settled_new⟩

theorem Invariant.completeLoginRegister (h : m.Invariant) (transportClientId vsrClientId : Nat)
    (userId : UInt32) (session : UInt64) :
    (m.completeLoginRegister transportClientId vsrClientId userId session).1.Invariant := by
  unfold SessionManager.completeLoginRegister
  split
  · exact h
  · cases hlogin : m.login transportClientId userId with
    | error e => exact h
    | ok m₁ =>
      obtain ⟨m₂, hbind⟩ := bindSession_ok_of_login vsrClientId session hlogin
      simp only [hbind]
      exact ⟨(h.index.login hlogin).bindSession hbind, (h.settled.login hlogin).bindSession hbind⟩

/-- **Step lemma.** -/
theorem Invariant.step (h : m.Invariant) (e : Event Addr Transport) : (m.step e).Invariant := by
  cases e with
  | connect connectionId address transport =>
    exact ⟨h.index.ensureConnection connectionId address transport,
      h.settled.ensureConnection connectionId address transport⟩
  | disconnect connectionId =>
    exact ⟨h.index.removeConnection connectionId, h.settled.removeConnection connectionId⟩
  | loginRegister transportClientId vsrClientId userId session =>
    exact h.completeLoginRegister transportClientId vsrClientId userId session

/-- **Run lemma.** -/
theorem Invariant.run (h : m.Invariant) (events : List (Event Addr Transport)) :
    (m.run events).Invariant := by
  induction events generalizing m with
  | nil => exact h
  | cons e events ih => exact ih (h.step e)

/-! ## What the invariant says through the queries -/

theorem boundView_eq_some {j c : Nat} : m.boundView j = some c ↔ ∃ s, m.getSession j = some (c, s) := by
  unfold boundView getSession
  cases hj : m.connections.lookup j with
  | none => simp
  | some conn =>
    obtain ⟨address, transport, state⟩ := conn
    cases state <;> simp [ConnectionState.boundClient]

/-- Replies for a client are routed to the connection bound to it, and only there. -/
theorem IndexConsistent.lookup_iff (h : m.IndexConsistent) {c j : Nat} :
    m.clientToConnection.lookup c = some j ↔ ∃ s, m.getSession j = some (c, s) := by
  rw [h c j, boundView_eq_some]

theorem IndexConsistent.bound_unique (h : m.IndexConsistent) {j j' c : Nat} {s s' : UInt64}
    (hj : m.getSession j = some (c, s)) (hj' : m.getSession j' = some (c, s')) : j = j' :=
  h.injective (boundView_eq_some.mpr ⟨s, hj⟩) (boundView_eq_some.mpr ⟨s', hj'⟩)

/-- A connection with a user is bound. -/
theorem Settled.getSession_of_getUserId (h : m.Settled) {j : Nat} {userId : UInt32}
    (hu : m.getUserId j = some userId) : ∃ c s, m.getSession j = some (c, s) := by
  unfold getUserId at hu
  unfold getSession
  cases hj : m.connections.lookup j with
  | none => simp [hj] at hu
  | some conn =>
    obtain ⟨address, transport, state⟩ := conn
    cases state with
    | connected => simp [hj] at hu
    | authenticated u => exact absurd rfl (h j _ u hj)
    | bound u c s => exact ⟨c, s, by simp⟩

/-- After any run of connections, disconnections and committed login/registers from an empty
session manager: `client_to_connection` maps a client to a connection exactly when that
connection is bound to the client; no two connections are bound to one client; and every
connection with a user is bound, so the `Authenticated` state is never seen. -/
theorem sessions_consistent (events : List (Event Addr Transport)) :
    (∀ c j, (new.run events).clientToConnection.lookup c = some j ↔
        ∃ s, (new.run events).getSession j = some (c, s)) ∧
      (∀ j j' c s s', (new.run events).getSession j = some (c, s) →
        (new.run events).getSession j' = some (c, s') → j = j') ∧
      (∀ j userId, (new.run events).getUserId j = some userId →
        ∃ c s, (new.run events).getSession j = some (c, s)) := by
  have h := invariant_new.run events
  exact ⟨fun _ _ => h.index.lookup_iff, fun _ _ _ _ _ hj hj' => h.index.bound_unique hj hj',
    fun _ _ hu => h.settled.getSession_of_getUserId hu⟩

/-! ## Disconnecting and failing -/

/-- `remove_connection` hands back exactly the session the connection was bound to. -/
theorem removeConnection_snd (connectionId : Nat) :
    (m.removeConnection connectionId).2 = m.getSession connectionId := by
  unfold SessionManager.removeConnection getSession
  cases hk : m.connections.lookup connectionId with
  | none => rfl
  | some conn =>
    obtain ⟨address, transport, state⟩ := conn
    cases state <;> rfl

/-- Disconnecting a bound connection leaves its client bound nowhere and out of the index. -/
theorem IndexConsistent.removeConnection_releases (h : m.IndexConsistent) {connectionId c : Nat}
    {s : UInt64} (hk : m.getSession connectionId = some (c, s)) :
    (m.removeConnection connectionId).1.clientToConnection.lookup c = none ∧
      ∀ j s', (m.removeConnection connectionId).1.getSession j ≠ some (c, s') := by
  have hnone : (m.removeConnection connectionId).1.clientToConnection.lookup c = none := by
    unfold getSession at hk
    unfold SessionManager.removeConnection
    cases hc : m.connections.lookup connectionId with
    | none => simp [hc] at hk
    | some conn =>
      obtain ⟨address, transport, state⟩ := conn
      cases state with
      | bound u c' s'' =>
        simp only [hc, Option.map_some, Option.some.injEq, Prod.mk.injEq] at hk
        obtain ⟨rfl, -⟩ := hk
        simp
      | connected => simp [hc] at hk
      | authenticated _ => simp [hc] at hk
  refine ⟨hnone, fun j s' hj => ?_⟩
  have := (h.removeConnection connectionId).lookup_iff.mpr ⟨s', hj⟩
  rw [hnone] at this
  cases this

/-- After any run, disconnecting a connection returns the session it was bound to, for the
`Logout` the caller submits, and leaves that client bound to no connection. -/
theorem disconnect_releases_client (events : List (Event Addr Transport)) (connectionId : Nat) :
    ((new.run events).removeConnection connectionId).2 = (new.run events).getSession connectionId ∧
      ∀ c s, (new.run events).getSession connectionId = some (c, s) →
        ((new.run events).removeConnection connectionId).1.clientToConnection.lookup c = none ∧
        ∀ j s', ((new.run events).removeConnection connectionId).1.getSession j ≠ some (c, s') := by
  have h := (invariant_new : (new : SessionManager Addr Transport).Invariant).run events
  exact ⟨removeConnection_snd connectionId, fun _ _ hk => h.index.removeConnection_releases hk⟩

/-- A login/register that fails has failed in `login` and changed nothing: there is no
half-done login to roll back. -/
theorem login_register_failure_unchanged {transportClientId vsrClientId : Nat} {userId : UInt32}
    {session : UInt64} {e : SessionError}
    (h : (m.completeLoginRegister transportClientId vsrClientId userId session).2 = .error e) :
    (m.completeLoginRegister transportClientId vsrClientId userId session).1 = m ∧
      m.login transportClientId userId = .error e := by
  unfold SessionManager.completeLoginRegister at h ⊢
  cases hsession : m.getSession transportClientId with
  | some _ => simp [hsession] at h
  | none =>
    cases hlogin : m.login transportClientId userId with
    | error e' =>
      simp only [hsession, hlogin] at h
      cases h
      exact ⟨rfl, rfl⟩
    | ok m₁ =>
      obtain ⟨m₂, hbind⟩ := bindSession_ok_of_login vsrClientId session hlogin
      simp [hsession, hlogin, hbind] at h

theorem login_register_failure_unchanged_unknown :
    ((new : SessionManager Unit Unit).completeLoginRegister 1 7 3 9).2 =
        .error (.connectionNotFound 1) ∧
      ((new : SessionManager Unit Unit).completeLoginRegister 1 7 3 9).1 = new ∧
      (new : SessionManager Unit Unit).login 1 3 = .error (.connectionNotFound 1) :=
  have h : ((new : SessionManager Unit Unit).completeLoginRegister 1 7 3 9).2 =
      .error (.connectionNotFound 1) := rfl
  ⟨h, login_register_failure_unchanged h⟩

end SessionManager

end IggyCore.Server
