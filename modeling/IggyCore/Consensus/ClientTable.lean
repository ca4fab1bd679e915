import IggyCore.Consensus.Pipeline
import IggyCore.Library.Run
import IggyCore.Library.SlotArray
import IggyCore.Library.KeyIndex
import Mathlib.Data.List.AList
import Mathlib.Data.List.MinMax

/-!
# The client table

`core/consensus/src/client_table.rs`: per-client session state, a fixed array of slots (the
source of truth) and a `HashMap` index from client id to slot. The index is an `AList`, a
map with distinct keys; `count()` is its number of keys. A cached reply is the reply message
itself; the table reads only its header.

A failed `assert!` or `expect` is the panic of its own message; an out-of-range slot index is
Rust's bounds-check panic.
-/

namespace IggyCore.Consensus

open IggyCore.Library

/-- `REGISTER_REQUEST_ID`: the request number of a Register. -/
def registerRequestId : Nat := 0

/-- A client's session, fixed for the entry's lifetime, and its latest committed reply. -/
structure ClientEntry where
  session : Nat
  reply : Message ReplyHeader

/-- The client an entry belongs to: the one its cached reply was sent to. -/
def ClientEntry.client (e : ClientEntry) : Nat := e.reply.header.client

inductive RequestStatus
  | new
  | duplicate (reply : Message ReplyHeader)
  | stale
  | noSession
  | sessionMismatch (expected received : Nat)
  | requestGap (expected received : Nat)
  | alreadyRegistered (session : Nat) (cachedReply : Message ReplyHeader)

structure ClientTable where
  slots : List (Option ClientEntry)
  index : AList (fun _ : Nat => Nat)

namespace ClientTable

def new (maxClients : Nat) : ClientTable := ⟨List.replicate maxClients none, ∅⟩

def count (t : ClientTable) : Nat := t.index.keys.length

def reservedClientPanic : Panic := ⟨"client_id 0 is reserved for internal use"⟩

def indexOutOfBounds (len index : Nat) : Panic :=
  ⟨s!"index out of bounds: the len is {len} but the index is {index}"⟩

/-- `self.slots[slot_idx].as_ref().expect("index/slot mismatch")`. -/
def slotEntry (t : ClientTable) (i : Nat) : Except Panic ClientEntry :=
  match t.slots[i]? with
  | none => .error (indexOutOfBounds t.slots.length i)
  | some none => .error ⟨"index/slot mismatch"⟩
  | some (some e) => .ok e

/-- Check a request against the committed state: session first, then the request number. -/
def checkRequest (t : ClientTable) (clientId session request : Nat) :
    Except Panic RequestStatus := do
  if clientId = 0 then throw reservedClientPanic
  let some i := t.index.lookup clientId | return .noSession
  let entry ← t.slotEntry i
  if session ≠ entry.session then return .sessionMismatch entry.session session
  let committedRequest := entry.reply.header.request
  if request < committedRequest then return .stale
  if request = committedRequest then return .duplicate entry.reply
  if request ≠ committedRequest + 1 then return .requestGap (committedRequest + 1) request
  return .new

def checkRegister (t : ClientTable) (clientId : Nat) : Except Panic RequestStatus := do
  if clientId = 0 then throw reservedClientPanic
  let some i := t.index.lookup clientId | return .new
  let entry ← t.slotEntry i
  return .alreadyRegistered entry.session entry.reply

/-- The running choice of `evict_oldest`: keep the first slot of the smallest commit. -/
def pickOlder (target : Option (Nat × Nat)) (idx commit : Nat) : Option (Nat × Nat) :=
  match target with
  | none => some (idx, commit)
  | some (_, minCommit) => if commit < minCommit then some (idx, commit) else target

/-- The scan of `evict_oldest`: the oldest client with nothing in flight, and the oldest one
with a prepare in flight as the fallback. -/
def scanOldest (inFlight : Nat → Bool) (slots : List (Option ClientEntry)) :
    Option (Nat × Nat) × Option (Nat × Nat) :=
  slots.zipIdx.foldl
    (fun acc slot => match slot with
      | (none, _) => acc
      | (some entry, idx) =>
        if inFlight entry.client then (acc.1, pickOlder acc.2 idx entry.reply.header.commit)
        else (pickOlder acc.1 idx entry.reply.header.commit, acc.2))
    (none, none)

/-- Evict the client with the oldest commit, preferring one with nothing in flight. -/
def evictOldest (t : ClientTable) (inFlight : Nat → Bool) : Except Panic ClientTable :=
  let (evictee, fallback) := scanOldest inFlight t.slots
  match evictee.or fallback with
  | none => .ok t
  | some (i, _) =>
    match t.slots[i]? with
    | some (some entry) => .ok ⟨t.slots.set i none, t.index.erase entry.client⟩
    | _ => .error ⟨"evictee must exist"⟩

def firstFreeSlot (t : ClientTable) : Option Nat := t.slots.findIdx? Option.isNone

/-- A full table (as many clients as slots) evicts before a new client is stored. -/
def makeRoom (t : ClientTable) (inFlight : Nat → Bool) : Except Panic ClientTable :=
  if t.index.keys.length ≥ t.slots.length then t.evictOldest inFlight else pure t

/-- Store a new client's entry in the first free slot. -/
def insertClient (t : ClientTable) (clientId : Nat) (entry : ClientEntry) :
    Except Panic ClientTable :=
  match t.firstFreeSlot with
  | some i => .ok ⟨t.slots.set i (some entry), t.index.insert clientId i⟩
  | none => .error ⟨"eviction must free a slot"⟩

/-- Record a committed Register: a new session in a free slot (evicting when full), the
register reply cached in place for the same session, and a different session skipped. -/
def commitRegister (t : ClientTable) (clientId : Nat) (reply : Message ReplyHeader)
    (inFlight : Nat → Bool) : Except Panic ClientTable := do
  if clientId = 0 then throw reservedClientPanic
  if clientId ≠ reply.header.client then
    throw ⟨s!"commit_register: client_id mismatch (arg={clientId}, header={reply.header.client})"⟩
  let session := reply.header.commit
  if session = 0 then throw ⟨"commit_register: session must be > 0"⟩
  match t.index.lookup clientId with
  | some i =>
    let slot ← t.slotEntry i
    -- a different session: log and skip
    if slot.session ≠ session then return t
    return { t with slots := t.slots.set i (some { slot with reply }) }
  | none =>
    let t ← t.makeRoom inFlight
    t.insertClient clientId ⟨session, reply⟩

/-- Record a committed reply in place; a client no longer in the table is skipped. -/
def commitReply (t : ClientTable) (clientId session : Nat) (reply : Message ReplyHeader) :
    Except Panic ClientTable := do
  if clientId = 0 then throw reservedClientPanic
  let newClient := reply.header.client
  let newRequest := reply.header.request
  let newCommit := reply.header.commit
  if clientId ≠ newClient then
    throw ⟨s!"commit_reply: client_id mismatch (arg={clientId}, header={newClient})"⟩
  let some i := t.index.lookup clientId | return t
  let slot ← t.slotEntry i
  let slotCommit := slot.reply.header.commit
  let slotRequest := slot.reply.header.request
  if slot.session ≠ session then
    throw ⟨s!"commit_reply: session mismatch for client {clientId}: " ++
      s!"entry={slot.session}, prepare={session}"⟩
  if newCommit < slotCommit then
    throw ⟨s!"commit_reply: commit regression for client {clientId}: {slotCommit} -> {newCommit}"⟩
  if newRequest < slotRequest then
    throw ⟨s!"commit_reply: request regression for client {clientId}: " ++
      s!"{slotRequest} -> {newRequest}"⟩
  return { t with slots := t.slots.set i (some { slot with reply }) }

/-- Drop a client's session; `true` when it had one. -/
def removeClient (t : ClientTable) (clientId : Nat) : Except Panic (ClientTable × Bool) :=
  match t.index.lookup clientId with
  | none => .ok (t, false)
  | some i =>
    if i < t.slots.length then .ok (⟨t.slots.set i none, t.index.erase clientId⟩, true)
    else .error (indexOutOfBounds t.slots.length i)

def getReply (t : ClientTable) (clientId : Nat) : Option (Message ReplyHeader) := do
  let i ← t.index.lookup clientId
  let entry ← t.slots[i]?.bind id
  return entry.reply

def getSession (t : ClientTable) (clientId : Nat) : Option Nat := do
  let i ← t.index.lookup clientId
  let entry ← t.slots[i]?.bind id
  return entry.session

/-! ## The representation invariant -/

/-- The index maps a client to a slot exactly when that slot holds an entry whose cached reply
belongs to the client. -/
def Consistent (t : ClientTable) : Prop :=
  IndexMatches ClientEntry.client (fun c => t.index.lookup c) t.slots

theorem consistent_new (maxClients : Nat) : Consistent (new maxClients) := by
  intro c i
  simp [new, List.getElem?_replicate]

/-- The number of clients is at most the number of slots. -/
theorem Consistent.count_le {t : ClientTable} (h : Consistent t) : t.count ≤ t.slots.length := by
  have hcard := h.card_le t.index.keys.toFinset fun k hk => by
    simpa [AList.lookup_isSome, AList.mem_keys] using hk
  rwa [List.toFinset_card_of_nodup t.index.keys_nodup] at hcard

theorem Consistent.slotEntry {t : ClientTable} (h : Consistent t) {c i : Nat}
    (hi : t.index.lookup c = some i) :
    ∃ e, t.slots[i]? = some (some e) ∧ e.client = c ∧ t.slotEntry i = .ok e := by
  obtain ⟨e, he, hc⟩ := (h c i).mp hi
  exact ⟨e, he, hc, by simp [ClientTable.slotEntry, he]⟩

theorem slotEntry_ok {t : ClientTable} {i : Nat} {e : ClientEntry} (h : t.slotEntry i = .ok e) :
    t.slots[i]? = some (some e) := by
  unfold ClientTable.slotEntry at h
  split at h
  · cases h
  · cases h
  · cases h
    assumption

theorem firstFreeSlot_spec {t : ClientTable} {i : Nat} (h : t.firstFreeSlot = some i) :
    t.slots[i]? = some none := by
  obtain ⟨hlt, hnone, -⟩ := List.findIdx?_eq_some_iff_getElem.mp h
  rw [List.getElem?_eq_getElem hlt]
  simpa using hnone

/-- `evict_oldest` either leaves the table or empties one occupied slot and drops its client. -/
theorem evictOldest_spec {t t' : ClientTable} {inFlight : Nat → Bool}
    (h : t.evictOldest inFlight = .ok t') :
    t' = t ∨ ∃ i e, t.slots[i]? = some (some e) ∧ t' = ⟨t.slots.set i none, t.index.erase e.client⟩ := by
  unfold evictOldest at h
  simp only at h
  split at h
  · cases h
    exact .inl rfl
  · split at h
    · cases h
      exact .inr ⟨_, _, ‹_›, rfl⟩
    · cases h

theorem Consistent.evict {t : ClientTable} (h : Consistent t) {i : Nat} {e : ClientEntry}
    (he : t.slots[i]? = some (some e)) :
    Consistent ⟨t.slots.set i none, t.index.erase e.client⟩ :=
  IndexMatches.erase h he (AList.lookup_erase _ _) fun _ hk => AList.lookup_erase_ne hk

theorem Consistent.evictOldest {t t' : ClientTable} (h : Consistent t) {inFlight : Nat → Bool}
    (hev : t.evictOldest inFlight = .ok t') :
    Consistent t' ∧ t'.slots.length = t.slots.length ∧
      ∀ c, t.index.lookup c = none → t'.index.lookup c = none := by
  rcases evictOldest_spec hev with rfl | ⟨i, e, he, rfl⟩
  · exact ⟨h, rfl, fun _ hc => hc⟩
  · refine ⟨h.evict he, by simp, fun c hc => ?_⟩
    by_cases hce : c = e.client
    · rw [hce, AList.lookup_erase]
    · rw [AList.lookup_erase_ne hce, hc]

/-- Storing an entry for a client the index does not hold, in a free slot. -/
theorem Consistent.insert {t : ClientTable} (h : Consistent t) {i : Nat} {e : ClientEntry}
    (hi : t.slots[i]? = some none) (hfresh : t.index.lookup e.client = none) :
    Consistent ⟨t.slots.set i (some e), t.index.insert e.client i⟩ :=
  IndexMatches.insert h hi hfresh (AList.lookup_insert _) fun _ hk => AList.lookup_insert_ne hk

/-- What a successful step keeps: the invariant and the number of slots. -/
def Keeps (t t' : ClientTable) : Prop := Consistent t' ∧ t'.slots.length = t.slots.length

theorem Consistent.commitRegister {t : ClientTable} (h : Consistent t) (clientId : Nat)
    (reply : Message ReplyHeader) (inFlight : Nat → Bool) :
    Outcome (fun _ => True) (Keeps t) (t.commitRegister clientId reply inFlight) := by
  unfold ClientTable.commitRegister
  simp only
  split
  · trivial
  split
  · trivial
  rename_i hclient
  split
  · trivial
  split
  · -- the client has a slot: same session updates the reply in place, another is skipped
    rename_i i hi
    obtain ⟨e, he, hec, hslot⟩ := h.slotEntry hi
    rw [hslot, bind_ok]
    split
    · exact ⟨h, rfl⟩
    · refine ⟨h.set_same_key he ?_, by simp⟩
      simp only [ClientEntry.client] at hec ⊢
      rw [hec]
      exact (not_not.mp hclient).symm
  · -- a new client: evict when full, then take the first free slot
    rename_i hnone
    refine Outcome.bind (Q := fun t1 => Keeps t t1 ∧ t1.index.lookup clientId = none) ?_ ?_
    · unfold ClientTable.makeRoom
      split
      · cases hev : t.evictOldest inFlight with
        | error p => trivial
        | ok t1 =>
          obtain ⟨h1, hlen, hkeep⟩ := h.evictOldest hev
          exact ⟨⟨h1, hlen⟩, hkeep clientId hnone⟩
      · exact ⟨⟨h, rfl⟩, hnone⟩
    · rintro t1 ⟨⟨h1, hlen⟩, hfresh⟩
      unfold ClientTable.insertClient
      split
      · rename_i i hi
        have hc : clientId = (ClientEntry.mk reply.header.commit reply).client :=
          not_not.mp hclient
        refine ⟨?_, by simp [hlen]⟩
        rw [hc] at hfresh ⊢
        exact h1.insert (firstFreeSlot_spec hi) hfresh
      · trivial

theorem Consistent.commitReply {t : ClientTable} (h : Consistent t) (clientId session : Nat)
    (reply : Message ReplyHeader) :
    Outcome (fun _ => True) (Keeps t) (t.commitReply clientId session reply) := by
  unfold ClientTable.commitReply
  simp only
  split
  · trivial
  split
  · trivial
  rename_i hclient
  split
  · rename_i i hi
    obtain ⟨e, he, hec, hslot⟩ := h.slotEntry hi
    rw [hslot, bind_ok]
    -- the three assertions, then the in-place update of the reply
    split
    · trivial
    split
    · trivial
    split
    · trivial
    refine ⟨h.set_same_key he ?_, by simp⟩
    simp only [ClientEntry.client] at hec ⊢
    rw [hec]
    exact (not_not.mp hclient).symm
  · exact ⟨h, rfl⟩

theorem Consistent.removeClient {t : ClientTable} (h : Consistent t) (clientId : Nat) :
    Outcome (fun _ => True) (fun r => Keeps t r.1) (t.removeClient clientId) := by
  unfold ClientTable.removeClient
  split
  · exact ⟨h, rfl⟩
  · rename_i i hi
    obtain ⟨e, he, hec, -⟩ := h.slotEntry hi
    split
    · refine ⟨?_, by simp⟩
      rw [← hec]
      exact h.evict he
    · trivial

/-! ## Runs of table operations -/

/-- The operations a replica applies to its client table. -/
inductive ClientOp
  | commitRegister (clientId : Nat) (reply : Message ReplyHeader) (inFlight : Nat → Bool)
  | commitReply (clientId session : Nat) (reply : Message ReplyHeader)
  | removeClient (clientId : Nat)
  | checkRequest (clientId session request : Nat)
  | checkRegister (clientId : Nat)

/-- Apply one operation; the checks leave the table as it is. -/
def apply (t : ClientTable) : ClientOp → Except Panic ClientTable
  | .commitRegister clientId reply inFlight => t.commitRegister clientId reply inFlight
  | .commitReply clientId session reply => t.commitReply clientId session reply
  | .removeClient clientId => (t.removeClient clientId).map Prod.fst
  | .checkRequest clientId session request => (t.checkRequest clientId session request).map fun _ => t
  | .checkRegister clientId => (t.checkRegister clientId).map fun _ => t

def run (t : ClientTable) (ops : List ClientOp) : Except Panic ClientTable :=
  ops.foldlM apply t

theorem Consistent.apply {t : ClientTable} (h : Consistent t) (op : ClientOp) :
    Outcome (fun _ => True) (Keeps t) (t.apply op) := by
  cases op with
  | commitRegister clientId reply inFlight => exact h.commitRegister clientId reply inFlight
  | commitReply clientId session reply => exact h.commitReply clientId session reply
  | removeClient clientId => exact (h.removeClient clientId).map fun _ hr => hr
  | checkRequest clientId session request =>
    exact Outcome.map (P := fun _ => True) (by cases t.checkRequest clientId session request <;> trivial)
      fun _ _ => ⟨h, rfl⟩
  | checkRegister clientId =>
    exact Outcome.map (P := fun _ => True) (by cases t.checkRegister clientId <;> trivial)
      fun _ _ => ⟨h, rfl⟩

/-- Every table a run reaches from `new max_clients` is consistent and holds at most
`max_clients` clients. -/
theorem client_table_consistent {maxClients : Nat} {ops : List ClientOp} {t : ClientTable}
    (hrun : (new maxClients).run ops = .ok t) :
    Consistent t ∧ t.count ≤ maxClients := by
  have hkeep : Keeps (new maxClients) t := by
    refine foldlM_invariant apply (Keeps (new maxClients)) ?_ ops (new maxClients) t
      ⟨consistent_new maxClients, rfl⟩ hrun
    rintro u op u' ⟨hu, hlen⟩ hstep
    obtain ⟨h', hlen'⟩ := (hu.apply op).of_eq_ok hstep
    exact ⟨h', hlen'.trans hlen⟩
  refine ⟨hkeep.1, ?_⟩
  have hle := hkeep.1.count_le
  rw [hkeep.2] at hle
  simpa [ClientTable.new] using hle

/-- The reply to a Register of `client` committed at `commit`. -/
def registerReply (client commit : Nat) : Message ReplyHeader :=
  ⟨⟨0, 256, 0, 0, .reply, 0, 0, client, commit, commit, 0, 0, .register, 0⟩, []⟩

/-- The reply to `client`'s request `request`, committed at `commit`. -/
def requestReply (client commit request : Nat) : Message ReplyHeader :=
  ⟨⟨0, 256, 0, 0, .reply, 0, 0, client, commit, commit, 0, request, .createStream, 0⟩, []⟩

/-- Clients 7 and 8 register into a table of two and client 7's request 1 is answered. Client 9
then registers while client 8 is in flight, so client 7 is evicted and client 9 takes slot 0.
Client 8 leaves, and a retry of client 9 is checked. -/
def registerEvictRemoveOps : List ClientOp :=
  [.commitRegister 7 (registerReply 7 3) fun _ => false,
    .commitRegister 8 (registerReply 8 4) fun _ => false,
    .commitReply 7 3 (requestReply 7 5 1),
    .commitRegister 9 (registerReply 9 6) fun c => c == 8,
    .removeClient 8,
    .checkRequest 9 6 1]

theorem client_table_consistent_register :
    ∃ t, (new 2).run registerEvictRemoveOps = .ok t ∧ t.getReply 7 = none ∧
      t.getReply 8 = none ∧ t.getReply 9 = some (registerReply 9 6) ∧
      Consistent t ∧ t.count ≤ 2 := by
  obtain ⟨t, hrun, hreplies⟩ := exists_of_okAnd (x := (new 2).run registerEvictRemoveOps)
    (p := fun t => t.getReply 7 == none && t.getReply 8 == none &&
      t.getReply 9 == some (registerReply 9 6)) (by decide)
  simp only [Bool.and_eq_true, beq_iff_eq] at hreplies
  obtain ⟨⟨h7, h8⟩, h9⟩ := hreplies
  exact ⟨t, hrun, h7, h8, h9, client_table_consistent hrun⟩

/-- A same-session Register committed again after the client moved on (a WAL replay of the
Register) overwrites the cached reply with the register reply: the cached request goes from 1
back to 0 and its commit from 11 back to 10, so a retry of the committed request 1 is then
`New` again. -/
theorem client_table_reply_regresses :
    (do
      let t ← (new 10).commitRegister 1
        ⟨⟨0, 256, 0, 0, .reply, 0, 0, 1, 10, 10, 0, 0, .register, 0⟩, []⟩ fun _ => false
      let t ← t.commitReply 1 10
        ⟨⟨0, 256, 0, 0, .reply, 0, 0, 1, 11, 11, 0, 1, .createStream, 0⟩, []⟩
      let t' ← t.commitRegister 1
        ⟨⟨0, 256, 0, 0, .reply, 0, 0, 1, 10, 10, 0, 0, .register, 0⟩, []⟩ fun _ => false
      let before ← t.checkRequest 1 10 1
      let after ← t'.checkRequest 1 10 1
      return ((t.getReply 1).map fun (r : Message ReplyHeader) => (r.header.request, r.header.commit),
        (t'.getReply 1).map fun (r : Message ReplyHeader) => (r.header.request, r.header.commit),
        t.getSession 1, t'.getSession 1,
        before matches .duplicate _, after matches .new) : Except Panic _) =
      .ok (some (1, 11), some (0, 10), some 10, some 10, true, true) := by
  rfl

/-! ## Which client eviction picks

The reference for the scan of `evict_oldest` is Mathlib's `List.argmin` over the occupied slots
as `(slot index, commit)` pairs in slot order: the first pair of smallest commit, so the lowest
slot index on ties. -/

/-- The occupant of one slot, as `(slot index, commit)`, if `p` selects its entry. -/
def occupant (p : ClientEntry → Bool) : Option ClientEntry × Nat → Option (Nat × Nat)
  | (some e, idx) => if p e then some (idx, e.reply.header.commit) else none
  | (none, _) => none

/-- The occupants `p` selects, in slot order. -/
def occupants (p : ClientEntry → Bool) (slots : List (Option ClientEntry)) : List (Nat × Nat) :=
  slots.zipIdx.filterMap (occupant p)

/-- The slot to evict: the smallest commit among the clients with nothing in flight, or, when
every client is in flight, the smallest commit overall. -/
def evictionChoice (inFlight : Nat → Bool) (slots : List (Option ClientEntry)) : Option Nat :=
  (((occupants (fun e => !inFlight e.client) slots).argmin Prod.snd).or
    ((occupants (fun _ => true) slots).argmin Prod.snd)).map Prod.fst

/-- The slots after an eviction by `evictionChoice`. -/
def evictedSlots (inFlight : Nat → Bool) (slots : List (Option ClientEntry)) :
    List (Option ClientEntry) :=
  match evictionChoice inFlight slots with
  | none => slots
  | some i => slots.set i none

/-- One slot of the scan of `evict_oldest`. -/
def scanStep (inFlight : Nat → Bool) (acc : Option (Nat × Nat) × Option (Nat × Nat)) :
    Option ClientEntry × Nat → Option (Nat × Nat) × Option (Nat × Nat)
  | (none, _) => acc
  | (some entry, idx) =>
    if inFlight entry.client then (acc.1, pickOlder acc.2 idx entry.reply.header.commit)
    else (pickOlder acc.1 idx entry.reply.header.commit, acc.2)

theorem scanOldest_eq_foldl (inFlight : Nat → Bool) (slots : List (Option ClientEntry)) :
    scanOldest inFlight slots = slots.zipIdx.foldl (scanStep inFlight) (none, none) := rfl

/-- `pickOlder` is the step of `List.argmin` on commits: a strictly smaller commit replaces the
running minimum. -/
theorem pickOlder_eq_argAux (target : Option (Nat × Nat)) (idx commit : Nat) :
    pickOlder target idx commit = List.argAux (fun b c => b.2 < c.2) target (idx, commit) := by
  rcases target with _ | ⟨j, c⟩ <;> rfl

/-- The scan keeps two running minima, each over the occupants routed to it. -/
theorem foldl_scanStep (inFlight : Nat → Bool) (l : List (Option ClientEntry × Nat))
    (a b : Option (Nat × Nat)) :
    l.foldl (scanStep inFlight) (a, b) =
      ((l.filterMap (occupant fun e => !inFlight e.client)).foldl
          (List.argAux fun b c => b.2 < c.2) a,
        (l.filterMap (occupant fun e => inFlight e.client)).foldl
          (List.argAux fun b c => b.2 < c.2) b) := by
  induction l generalizing a b with
  | nil => rfl
  | cons slot l ih =>
    obtain ⟨_ | e, idx⟩ := slot
    · exact ih a b
    · by_cases hf : inFlight e.client
      · simp only [List.foldl_cons, List.filterMap_cons, scanStep, occupant, hf, Bool.not_true,
          if_true, pickOlder_eq_argAux]
        exact ih a _
      · simp only [List.foldl_cons, List.filterMap_cons, scanStep, occupant, hf, Bool.not_false,
          if_true, pickOlder_eq_argAux]
        exact ih _ b

theorem scanOldest_eq (inFlight : Nat → Bool) (slots : List (Option ClientEntry)) :
    scanOldest inFlight slots =
      ((occupants (fun e => !inFlight e.client) slots).argmin Prod.snd,
        (occupants (fun e => inFlight e.client) slots).argmin Prod.snd) := by
  rw [scanOldest_eq_foldl, foldl_scanStep]
  rfl

/-- When no client is out of flight, the in-flight occupants are all of them. -/
theorem occupants_inFlight_of_nil {inFlight : Nat → Bool} {slots : List (Option ClientEntry)}
    (h : occupants (fun e => !inFlight e.client) slots = []) :
    occupants (fun e => inFlight e.client) slots = occupants (fun _ => true) slots := by
  unfold occupants at h ⊢
  generalize slots.zipIdx = l at h ⊢
  induction l with
  | nil => rfl
  | cons slot l ih =>
    obtain ⟨_ | e, idx⟩ := slot
    · exact ih h
    · by_cases hf : inFlight e.client
      · simp only [List.filterMap_cons, occupant, hf, Bool.not_true, if_true] at h ⊢
        rw [ih h]
      · simp [occupant, hf] at h

theorem mem_occupants {p : ClientEntry → Bool} {slots : List (Option ClientEntry)} {i c : Nat}
    (h : (i, c) ∈ occupants p slots) :
    ∃ e, slots[i]? = some (some e) ∧ p e ∧ e.reply.header.commit = c := by
  obtain ⟨⟨slot, idx⟩, hmem, hocc⟩ := List.mem_filterMap.mp h
  rw [List.mem_zipIdx_iff_getElem?] at hmem
  obtain _ | e := slot
  · cases hocc
  · by_cases hp : p e
    · simp only [occupant, hp, if_true, Option.some.injEq, Prod.mk.injEq] at hocc
      obtain ⟨rfl, rfl⟩ := hocc
      exact ⟨e, hmem, hp, rfl⟩
    · simp [occupant, hp] at hocc

/-- Emptying the slot of a chosen occupant, as the end of `evict_oldest` does. -/
theorem evict_chosen {t : ClientTable} {p : ClientEntry → Bool} {i c : Nat}
    (h : (i, c) ∈ occupants p t.slots) :
    (match t.slots[i]? with
      | some (some entry) => (.ok ⟨t.slots.set i none, t.index.erase entry.client⟩ :
          Except Panic ClientTable)
      | _ => .error ⟨"evictee must exist"⟩).map ClientTable.slots = .ok (t.slots.set i none) := by
  obtain ⟨e, he, -, -⟩ := mem_occupants h
  rw [he]
  rfl

/-- `evict_oldest` empties exactly the slot `evictionChoice` names, and changes no other. -/
theorem evictOldest_slots (t : ClientTable) (inFlight : Nat → Bool) :
    (t.evictOldest inFlight).map ClientTable.slots = .ok (evictedSlots inFlight t.slots) := by
  unfold evictOldest evictedSlots evictionChoice
  rw [scanOldest_eq]
  dsimp only
  cases hfree : (occupants (fun e => !inFlight e.client) t.slots).argmin Prod.snd with
  | some pick =>
    obtain ⟨i, c⟩ := pick
    exact evict_chosen (List.argmin_mem hfree)
  | none =>
    -- every occupant is in flight: the fallback ranges over all of them
    rw [occupants_inFlight_of_nil (List.argmin_eq_none.mp hfree)]
    cases hall : (occupants (fun _ => true) t.slots).argmin Prod.snd with
    | none => rfl
    | some pick =>
      obtain ⟨i, c⟩ := pick
      exact evict_chosen (List.argmin_mem hall)

/-- The slots after a new client's Register: the eviction `evictionChoice` names when the table
is full, then the entry in the lowest free slot; `none` when no slot is free. -/
def registeredSlots (full : Bool) (inFlight : Nat → Bool) (slots : List (Option ClientEntry))
    (entry : ClientEntry) : Option (List (Option ClientEntry)) :=
  let room := if full then evictedSlots inFlight slots else slots
  (room.findIdx? Option.isNone).map fun i => room.set i (some entry)

/-- A full table (as many clients as slots) loses the occupant `evictionChoice` names. -/
theorem makeRoom_slots (t : ClientTable) (inFlight : Nat → Bool) :
    (t.makeRoom inFlight).map ClientTable.slots =
      .ok (if t.slots.length ≤ t.count then evictedSlots inFlight t.slots else t.slots) := by
  unfold makeRoom count
  split
  · exact evictOldest_slots t inFlight
  · rfl

/-- The new entry goes to the lowest free slot, and nothing else of the slots changes. -/
theorem insertClient_slots (t : ClientTable) (clientId : Nat) (entry : ClientEntry) :
    ((t.insertClient clientId entry).map ClientTable.slots).toOption =
      (t.slots.findIdx? Option.isNone).map fun i => t.slots.set i (some entry) := by
  unfold insertClient firstFreeSlot
  split <;> rename_i hfree <;> rw [hfree] <;> rfl

/-- The Register of a client the table does not hold, with valid ids: its slots are those of
`registeredSlots`, and it panics exactly when no slot is left free. -/
theorem commitRegister_new_slots {t : ClientTable} {clientId : Nat} {reply : Message ReplyHeader}
    {inFlight : Nat → Bool} (hid : clientId ≠ 0) (hclient : clientId = reply.header.client)
    (hsession : reply.header.commit ≠ 0) (hnew : t.index.lookup clientId = none) :
    ((t.commitRegister clientId reply inFlight).map ClientTable.slots).toOption =
      registeredSlots (decide (t.slots.length ≤ t.count)) inFlight t.slots
        ⟨reply.header.commit, reply⟩ := by
  subst hclient
  obtain ⟨t1, hroom, hslots⟩ := map_eq_ok (makeRoom_slots t inFlight)
  -- the guards pass, and the client takes the new-session branch
  have hpass : t.commitRegister reply.header.client reply inFlight =
      t1.insertClient reply.header.client ⟨reply.header.commit, reply⟩ := by
    simp only [commitRegister, hid, hsession, hnew, hroom, if_false, ne_eq, not_true_eq_false,
      bind_ok]
  rw [hpass, insertClient_slots, registeredSlots, hslots]
  simp only [decide_eq_true_eq]

/-! ## Two tables with one content

The index is a `HashMap`: two replicas may hold the same clients in the same slots with indexes
that iterate in different orders. No operation iterates the index, so two such tables stay alike
through any run, and consistent tables with equal slots are always such tables. -/

/-- The same slots and the same index lookups. -/
def SameContent (t₁ t₂ : ClientTable) : Prop :=
  t₁.slots = t₂.slots ∧ ∀ c, t₁.index.lookup c = t₂.index.lookup c

namespace SameContent

variable {t₁ t₂ : ClientTable}

theorem slotEntry (h : SameContent t₁ t₂) (i : Nat) : t₁.slotEntry i = t₂.slotEntry i := by
  simp only [ClientTable.slotEntry, h.1]

theorem evictOldest (h : SameContent t₁ t₂) (inFlight : Nat → Bool) :
    ExceptRel SameContent (t₁.evictOldest inFlight) (t₂.evictOldest inFlight) := by
  obtain ⟨hs, hl⟩ := h
  unfold ClientTable.evictOldest
  rw [hs]
  dsimp only
  split
  · exact ⟨hs, hl⟩
  · split
    · exact ⟨rfl, AList.lookup_erase_congr hl _⟩
    · rfl

theorem makeRoom (h : SameContent t₁ t₂) (inFlight : Nat → Bool) :
    ExceptRel SameContent (t₁.makeRoom inFlight) (t₂.makeRoom inFlight) := by
  unfold ClientTable.makeRoom
  rw [AList.keys_length_congr h.2, h.1]
  split
  · exact h.evictOldest inFlight
  · exact h

theorem insertClient (h : SameContent t₁ t₂) (clientId : Nat) (entry : ClientEntry) :
    ExceptRel SameContent (t₁.insertClient clientId entry) (t₂.insertClient clientId entry) := by
  unfold ClientTable.insertClient ClientTable.firstFreeSlot
  rw [h.1]
  split
  · exact ⟨rfl, AList.lookup_insert_congr h.2 _ _⟩
  · rfl

/-- Replacing the entry of a slot keeps two tables alike. -/
theorem setSlot (h : SameContent t₁ t₂) (i : Nat) (entry : Option ClientEntry) :
    SameContent { t₁ with slots := t₁.slots.set i entry } { t₂ with slots := t₂.slots.set i entry } :=
  ⟨by rw [h.1], h.2⟩

theorem commitRegister (h : SameContent t₁ t₂) (clientId : Nat) (reply : Message ReplyHeader)
    (inFlight : Nat → Bool) :
    ExceptRel SameContent (t₁.commitRegister clientId reply inFlight)
      (t₂.commitRegister clientId reply inFlight) := by
  unfold ClientTable.commitRegister
  rw [h.2 clientId]
  -- the three argument checks read no table
  by_cases h0 : clientId = 0
  · simp only [if_pos h0]
    exact rfl
  simp only [if_neg h0]
  by_cases hc : clientId ≠ reply.header.client
  · simp only [if_pos hc]
    exact rfl
  simp only [if_neg hc]
  by_cases hs0 : reply.header.commit = 0
  · simp only [if_pos hs0]
    exact rfl
  simp only [if_neg hs0]
  split
  · rename_i i _
    rw [h.slotEntry i]
    refine (ExceptRel.refl _).bind fun slot slot' hslot => ?_
    subst hslot
    split
    · exact h
    · exact h.setSlot i _
  · exact (h.makeRoom inFlight).bind fun u₁ u₂ hu => hu.insertClient clientId _

theorem commitReply (h : SameContent t₁ t₂) (clientId session : Nat)
    (reply : Message ReplyHeader) :
    ExceptRel SameContent (t₁.commitReply clientId session reply)
      (t₂.commitReply clientId session reply) := by
  unfold ClientTable.commitReply
  rw [h.2 clientId]
  by_cases h0 : clientId = 0
  · simp only [if_pos h0]
    exact rfl
  simp only [if_neg h0]
  by_cases hc : clientId ≠ reply.header.client
  · simp only [if_pos hc]
    exact rfl
  simp only [if_neg hc]
  split
  · rename_i i _
    rw [h.slotEntry i]
    refine (ExceptRel.refl _).bind fun slot slot' hslot => ?_
    subst hslot
    -- the session, commit and request assertions read only the slot
    split
    · rfl
    split
    · rfl
    split
    · rfl
    exact h.setSlot i _
  · exact h

theorem removeClient (h : SameContent t₁ t₂) (clientId : Nat) :
    ExceptRel SameContent ((t₁.removeClient clientId).map Prod.fst)
      ((t₂.removeClient clientId).map Prod.fst) := by
  unfold ClientTable.removeClient
  rw [h.2 clientId, h.1]
  split
  · exact h
  · split
    · exact ⟨rfl, AList.lookup_erase_congr h.2 _⟩
    · rfl

theorem checkRequest (h : SameContent t₁ t₂) (clientId session request : Nat) :
    t₁.checkRequest clientId session request = t₂.checkRequest clientId session request := by
  unfold ClientTable.checkRequest
  simp only [h.2 clientId, h.slotEntry]

theorem checkRegister (h : SameContent t₁ t₂) (clientId : Nat) :
    t₁.checkRegister clientId = t₂.checkRegister clientId := by
  unfold ClientTable.checkRegister
  simp only [h.2 clientId, h.slotEntry]

/-- A check returns the same status on both tables and leaves each as it was. -/
theorem check {ρ : Type} (h : SameContent t₁ t₂) (x : Except Panic ρ) :
    ExceptRel SameContent (x.map fun _ => t₁) (x.map fun _ => t₂) :=
  (ExceptRel.refl x).map fun _ _ _ => h

/-- **Lockstep step.** -/
theorem apply (h : SameContent t₁ t₂) (op : ClientOp) :
    ExceptRel SameContent (t₁.apply op) (t₂.apply op) := by
  cases op with
  | commitRegister clientId reply inFlight => exact h.commitRegister clientId reply inFlight
  | commitReply clientId session reply => exact h.commitReply clientId session reply
  | removeClient clientId => exact h.removeClient clientId
  | checkRequest clientId session request =>
    show ExceptRel SameContent ((t₁.checkRequest clientId session request).map fun _ => t₁)
      ((t₂.checkRequest clientId session request).map fun _ => t₂)
    rw [h.checkRequest]
    exact h.check _
  | checkRegister clientId =>
    show ExceptRel SameContent ((t₁.checkRegister clientId).map fun _ => t₁)
      ((t₂.checkRegister clientId).map fun _ => t₂)
    rw [h.checkRegister]
    exact h.check _

/-- **Lockstep run.** -/
theorem run (h : SameContent t₁ t₂) (ops : List ClientOp) :
    ExceptRel SameContent (t₁.run ops) (t₂.run ops) :=
  foldlM_exceptRel ClientTable.apply ClientTable.apply SameContent (fun _ _ op h => h.apply op)
    ops t₁ t₂ h

end SameContent

/-- Consistent tables with equal slots have the same index lookups: the slots determine the
index. -/
theorem Consistent.sameContent {t₁ t₂ : ClientTable} (h₁ : Consistent t₁) (h₂ : Consistent t₂)
    (hs : t₁.slots = t₂.slots) : SameContent t₁ t₂ := by
  refine ⟨hs, fun c => Option.ext fun i => ?_⟩
  rw [h₁ c i, h₂ c i, hs]

theorem eviction_deterministic :
    (∀ (t : ClientTable) (inFlight : Nat → Bool),
      (t.evictOldest inFlight).map ClientTable.slots = .ok (evictedSlots inFlight t.slots)) ∧
    (∀ (t : ClientTable) (clientId : Nat) (reply : Message ReplyHeader) (inFlight : Nat → Bool),
      clientId ≠ 0 → clientId = reply.header.client → reply.header.commit ≠ 0 →
      t.index.lookup clientId = none →
      ((t.commitRegister clientId reply inFlight).map ClientTable.slots).toOption =
        registeredSlots (decide (t.slots.length ≤ t.count)) inFlight t.slots
          ⟨reply.header.commit, reply⟩) ∧
    ∀ (t₁ t₂ : ClientTable) (ops : List ClientOp), Consistent t₁ → Consistent t₂ →
      t₁.slots = t₂.slots → (t₁.run ops).map ClientTable.slots = (t₂.run ops).map ClientTable.slots :=
  ⟨evictOldest_slots, fun _ _ _ _ hid hclient hsession hnew =>
    commitRegister_new_slots hid hclient hsession hnew, fun _ _ ops h₁ h₂ hs =>
    ((h₁.sameContent h₂ hs).run ops).map_eq fun _ _ h => h.1⟩

/-- Clients 1 and 2 in slots 0 and 1. -/
def twoClients : List (Option ClientEntry) :=
  [some ⟨1, registerReply 1 1⟩, some ⟨2, registerReply 2 2⟩]

/-- Two full tables whose indexes list the clients in opposite orders. Client 3 registers:
client 1, of the smaller commit, leaves slot 0 and client 3 takes it, and both tables stay
alike. -/
theorem eviction_deterministic_index_order :
    Consistent ⟨twoClients, ((∅ : AList fun _ : Nat => Nat).insert 1 0).insert 2 1⟩ ∧
      Consistent ⟨twoClients, ((∅ : AList fun _ : Nat => Nat).insert 2 1).insert 1 0⟩ ∧
      ((ClientTable.commitRegister ⟨twoClients, ((∅ : AList fun _ : Nat => Nat).insert 1 0).insert 2 1⟩
          3 (registerReply 3 3) fun _ => false).map ClientTable.slots).toOption =
        some [some ⟨3, registerReply 3 3⟩, some ⟨2, registerReply 2 2⟩] ∧
      (ClientTable.run ⟨twoClients, ((∅ : AList fun _ : Nat => Nat).insert 1 0).insert 2 1⟩
          [.commitRegister 3 (registerReply 3 3) fun _ => false]).map ClientTable.slots =
        (ClientTable.run ⟨twoClients, ((∅ : AList fun _ : Nat => Nat).insert 2 1).insert 1 0⟩
          [.commitRegister 3 (registerReply 3 3) fun _ => false]).map ClientTable.slots := by
  have h₁ : Consistent ⟨twoClients, ((∅ : AList fun _ : Nat => Nat).insert 1 0).insert 2 1⟩ :=
    ((consistent_new 2).insert (i := 0) (e := ⟨1, registerReply 1 1⟩) rfl rfl).insert
      (i := 1) (e := ⟨2, registerReply 2 2⟩) rfl rfl
  have h₂ : Consistent ⟨twoClients, ((∅ : AList fun _ : Nat => Nat).insert 2 1).insert 1 0⟩ :=
    ((consistent_new 2).insert (i := 1) (e := ⟨2, registerReply 2 2⟩) rfl rfl).insert
      (i := 0) (e := ⟨1, registerReply 1 1⟩) rfl rfl
  refine ⟨h₁, h₂, ?_, eviction_deterministic.2.2 _ _ _ h₁ h₂ rfl⟩
  rw [eviction_deterministic.2.1 _ 3 (registerReply 3 3) _ (by decide) rfl (by decide) rfl]
  rfl

end ClientTable

end IggyCore.Consensus
