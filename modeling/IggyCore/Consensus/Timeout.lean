import Mathlib

/-!
# Tick-driven timeouts

`core/consensus/src/vsr_timeout.rs`. A timeout counts down one tick at a time while it is
ticking and fires at zero. Backoff draws its jitter from the manager's `Xoshiro256Plus`
generator, a third-party crate: the generator is the parameter `draw`, called with the
number of draws taken so far and the inclusive bound, and `prng` counts the draws.
-/

namespace IggyCore.Consensus

structure Timeout where
  after : Nat
  ticksRemaining : Nat
  ticking : Bool
  attempts : Nat
  deriving DecidableEq, Repr

namespace Timeout

def new (after : Nat) : Timeout := ⟨after, 0, false, 0⟩

def start (t : Timeout) : Timeout := { t with ticksRemaining := t.after, ticking := true, attempts := 0 }

def stop (t : Timeout) : Timeout := { t with ticking := false, ticksRemaining := 0, attempts := 0 }

def reset (t : Timeout) : Timeout := { t with ticksRemaining := t.after, attempts := 0 }

def tick (t : Timeout) : Timeout :=
  if t.ticking then { t with ticksRemaining := t.ticksRemaining - 1 } else t

def fired (t : Timeout) : Bool := t.ticking && t.ticksRemaining == 0

/-- `u64::saturating_add` and `saturating_mul`. -/
def satU64 (n : Nat) : Nat := min n (2 ^ 64 - 1)

/-- Exponential backoff with jitter; `jitter ≤ backoff` is the generator's contract. -/
def backoff (t : Timeout) (jitter : Nat → Nat) : Timeout :=
  let attempts := (t.attempts + 1) % 2 ^ 32
  let maxBackoff := satU64 (t.after * 16)
  let shift := min attempts 4
  let backoff := min (satU64 (t.after * 2 ^ shift)) maxBackoff
  { t with attempts := attempts, ticksRemaining := satU64 (backoff + jitter backoff) }

end Timeout

inductive TimeoutKind
  | ping | prepare | commitMessage | normalHeartbeat | startViewChangeMessage
  | viewChangeStatus | doViewChangeMessage | requestStartViewMessage
  deriving DecidableEq, Repr

structure TimeoutManager where
  ping : Timeout
  prepare : Timeout
  commitMessage : Timeout
  normalHeartbeat : Timeout
  startViewChangeMessage : Timeout
  doViewChangeMessage : Timeout
  viewChangeStatus : Timeout
  requestStartViewMessage : Timeout
  prng : Nat
  deriving DecidableEq, Repr

namespace TimeoutManager

/-- Durations in ticks of 10 ms. -/
def new : TimeoutManager :=
  ⟨.new 100, .new 25, .new 50, .new 500, .new 50, .new 50, .new 500, .new 100, 0⟩

def get (m : TimeoutManager) : TimeoutKind → Timeout
  | .ping => m.ping
  | .prepare => m.prepare
  | .commitMessage => m.commitMessage
  | .normalHeartbeat => m.normalHeartbeat
  | .startViewChangeMessage => m.startViewChangeMessage
  | .viewChangeStatus => m.viewChangeStatus
  | .doViewChangeMessage => m.doViewChangeMessage
  | .requestStartViewMessage => m.requestStartViewMessage

def modify (m : TimeoutManager) (f : Timeout → Timeout) : TimeoutKind → TimeoutManager
  | .ping => { m with ping := f m.ping }
  | .prepare => { m with prepare := f m.prepare }
  | .commitMessage => { m with commitMessage := f m.commitMessage }
  | .normalHeartbeat => { m with normalHeartbeat := f m.normalHeartbeat }
  | .startViewChangeMessage => { m with startViewChangeMessage := f m.startViewChangeMessage }
  | .viewChangeStatus => { m with viewChangeStatus := f m.viewChangeStatus }
  | .doViewChangeMessage => { m with doViewChangeMessage := f m.doViewChangeMessage }
  | .requestStartViewMessage =>
    { m with requestStartViewMessage := f m.requestStartViewMessage }

/-- Phase one of a tick: every timeout advances. -/
def tick (m : TimeoutManager) : TimeoutManager :=
  { m with
    ping := m.ping.tick, prepare := m.prepare.tick, commitMessage := m.commitMessage.tick
    normalHeartbeat := m.normalHeartbeat.tick
    startViewChangeMessage := m.startViewChangeMessage.tick
    doViewChangeMessage := m.doViewChangeMessage.tick
    requestStartViewMessage := m.requestStartViewMessage.tick
    viewChangeStatus := m.viewChangeStatus.tick }

def fired (m : TimeoutManager) (k : TimeoutKind) : Bool := (m.get k).fired

def start (m : TimeoutManager) (k : TimeoutKind) : TimeoutManager := m.modify Timeout.start k

def stop (m : TimeoutManager) (k : TimeoutKind) : TimeoutManager := m.modify Timeout.stop k

def reset (m : TimeoutManager) (k : TimeoutKind) : TimeoutManager := m.modify Timeout.reset k

def isTicking (m : TimeoutManager) (k : TimeoutKind) : Bool := (m.get k).ticking

/-- Backoff of one timeout, taking the next draw of the generator. -/
def backoff (m : TimeoutManager) (draw : Nat → Nat → Nat) (k : TimeoutKind) : TimeoutManager :=
  { m.modify (fun t => t.backoff (draw m.prng)) k with prng := m.prng + 1 }

end TimeoutManager

end IggyCore.Consensus
