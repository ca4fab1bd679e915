import IggyCore.Consensus.Pipeline

/-!
# DoViewChange votes

`core/consensus/src/view_change_quorum.rs`: the primary candidate keeps one slot per replica
id in a fixed array of `REPLICAS_MAX` slots, indexed by the raw `u8` id taken from the
header. Indexing past the array is Rust's bounds-check panic.
-/

namespace IggyCore.Consensus

/-- The metadata a DoViewChange carries: no log, only its position. -/
structure StoredDvc where
  replica : Nat
  logView : Nat
  op : Nat
  commit : Nat
  deriving DecidableEq, Repr

/-- Log selection order: `log_view` first, then `op`. -/
def StoredDvc.cmpLog (a b : StoredDvc) : Ordering :=
  match compare a.logView b.logView with
  | .eq => compare a.op b.op
  | other => other

/-- `[Option<StoredDvc>; REPLICAS_MAX]`. -/
structure DvcQuorumArray where
  slots : List (Option StoredDvc)
  length_eq : slots.length = replicasMax
  deriving DecidableEq

def dvcQuorumArrayEmpty : DvcQuorumArray := ⟨List.replicate replicasMax none, by simp⟩

/-- Record a vote in the sender's slot; `false` if that slot is already taken. -/
def dvcRecord (a : DvcQuorumArray) (dvc : StoredDvc) : Except Panic (DvcQuorumArray × Bool) :=
  match a.slots[dvc.replica]? with
  | none => .error ⟨"index out of bounds"⟩
  | some (some _) => .ok (a, false)
  | some none => .ok (⟨a.slots.set dvc.replica (some dvc), by simp [a.length_eq]⟩, true)

def dvcCount (a : DvcQuorumArray) : Nat := a.slots.countP Option.isSome

def dvcHasFrom (a : DvcQuorumArray) (replica : Nat) : Bool :=
  match a.slots[replica]? with
  | some (some _) => true
  | _ => false

/-- The recorded votes in slot order. -/
def dvcIter (a : DvcQuorumArray) : List StoredDvc := a.slots.filterMap id

/-- `Iterator::max_by`: on ties the later vote wins, as `cmp::max_by` returns its second
argument when the two compare equal. -/
def dvcSelectWinner (a : DvcQuorumArray) : Option StoredDvc :=
  (dvcIter a).foldl
    (fun best d => match best with
      | none => some d
      | some b => if b.cmpLog d = .gt then some b else some d)
    none

def dvcMaxCommit (a : DvcQuorumArray) : Nat := ((dvcIter a).map (·.commit)).max?.getD 0

def dvcReset (_ : DvcQuorumArray) : DvcQuorumArray := dvcQuorumArrayEmpty

/-! ## Basic facts -/

@[simp] theorem dvcCount_empty : dvcCount dvcQuorumArrayEmpty = 0 := by
  simp [dvcCount, dvcQuorumArrayEmpty]

theorem dvcRecord_ok_iff_lt {a : DvcQuorumArray} {dvc : StoredDvc} :
    (∃ r, dvcRecord a dvc = .ok r) ↔ dvc.replica < replicasMax := by
  unfold dvcRecord
  rw [← a.length_eq]
  constructor
  · rintro ⟨r, hr⟩
    by_contra hlt
    rw [List.getElem?_eq_none (by omega)] at hr
    cases hr
  · intro hlt
    rw [List.getElem?_eq_getElem hlt]
    cases a.slots[dvc.replica] with
    | none => exact ⟨_, rfl⟩
    | some _ => exact ⟨_, rfl⟩

/-- A recorded vote lands in its own slot and leaves every other slot as it was. -/
theorem dvcRecord_slots {a b : DvcQuorumArray} {dvc : StoredDvc} {fresh : Bool}
    (h : dvcRecord a dvc = .ok (b, fresh)) :
    b.slots = a.slots ∨ b.slots = a.slots.set dvc.replica (some dvc) := by
  unfold dvcRecord at h
  split at h
  · cases h
  · cases h
    exact .inl rfl
  · cases h
    exact .inr rfl

end IggyCore.Consensus
