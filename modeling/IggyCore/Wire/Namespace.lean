import Mathlib.Data.Nat.Bitwise

/-!
# Partition namespaces

`IggyNamespace` of `core/server_common/src/sharding/namespace.rs` packs a stream, a topic and a
partition id into one `u64`, in the layout of `core/binary_protocol/src/namespace.rs`: the
partition in the low `PARTITION_BITS`, the topic above it and the stream above that, each field
just wide enough for the ids below `MAX_PARTITIONS`, `MAX_TOPICS` and `MAX_STREAMS`. `new`
masks each id to its field, so an id past its limit wraps silently.

The packed value is the three masked ids side by side (`toNat_new`). Each accessor reads its
field back, so ids within the limits round-trip and never share a namespace, and every packed
value stays below `PACKED_NAMESPACE_MAX`, under the metadata namespace `2 ^ 63`.
-/

namespace IggyCore.Wire

def maxStreams : Nat := 4096
def maxTopics : Nat := 4096
def maxPartitions : Nat := 1000000

/-- The loop of `bits_required`: one bit for each halving of `n` down to 0. A `u64` reaches 0
within 64 halvings. -/
def bitsRequiredLoop : Nat → Nat → Nat → Nat
  | 0, _, b => b
  | fuel + 1, n, b => if n > 0 then bitsRequiredLoop fuel (n / 2) (b + 1) else b

def bitsRequired (n : Nat) : Nat :=
  if n = 0 then 1 else bitsRequiredLoop 64 n 0

def streamBits : Nat := bitsRequired (maxStreams - 1)
def topicBits : Nat := bitsRequired (maxTopics - 1)
def partitionBits : Nat := bitsRequired (maxPartitions - 1)

def partitionShift : Nat := 0
def topicShift : Nat := partitionShift + partitionBits
def streamShift : Nat := topicShift + topicBits

def partitionMask : UInt64 := (1 <<< UInt64.ofNat partitionBits) - 1
def topicMask : UInt64 := (1 <<< UInt64.ofNat topicBits) - 1
def streamMask : UInt64 := (1 <<< UInt64.ofNat streamBits) - 1

def packedNamespaceBits : Nat := streamBits + topicBits + partitionBits
def packedNamespaceMax : UInt64 := (1 <<< UInt64.ofNat packedNamespaceBits) - 1

/-! The layout the constants evaluate to. -/

@[simp] theorem streamShift_eq : streamShift = 32 := by decide
@[simp] theorem topicShift_eq : topicShift = 20 := by decide
@[simp] theorem partitionShift_eq : partitionShift = 0 := rfl
@[simp] theorem toNat_streamMask : streamMask.toNat = 2 ^ 12 - 1 := by decide
@[simp] theorem toNat_topicMask : topicMask.toNat = 2 ^ 12 - 1 := by decide
@[simp] theorem toNat_partitionMask : partitionMask.toNat = 2 ^ 20 - 1 := by decide
@[simp] theorem toNat_packedNamespaceMax : packedNamespaceMax.toNat = 2 ^ 44 - 1 := by decide

structure IggyNamespace where
  value : UInt64
  deriving DecidableEq, Repr

namespace IggyNamespace

def streamId (ns : IggyNamespace) : Nat :=
  ((ns.value >>> UInt64.ofNat streamShift) &&& streamMask).toNat

def topicId (ns : IggyNamespace) : Nat :=
  ((ns.value >>> UInt64.ofNat topicShift) &&& topicMask).toNat

def partitionId (ns : IggyNamespace) : Nat :=
  ((ns.value >>> UInt64.ofNat partitionShift) &&& partitionMask).toNat

/-- `IggyNamespace::new`: each id cast to `u64` (a `usize` is 64 bits wide), masked to its field
and shifted into place. -/
def new (stream topic partition : Nat) : IggyNamespace :=
  ⟨((UInt64.ofNat stream &&& streamMask) <<< UInt64.ofNat streamShift) |||
    ((UInt64.ofNat topic &&& topicMask) <<< UInt64.ofNat topicShift) |||
    ((UInt64.ofNat partition &&& partitionMask) <<< UInt64.ofNat partitionShift)⟩

/-- `is_packable`. -/
def isPackable (value : UInt64) : Bool := value ≤ packedNamespaceMax

/-- One field of `new`: the low `bits` bits of the id, shifted into place. -/
theorem toNat_field (x : Nat) {mask : UInt64} {bits shift : Nat}
    (hmask : mask.toNat = 2 ^ bits - 1) (hfits : bits + shift ≤ 64) (hshift : shift < 64) :
    ((UInt64.ofNat x &&& mask) <<< UInt64.ofNat shift).toNat = x % 2 ^ bits * 2 ^ shift := by
  have hdvd : 2 ^ bits ∣ 2 ^ 64 := Nat.pow_dvd_pow 2 (by omega)
  -- the field fits in the word, so the shift loses nothing
  have hlt : x % 2 ^ bits * 2 ^ shift < 2 ^ 64 :=
    calc x % 2 ^ bits * 2 ^ shift < 2 ^ bits * 2 ^ shift :=
          Nat.mul_lt_mul_of_pos_right (Nat.mod_lt _ (Nat.two_pow_pos bits)) (Nat.two_pow_pos shift)
      _ = 2 ^ (bits + shift) := (Nat.pow_add 2 bits shift).symm
      _ ≤ 2 ^ 64 := Nat.pow_le_pow_right (by omega) hfits
  rw [UInt64.toNat_shiftLeft, UInt64.toNat_and, UInt64.toNat_ofNat', UInt64.toNat_ofNat', hmask,
    Nat.and_two_pow_sub_one_eq_mod, Nat.mod_mod_of_dvd x hdvd,
    Nat.mod_eq_of_lt (by omega : shift < 2 ^ 64), Nat.mod_eq_of_lt hshift, Nat.shiftLeft_eq,
    Nat.mod_eq_of_lt hlt]

/-- The packed value is the three masked ids side by side. -/
theorem toNat_new (stream topic partition : Nat) :
    (new stream topic partition).value.toNat =
      (stream % 2 ^ 12 * 2 ^ 12 + topic % 2 ^ 12) * 2 ^ 20 + partition % 2 ^ 20 := by
  simp only [new, streamShift_eq, topicShift_eq, partitionShift_eq]
  rw [UInt64.toNat_or, UInt64.toNat_or, toNat_field stream toNat_streamMask (by omega) (by omega),
    toNat_field topic toNat_topicMask (by omega) (by omega),
    toNat_field partition toNat_partitionMask (by omega) (by omega)]
  -- each field lies below the shift of the one above it, so `|||` adds
  have htopic : topic % 2 ^ 12 * 2 ^ 20 < 2 ^ 32 := by omega
  have hpartition : partition % 2 ^ 20 * 2 ^ 0 < 2 ^ 20 := by omega
  rw [← Nat.shiftLeft_eq (stream % 2 ^ 12) 32, ← Nat.shiftLeft_add_eq_or_of_lt htopic,
    show (stream % 2 ^ 12) <<< 32 + topic % 2 ^ 12 * 2 ^ 20 =
      (stream % 2 ^ 12 * 2 ^ 12 + topic % 2 ^ 12) <<< 20 by simp only [Nat.shiftLeft_eq]; omega,
    ← Nat.shiftLeft_add_eq_or_of_lt hpartition, Nat.shiftLeft_eq]
  omega

theorem partitionId_new (stream topic partition : Nat) :
    (new stream topic partition).partitionId = partition % 2 ^ 20 := by
  rw [partitionId, UInt64.toNat_and, UInt64.toNat_shiftRight, toNat_new, toNat_partitionMask,
    partitionShift_eq, Nat.and_two_pow_sub_one_eq_mod]
  simp only [UInt64.toNat_ofNat', Nat.zero_mod, Nat.shiftRight_zero]
  omega

theorem topicId_new (stream topic partition : Nat) :
    (new stream topic partition).topicId = topic % 2 ^ 12 := by
  rw [topicId, UInt64.toNat_and, UInt64.toNat_shiftRight, toNat_new, toNat_topicMask,
    topicShift_eq, Nat.and_two_pow_sub_one_eq_mod, Nat.shiftRight_eq_div_pow]
  simp only [UInt64.toNat_ofNat', Nat.reducePow, Nat.reduceMod]
  omega

theorem streamId_new (stream topic partition : Nat) :
    (new stream topic partition).streamId = stream % 2 ^ 12 := by
  rw [streamId, UInt64.toNat_and, UInt64.toNat_shiftRight, toNat_new, toNat_streamMask,
    streamShift_eq, Nat.and_two_pow_sub_one_eq_mod, Nat.shiftRight_eq_div_pow]
  simp only [UInt64.toNat_ofNat', Nat.reducePow, Nat.reduceMod]
  omega

/-- Ids within the limits round-trip through the accessors. -/
theorem new_roundTrip {stream topic partition : Nat} (hstream : stream < maxStreams)
    (htopic : topic < maxTopics) (hpartition : partition < maxPartitions) :
    (new stream topic partition).streamId = stream ∧ (new stream topic partition).topicId = topic ∧
      (new stream topic partition).partitionId = partition := by
  simp only [maxStreams, maxTopics, maxPartitions] at hstream htopic hpartition
  rw [streamId_new, topicId_new, partitionId_new]
  omega

/-- Two triples of ids within the limits with one namespace are the same triple. -/
theorem new_injective {s t p s' t' p' : Nat} (hs : s < maxStreams) (ht : t < maxTopics)
    (hp : p < maxPartitions) (hs' : s' < maxStreams) (ht' : t' < maxTopics)
    (hp' : p' < maxPartitions) (h : new s t p = new s' t' p') : s = s' ∧ t = t' ∧ p = p' := by
  obtain ⟨hs₁, ht₁, hp₁⟩ := new_roundTrip hs ht hp
  obtain ⟨hs₂, ht₂, hp₂⟩ := new_roundTrip hs' ht' hp'
  rw [h] at hs₁ ht₁ hp₁
  exact ⟨hs₁.symm.trans hs₂, ht₁.symm.trans ht₂, hp₁.symm.trans hp₂⟩

/-- Every namespace `new` builds is packable, so below the metadata namespace `2 ^ 63`. -/
theorem isPackable_new (stream topic partition : Nat) :
    isPackable (new stream topic partition).value = true := by
  have hvalue := toNat_new stream topic partition
  simp only [isPackable, decide_eq_true_eq, UInt64.le_iff_toNat_le, toNat_packedNamespaceMax]
  omega

theorem toNat_new_lt (stream topic partition : Nat) :
    (new stream topic partition).value.toNat < 2 ^ 63 := by
  have hvalue := toNat_new stream topic partition
  omega

end IggyNamespace

end IggyCore.Wire
