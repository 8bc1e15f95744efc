import Mathlib.Algebra.Group.Int.Defs
import Mathlib.Algebra.Group.Nat.Defs
import Mathlib.Data.Nat.Bitwise

/-!
# The bits of a snowflake id

`compose_id` puts three fields into 64 bits with shifts and ors. The fields
stay apart as long as the worker id has 10 bits and the sequence has 12; of the
milliseconds since the epoch only the low 42 bits are kept.
-/

namespace Webshelf

def CUSTOM_EPOCH : UInt64 := 1704067200000
def WORKER_ID_BITS : UInt64 := 10
def SEQUENCE_BITS : UInt64 := 12
def MAX_WORKER_ID : UInt64 := (1 <<< WORKER_ID_BITS) - 1
def MAX_SEQUENCE : UInt64 := (1 <<< SEQUENCE_BITS) - 1
def WORKER_ID_SHIFT : UInt64 := SEQUENCE_BITS
def TIMESTAMP_SHIFT : UInt64 := SEQUENCE_BITS + WORKER_ID_BITS

/-- `compose_id`, with the wrapping arithmetic of the release build. -/
def composeId (timestamp : Int64) (workerId sequence : UInt64) : Int64 :=
  let tsPart := (timestamp.toUInt64 - CUSTOM_EPOCH) <<< TIMESTAMP_SHIFT
  let wkPart := workerId <<< WORKER_ID_SHIFT
  (tsPart ||| wkPart ||| sequence).toInt64

/-- `(id >> 22, (id >> 12) & 1023, id & 4095)`. -/
def decodeId (id : Int64) : Int64 × Int64 × Int64 :=
  (id >>> 22, (id >>> 12) &&& 1023, id &&& 4095)

/-- What an id keeps of a timestamp. -/
def lowBits (ts : Int64) : Int := ts.toInt % 4398046511104

/-- 41 bits hold the milliseconds since the epoch. -/
def Representable (ts : Int64) : Prop :=
  (CUSTOM_EPOCH.toNat : Int) ≤ ts.toInt ∧ ts.toInt < CUSTOM_EPOCH.toNat + 2199023255552

instance (ts : Int64) : Decidable (Representable ts) :=
  inferInstanceAs (Decidable (_ ∧ _))

theorem toUInt64_injective {a b : Int64} (h : a.toUInt64.toNat = b.toUInt64.toNat) : a = b := by
  rw [← Int64.toInt64_toUInt64 a, ← Int64.toInt64_toUInt64 b, UInt64.toNat_inj.mp h]

theorem toInt_eq_toNat_cond (ts : Int64) :
    ts.toInt = if 2 * ts.toUInt64.toNat < 2 ^ 64 then (ts.toUInt64.toNat : Int)
      else (ts.toUInt64.toNat : Int) - 2 ^ 64 :=
  BitVec.toInt_eq_toNat_cond ts.toBitVec

theorem toNat_shiftRight_of_nonneg {id k : Int64} {n : Nat} (h : id.toUInt64.toNat < 2 ^ 63)
    (hk : (k.toBitVec.smod 64).toNat = n) :
    (id >>> k).toUInt64.toNat = id.toUInt64.toNat / 2 ^ n := by
  have hmsb : id.toBitVec.msb = false := by
    apply BitVec.msb_eq_false_iff_two_mul_lt.mpr
    change 2 * id.toUInt64.toNat < 2 ^ 64
    omega
  change (id >>> k).toBitVec.toNat = id.toBitVec.toNat / 2 ^ n
  rw [Int64.toBitVec_shiftRight, BitVec.toNat_sshiftRight', hmsb, hk,
    if_neg Bool.false_ne_true, Nat.shiftRight_eq_div_pow]

theorem toNat_and_of_mask {id k : Int64} {n : Nat} (hk : k.toUInt64.toNat = 2 ^ n - 1) :
    (id &&& k).toUInt64.toNat = id.toUInt64.toNat % 2 ^ n := by
  rw [Int64.toUInt64_and, UInt64.toNat_and, hk, Nat.and_two_pow_sub_one_eq_mod]

theorem lt_of_le_MAX_WORKER_ID {workerId : UInt64} (h : workerId ≤ MAX_WORKER_ID) :
    workerId.toNat < 2 ^ 10 :=
  Nat.lt_succ_of_le (UInt64.le_iff_toNat_le.mp h)

theorem lt_of_le_MAX_SEQUENCE {seq : UInt64} (h : seq ≤ MAX_SEQUENCE) : seq.toNat < 2 ^ 12 :=
  Nat.lt_succ_of_le (UInt64.le_iff_toNat_le.mp h)

theorem toNat_sinceEpoch (ts : Int64) :
    (ts.toUInt64 - CUSTOM_EPOCH).toNat =
      (2 ^ 64 - CUSTOM_EPOCH.toNat + ts.toUInt64.toNat) % 2 ^ 64 :=
  UInt64.toNat_sub _ _

theorem toNat_CUSTOM_EPOCH : CUSTOM_EPOCH.toNat = 1704067200000 := rfl

theorem sinceEpoch_emod (ts : Int64) :
    ((ts.toUInt64 - CUSTOM_EPOCH).toNat : Int) % 2 ^ 42 =
      (ts.toInt - CUSTOM_EPOCH.toNat) % 2 ^ 42 := by
  rw [toNat_sinceEpoch, toInt_eq_toNat_cond, toNat_CUSTOM_EPOCH]
  split <;> omega

theorem Representable.sinceEpoch_lt {ts : Int64} (h : Representable ts) :
    (ts.toUInt64 - CUSTOM_EPOCH).toNat < 2 ^ 41 := by
  obtain ⟨hlo, hhi⟩ := h
  have hts := toInt_eq_toNat_cond ts
  have hlt := UInt64.toNat_lt ts.toUInt64
  rw [toNat_CUSTOM_EPOCH] at hlo hhi
  rw [toNat_sinceEpoch, toNat_CUSTOM_EPOCH]
  split at hts <;> omega

/-- The fields side by side: the ors add, since no two of them share a bit. -/
theorem toNat_composeId {ts : Int64} {workerId seq : UInt64} (hw : workerId ≤ MAX_WORKER_ID)
    (hs : seq ≤ MAX_SEQUENCE) :
    (composeId ts workerId seq).toUInt64.toNat =
      ((ts.toUInt64 - CUSTOM_EPOCH).toNat % 2 ^ 42 * 2 ^ 10 + workerId.toNat) * 2 ^ 12 +
        seq.toNat := by
  have hw' := lt_of_le_MAX_WORKER_ID hw
  generalize hd : ts.toUInt64 - CUSTOM_EPOCH = d
  have hts : (d <<< TIMESTAMP_SHIFT).toNat = (d.toNat % 2 ^ 42 * 2 ^ 10) <<< 12 := by
    rw [UInt64.toNat_shiftLeft, Nat.shiftLeft_eq, Nat.shiftLeft_eq]
    change d.toNat * 2 ^ 22 % 2 ^ 64 = _
    omega
  have hwk : (workerId <<< WORKER_ID_SHIFT).toNat = workerId.toNat <<< 12 := by
    rw [UInt64.toNat_shiftLeft, Nat.shiftLeft_eq, Nat.shiftLeft_eq]
    change workerId.toNat * 2 ^ 12 % 2 ^ 64 = _
    omega
  have hparts : d.toNat % 2 ^ 42 * 2 ^ 10 ||| workerId.toNat =
      d.toNat % 2 ^ 42 * 2 ^ 10 + workerId.toNat := by
    rw [← Nat.shiftLeft_eq, Nat.shiftLeft_add_eq_or_of_lt hw']
  simp only [composeId, hd, UInt64.toUInt64_toInt64, UInt64.toNat_or, hts, hwk]
  rw [← Nat.shiftLeft_or_distrib, hparts,
    ← Nat.shiftLeft_add_eq_or_of_lt (lt_of_le_MAX_SEQUENCE hs), Nat.shiftLeft_eq]

theorem composeId_inj {ts ts' : Int64} {workerId seq seq' : UInt64}
    (hw : workerId ≤ MAX_WORKER_ID) (hs : seq ≤ MAX_SEQUENCE) (hs' : seq' ≤ MAX_SEQUENCE)
    (h : composeId ts workerId seq = composeId ts' workerId seq') :
    lowBits ts = lowBits ts' ∧ seq = seq' := by
  have heq := congrArg (fun id => id.toUInt64.toNat) h
  simp only [toNat_composeId hw hs, toNat_composeId hw hs'] at heq
  have := lt_of_le_MAX_SEQUENCE hs
  have := lt_of_le_MAX_SEQUENCE hs'
  have hts := sinceEpoch_emod ts
  have hts' := sinceEpoch_emod ts'
  constructor
  · unfold lowBits
    omega
  · apply UInt64.toNat_inj.mp
    omega

theorem decodeId_composeId {ts : Int64} {workerId seq : UInt64} (hts : Representable ts)
    (hw : workerId ≤ MAX_WORKER_ID) (hs : seq ≤ MAX_SEQUENCE) :
    decodeId (composeId ts workerId seq) =
      (ts - CUSTOM_EPOCH.toInt64, workerId.toInt64, seq.toInt64) := by
  have hd := hts.sinceEpoch_lt
  have hw' := lt_of_le_MAX_WORKER_ID hw
  have hs' := lt_of_le_MAX_SEQUENCE hs
  have hid : (composeId ts workerId seq).toUInt64.toNat = _ := toNat_composeId hw hs
  -- below the sign bit the arithmetic shift divides
  have hsmall : (composeId ts workerId seq).toUInt64.toNat < 2 ^ 63 := by omega
  have h12 : (composeId ts workerId seq >>> 12).toUInt64.toNat =
      (composeId ts workerId seq).toUInt64.toNat / 2 ^ 12 :=
    toNat_shiftRight_of_nonneg hsmall (by decide)
  refine Prod.ext ?_ (Prod.ext ?_ ?_) <;> apply toUInt64_injective
  · change (composeId ts workerId seq >>> 22).toUInt64.toNat = (ts.toUInt64 - CUSTOM_EPOCH).toNat
    rw [toNat_shiftRight_of_nonneg (n := 22) hsmall (by decide)]
    omega
  · change (composeId ts workerId seq >>> 12 &&& 1023).toUInt64.toNat = workerId.toNat
    rw [toNat_and_of_mask (n := 10) (by decide), h12]
    omega
  · change (composeId ts workerId seq &&& 4095).toUInt64.toNat = seq.toNat
    rw [toNat_and_of_mask (n := 12) (by decide)]
    omega

end Webshelf
