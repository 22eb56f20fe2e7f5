import CacheSystem.Common

/-!
# Operation ids (`snowflake.h`)

An id is three fields of a 64-bit word: the time in milliseconds from bit 22 on, the machine in bits
16 to 21, and a counter in bits 0 to 11.

* `machineField`, `composeId` : the machine field of a generator, and an id from its parts.
* `SnowFlake.ids` : the ids of a run of calls, one for each reading of the clock.
* `composeId_machine` : the machine field can be read off every id.
* `composeId_toNat` : the three fields add up, since none reaches into another. So two ids of one
  generator are equal exactly where the times agree modulo `2 ^ 42` and the calls modulo 4096
  (`collisionLaw`).
* `machineField_quarter` : below 32 the field holds the upper three bits of the datacenter id, and
  nothing of the worker id, whose bits are shifted below its mask. So two machines are told apart
  exactly by those three bits (`neverCollide_iff`).
-/

namespace CacheSystem

/-! ## The generator -/

/-- Source: `snowflake.h`, `SnowFlake`. -/
structure SnowFlake where
  machineId : UInt64
  sequence : UInt16 := 0
  deriving DecidableEq, Repr

/-- What the constructor stores in `machine_id_`. -/
def machineField (datacenterId workerId : UInt8) : UInt64 :=
  ((datacenterId.toUInt64 <<< 15) &&& (0x3E0000 : UInt64)) |||
    ((workerId.toUInt64 <<< 10) &&& (0x1F0000 : UInt64))

/-- Source: `snowflake.h`, the constructor of `SnowFlake`. -/
def SnowFlake.new (datacenterId workerId : UInt8) : SnowFlake where
  machineId := machineField datacenterId workerId

/-- The word built from a time, a machine and a counter. The mask `~0x3F0000` is an `int`, and is
extended to 64 bits by its sign. -/
def composeId (timestamp : Int) (machineId : UInt64) (sequence : UInt16) : UInt64 :=
  ((UInt64.ofInt timestamp <<< 22) &&& ~~~(0x3F0000 : UInt64)) ||| machineId |||
    (sequence.toUInt64 &&& (0xFFF : UInt64))

/-- Source: `snowflake.h`, `SnowFlake::generate_uniform_id`, at this reading of the clock. -/
def SnowFlake.generateUniformId (timestamp : Int) (s : SnowFlake) : UInt64 × SnowFlake :=
  let sequence := s.sequence + 1
  (composeId timestamp s.machineId sequence, { s with sequence := sequence })

/-- The ids of a run of calls. -/
def SnowFlake.ids (s : SnowFlake) : List Int → List UInt64
  | [] => []
  | timestamp :: readings =>
      (s.generateUniformId timestamp).1 :: (s.generateUniformId timestamp).2.ids readings

/-! ## The fields of an id -/

/-- The mask of the machine field: bits 17 to 21. -/
theorem machineMask_getLsbD {i : Nat} (hi : i < 64) :
    (0x3E0000#64).getLsbD i = decide (17 ≤ i ∧ i < 22) := by
  have key : ∀ i : Fin 64, (0x3E0000#64).getLsbD i = decide (17 ≤ i.val ∧ i.val < 22) := by decide
  exact key ⟨i, hi⟩

/-- The mask of the counter: bits 0 to 11. -/
theorem sequenceMask_getLsbD {i : Nat} (hi : i < 64) :
    (0xFFF#64).getLsbD i = decide (i < 12) := by
  have key : ∀ i : Fin 64, (0xFFF#64).getLsbD i = decide (i.val < 12) := by decide
  exact key ⟨i, hi⟩

/-- Neither the time nor the counter reaches into the machine field. -/
theorem composeId_machine (timestamp : Int) (machineId : UInt64) (sequence : UInt16) :
    composeId timestamp machineId sequence &&& (0x3E0000 : UInt64) =
      machineId &&& (0x3E0000 : UInt64) := by
  unfold composeId
  apply UInt64.eq_of_toBitVec_eq
  ext i hi
  have hmachine := machineMask_getLsbD hi
  have hsequence := sequenceMask_getLsbD hi
  simp [hi] at hmachine hsequence ⊢
  rw [hmachine, hsequence]
  grind

/-- The machine field of an id in a run is that of its generator. -/
theorem SnowFlake.ids_machine {s : SnowFlake} {readings : List Int} {id : UInt64}
    (h : id ∈ s.ids readings) :
    id &&& (0x3E0000 : UInt64) = s.machineId &&& (0x3E0000 : UInt64) := by
  induction readings generalizing s with
  | nil => cases h
  | cons timestamp readings ih =>
      unfold ids at h
      rcases List.mem_cons.mp h with rfl | h
      · exact composeId_machine timestamp s.machineId (s.sequence + 1)
      · exact ih (s := (s.generateUniformId timestamp).2) h

/-- The bits that the mask `~0x3F0000` clears: 16 to 21. -/
theorem clearedMask_getLsbD {i : Nat} (hi : i < 64) :
    (0x3F0000#64).getLsbD i = decide (16 ≤ i ∧ i < 22) := by
  have key : ∀ i : Fin 64, (0x3F0000#64).getLsbD i = decide (16 ≤ i.val ∧ i.val < 22) := by decide
  exact key ⟨i, hi⟩

/-- The mask clears nothing of the shifted time. -/
theorem shifted_masked (timestamp : UInt64) :
    (timestamp <<< 22) &&& ~~~(0x3F0000 : UInt64) = timestamp <<< 22 := by
  have hbits (w : BitVec 64) : (w <<< 22) &&& ~~~(0x3F0000#64) = w <<< 22 := by
    ext i hi
    rw [BitVec.getElem_and, BitVec.getElem_not, BitVec.getElem_shiftLeft,
      ← BitVec.getLsbD_eq_getElem (x := 0x3F0000#64), clearedMask_getLsbD hi]
    by_cases h : i < 22
    · simp [h]
    · simp [h]
  apply UInt64.eq_of_toBitVec_eq
  rw [UInt64.toBitVec_and, UInt64.toBitVec_not, UInt64.toBitVec_shiftLeft]
  exact hbits timestamp.toBitVec

/-- The time field of an id. -/
theorem shifted_toNat (timestamp : Int) :
    ((UInt64.ofInt timestamp <<< 22).toNat : Int) = timestamp % 2 ^ 42 * 2 ^ 22 := by
  rw [UInt64.toNat_shiftLeft, Nat.shiftLeft_eq]
  simp [UInt64.ofInt]
  omega

/-- The machine field begins above the counter. -/
theorem machineField_mod (datacenterId workerId : UInt8) :
    (machineField datacenterId workerId).toNat % 2 ^ 12 = 0 := by
  unfold machineField
  rw [UInt64.toNat_or, UInt64.toNat_and, UInt64.toNat_and, Nat.or_mod_two_pow,
    Nat.and_mod_two_pow, Nat.and_mod_two_pow]
  simp

/-- The machine field ends below the time. -/
theorem machineField_lt (datacenterId workerId : UInt8) :
    (machineField datacenterId workerId).toNat < 2 ^ 22 := by
  unfold machineField
  rw [UInt64.toNat_or, UInt64.toNat_and, UInt64.toNat_and]
  apply Nat.or_lt_two_pow
  · exact Nat.and_lt_two_pow _ (by decide)
  · exact Nat.and_lt_two_pow _ (by decide)

/-- Two words that do not overlap. -/
theorem or_eq_add {a b k : Nat} (ha : a % 2 ^ k = 0) (hb : b < 2 ^ k) : a ||| b = a + b := by
  have h := Nat.shiftLeft_add_eq_or_of_lt hb (a / 2 ^ k)
  rw [Nat.shiftLeft_eq, Nat.div_mul_cancel (Nat.dvd_of_mod_eq_zero ha)] at h
  exact h.symm

/-- **The fields of an id do not overlap.** -/
theorem composeId_toNat (timestamp : Int) (datacenterId workerId : UInt8) (sequence : UInt16) :
    ((composeId timestamp (machineField datacenterId workerId) sequence).toNat : Int) =
      timestamp % 2 ^ 42 * 2 ^ 22 + (machineField datacenterId workerId).toNat +
        sequence.toNat % 2 ^ 12 := by
  have hlt := machineField_lt datacenterId workerId
  have hmod := machineField_mod datacenterId workerId
  have htime := shifted_toNat timestamp
  have hcounter : (sequence.toUInt64 &&& (0xFFF : UInt64)).toNat = sequence.toNat % 2 ^ 12 := by
    rw [UInt64.toNat_and, UInt16.toNat_toUInt64]
    exact Nat.and_two_pow_sub_one_eq_mod sequence.toNat 12
  generalize machineField datacenterId workerId = machineId at hlt hmod ⊢
  unfold composeId
  rw [shifted_masked, UInt64.toNat_or, UInt64.toNat_or, hcounter]
  generalize (UInt64.ofInt timestamp <<< 22).toNat = time at htime ⊢
  have hor : time ||| machineId.toNat = time + machineId.toNat := by
    apply or_eq_add _ hlt
    omega
  have hor' : (time + machineId.toNat) ||| sequence.toNat % 2 ^ 12 =
      time + machineId.toNat + sequence.toNat % 2 ^ 12 := by
    apply or_eq_add _ (Nat.mod_lt sequence.toNat (Nat.two_pow_pos 12))
    omega
  rw [hor, hor']
  omega

/-! ## One generator -/

theorem SnowFlake.ids_length (s : SnowFlake) (readings : List Int) :
    (s.ids readings).length = readings.length := by
  induction readings generalizing s with
  | nil => rfl
  | cons timestamp readings ih => simp [ids, ih]

/-- Call number `i` finds the counter at `i`. -/
theorem SnowFlake.ids_getElem? (s : SnowFlake) (readings : List Int) (i : Nat) :
    (s.ids readings)[i]? = readings[i]?.map fun timestamp =>
      composeId timestamp s.machineId (s.sequence + 1 + UInt16.ofNat i) := by
  induction readings generalizing s i with
  | nil => rfl
  | cons timestamp readings ih =>
      unfold ids
      cases i with
      | zero => simp [generateUniformId]
      | succ i =>
          rw [List.getElem?_cons_succ, List.getElem?_cons_succ, ih]
          have hnext : s.sequence + 1 + 1 + UInt16.ofNat i =
              s.sequence + 1 + UInt16.ofNat (i + 1) := by
            rw [UInt16.ofNat_add]
            ac_rfl
          simp only [generateUniformId, hnext]

/-- Counters that are 4096 calls apart have the same lower 12 bits, although the counter itself
wraps at 65536. -/
theorem sequence_mod (i : Nat) :
    ((0 : UInt16) + 1 + UInt16.ofNat i).toNat % 2 ^ 12 = (i + 1) % 2 ^ 12 := by
  simp
  omega

/-- **The collision law of one generator**, for the `ids` of its calls at these `readings`. -/
structure CollisionLaw (readings : List Int) (ids : List UInt64) : Prop where
  /-- Every call makes an id. -/
  length_eq : ids.length = readings.length
  /-- Two ids are equal exactly where the times agree modulo `2 ^ 42` and the numbers of the calls
  modulo 4096. -/
  eq_iff : ∀ (i j : Nat) (t t' : Int) (id id' : UInt64), readings[i]? = some t →
    readings[j]? = some t' → ids[i]? = some id → ids[j]? = some id' →
      (id = id' ↔ t % 2 ^ 42 = t' % 2 ^ 42 ∧ i % 4096 = j % 4096)
  /-- With fewer than 4097 calls per millisecond, no id comes back within `2 ^ 42` milliseconds. -/
  ne : readings.Pairwise (· ≤ ·) → (∀ t, readings.count t < 4097) →
    ∀ (i j : Nat) (t t' : Int) (id id' : UInt64), i < j → readings[i]? = some t →
      readings[j]? = some t' → t' - t < 2 ^ 42 → ids[i]? = some id → ids[j]? = some id' → id ≠ id'

/-- The readings between two equal ones of a clock that does not go back. -/
theorem lt_count_of_getElem? {readings : List Int} (hmono : readings.Pairwise (· ≤ ·)) {i j : Nat}
    {t : Int} (hij : i < j) (hi : readings[i]? = some t) (hj : readings[j]? = some t) :
    j - i < readings.count t := by
  apply List.replicate_sublist_iff.mp
  obtain ⟨hj', hjt⟩ := List.getElem?_eq_some_iff.mp hj
  obtain ⟨hi', hit⟩ := List.getElem?_eq_some_iff.mp hi
  have hbetween : (readings.drop i).take (j - i + 1) = List.replicate (j - i + 1) t := by
    apply List.ext_getElem
    · simp
      omega
    · intro k hk hk'
      have hk : k ≤ j - i := by simpa [Nat.lt_succ_iff] using hk'
      rw [List.getElem_replicate, List.getElem_take, List.getElem_drop]
      have hsorted := List.pairwise_iff_getElem.mp hmono
      have hle : t ≤ readings[i + k] := by
        rcases Nat.eq_zero_or_pos k with rfl | hpos
        · exact hit.ge
        · rw [← hit]
          exact hsorted i (i + k) hi' _ (by omega)
      have hge : readings[i + k] ≤ t := by
        rcases Nat.eq_or_lt_of_le (show i + k ≤ j by omega) with heq | hlt
        · simp only [heq]
          exact hjt.le
        · rw [← hjt]
          exact hsorted (i + k) j _ hj' hlt
      exact le_antisymm hge hle
  rw [← hbetween]
  exact (List.take_sublist _ _).trans (List.drop_sublist _ _)

/-- **The collision law holds of every generator**, for any name of the machine and any clock. -/
theorem collisionLaw (datacenterId workerId : UInt8) (readings : List Int) :
    CollisionLaw readings ((SnowFlake.new datacenterId workerId).ids readings) := by
  have hid {i : Nat} {t : Int} {id : UInt64} (ht : readings[i]? = some t)
      (h : ((SnowFlake.new datacenterId workerId).ids readings)[i]? = some id) :
      (id.toNat : Int) = t % 2 ^ 42 * 2 ^ 22 + (machineField datacenterId workerId).toNat +
        ((i : Int) + 1) % 2 ^ 12 := by
    rw [SnowFlake.ids_getElem?, ht, Option.map_some] at h
    have hcounter := sequence_mod i
    cases h
    refine (composeId_toNat t datacenterId workerId _).trans ?_
    change _ + _ + (((0 + 1 + UInt16.ofNat i : UInt16).toNat : Int)) % 2 ^ 12 = _
    omega
  have hiff : ∀ (i j : Nat) (t t' : Int) (id id' : UInt64), readings[i]? = some t →
      readings[j]? = some t' → ((SnowFlake.new datacenterId workerId).ids readings)[i]? = some id →
      ((SnowFlake.new datacenterId workerId).ids readings)[j]? = some id' →
        (id = id' ↔ t % 2 ^ 42 = t' % 2 ^ 42 ∧ i % 4096 = j % 4096) := by
    intro i j t t' id id' ht ht' h h'
    have h₁ := hid ht h
    have h₂ := hid ht' h'
    rw [← UInt64.toNat_inj]
    omega
  constructor
  · exact SnowFlake.ids_length _ _
  · exact hiff
  · intro hmono hcount i j t t' id id' hij ht ht' hnear h h' heq
    obtain ⟨htime, hcall⟩ := (hiff i j t t' id id' ht ht' h h').mp heq
    have hle : t ≤ t' := by
      obtain ⟨hi, rfl⟩ := List.getElem?_eq_some_iff.mp ht
      obtain ⟨hj, rfl⟩ := List.getElem?_eq_some_iff.mp ht'
      exact List.pairwise_iff_getElem.mp hmono i j hi hj hij
    obtain rfl : t = t' := by omega
    have hmany := lt_count_of_getElem? hmono hij ht ht'
    have hfew := hcount t
    omega

/-! ## Two machines -/

/-- A machine: both parts of its name are in the range of 5 bits. -/
structure Machine where
  datacenterId : UInt8
  workerId : UInt8
  datacenterId_lt : datacenterId < 32
  workerId_lt : workerId < 32
  deriving DecidableEq

/-- The generator of a machine. -/
def Machine.snowFlake (m : Machine) : SnowFlake := SnowFlake.new m.datacenterId m.workerId

/-- What is stored for a machine. -/
theorem Machine.machineField_eq (m : Machine) :
    machineField m.datacenterId m.workerId = (m.datacenterId / 4).toUInt64 <<< 17 := by
  have key : ∀ d w : Fin 32, machineField (UInt8.ofNat d) (UInt8.ofNat w) =
      (UInt8.ofNat d / 4).toUInt64 <<< 17 := by decide
  have hd : m.datacenterId.toNat < 32 := UInt8.lt_iff_toNat_lt.mp m.datacenterId_lt
  have hw : m.workerId.toNat < 32 := UInt8.lt_iff_toNat_lt.mp m.workerId_lt
  simpa using key ⟨m.datacenterId.toNat, hd⟩ ⟨m.workerId.toNat, hw⟩

/-- **What the machine field says**: the upper three of the five bits of the datacenter id. -/
theorem Machine.machineField_quarter (m : Machine) :
    (machineField m.datacenterId m.workerId &&& (0x3E0000 : UInt64)) >>> 17 =
      (m.datacenterId / 4).toUInt64 := by
  have key : ∀ d : Fin 32, (((UInt8.ofNat d / 4).toUInt64 <<< 17) &&& (0x3E0000 : UInt64)) >>> 17 =
      (UInt8.ofNat d / 4).toUInt64 := by decide
  have hd : m.datacenterId.toNat < 32 := UInt8.lt_iff_toNat_lt.mp m.datacenterId_lt
  rw [m.machineField_eq]
  simpa using key ⟨m.datacenterId.toNat, hd⟩

/-- No id of one machine is an id of the other, whatever their clocks read. -/
def NeverCollide (a b : Machine) : Prop :=
  ∀ readings readings' : List Int, ∀ id ∈ a.snowFlake.ids readings,
    id ∉ b.snowFlake.ids readings'

/-- **The ids of two machines never collide** exactly where the upper three bits of their datacenter
ids differ. -/
theorem neverCollide_iff (a b : Machine) :
    NeverCollide a b ↔ a.datacenterId / 4 ≠ b.datacenterId / 4 := by
  constructor
  · intro h hquarter
    have hsame : a.snowFlake = b.snowFlake := by
      unfold Machine.snowFlake SnowFlake.new
      rw [a.machineField_eq, b.machineField_eq, hquarter]
    apply h [0] [0] (a.snowFlake.generateUniformId 0).1 List.mem_cons_self
    rw [hsame]
    exact List.mem_cons_self
  · intro hne readings readings' id ha hb
    have hfields : machineField a.datacenterId a.workerId &&& (0x3E0000 : UInt64) =
        machineField b.datacenterId b.workerId &&& (0x3E0000 : UInt64) :=
      (SnowFlake.ids_machine ha).symm.trans (SnowFlake.ids_machine hb)
    apply hne
    apply UInt8.toUInt64_inj.mp
    rw [← a.machineField_quarter, ← b.machineField_quarter, hfields]

/-- Two workers of one datacenter make the same id in the same millisecond. -/
theorem not_neverCollide : ¬ ∀ a b : Machine, a ≠ b → NeverCollide a b := by
  intro h
  refine h ⟨0, 0, by decide, by decide⟩ ⟨0, 1, by decide, by decide⟩ (by decide) [0] [0] 1 ?_ ?_ <;>
    decide

end CacheSystem
