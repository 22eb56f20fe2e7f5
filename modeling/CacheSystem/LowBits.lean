import Mathlib.Data.List.Pairwise
import CacheSystem.Linearizability
import CacheSystem.SnowFlake

/-!
# Where the server cannot tell op ids apart

The server keeps the update requests that wait in `defer_messages_` under a `uint32_t`, so of an op id
it sees the low 32 bits: the counter, the machine, and ten bits of the time. The results about whole
runs ask for op ids that differ there. This file says what that is for op ids that the generators of
the clients made. Ids that differ in all 64 bits need not: one client that makes its calls 1 and 4097
in the right milliseconds gives both the same key.

* `lowBits_toNat` : the fields that are left of an id.
* `Generated` : the op ids of each client are those of its generator, in the order of its calls.
* `lowBits_eq_iff`, `lowDistinct_iff` : which ids, and which calls, have distinct low bits.
* `generated_serial` : which runs are serial, as `calls_linearizable` asks. Clients with different
  machine fields can make 4096 calls each.
-/

namespace CacheSystem

open Lib.Concurrent

/-! ## The low bits of an id -/

/-- The name of a generator: `datacenter_id` and `worker_id`. -/
structure GeneratorName where
  datacenterId : UInt8
  workerId : UInt8
  deriving DecidableEq, Repr

/-- The generator of this name, before its first call. -/
def GeneratorName.snowFlake (g : GeneratorName) : SnowFlake :=
  SnowFlake.new g.datacenterId g.workerId

/-- The machine field of its ids. -/
def GeneratorName.field (g : GeneratorName) : UInt64 := machineField g.datacenterId g.workerId

/-- **What is left of an id**: ten bits of the time, the machine, and the number of the call modulo
4096. -/
theorem lowBits_toNat {g : GeneratorName} {readings : List Int} {i : Nat} {t : Int} {id : UInt64}
    (ht : readings[i]? = some t) (hid : (g.snowFlake.ids readings)[i]? = some id) :
    (id.toUInt32.toNat : Int) = t % 2 ^ 10 * 2 ^ 22 + g.field.toNat + ((i : Int) + 1) % 2 ^ 12 := by
  rw [SnowFlake.ids_getElem?, ht, Option.map_some] at hid
  cases hid
  have hlt := machineField_lt g.datacenterId g.workerId
  have hmod := machineField_mod g.datacenterId g.workerId
  have hcounter := sequence_mod i
  have hid : (((composeId t g.field ((0 : UInt16) + 1 + UInt16.ofNat i)).toNat : Nat) : Int) = _ :=
    composeId_toNat t g.datacenterId g.workerId _
  change (((composeId t g.field ((0 : UInt16) + 1 + UInt16.ofNat i)).toUInt32.toNat : Nat) : Int) = _
  rw [UInt64.toNat_toUInt32]
  unfold GeneratorName.field at hid ⊢
  omega

/-- Two ids have the same low bits exactly where the machine fields are equal, the times agree modulo
1024, and the numbers of the calls agree modulo 4096. -/
theorem lowBits_eq_iff {g g' : GeneratorName} {readings readings' : List Int} {i j : Nat} {t t' : Int}
    {id id' : UInt64} (ht : readings[i]? = some t) (ht' : readings'[j]? = some t')
    (hid : (g.snowFlake.ids readings)[i]? = some id)
    (hid' : (g'.snowFlake.ids readings')[j]? = some id') :
    id.toUInt32 = id'.toUInt32 ↔
      g.field = g'.field ∧ t % 1024 = t' % 1024 ∧ i % 4096 = j % 4096 := by
  have h := lowBits_toNat ht hid
  have h' := lowBits_toNat ht' hid'
  have hlt := machineField_lt g.datacenterId g.workerId
  have hlt' := machineField_lt g'.datacenterId g'.workerId
  have hmod := machineField_mod g.datacenterId g.workerId
  have hmod' := machineField_mod g'.datacenterId g'.workerId
  rw [← UInt32.toNat_inj, ← UInt64.toNat_inj]
  unfold GeneratorName.field at h h' ⊢
  omega

/-! ## The calls of the clients -/

/-- The op ids of each client are those of its generator, which read these times, in the order of
its calls. -/
def Generated (generators : Address → GeneratorName) (readings : Address → List Int)
    (calls : List Call) : Prop :=
  ∀ client, (calls.filter (·.client = client)).map Call.opId =
    (generators client).snowFlake.ids (readings client)

/-- The op ids of two calls differ in their low 32 bits. -/
def LowDistinct (calls : List Call) : Prop :=
  calls.Pairwise fun c c' => c.opId.toUInt32 ≠ c'.opId.toUInt32

/-- Two calls of generators with the same field whose numbers agree modulo 4096 are at times that
differ modulo 1024. -/
def Spread (generators : Address → GeneratorName) (readings : Address → List Int) : Prop :=
  ∀ (client client' : Address) (i j : Nat) (t t' : Int), (readings client)[i]? = some t →
    (readings client')[j]? = some t' → (generators client).field = (generators client').field →
      t % 1024 = t' % 1024 → i % 4096 = j % 4096 → client = client' ∧ i = j

variable {generators : Address → GeneratorName} {readings : Address → List Int}
  {calls : List Call} {c : Call} {client : Address} {i : Nat} {t : Int}

/-- The call that a reading was made for. -/
theorem Generated.call_of_reading (h : Generated generators readings calls)
    (ht : (readings client)[i]? = some t) :
    ∃ c, (calls.filter (·.client = client))[i]? = some c ∧
      ((generators client).snowFlake.ids (readings client))[i]? = some c.opId := by
  have hlength := congrArg List.length (h client)
  rw [List.length_map, SnowFlake.ids_length] at hlength
  obtain ⟨hi, -⟩ := List.getElem?_eq_some_iff.mp ht
  have hc := List.getElem?_eq_getElem (l := calls.filter (·.client = client)) (hlength ▸ hi)
  refine ⟨_, hc, ?_⟩
  rw [← h client, List.getElem?_map, hc, Option.map_some]

/-- The reading that was made for a call. -/
theorem Generated.reading_of_call (h : Generated generators readings calls)
    (hc : (calls.filter (·.client = client))[i]? = some c) :
    ∃ t, (readings client)[i]? = some t ∧
      ((generators client).snowFlake.ids (readings client))[i]? = some c.opId := by
  have hid : ((generators client).snowFlake.ids (readings client))[i]? = some c.opId := by
    rw [← h client, List.getElem?_map, hc, Option.map_some]
  obtain ⟨hi, -⟩ := List.getElem?_eq_some_iff.mp hid
  rw [SnowFlake.ids_length] at hi
  exact ⟨_, List.getElem?_eq_getElem hi, hid⟩

/-- The op id of a call was generated at a reading of its client. -/
theorem Generated.reading_of_mem (h : Generated generators readings calls) (hc : c ∈ calls) :
    ∃ (i : Nat) (t : Int), (readings c.client)[i]? = some t ∧
      ((generators c.client).snowFlake.ids (readings c.client))[i]? = some c.opId := by
  have hfilter : c ∈ calls.filter (·.client = c.client) := List.mem_filter.mpr ⟨hc, by simp⟩
  obtain ⟨i, hi⟩ := List.mem_iff_getElem?.mp hfilter
  exact ⟨i, h.reading_of_call hi⟩

/-- A list is pairwise related if each class of it is, and two classes are. -/
theorem pairwise_of_classes {α β : Type} [DecidableEq β] {R : α → α → Prop} {f : α → β} {l : List α}
    (hclass : ∀ b, (l.filter (f · = b)).Pairwise R) (hcross : ∀ x ∈ l, ∀ y ∈ l, f x ≠ f y → R x y) :
    l.Pairwise R := by
  induction l with
  | nil => exact .nil
  | cons x l ih =>
      refine List.pairwise_cons.mpr ⟨fun y hy => ?_, ih (fun b => ?_) fun x' hx' y hy => ?_⟩
      · by_cases hxy : f x = f y
        · have hx := hclass (f x)
          rw [List.filter_cons_of_pos (by simp)] at hx
          exact (List.pairwise_cons.mp hx).1 y (List.mem_filter.mpr ⟨hy, by simp [hxy]⟩)
        · exact hcross x List.mem_cons_self y (List.mem_cons_of_mem x hy) hxy
      · exact (hclass b).sublist ((List.sublist_cons_self x l).filter _)
      · exact hcross x' (List.mem_cons_of_mem x hx') y (List.mem_cons_of_mem x hy)

/-- **Which runs of the generators have distinct low bits**, as the server sees the op ids. -/
theorem lowDistinct_iff (h : Generated generators readings calls) :
    LowDistinct calls ↔ Spread generators readings := by
  constructor
  · intro hdistinct client client' i j t t' ht ht' hfield htime hcall
    obtain ⟨c, hc, hid⟩ := h.call_of_reading ht
    obtain ⟨c', hc', hid'⟩ := h.call_of_reading ht'
    have hsame := (lowBits_eq_iff ht ht' hid hid').mpr ⟨hfield, htime, hcall⟩
    have hmem := List.mem_filter.mp (List.mem_of_getElem? hc)
    have hmem' := List.mem_filter.mp (List.mem_of_getElem? hc')
    obtain rfl : client = client' := by
      by_contra hne
      have hother : c ≠ c' := by
        rintro rfl
        exact hne ((of_decide_eq_true hmem.2).symm.trans (of_decide_eq_true hmem'.2))
      have : Std.Symm fun c c' : Call => c.opId.toUInt32 ≠ c'.opId.toUInt32 := ⟨fun _ _ => Ne.symm⟩
      exact List.Pairwise.forall hdistinct hmem.1 hmem'.1 hother hsame
    refine ⟨rfl, ?_⟩
    -- two calls of one client stand at two places among its calls
    have hpairwise := List.pairwise_iff_getElem.mp (hdistinct.filter (·.client = client))
    obtain ⟨hi, rfl⟩ := List.getElem?_eq_some_iff.mp hc
    obtain ⟨hj, rfl⟩ := List.getElem?_eq_some_iff.mp hc'
    rcases Nat.lt_trichotomy i j with hlt | heq | hlt
    · exact absurd hsame (hpairwise i j hi hj hlt)
    · exact heq
    · exact absurd hsame.symm (hpairwise j i hj hi hlt)
  · intro hspread
    refine pairwise_of_classes (f := Call.client) (fun client => ?_) fun c hc c' hc' hne hsame => ?_
    · refine List.pairwise_iff_getElem.mpr fun i j hi hj hij hsame => ?_
      obtain ⟨t, ht, hid⟩ := h.reading_of_call (List.getElem?_eq_getElem hi)
      obtain ⟨t', ht', hid'⟩ := h.reading_of_call (List.getElem?_eq_getElem hj)
      obtain ⟨hfield, htime, hcall⟩ := (lowBits_eq_iff ht ht' hid hid').mp hsame
      exact hij.ne (hspread client client i j t t' ht ht' hfield htime hcall).2
    · obtain ⟨i, t, ht, hid⟩ := h.reading_of_mem hc
      obtain ⟨j, t', ht', hid'⟩ := h.reading_of_mem hc'
      obtain ⟨hfield, htime, hcall⟩ := (lowBits_eq_iff ht ht' hid hid').mp hsame
      exact hne (hspread c.client c'.client i j t t' ht ht' hfield htime hcall).1

/-! ## Runs with generated op ids -/

variable {env : Env} {fails : Nat → Bool} {past : List System} {s s' : System}

/-- The clients of these calls have different machine fields. -/
def OwnFields (generators : Address → GeneratorName) (calls : List Call) : Prop :=
  ∀ c ∈ calls, ∀ c' ∈ calls, (generators c.client).field = (generators c'.client).field →
    c.client = c'.client

/-- `SystemSerial`, but for what it says about op ids. -/
def SystemOnce (env : Env) (fails : Nat → Bool) (s : System) : SystemOp → Prop
  | .call _ _ => True
  | op => SystemSerial env fails s op

/-- A client that makes 4096 calls at most uses no counter twice. -/
theorem spread_of_few (h : Generated generators readings calls) (hfields : OwnFields generators calls)
    (hfew : ∀ client, (readings client).length ≤ 4096) : Spread generators readings := by
  intro client client' i j t t' ht ht' hfield htime hcall
  obtain ⟨c, hc, -⟩ := h.call_of_reading ht
  obtain ⟨c', hc', -⟩ := h.call_of_reading ht'
  have hmem := List.mem_filter.mp (List.mem_of_getElem? hc)
  have hmem' := List.mem_filter.mp (List.mem_of_getElem? hc')
  obtain rfl : c.client = client := of_decide_eq_true hmem.2
  obtain rfl : c'.client = client' := of_decide_eq_true hmem'.2
  obtain ⟨hi, -⟩ := List.getElem?_eq_some_iff.mp ht
  obtain ⟨hj, -⟩ := List.getElem?_eq_some_iff.mp ht'
  have hlength := hfew c.client
  have hlength' := hfew c'.client
  exact ⟨hfields c hmem.1 c' hmem'.1 hfield, by omega⟩

/-- A step adds its call, if it is one. -/
theorem System.Step.calls_eq {op : SystemOp} (h : s.Step env fails op s') :
    s'.calls = s.calls ∨ ∃ c sendFails, op = .call c sendFails ∧ s'.calls = s.calls ++ [c] := by
  cases h with
  | @call c sendFails hnew => exact Or.inr ⟨c, sendFails, rfl, rfl⟩
  | request hmem hserver => exact Or.inl (take_calls _ _ s)
  | response hmem => exact Or.inl (take_calls _ _ s)
  | drop hmem => exact Or.inl (take_calls _ _ s)
  | tick hserver => exact Or.inl rfl

/-- In a serial run the low bits of the calls are distinct. -/
theorem SystemRuns.lowDistinct (h : SystemRuns env fails (SystemSerial env fails) past s) :
    LowDistinct s.calls := by
  induction h with
  | initial => exact .nil
  | @step past s s' op hruns hok hstep ih =>
      rcases (System.step_spec hstep).calls_eq with hcalls | ⟨c, sendFails, rfl, hcalls⟩
      · exact hcalls ▸ ih
      · rw [hcalls]
        refine List.pairwise_append.mpr ⟨ih, List.pairwise_singleton _ c, fun c' hc' c'' hc'' => ?_⟩
        cases List.mem_singleton.mp hc''
        exact hok c' hc'

/-- Calls are never taken back, so those that are distinct at the end were distinct when they were
made. -/
theorem SystemRuns.serial (h : SystemRuns env fails (SystemOnce env fails) past s)
    (hdistinct : LowDistinct s.calls) : SystemRuns env fails (SystemSerial env fails) past s := by
  induction h with
  | initial => exact .initial
  | @step past s s' op hruns hok hstep ih =>
      rcases (System.step_spec hstep).calls_eq with hcalls | ⟨c, sendFails, rfl, hcalls⟩
      · rw [hcalls] at hdistinct
        refine .step op (ih hdistinct) ?_ hstep
        cases op with
        | call c sendFails =>
            cases System.step_spec hstep with
            | call hnew => exact absurd (congrArg List.length hcalls) (by simp)
        | deliver d parses keep sendFails => exact hok
        | drop d => exact hok
        | tick fuel => exact hok
      · rw [hcalls] at hdistinct
        obtain ⟨hbefore, -, hnew⟩ := List.pairwise_append.mp hdistinct
        exact .step (.call c sendFails) (ih hbefore)
          (fun c' hc' => hnew c' hc' c List.mem_cons_self) hstep

/-- The names of two clients. -/
def twoNames : Address → GeneratorName := fun client => if client = 7 then ⟨4, 0⟩ else ⟨8, 0⟩

/-- Their clocks, 1024 ms apart. -/
def twoReadings : Address → List Int := fun client =>
  if client = 7 then [0] else if client = 8 then [1024] else []

/-- What one of them writes. -/
def firstCall : Call := updateCall 7 0x20001 1 [5]

/-- The other one reads it. -/
def secondCall : Call := ⟨8, 0x100040001, 1, .read, 0⟩

/-- The op ids of the two calls are generated. -/
theorem generated_two : Generated twoNames twoReadings [firstCall, secondCall] := by
  intro client
  by_cases h₇ : client = 7
  · subst h₇
    decide
  · by_cases h₈ : client = 8
    · subst h₈
      decide
    · simp [firstCall, secondCall, updateCall, twoNames, twoReadings, h₇, h₈, Ne.symm h₇, Ne.symm h₈,
        SnowFlake.ids]

/-- The two clients have machine fields of their own. -/
theorem ownFields_two : OwnFields twoNames [firstCall, secondCall] := by
  unfold OwnFields
  decide

/-- No client has generated more than 4096 op ids. -/
theorem twoReadings_few (client : Address) : (twoReadings client).length ≤ 4096 := by
  unfold twoReadings
  split
  · decide
  · split <;> decide

/-- The first update of an id comes in time. -/
theorem punctual_firstCall {s : Server} (hfree : s.mem.map 1 = none) :
    Punctual stillClock (fun _ => false) s
      (.receive firstCall.client (some firstCall.request.message)) := by
  intro m hm
  cases hm
  refine ⟨fun read hread => (by cases hread), fun update request hupdate e he => ?_⟩
  cases hupdate
  cases hfree.symm.trans he

end CacheSystem
