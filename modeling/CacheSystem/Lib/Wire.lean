import Mathlib.Algebra.Group.Nat.Defs
import Mathlib.Data.List.TakeWhile
import Mathlib.Order.Basic

/-!
# Tagged fields on the wire

The wire format of protocol buffers for the two wire types that scalars, strings and submessages
use: a field is a varint of its number and its wire type, and then a varint, or a length and that
many bytes. A message is the list of its fields.

* `varint`, `decodeVarint` : base 128, the low group first.
* `encode`, `decode` : a list of fields and its bytes. Decoding inverts encoding (`decode_encode`)
  and goes on after what it has read (`decode_append`).
* `optVarint`, `optBytes` : a scalar is written where it is not the default. `scalar`, `payload`
  and `payloads` read them back, the last one where there are several.
* `EndsWithin` : bytes that end within a field. They do not decode.
* `zero_mem_encode` : where a zero byte can stand, and `endsWithin_takeWhile` : what is left of a
  message before its first zero byte ends within a field.
-/

namespace CacheSystem.Lib.Wire

/-! ## Varints -/

/-- The groups of `n`, all but the last with the high bit; `fuel` bounds their number. -/
def varintAux : Nat → Nat → List UInt8
  | 0, n => [UInt8.ofNat n]
  | fuel + 1, n =>
      if n < 128 then [UInt8.ofNat n] else UInt8.ofNat (n % 128 + 128) :: varintAux fuel (n / 128)

/-- The varint of a number. -/
def varint (n : Nat) : List UInt8 := varintAux n n

/-- Fuel beyond the number itself changes nothing. -/
theorem varintAux_eq {fuel fuel' n : Nat} (h : n ≤ fuel) (h' : n ≤ fuel') :
    varintAux fuel n = varintAux fuel' n := by
  induction fuel generalizing fuel' n with
  | zero =>
      obtain rfl : n = 0 := Nat.le_zero.mp h
      cases fuel' <;> rfl
  | succ fuel ih =>
      cases fuel' with
      | zero =>
          obtain rfl : n = 0 := Nat.le_zero.mp h'
          rfl
      | succ fuel' =>
          unfold varintAux
          split
          · rfl
          · exact congrArg _ (ih (by omega) (by omega))

/-- A number below 128 is one byte. -/
theorem varint_of_lt {n : Nat} (h : n < 128) : varint n = [UInt8.ofNat n] := by
  unfold varint
  cases n with
  | zero => rfl
  | succ n => rw [varintAux, if_pos h]

/-- A larger number is its low seven bits with the high bit set, and then the rest. -/
theorem varint_of_le {n : Nat} (h : 128 ≤ n) :
    varint n = UInt8.ofNat (n % 128 + 128) :: varint (n / 128) := by
  unfold varint
  cases n with
  | zero => omega
  | succ n => rw [varintAux, if_neg (by omega), varintAux_eq (by omega) le_rfl]

/-- A varint has a byte. -/
theorem varint_ne_nil (n : Nat) : varint n ≠ [] := by
  rcases lt_or_ge n 128 with h | h
  · simp [varint_of_lt h]
  · simp [varint_of_le h]

/-- No group of a positive number is zero. -/
theorem zero_mem_varint {n : Nat} : (0 : UInt8) ∈ varint n ↔ n = 0 := by
  induction n using Nat.strongRecOn with
  | ind n ih =>
      rcases lt_or_ge n 128 with h | h
      · rw [varint_of_lt h, List.mem_singleton, ← UInt8.toNat_inj, UInt8.toNat_ofNat']
        simp only [UInt8.toNat_zero]
        omega
      · rw [varint_of_le h, List.mem_cons, ih (n / 128) (by omega), ← UInt8.toNat_inj,
          UInt8.toNat_ofNat']
        simp only [UInt8.toNat_zero]
        omega

/-- The number at the front of the bytes, and what comes after it. -/
def decodeVarint : List UInt8 → Option (Nat × List UInt8)
  | [] => none
  | b :: rest =>
      if b.toNat < 128 then some (b.toNat, rest)
      else (decodeVarint rest).map fun r => (b.toNat - 128 + 128 * r.1, r.2)

/-- **A varint is read back**, and what follows it is left. -/
theorem decodeVarint_varint (n : Nat) (rest : List UInt8) :
    decodeVarint (varint n ++ rest) = some (n, rest) := by
  induction n using Nat.strongRecOn with
  | ind n ih =>
      rcases lt_or_ge n 128 with h | h
      · have hb : (UInt8.ofNat n).toNat = n := by
          rw [UInt8.toNat_ofNat']
          omega
        rw [varint_of_lt h, List.singleton_append, decodeVarint, hb, if_pos h]
      · have hb : (UInt8.ofNat (n % 128 + 128)).toNat = n % 128 + 128 := by
          rw [UInt8.toNat_ofNat']
          omega
        rw [varint_of_le h, List.cons_append, decodeVarint, hb, if_neg (by omega),
          ih (n / 128) (by omega), Option.map_some]
        simp only [Option.some.injEq, Prod.mk.injEq, and_true]
        omega

/-- More bytes do not change a number that was read. -/
theorem decodeVarint_append {bytes rest : List UInt8} {n : Nat}
    (h : decodeVarint bytes = some (n, rest)) (more : List UInt8) :
    decodeVarint (bytes ++ more) = some (n, rest ++ more) := by
  induction bytes generalizing n rest with
  | nil => cases h
  | cons b bytes ih =>
      rw [decodeVarint] at h
      rw [List.cons_append, decodeVarint]
      split
      · rename_i hb
        rw [if_pos hb] at h
        cases h
        rfl
      · rename_i hb
        rw [if_neg hb] at h
        obtain ⟨r, hr, heq⟩ := Option.map_eq_some_iff.mp h
        cases heq
        rw [ih hr, Option.map_some]

/-- Reading a varint takes a byte at least. -/
theorem decodeVarint_length {bytes rest : List UInt8} {n : Nat}
    (h : decodeVarint bytes = some (n, rest)) : rest.length < bytes.length := by
  induction bytes generalizing n rest with
  | nil => cases h
  | cons b bytes ih =>
      rw [decodeVarint] at h
      split at h
      · cases h
        exact Nat.lt_succ_self _
      · obtain ⟨r, hr, heq⟩ := Option.map_eq_some_iff.mp h
        cases heq
        exact (ih hr).trans (Nat.lt_succ_self _)

/-! ## Fields -/

/-- What a field holds. -/
inductive Value
  | varint (n : Nat)
  | bytes (b : List UInt8)
  deriving DecidableEq, Repr

/-- A field: its number and what it holds. -/
structure Field where
  number : Nat
  value : Value
  deriving DecidableEq, Repr

/-- The tag of a field, and its value: a varint, or a length and that many bytes. -/
def Field.encode (f : Field) : List UInt8 :=
  match f.value with
  | .varint n => varint (8 * f.number) ++ varint n
  | .bytes b => varint (8 * f.number + 2) ++ (varint b.length ++ b)

/-- The field at the front of the bytes, and what comes after it. -/
def decodeField (bytes : List UInt8) : Option (Field × List UInt8) :=
  match decodeVarint bytes with
  | none => none
  | some (tag, rest) =>
      if tag / 8 = 0 then none
      else if tag % 8 = 0 then
        (decodeVarint rest).map fun r => (⟨tag / 8, .varint r.1⟩, r.2)
      else if tag % 8 = 2 then
        match decodeVarint rest with
        | none => none
        | some (length, rest) =>
            if length ≤ rest.length then
              some (⟨tag / 8, .bytes (rest.take length)⟩, rest.drop length)
            else none
      else none

/-- **A field is read back**, and what follows it is left. -/
theorem decodeField_encode {f : Field} (h : f.number ≠ 0) (rest : List UInt8) :
    decodeField (f.encode ++ rest) = some (f, rest) := by
  obtain ⟨number, value⟩ := f
  cases value with
  | varint n =>
      simp only [Field.encode, List.append_assoc, decodeField, decodeVarint_varint]
      rw [if_neg (by simpa using h), if_pos (by omega), Option.map_some,
        Nat.mul_div_cancel_left _ (by decide)]
  | bytes b =>
      have hdiv : (8 * number + 2) / 8 = number := by omega
      simp only [Field.encode, List.append_assoc, decodeField, decodeVarint_varint, hdiv]
      rw [if_neg h, if_neg (by omega), if_pos (by omega), if_pos (by simp), List.take_left,
        List.drop_left]

/-- A field that was read is read in the same way when more bytes follow. -/
theorem decodeField_append {bytes rest : List UInt8} {f : Field}
    (h : decodeField bytes = some (f, rest)) (more : List UInt8) :
    decodeField (bytes ++ more) = some (f, rest ++ more) := by
  unfold decodeField at h ⊢
  rcases htag : decodeVarint bytes with _ | ⟨tag, after⟩
  · rw [htag] at h
    cases h
  · rw [htag] at h
    rw [decodeVarint_append htag]
    dsimp only at h ⊢
    by_cases h0 : tag / 8 = 0
    · rw [if_pos h0] at h
      cases h
    · rw [if_neg h0] at h ⊢
      by_cases hvarint : tag % 8 = 0
      · rw [if_pos hvarint] at h ⊢
        obtain ⟨r, hr, heq⟩ := Option.map_eq_some_iff.mp h
        cases heq
        rw [decodeVarint_append hr, Option.map_some]
      · rw [if_neg hvarint] at h ⊢
        by_cases hbytes : tag % 8 = 2
        · rw [if_pos hbytes] at h ⊢
          rcases hlength : decodeVarint after with _ | ⟨length, content⟩
          · rw [hlength] at h
            cases h
          · rw [hlength] at h
            rw [decodeVarint_append hlength]
            dsimp only at h ⊢
            split at h
            · rename_i hle
              cases h
              rw [if_pos (by rw [List.length_append]; omega), List.take_append_of_le_length hle,
                List.drop_append_of_le_length hle]
            · cases h
        · rw [if_neg hbytes] at h
          cases h

/-- Reading a field takes a byte at least. -/
theorem decodeField_length {bytes rest : List UInt8} {f : Field}
    (h : decodeField bytes = some (f, rest)) : rest.length < bytes.length := by
  unfold decodeField at h
  rcases htag : decodeVarint bytes with _ | ⟨tag, after⟩
  · rw [htag] at h
    cases h
  · have hlt := decodeVarint_length htag
    rw [htag] at h
    dsimp only at h
    split at h
    · cases h
    · split at h
      · obtain ⟨r, hr, heq⟩ := Option.map_eq_some_iff.mp h
        cases heq
        exact (decodeVarint_length hr).trans hlt
      · split at h
        · rcases hlength : decodeVarint after with _ | ⟨length, content⟩
          · rw [hlength] at h
            cases h
          · rw [hlength] at h
            have hlt' := decodeVarint_length hlength
            dsimp only at h
            split at h
            · cases h
              rw [List.length_drop]
              omega
            · cases h
        · cases h

/-! ## Messages -/

/-- The bytes of a list of fields. -/
def encode (fs : List Field) : List UInt8 := fs.flatMap Field.encode

/-- No field, no byte. -/
@[simp] theorem encode_nil : encode [] = [] := rfl

/-- The first field is written first. -/
theorem encode_cons (f : Field) (fs : List Field) : encode (f :: fs) = f.encode ++ encode fs := rfl

/-- Two lists of fields are written one after the other. -/
@[simp] theorem encode_append (fs fs' : List Field) :
    encode (fs ++ fs') = encode fs ++ encode fs' := List.flatMap_append

/-- A field has a byte. -/
theorem Field.encode_ne_nil (f : Field) : f.encode ≠ [] := by
  unfold Field.encode
  split <;> simp [varint_ne_nil]

/-- Only the empty list of fields has no byte. -/
theorem encode_eq_nil {fs : List Field} : encode fs = [] ↔ fs = [] := by
  cases fs with
  | nil => simp
  | cons f fs => simp [encode_cons, f.encode_ne_nil]

/-- The fields that the bytes decode to; `fuel` bounds their number. -/
def decodeAux : Nat → List UInt8 → Option (List Field)
  | _, [] => some []
  | 0, _ :: _ => none
  | fuel + 1, b :: bytes =>
      match decodeField (b :: bytes) with
      | none => none
      | some (f, rest) => (decodeAux fuel rest).map (f :: ·)

/-- The fields of the bytes, up to their end. -/
def decode (bytes : List UInt8) : Option (List Field) := decodeAux bytes.length bytes

/-- Fuel beyond the number of the bytes changes nothing. -/
theorem decodeAux_eq {fuel fuel' : Nat} {bytes : List UInt8} (h : bytes.length ≤ fuel)
    (h' : bytes.length ≤ fuel') : decodeAux fuel bytes = decodeAux fuel' bytes := by
  induction fuel generalizing fuel' bytes with
  | zero =>
      obtain rfl : bytes = [] := List.length_eq_zero_iff.mp (Nat.le_zero.mp h)
      cases fuel' <;> rfl
  | succ fuel ih =>
      cases bytes with
      | nil => cases fuel' <;> rfl
      | cons b bytes =>
          cases fuel' with
          | zero => simp at h'
          | succ fuel' =>
              unfold decodeAux
              split
              · rfl
              · rename_i f rest hfield
                have hlt := decodeField_length hfield
                exact congrArg _ (ih (by omega) (by omega))

/-- No byte, no field. -/
@[simp] theorem decode_nil : decode [] = some [] := rfl

/-- A field that can be read comes first. -/
theorem decode_of_some {bytes rest : List UInt8} {f : Field}
    (h : decodeField bytes = some (f, rest)) : decode bytes = (decode rest).map (f :: ·) := by
  have hlt := decodeField_length h
  cases bytes with
  | nil => simp at hlt
  | cons b bytes =>
      simp only [decode, List.length_cons, decodeAux, h]
      rw [decodeAux_eq (Nat.le_of_lt_succ hlt) le_rfl]

/-- Bytes that do not begin with a field do not decode. -/
theorem decode_of_none {bytes : List UInt8} (hne : bytes ≠ []) (h : decodeField bytes = none) :
    decode bytes = none := by
  cases bytes with
  | nil => exact absurd rfl hne
  | cons b bytes => simp only [decode, List.length_cons, decodeAux, h]

/-- Only the empty string decodes to no field. -/
theorem decode_eq_some_nil {bytes : List UInt8} (h : decode bytes = some []) : bytes = [] := by
  by_contra hne
  rcases hfield : decodeField bytes with _ | ⟨f, rest⟩
  · rw [decode_of_none hne hfield] at h
    cases h
  · rw [decode_of_some hfield] at h
    obtain ⟨_, -, heq⟩ := Option.map_eq_some_iff.mp h
    cases heq

/-- Bytes that decode are read off before the bytes that come after them. -/
theorem decode_append {bytes : List UInt8} {fs : List Field} (h : decode bytes = some fs)
    (more : List UInt8) : decode (bytes ++ more) = (decode more).map (fs ++ ·) := by
  induction fs generalizing bytes with
  | nil =>
      rw [decode_eq_some_nil h]
      simp
  | cons f fs ih =>
      rcases hfield : decodeField bytes with _ | ⟨f', rest⟩
      · by_cases hne : bytes = []
        · rw [hne] at h
          cases h
        · rw [decode_of_none hne hfield] at h
          cases h
      · rw [decode_of_some hfield] at h
        obtain ⟨fs', hfs', heq⟩ := Option.map_eq_some_iff.mp h
        cases heq
        rw [decode_of_some (decodeField_append hfield more), ih hfs', Option.map_map]
        rfl

/-- A single field is read back. -/
theorem decode_field {f : Field} (h : f.number ≠ 0) : decode f.encode = some [f] := by
  have hfield := decodeField_encode h []
  rw [List.append_nil] at hfield
  rw [decode_of_some hfield]
  rfl

/-- **Decoding inverts encoding.** -/
theorem decode_encode {fs : List Field} (h : ∀ f ∈ fs, f.number ≠ 0) :
    decode (encode fs) = some fs := by
  induction fs with
  | nil => rfl
  | cons f fs ih =>
      rw [encode_cons, decode_append (decode_field (h f List.mem_cons_self)),
        ih fun f' hf' => h f' (List.mem_cons_of_mem f hf')]
      rfl

/-- A field that is cut short does not decode. -/
theorem decode_cut {f : Field} (h : f.number ≠ 0) {bytes more : List UInt8}
    (hcut : bytes ++ more = f.encode) (hbytes : bytes ≠ []) (hmore : more ≠ []) :
    decode bytes = none := by
  rcases hfield : decodeField bytes with _ | ⟨f', rest⟩
  · exact decode_of_none hbytes hfield
  · have hwhole := decodeField_encode h []
    rw [List.append_nil, ← hcut, decodeField_append hfield more] at hwhole
    have hnil : rest ++ more = [] := (Prod.mk.inj (Option.some.inj hwhole)).2
    exact absurd (List.append_eq_nil_iff.mp hnil).2 hmore

/-- Whole fields, and the front of another one that ends within it. -/
def EndsWithin (bytes : List UInt8) : Prop :=
  ∃ (fs : List Field) (f : Field) (front back : List UInt8), (∀ f' ∈ fs, f'.number ≠ 0) ∧
    f.number ≠ 0 ∧ front ++ back = f.encode ∧ front ≠ [] ∧ back ≠ [] ∧ bytes = encode fs ++ front

/-- **Bytes that end within a field do not decode.** -/
theorem EndsWithin.decode_eq_none {bytes : List UInt8} (h : EndsWithin bytes) :
    decode bytes = none := by
  obtain ⟨fs, f, front, back, hfs, hf, hcut, hfront, hback, rfl⟩ := h
  rw [decode_append (decode_encode hfs), decode_cut hf hcut hfront hback, Option.map_none]

/-- A whole field in front of them. -/
theorem EndsWithin.cons {bytes : List UInt8} (h : EndsWithin bytes) {f : Field}
    (hf : f.number ≠ 0) : EndsWithin (f.encode ++ bytes) := by
  obtain ⟨fs, f', front, back, hfs, hf', hcut, hfront, hback, rfl⟩ := h
  refine ⟨f :: fs, f', front, back, List.forall_mem_cons.mpr ⟨hf, hfs⟩, hf', hcut, hfront, hback, ?_⟩
  rw [encode_cons, List.append_assoc]

/-! ## Reading and writing members -/

/-- A scalar of a message: it is written where it is not 0. -/
def optVarint (number n : Nat) : List Field := if n = 0 then [] else [⟨number, .varint n⟩]

/-- The bytes of a message: they are written where they are not empty. -/
def optBytes (number : Nat) (b : List UInt8) : List Field :=
  if b = [] then [] else [⟨number, .bytes b⟩]

/-- A submessage: it is written where it is present. -/
def optMessage (number : Nat) (message : Option (List Field)) : List Field :=
  match message with
  | none => []
  | some fs => [⟨number, .bytes (encode fs)⟩]

/-- The varints of this number. -/
def varints (number : Nat) (fs : List Field) : List Nat :=
  fs.filterMap fun f => match f.value with
    | .varint n => if f.number = number then some n else none
    | .bytes _ => none

/-- The byte strings of this number. -/
def payloads (number : Nat) (fs : List Field) : List (List UInt8) :=
  fs.filterMap fun f => match f.value with
    | .varint _ => none
    | .bytes b => if f.number = number then some b else none

/-- A scalar: the last of its number, or 0. -/
def scalar (number : Nat) (fs : List Field) : Nat := (varints number fs).getLast?.getD 0

/-- Bytes: the last of their number, or none. -/
def payload (number : Nat) (fs : List Field) : List UInt8 := (payloads number fs).getLast?.getD []

/-- A submessage: present where there is one of its number, and several are one after the other. -/
def submessage {α : Type} (number : Nat) (ofFields : List Field → α) (fs : List Field) :
    Option (Option α) :=
  match payloads number fs with
  | [] => some none
  | b :: bs => (decode (b :: bs).flatten).map fun fs => some (ofFields fs)

/-- The varints of one number, over two lists of fields. -/
@[simp] theorem varints_append (number : Nat) (fs fs' : List Field) :
    varints number (fs ++ fs') = varints number fs ++ varints number fs' := List.filterMap_append

/-- The payloads of one number, over two lists of fields. -/
@[simp] theorem payloads_append (number : Nat) (fs fs' : List Field) :
    payloads number (fs ++ fs') = payloads number fs ++ payloads number fs' :=
  List.filterMap_append

/-- A scalar is found under its number where it was written. -/
@[simp] theorem varints_optVarint (number n : Nat) :
    varints number (optVarint number n) = if n = 0 then [] else [n] := by
  unfold optVarint
  split <;> simp [varints]

/-- A scalar is not found under another number. -/
@[simp] theorem varints_optVarint_of_ne {number number' : Nat} (h : number' ≠ number) (n : Nat) :
    varints number (optVarint number' n) = [] := by
  unfold optVarint
  split <;> simp [varints, h]

/-- A string is no varint. -/
@[simp] theorem varints_optBytes (number number' : Nat) (b : List UInt8) :
    varints number (optBytes number' b) = [] := by
  unfold optBytes
  split <;> simp [varints]

/-- A scalar is no string. -/
@[simp] theorem payloads_optVarint (number number' n : Nat) :
    payloads number (optVarint number' n) = [] := by
  unfold optVarint
  split <;> simp [payloads]

/-- A string is found under its number where it was written. -/
@[simp] theorem payloads_optBytes (number : Nat) (b : List UInt8) :
    payloads number (optBytes number b) = if b = [] then [] else [b] := by
  unfold optBytes
  split <;> simp [payloads]

/-- A submessage is found under its number where there is one. -/
@[simp] theorem payloads_optMessage (number : Nat) (message : Option (List Field)) :
    payloads number (optMessage number message) = (message.map encode).toList := by
  cases message <;> simp [optMessage, payloads]

/-- A submessage is not found under another number. -/
@[simp] theorem payloads_optMessage_of_ne {number number' : Nat} (h : number' ≠ number)
    (message : Option (List Field)) : payloads number (optMessage number' message) = [] := by
  cases message <;> simp [optMessage, payloads, h]

/-- A submessage that was written is read. -/
theorem submessage_of_payloads {α : Type} {number : Nat} {ofFields : List Field → α}
    {toFields : α → List Field} (hinverse : ∀ a, ofFields (toFields a) = a)
    (hnumber : ∀ a, ∀ f ∈ toFields a, f.number ≠ 0) {fs : List Field} {message : Option α}
    (h : payloads number fs = ((message.map toFields).map encode).toList) :
    submessage number ofFields fs = some message := by
  unfold submessage
  rw [h]
  cases message with
  | none => rfl
  | some a =>
      simp only [Option.map_some, Option.toList_some, List.flatten_cons, List.flatten_nil,
        List.append_nil, decode_encode (hnumber a), hinverse]

/-- Where a submessage is read from the first fields, there is none of its number in the others. -/
theorem submessage_cut {α : Type} {number : Nat} {ofFields : List Field → α}
    {toFields : α → List Field} {fs fs' : List Field} {message : Option α}
    (h : payloads number (fs ++ fs') = ((message.map toFields).map encode).toList)
    (hread : submessage number ofFields fs = some message) : payloads number fs' = [] := by
  rw [payloads_append] at h
  cases message with
  | none => exact (List.append_eq_nil_iff.mp h).2
  | some a =>
      rcases List.append_eq_singleton_iff.mp h with ⟨hnone, -⟩ | ⟨-, hnone⟩
      · rw [submessage, hnone] at hread
        cases hread
      · exact hnone

/-- A submessage is written as a string of bytes. -/
theorem mem_optMessage {number : Nat} {message : Option (List Field)} {f : Field}
    (h : f ∈ optMessage number message) : ∃ b, f = ⟨number, .bytes b⟩ := by
  cases message with
  | none => cases h
  | some fs => exact ⟨encode fs, List.mem_singleton.mp h⟩

/-- A string of bytes among the fields is a payload of its number. -/
theorem mem_payloads {number : Nat} {b : List UInt8} {fs : List Field}
    (h : ⟨number, .bytes b⟩ ∈ fs) : b ∈ payloads number fs :=
  List.mem_filterMap.mpr ⟨_, h, if_pos rfl⟩

/-- What was written is read. -/
@[simp] theorem getLast?_getD_opt {α : Type} [DecidableEq α] (a default : α) :
    (if a = default then [] else [a]).getLast?.getD default = a := by
  split
  · rename_i h
    exact h.symm
  · rfl

/-- A scalar is written under its number. -/
theorem number_optVarint {number n : Nat} (h : number ≠ 0) :
    ∀ f ∈ optVarint number n, f.number ≠ 0 := by
  unfold optVarint
  split <;> simp [h]

/-- A string is written under its number. -/
theorem number_optBytes {number : Nat} {b : List UInt8} (h : number ≠ 0) :
    ∀ f ∈ optBytes number b, f.number ≠ 0 := by
  unfold optBytes
  split <;> simp [h]

/-- A submessage is written under its number. -/
theorem number_optMessage {number : Nat} {message : Option (List Field)} (h : number ≠ 0) :
    ∀ f ∈ optMessage number message, f.number ≠ 0 := by
  cases message <;> simp [optMessage, h]

/-! ## Zero bytes -/

/-- A zero byte in a field: the varint 0, the length 0, or a zero byte of the string. -/
theorem zero_mem_field {f : Field} (h : f.number ≠ 0) :
    (0 : UInt8) ∈ f.encode ↔ f.value = .varint 0 ∨ f.value = .bytes [] ∨
      ∃ b, f.value = .bytes b ∧ 0 ∈ b := by
  obtain ⟨number, value⟩ := f
  have hnumber : number ≠ 0 := h
  cases value with
  | varint n =>
      simp only [Field.encode, List.mem_append, zero_mem_varint, Value.varint.injEq, reduceCtorEq,
        false_and, exists_false, or_false]
      omega
  | bytes b =>
      simp only [Field.encode, List.mem_append, zero_mem_varint, List.length_eq_zero_iff,
        reduceCtorEq, Value.bytes.injEq, false_or, exists_eq_left']

/-- **Where a zero byte stands**: for a varint that is 0, for the length of an empty field, or in the
bytes of a field. -/
theorem zero_mem_encode {fs : List Field} (h : ∀ f ∈ fs, f.number ≠ 0) :
    (0 : UInt8) ∈ encode fs ↔ ∃ f ∈ fs, f.value = .varint 0 ∨ f.value = .bytes [] ∨
      ∃ b, f.value = .bytes b ∧ 0 ∈ b := by
  simp only [encode, List.mem_flatMap]
  exact exists_congr fun f => and_congr_right fun hf => zero_mem_field (h f hf)

/-- A scalar is written without zero bytes. -/
theorem zero_not_mem_optVarint {number n : Nat} (h : number ≠ 0) :
    (0 : UInt8) ∉ encode (optVarint number n) := by
  rw [zero_mem_encode (number_optVarint h)]
  unfold optVarint
  split <;> simp_all

/-- A string that is written brings the zero bytes it has, and no other. -/
theorem zero_mem_optBytes {number : Nat} {b : List UInt8} (h : number ≠ 0) :
    (0 : UInt8) ∈ encode (optBytes number b) ↔ 0 ∈ b := by
  rw [zero_mem_encode (number_optBytes h)]
  unfold optBytes
  split <;> simp_all

/-- In a submessage a zero byte is in its bytes, or its length where it is empty. -/
theorem zero_mem_optMessage {number : Nat} {message : Option (List Field)} (h : number ≠ 0) :
    (0 : UInt8) ∈ encode (optMessage number message) ↔
      ∃ fs, message = some fs ∧ (fs = [] ∨ (0 : UInt8) ∈ encode fs) := by
  rw [zero_mem_encode (number_optMessage h)]
  cases message <;> simp [optMessage, encode_eq_nil]

/-- Nothing after a zero byte is left. -/
theorem takeWhile_append_of_mem {bytes : List UInt8} (h : (0 : UInt8) ∈ bytes)
    (more : List UInt8) : (bytes ++ more).takeWhile (· ≠ 0) = bytes.takeWhile (· ≠ 0) := by
  rw [List.takeWhile_append, if_neg]
  intro hlength
  have hsame := (List.takeWhile_prefix _).eq_of_length hlength
  have hall := List.takeWhile_eq_self_iff.mp hsame 0 h
  simp at hall

/-- Bytes without a zero byte are left whole. -/
theorem takeWhile_append_of_not_mem {bytes : List UInt8} (h : (0 : UInt8) ∉ bytes)
    (more : List UInt8) : (bytes ++ more).takeWhile (· ≠ 0) = bytes ++ more.takeWhile (· ≠ 0) := by
  refine List.takeWhile_append_of_pos fun b hb => decide_eq_true ?_
  rintro rfl
  exact h hb

/-- Without a zero byte nothing is cut off. -/
theorem takeWhile_of_not_mem {bytes : List UInt8} (h : (0 : UInt8) ∉ bytes) :
    bytes.takeWhile (· ≠ 0) = bytes := by
  have hwhole := takeWhile_append_of_not_mem h []
  rwa [List.append_nil, List.takeWhile_nil, List.append_nil] at hwhole

/-- A field starts with a byte that is not zero. -/
theorem Field.takeWhile_ne_nil {f : Field} (h : f.number ≠ 0) :
    f.encode.takeWhile (· ≠ 0) ≠ [] := by
  have htag : ∀ {tag : Nat} (rest : List UInt8), tag ≠ 0 →
      (varint tag ++ rest).takeWhile (· ≠ 0) ≠ [] := by
    intro tag rest h0
    rw [takeWhile_append_of_not_mem (mt zero_mem_varint.mp h0)]
    simp [varint_ne_nil]
  unfold Field.encode
  split
  · exact htag _ (by omega)
  · exact htag _ (by omega)

/-- The bytes before the first zero byte end within a field. -/
theorem endsWithin_takeWhile {fs : List Field} (h : ∀ f ∈ fs, f.number ≠ 0)
    (hzero : (0 : UInt8) ∈ encode fs) : EndsWithin ((encode fs).takeWhile (· ≠ 0)) := by
  induction fs with
  | nil => cases hzero
  | cons f fs ih =>
      have hnumber := h f List.mem_cons_self
      rw [encode_cons] at hzero ⊢
      by_cases hf : (0 : UInt8) ∈ f.encode
      · rw [takeWhile_append_of_mem hf]
        refine ⟨[], f, _, _, nofun, hnumber, List.takeWhile_append_dropWhile,
          Field.takeWhile_ne_nil hnumber, ?_, rfl⟩
        rw [Ne, List.dropWhile_eq_nil_iff]
        intro hall
        simpa using hall 0 hf
      · have hrest := (List.mem_append.mp hzero).resolve_left hf
        rw [takeWhile_append_of_not_mem hf]
        exact (ih (fun f' hf' => h f' (List.mem_cons_of_mem f hf')) hrest).cons hnumber

/-! ## Lengths -/

/-- Seven bits a byte. -/
theorem varint_length_le {k n : Nat} (h : n < 128 ^ (k + 1)) : (varint n).length ≤ k + 1 := by
  induction k generalizing n with
  | zero => rw [varint_of_lt (by omega), List.length_singleton]
  | succ k ih =>
      rcases Nat.lt_or_ge n 128 with hlt | hle
      · rw [varint_of_lt hlt, List.length_singleton]
        omega
      · rw [varint_of_le hle, List.length_cons]
        have hrest : n / 128 < 128 ^ (k + 1) := Nat.div_lt_of_lt_mul (by
          rw [← Nat.pow_succ']
          exact h)
        have := ih hrest
        omega

/-- A scalar of 64 bits takes eleven bytes at most. -/
theorem encode_optVarint_length_le {number n : Nat} (hnumber : number < 16) (h : n < 2 ^ 64) :
    (encode (optVarint number n)).length ≤ 11 := by
  unfold optVarint
  split
  · exact Nat.zero_le _
  · have htag : (varint (8 * number)).length = 1 := by
      rw [varint_of_lt (by omega), List.length_singleton]
    have hvalue : (varint n).length ≤ 10 := varint_length_le (Nat.lt_of_lt_of_le h (by decide))
    rw [encode_cons, encode_nil, List.append_nil, Field.encode, List.length_append, htag]
    omega

end CacheSystem.Lib.Wire
