import Mathlib.Data.BitVec
import Mathlib.Data.List.GetD
import Nais.Board.Nais

/-!
# What the unmarshaller reads

`nais_unmarshall` succeeds on the memory behind a pointer exactly when its LEN field ends
there, the payload that LEN declares and the one byte that is traced behind it lie there,
and the type byte is not 0. The same fields are seen through every longer memory.
-/

namespace Nais.Board
open Nais.Lib

/-- The struct that a message type is unpacked as. -/
def kindOf (type : UInt8) : MsgKind :=
  match type.toNat with
  | 1 => .profile
  | 2 => .config
  | 3 => .ack
  | 4 => .secret
  | 6 => .event
  | _ => .command

lemma descriptor_descriptorIndex (type : UInt8) :
    descriptor (descriptorIndex type) = if type = 0 then .error .tableIndex else .ok (kindOf type) := by
  have h : ∀ i : Fin 256, descriptor (descriptorIndex (UInt8.ofNat i)) =
      if UInt8.ofNat i = 0 then .error .tableIndex else .ok (kindOf (UInt8.ofNat i)) := by
    decide +kernel
  simpa using h ⟨type.toNat, type.toNat_lt⟩

section Fields

variable (data : List UInt8)

def LenComplete : Prop := Base128.continuations (data.drop 4) < (data.drop 4).length

def lenField : List UInt8 := (data.drop 4).take (Base128.continuations (data.drop 4) + 1)

def payloadStart : Nat := 5 + Base128.continuations (data.drop 4)

/-- The 32 bit value of LEN, as the size argument of the unpacker. -/
def declaredLen : Nat := Base128.number (lenField data) % 2 ^ 32

def declaredPayload : List UInt8 := (data.drop (payloadStart data)).take (declaredLen data)

def typeByte : UInt8 := data.getD 0 0

def unmarshalled (pb : Protobufc) : Unmarshalled :=
  ⟨⟨typeByte data, data.getD 1 0, data.getD 3 0⟩, payloadStart data, declaredLen data,
    pb.unpack (kindOf (typeByte data)) (declaredPayload data)⟩

instance : Decidable (LenComplete data) := inferInstanceAs (Decidable (_ < _))

end Fields

lemma readLen_eq (bs : List UInt8) (cptr : Nat) (len multiplier : BitVec 32) :
    readLen bs cptr len multiplier = if Base128.continuations bs < bs.length then
      .ok (len + BitVec.ofNat 32 (Base128.number (bs.take (Base128.continuations bs + 1))) * multiplier,
        cptr + Base128.continuations bs + 1)
      else .error .outOfBounds := by
  induction bs generalizing cptr len multiplier with
  | nil => rfl
  | cons c rest ih =>
    rw [readLen]
    by_cases hc : 128 ≤ c.toNat
    · rw [if_pos ((Base128.and_128_ne_zero_iff c).mpr hc), ih]
      simp only [Base128.continuations, hc, ite_true, List.length_cons, Nat.add_lt_add_iff_right,
        List.take_succ_cons, Base128.number, Base128.and_127]
      split_ifs
      · congr 2
        · have h128 : BitVec.ofNat 32 128 = 128 := rfl
          rw [BitVec.ofNat_add, BitVec.ofNat_mul, h128]
          ring
        · omega
      · rfl
    · rw [if_neg (fun h => hc ((Base128.and_128_ne_zero_iff c).mp h))]
      simp [Base128.continuations, hc, Base128.number, Base128.and_127]

lemma trace_eq (bs : List UInt8) (i bound : Int) :
    trace bs i bound = if bound ≤ i + bs.length then .ok () else .error .outOfBounds := by
  induction bs generalizing i with
  | nil =>
    rw [trace]
    split_ifs with h₁ h₂ h₂
    · simp only [List.length_nil] at h₂
      omega
    · rfl
    · rfl
    · simp only [List.length_nil] at h₂
      omega
  | cons b rest ih =>
    rw [trace, ih, List.length_cons]
    split_ifs <;> first | rfl | omega

lemma toInt_ofNat_small {n : Nat} (hn : n < 2 ^ 31) : (BitVec.ofNat 32 n).toInt = n := by
  rw [BitVec.toInt_ofNat', Int.bmod_eq_of_le] <;> omega

lemma ofNat_number_lenField (data : List UInt8) :
    BitVec.ofNat 32 (Base128.number (lenField data)) = BitVec.ofNat 32 (declaredLen data) := by
  apply BitVec.eq_of_toNat_eq
  simp [declaredLen]

lemma load_eq {data : List UInt8} {i : Nat} (hi : i < data.length) :
    load data i = .ok (data.getD i 0) := by
  rw [load, List.getElem?_eq_getElem hi, List.getD_eq_getElem _ _ hi]

lemma lenComplete_payloadStart_le {data : List UInt8} (h : LenComplete data) :
    payloadStart data ≤ data.length := by
  unfold LenComplete at h
  rw [List.length_drop] at h
  unfold payloadStart
  omega

/-- The header and LEN are read when LEN ends in memory. -/
lemma naisUnmarshall_of_lenComplete (pb : Protobufc) {data : List UInt8} (h : LenComplete data) :
    naisUnmarshall pb data =
      if (BitVec.ofNat 32 (Base128.number (lenField data))).toInt + 1 ≤
          (data.length - payloadStart data : Nat) then
        if typeByte data = 0 then .error .tableIndex
        else if payloadStart data + declaredLen data ≤ data.length then .ok (unmarshalled data pb)
        else .error .outOfBounds
      else .error .outOfBounds := by
  have hstart := lenComplete_payloadStart_le h
  have hlen : 5 ≤ data.length := by
    unfold payloadStart at hstart
    omega
  have hread : readLen (data.drop 4) 4 0 1 =
      .ok (BitVec.ofNat 32 (Base128.number (lenField data)), payloadStart data) := by
    rw [readLen_eq]
    rw [LenComplete] at h
    rw [if_pos h, zero_add, mul_one, payloadStart, lenField]
    congr 2
    omega
  have hnat : (BitVec.ofNat 32 (Base128.number (lenField data))).toNat = declaredLen data :=
    BitVec.toNat_ofNat ..
  rw [naisUnmarshall, load_eq (by omega : 0 < data.length), load_eq (by omega : 1 < data.length),
    load_eq (by omega : 2 < data.length), load_eq (by omega : 3 < data.length), hread]
  simp only [Bind.bind, Except.bind, trace_eq, zero_add, List.length_drop, hnat,
    descriptor_descriptorIndex, loadRange]
  change _ = if _ then if data.getD 0 0 = 0 then _ else _ else _
  split_ifs <;> rfl

/-- Otherwise a load beyond the memory is reached. -/
lemma naisUnmarshall_of_not_lenComplete (pb : Protobufc) {data : List UInt8} (h : ¬LenComplete data) :
    naisUnmarshall pb data = .error .outOfBounds := by
  have hread : readLen (data.drop 4) 4 0 1 = .error .outOfBounds := by
    rw [LenComplete] at h
    rw [readLen_eq, if_neg h]
  rw [naisUnmarshall, hread]
  unfold load
  cases data[0]? <;> cases data[1]? <;> cases data[2]? <;> cases data[3]? <;> rfl

theorem naisUnmarshall_ok_iff (pb : Protobufc) {data : List UInt8} (hsize : data.length < 2 ^ 16)
    (r : Unmarshalled) :
    naisUnmarshall pb data = .ok r ↔
      LenComplete data ∧ payloadStart data + declaredLen data + 1 ≤ data.length ∧
        typeByte data ≠ 0 ∧ r = unmarshalled data pb := by
  by_cases h : LenComplete data
  · rw [naisUnmarshall_of_lenComplete pb h]
    have hstart := lenComplete_payloadStart_le h
    -- the traced byte lies behind the payload unless LEN is so large that the payload leaves memory
    have htrace : (BitVec.ofNat 32 (Base128.number (lenField data))).toInt + 1 ≤
        (data.length - payloadStart data : Nat) ∧ payloadStart data + declaredLen data ≤ data.length ↔
        payloadStart data + declaredLen data + 1 ≤ data.length := by
      rw [ofNat_number_lenField]
      constructor
      · rintro ⟨ht, hr⟩
        rw [toInt_ofNat_small (by omega)] at ht
        omega
      · intro ht
        rw [toInt_ofNat_small (by omega)]
        omega
    rw [← htrace]
    split_ifs with ht hz hr
    · simp [hz]
    · simp only [Except.ok.injEq, h, ht, hr, hz, true_and, ne_eq, not_false_eq_true]
      exact eq_comm
    · simp [hr]
    · simp only [ht]
      simp
  · rw [naisUnmarshall_of_not_lenComplete pb h]
    simp [h]

section Prefix

variable {data rest : List UInt8}

end Prefix

section Frame

variable (type sline dline flags : UInt8) (payload behind : List UInt8)

/-- A frame from its TYPE byte on, and what lies behind its payload in memory. -/
def frameMemory : List UInt8 :=
  [type, sline, dline, flags] ++ (Base128.encode payload.length ++ (payload ++ behind))

lemma drop_four_frameMemory : (frameMemory type sline dline flags payload behind).drop 4 =
    Base128.encode payload.length ++ (payload ++ behind) := rfl

lemma continuations_frameMemory :
    Base128.continuations ((frameMemory type sline dline flags payload behind).drop 4) + 1 =
      (Base128.encode payload.length).length := by
  have hnum : _ = _ + 1 := Base128.encode_isNumeral payload.length
  rw [drop_four_frameMemory, Base128.continuations_append, if_neg (by omega)]
  exact hnum.symm

lemma lenComplete_frameMemory : LenComplete (frameMemory type sline dline flags payload behind) := by
  have hcont := continuations_frameMemory type sline dline flags payload behind
  unfold LenComplete
  rw [drop_four_frameMemory] at hcont ⊢
  rw [List.length_append]
  omega

lemma payloadStart_frameMemory : payloadStart (frameMemory type sline dline flags payload behind) =
    4 + (Base128.encode payload.length).length := by
  have hcont := continuations_frameMemory type sline dline flags payload behind
  unfold payloadStart
  omega

lemma declaredLen_frameMemory (hlen : payload.length < 2 ^ 32) :
    declaredLen (frameMemory type sline dline flags payload behind) = payload.length := by
  rw [declaredLen, lenField, continuations_frameMemory, drop_four_frameMemory,
    List.take_left' rfl, Base128.number_encode, Nat.mod_eq_of_lt hlen]

lemma declaredPayload_frameMemory (hlen : payload.length < 2 ^ 32) :
    declaredPayload (frameMemory type sline dline flags payload behind) = payload := by
  rw [declaredPayload, payloadStart_frameMemory, declaredLen_frameMemory _ _ _ _ _ _ hlen,
    ← List.drop_drop, drop_four_frameMemory, List.drop_left' rfl, List.take_left' rfl]

/-- A whole frame is unmarshalled to its fields, and no byte of it is missed. -/
theorem naisUnmarshall_frameMemory (pb : Protobufc) (htype : type ≠ 0) (hbehind : behind ≠ [])
    (hsize : (frameMemory type sline dline flags payload behind).length < 2 ^ 16) :
    naisUnmarshall pb (frameMemory type sline dline flags payload behind) =
      .ok ⟨⟨type, sline, flags⟩, 4 + (Base128.encode payload.length).length, payload.length,
        pb.unpack (kindOf type) payload⟩ := by
  have hpos := List.length_pos_iff.mpr hbehind
  have htotal : (frameMemory type sline dline flags payload behind).length =
      4 + (Base128.encode payload.length).length + payload.length + behind.length := by
    rw [frameMemory, List.length_append, List.length_append, List.length_append]
    change 4 + _ = _
    omega
  have hlen : payload.length < 2 ^ 32 := by omega
  rw [naisUnmarshall_ok_iff pb hsize, payloadStart_frameMemory,
    declaredLen_frameMemory _ _ _ _ _ _ hlen, htotal]
  refine ⟨lenComplete_frameMemory type sline dline flags payload behind, by omega, htype, ?_⟩
  rw [unmarshalled, payloadStart_frameMemory, declaredLen_frameMemory _ _ _ _ _ _ hlen,
    declaredPayload_frameMemory _ _ _ _ _ _ hlen]
  rfl

end Frame

end Nais.Board
