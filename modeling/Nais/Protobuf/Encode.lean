import Nais.Protobuf.Meaning
import Nais.Protobuf.Pack
import Nais.Protobuf.Tables

/-!
# What packing writes down

The bytes of a message, without buffers and offsets, and their number. Each value of a field is a
record, or all values of a packed field are one.
-/

namespace Nais.Protobuf
open Board Lib Lib.Base128

/-- A negative number is written as a word of 64 bits. -/
def int32Numeral (v : Int32) : List UInt8 := encode (v.toInt % 2 ^ 64).toNat

def cellBytes : (t : FieldType) → Cell t → List UInt8
  | .sint32, v => encode (zigzag32 v).toNat
  | .enum, v | .int32, v => int32Numeral v
  | .uint32, v => encode v.toNat
  | .sfixed32, v | .fixed32, v | .float, v => wordBytes v
  | .bool, v => [if v then 1 else 0]
  | .string, v => encode (strlen v) ++ cString v

def wireOf : FieldType → Nat
  | .sfixed32 | .fixed32 | .float => 5
  | .string => 2
  | _ => 0

def recordBytes (tag : UInt32) (wire : Nat) (body : List UInt8) : List UInt8 :=
  encode (8 * tag.toNat + wire) ++ body

def fieldBytes (f : FieldDescriptor) (v : Cell f.type) : List UInt8 :=
  recordBytes f.id (wireOf f.type) (cellBytes f.type v)

def packedPayload (t : FieldType) (array : List (Cell t)) : List UInt8 := array.flatMap (cellBytes t)

def packedBytes (f : FieldDescriptor) (array : List (Cell f.type)) : List UInt8 :=
  recordBytes f.id 2 (encode (packedPayload f.type array).length ++ packedPayload f.type array)

def memberBytes (f : FieldDescriptor) : (l : Label) → Member l f.type → List UInt8
  | .required, v => fieldBytes f v
  | .optional, v => if v.1 then fieldBytes f v.2 else []
  | .repeated, array =>
    if f.packed then if array = [] then [] else packedBytes f array
    else array.flatMap (fieldBytes f)

def unknownBytes (u : UnknownField) : List UInt8 := recordBytes u.tag u.wireType.toNat u.data

variable {desc : MessageDescriptor}

def messageBytes (msg : Message desc) : List UInt8 :=
  (List.finRange desc.fields.length).flatMap (fun f =>
    memberBytes (desc.field f) (desc.field f).label (msg.members f)) ++
    msg.unknownFields.flatMap unknownBytes

section Sizes

/-- A ladder of comparisons with the powers of 128 finds the number of digits. -/
lemma encode_length_ladder {n : Nat} (hn : n < 2 ^ 35) : (encode n).length =
    if n < 2 ^ 7 then 1 else if n < 2 ^ 14 then 2 else if n < 2 ^ 21 then 3
    else if n < 2 ^ 28 then 4 else 5 := by
  have h0 := encode_length_le_iff 0 n
  have h1 := encode_length_le_iff 1 n
  have h2 := encode_length_le_iff 2 n
  have h3 := encode_length_le_iff 3 n
  have h4 := encode_length_le_iff 4 n
  have hpos := List.length_pos_iff.mpr (encode_ne_nil n)
  norm_num at h0 h1 h2 h3 h4 hn ⊢
  split_ifs <;> omega

lemma uint32Size_eq (v : UInt32) : uint32Size v = (encode v.toNat).length := by
  have hv := v.toNat_lt
  rw [encode_length_ladder (by omega)]
  rfl

lemma uint32Size_ofNat {k : Nat} (hk : k < 2 ^ 32) :
    uint32Size (UInt32.ofNat k) = (encode k).length := by
  rw [uint32Size_eq, UInt32.toNat_ofNat', Nat.mod_eq_of_lt hk]

/-- The wire type never makes a key longer. -/
lemma getTagSize_eq (tag : UInt32) {wire : Nat} (hwire : wire < 8) :
    getTagSize tag = (encode (8 * tag.toNat + wire)).length := by
  have htag := tag.toNat_lt
  rw [encode_length_ladder (by omega), getTagSize]
  norm_num
  split_ifs <;> omega

lemma int32Numeral_of_nonneg {v : Int32} (h : ¬v < 0) : int32Numeral v = encode v.toUInt32.toNat := by
  rw [Int32.lt_iff_toInt_lt, toInt_eq_toUInt32] at h
  rw [int32Numeral, toInt_eq_toUInt32]
  have hzero : (0 : Int32).toInt = 0 := rfl
  have hv := v.toUInt32.toNat_lt
  congr 1
  split_ifs at h ⊢ <;> omega

lemma int32Size_eq (v : Int32) : int32Size v = (int32Numeral v).length := by
  unfold int32Size
  split
  · next h =>
    have hle := v.le_toInt
    have hzero : (0 : Int32).toInt = 0 := rfl
    rw [Int32.lt_iff_toInt_lt] at h
    have hlow : ¬(v.toInt % 2 ^ 64).toNat < 128 ^ (8 + 1) := by omega
    have hhigh : (v.toInt % 2 ^ 64).toNat < 128 ^ (9 + 1) := by omega
    rw [← encode_length_le_iff] at hlow hhigh
    rw [int32Numeral]
    omega
  · next h => rw [int32Numeral_of_nonneg h, uint32Size_eq]

lemma cellSize_eq {t : FieldType} {v : Cell t} (hsmall : (cellBytes t v).length < 2 ^ 32) :
    cellSize t v = (cellBytes t v).length := by
  cases t with
  | sint32 => exact uint32Size_eq _
  | enum | int32 => exact int32Size_eq v
  | uint32 => exact uint32Size_eq v
  | sfixed32 | fixed32 | float => rfl
  | bool => rfl
  | string =>
    simp only [cellBytes, List.length_append] at hsmall
    simp only [cellSize, cellBytes, List.length_append]
    rw [uint32Size_ofNat (by unfold strlen at *; omega)]
    rfl

end Sizes

end Nais.Protobuf
