import Nais.Protobuf.Unpack

/-!
# Packing

`protobuf_c_message_get_packed_size` and `protobuf_c_message_pack`. A function that packs
something to `out` is a `Writer`: it changes a buffer from the offset `out` on and returns the
number of bytes.
-/

namespace Nais.Protobuf
open Board Lib.Memory

section Sizes

def getTagSize (number : UInt32) : Nat :=
  if number.toNat < 1 <<< 4 then 1
  else if number.toNat < 1 <<< 11 then 2
  else if number.toNat < 1 <<< 18 then 3
  else if number.toNat < 1 <<< 25 then 4
  else 5

def uint32Size (v : UInt32) : Nat :=
  if v.toNat < 1 <<< 7 then 1
  else if v.toNat < 1 <<< 14 then 2
  else if v.toNat < 1 <<< 21 then 3
  else if v.toNat < 1 <<< 28 then 4
  else 5

/-- A number that is not negative is compared as an unsigned one. -/
def int32Size (v : Int32) : Nat := if v < 0 then 10 else uint32Size v.toUInt32

def zigzag32 (v : Int32) : UInt32 :=
  if v < 0 then -v.toUInt32 * 2 - 1 else v.toUInt32 * 2

def sint32Size (v : Int32) : Nat := uint32Size (zigzag32 v)

/-- The characters of a C string. -/
def cString (str : List UInt8) : List UInt8 := str.takeWhile fun c => c ≠ 0

def strlen (str : List UInt8) : Nat := (cString str).length

/-- The switch on the type. -/
def cellSize : (t : FieldType) → Cell t → Nat
  | .sint32, v => sint32Size v
  | .enum, v | .int32, v => int32Size v
  | .uint32, v => uint32Size v
  | .sfixed32, _ | .fixed32, _ | .float, _ => 4
  | .bool, _ => 1
  | .string, v => uint32Size (UInt32.ofNat (strlen v)) + strlen v

def requiredFieldGetPackedSize (f : FieldDescriptor) (v : Cell f.type) : Nat :=
  getTagSize f.id + cellSize f.type v

def optionalFieldGetPackedSize (f : FieldDescriptor) (member : Bool × Cell f.type) : Nat :=
  if member.1 then requiredFieldGetPackedSize f member.2 else 0

def repeatedFieldGetPackedSize (f : FieldDescriptor) (array : List (Cell f.type)) : Nat :=
  if array.length = 0 then 0
  else
    let headerSize := if f.packed then getTagSize f.id else getTagSize f.id * array.length
    let rv := (array.map (cellSize f.type)).sum
    let headerSize := if f.packed then headerSize + uint32Size (UInt32.ofNat rv) else headerSize
    headerSize + rv

def unknownFieldGetPackedSize (u : UnknownField) : Nat := getTagSize u.tag + u.data.length

def memberSize (f : FieldDescriptor) : (l : Label) → Member l f.type → Nat
  | .required, v => requiredFieldGetPackedSize f v
  | .optional, v => optionalFieldGetPackedSize f v
  | .repeated, v => repeatedFieldGetPackedSize f v

def protobufCMessageGetPackedSize {desc : MessageDescriptor} (msg : Message desc) : Nat :=
  ((List.finRange desc.fields.length).map fun f =>
    memberSize (desc.field f) (desc.field f).label (msg.members f)).sum +
    (msg.unknownFields.map unknownFieldGetPackedSize).sum

end Sizes

section Writers

variable {n : Nat}

abbrev Writer (n : Nat) : Type := Buffer n → Nat → Except Stop (Nat × Buffer n)

def put (b : Buffer n) (i : Nat) (xs : List UInt8) : Except Stop (Buffer n) := fetch (store b i xs)

/-- Two writers, one behind the other. -/
def Writer.andThen (w w' : Writer n) : Writer n := fun b out => do
  let (k, b) ← w b out
  let (k', b) ← w' b (out + k)
  .ok (k + k', b)

def Writer.nothing : Writer n := fun b _ => .ok (0, b)

/-- `depth` nested conditionals, each of which writes a digit with the top bit. -/
def uint32PackDigits (out : Nat) : Nat → Nat → UInt32 → Buffer n →
    Except Stop (Nat × UInt32 × Buffer n)
  | 0, rv, value, b => .ok (rv, value, b)
  | depth + 1, rv, value, b =>
    if 0x80 ≤ value then do
      let b ← put b (out + rv) [value.toUInt8 ||| 0x80]
      uint32PackDigits out depth (rv + 1) (value >>> 7) b
    else .ok (rv, value, b)

def uint32Pack (value : UInt32) : Writer n := fun b out => do
  let (rv, value, b) ← uint32PackDigits out 4 0 value b
  let b ← put b (out + rv) [value.toUInt8]
  .ok (rv + 1, b)

def int32Pack (value : Int32) : Writer n := fun b out => do
  if value < 0 then
    let b ← put b out [value.toUInt32.toUInt8 ||| 0x80]
    let b ← put b (out + 1) [(value >>> 7).toUInt32.toUInt8 ||| 0x80]
    let b ← put b (out + 2) [(value >>> 14).toUInt32.toUInt8 ||| 0x80]
    let b ← put b (out + 3) [(value >>> 21).toUInt32.toUInt8 ||| 0x80]
    let b ← put b (out + 4) [(value >>> 28).toUInt32.toUInt8 ||| 0x80]
    let b ← put b (out + 5) [0xff, 0xff, 0xff, 0xff]
    let b ← put b (out + 9) [0x01]
    .ok (10, b)
  else uint32Pack value.toUInt32 b out

def sint32Pack (value : Int32) : Writer n := uint32Pack (zigzag32 value)

/-- The loop of `uint64_pack` over the upper half. -/
def uint64PackLoop (out : Nat) (rv : Nat) (hi : UInt32) (b : Buffer n) :
    Except Stop (Nat × Buffer n) := do
  if _h : 128 ≤ hi then
    let b ← put b (out + rv) [hi.toUInt8 ||| 0x80]
    uint64PackLoop out (rv + 1) (hi >>> 7) b
  else
    let b ← put b (out + rv) [hi.toUInt8]
    .ok (rv + 1, b)
termination_by hi.toNat
decreasing_by
  rw [UInt32.le_iff_toNat_le] at _h
  rw [UInt32.toNat_shiftRight, Nat.shiftRight_eq_div_pow]
  simp only [UInt32.toNat_ofNat, Nat.reduceMod, Nat.reducePow] at _h ⊢
  omega

def uint64Pack (value : UInt64) : Writer n := fun b out => do
  let hi := (value >>> 32).toUInt32
  let lo := value.toUInt32
  if hi = 0 then uint32Pack lo b out
  else
    let b ← put b out [lo.toUInt8 ||| 0x80]
    let b ← put b (out + 1) [(lo >>> 7).toUInt8 ||| 0x80]
    let b ← put b (out + 2) [(lo >>> 14).toUInt8 ||| 0x80]
    let b ← put b (out + 3) [(lo >>> 21).toUInt8 ||| 0x80]
    if hi < 8 then
      let b ← put b (out + 4) [(hi <<< 4 ||| lo >>> 28).toUInt8]
      .ok (5, b)
    else
      let b ← put b (out + 4) [((hi &&& 7) <<< 4 ||| lo >>> 28 ||| 0x80).toUInt8]
      uint64PackLoop out 5 (hi >>> 3) b

/-- The bytes of a word in memory. -/
def wordBytes (w : UInt32) : List UInt8 :=
  [w.toUInt8, (w >>> 8).toUInt8, (w >>> 16).toUInt8, (w >>> 24).toUInt8]

def fixed32Pack (value : UInt32) : Writer n := fun b out => do
  let b ← put b out (wordBytes value)
  .ok (4, b)

def booleanPack (value : Bool) : Writer n := fun b out => do
  let b ← put b out [if value then 1 else 0]
  .ok (1, b)

def stringPack (str : List UInt8) : Writer n := fun b out => do
  let (rv, b) ← uint32Pack (UInt32.ofNat (strlen str)) b out
  let b ← put b (out + rv) (cString str)
  .ok (rv + strlen str, b)

def tagPack (id : UInt32) : Writer n :=
  if id.toNat < 1 <<< 29 then uint32Pack (id <<< 3) else uint64Pack (id.toUInt64 <<< 3)

/-- `out[0] |= wireType`. -/
def orWireType (wireType : UInt8) (b : Buffer n) (out : Nat) : Except Stop (Buffer n) := do
  let c ← fetch (load b.bytes out)
  put b out [c ||| wireType]

/-- The switch on the type: the wire type, and the element. -/
def cellPack : (t : FieldType) → Cell t → UInt8 × Writer n
  | .sint32, v => (0, sint32Pack v)
  | .enum, v | .int32, v => (0, int32Pack v)
  | .uint32, v => (0, uint32Pack v)
  | .sfixed32, v | .fixed32, v | .float, v => (5, fixed32Pack v)
  | .bool, v => (0, booleanPack v)
  | .string, v => (2, stringPack v)

def requiredFieldPack (f : FieldDescriptor) (v : Cell f.type) : Writer n := fun b out => do
  let (rv, b) ← tagPack f.id b out
  let (wireType, pack) := cellPack f.type v
  let b ← orWireType wireType b out
  let (k, b) ← pack b (out + rv)
  .ok (rv + k, b)

def optionalFieldPack (f : FieldDescriptor) (member : Bool × Cell f.type) : Writer n :=
  if member.1 then requiredFieldPack f member.2 else Writer.nothing

def getTypeMinSize : FieldType → Nat
  | .sfixed32 | .fixed32 | .float => 4
  | _ => 1

/-- The loop over the elements of an array. -/
def packEach {α : Type} (pack : α → Writer n) : List α → Writer n
  | [] => Writer.nothing
  | v :: array => (pack v).andThen (packEach pack array)

/-- The switch on the type of a packed field. -/
def packPayload : (t : FieldType) → List (Cell t) → Writer n
  | .sfixed32, array | .fixed32, array | .float, array => fun b out => do
    let b ← put b out (array.flatMap wordBytes)
    .ok (4 * array.length, b)
  | .enum, array | .int32, array => packEach int32Pack array
  | .sint32, array => packEach sint32Pack array
  | .uint32, array => packEach uint32Pack array
  | .bool, array => packEach booleanPack array
  | .string, _ => fun _ _ => .error .assertion

/-- The length and the payload of a packed field, from `len_start` on. The payload is written behind
a gap for its length, and moved by one byte if the length turns out to need one more. -/
def packedBodyPack (f : FieldDescriptor) (array : List (Cell f.type)) (out lenStart : Nat)
    (b : Buffer n) : Except Stop (Nat × Buffer n) := do
  let lengthSizeMin := uint32Size (UInt32.ofNat (getTypeMinSize f.type * array.length))
  let headerLen := lenStart + lengthSizeMin
  let (payloadLen, b) ← packPayload f.type array b (out + headerLen)
  let actualLengthSize := uint32Size (UInt32.ofNat payloadLen)
  if lengthSizeMin ≠ actualLengthSize then
    if actualLengthSize ≠ lengthSizeMin + 1 then throw .assertion
    else
      let payload ← fetch (loadRange b.bytes (out + headerLen) payloadLen)
      let b ← put b (out + headerLen + 1) payload
      let (_, b) ← uint32Pack (UInt32.ofNat payloadLen) b (out + lenStart)
      .ok (headerLen + 1 + payloadLen, b)
  else
    let (_, b) ← uint32Pack (UInt32.ofNat payloadLen) b (out + lenStart)
    .ok (headerLen + payloadLen, b)

def repeatedFieldPack (f : FieldDescriptor) (array : List (Cell f.type)) : Writer n :=
  if f.packed then fun b out => do
    if array.length = 0 then .ok (0, b)
    else
      let (lenStart, b) ← tagPack f.id b out
      let b ← orWireType 2 b out
      packedBodyPack f array out lenStart b
  else packEach (requiredFieldPack f) array

def unknownFieldPack (u : UnknownField) : Writer n := fun b out => do
  let (rv, b) ← tagPack u.tag b out
  let b ← orWireType u.wireType b out
  let b ← put b (out + rv) u.data
  .ok (rv + u.data.length, b)

/-- The switch on the label. -/
def memberPack (f : FieldDescriptor) : (l : Label) → Member l f.type → Writer n
  | .required, v => requiredFieldPack f v
  | .optional, v => optionalFieldPack f v
  | .repeated, v => repeatedFieldPack f v

def protobufCMessagePack {desc : MessageDescriptor} (msg : Message desc) : Writer n :=
  (packEach (fun f => memberPack (desc.field f) (desc.field f).label (msg.members f))
    (List.finRange desc.fields.length)).andThen (packEach unknownFieldPack msg.unknownFields)

end Writers

end Nais.Protobuf
