import Nais.Lib.Route
import Nais.Lib.Wire
import Nais.Protobuf.Unpack

/-!
# What packed bytes mean

The meaning of packed bytes, without pointers, counters and arrays. They are a stream of records.
The records with the number of a field decide its value, and they alone: the last one for a
required or optional field, all of them in order for a repeated one. Records of other numbers are
kept as they are.
-/

namespace Nais.Protobuf
open Board Lib Lib.Base128 Lib.Wire

/-- The little-endian words of a list of bytes. -/
def words : List UInt8 → List UInt32
  | b₀ :: b₁ :: b₂ :: b₃ :: rest => littleEndian b₀ b₁ b₂ b₃ :: words rest
  | _ => []

/-- The element that a record writes down. Any record is a boolean. -/
def cellOf (r : Record) : (t : FieldType) → Option (Cell t)
  | .int32 | .enum => if r.wire = 0 then some (UInt32.ofNat (number r.raw)).toInt32 else none
  | .uint32 => if r.wire = 0 then some (UInt32.ofNat (number r.raw)) else none
  | .sint32 => if r.wire = 0 then some (unzigzag32 (UInt32.ofNat (number r.raw))) else none
  | .sfixed32 | .fixed32 | .float => if r.wire = 5 then (words r.raw).head? else none
  | .bool => some (r.raw.any fun b => b &&& 0x7f ≠ 0)
  | .string => if r.wire = 2 then some r.payload else none

/-- The values of numerals of at most ten bytes, one behind the other. -/
def numerals (bs : List UInt8) : Option (List Nat) :=
  if bs = [] then some []
  else
    match _h : front 10 bs with
    | none => none
    | some k => (numerals (bs.drop k)).map (number (bs.take k) :: ·)
termination_by bs.length
decreasing_by
  have := front_pos _h
  rw [List.length_drop]
  omega

/-- The elements in a packed payload. -/
def packedCells (bs : List UInt8) : (t : FieldType) → Option (List (Cell t))
  | .int32 | .enum => (numerals bs).map fun ns => ns.map fun n => (UInt32.ofNat n).toInt32
  | .uint32 => (numerals bs).map fun ns => ns.map UInt32.ofNat
  | .sint32 => (numerals bs).map fun ns => ns.map fun n => unzigzag32 (UInt32.ofNat n)
  | .sfixed32 | .fixed32 | .float => if bs.length % 4 = 0 then some (words bs) else none
  | .bool => if bs.all fun b => b ≤ 1 then some (bs.map fun b => b ≠ 0) else none
  | .string => none

def isPackedRecord (f : FieldDescriptor) (r : Record) : Bool :=
  r.wire = 2 && (f.packed || isPackableType f.type)

/-- What a record adds to a repeated field. -/
def elementsOf (f : FieldDescriptor) (r : Record) : Option (List (Cell f.type)) :=
  if isPackedRecord f r then packedCells r.payload f.type
  else (cellOf r f.type).map fun v => [v]

/-- The value of a field whose records are `rs`. -/
def valueOf (f : FieldDescriptor) (rs : List Record) : (l : Label) → Option (Member l f.type)
  | .required => (rs.mapM fun r => cellOf r f.type).bind fun vs => vs.getLast?.or f.defaultValue
  | .optional => (rs.mapM fun r => cellOf r f.type).map fun vs =>
    (!vs.isEmpty, vs.getLast?.getD f.default)
  | .repeated => (rs.mapM fun r => elementsOf f r).map List.flatten

variable (desc : MessageDescriptor)

def fieldKey (r : Record) : Option desc.Index := desc.fieldOf (UInt32.ofNat r.tag)

def unknownRecords (rs : List Record) : List UnknownField :=
  (rs.filter fun r => fieldKey desc r = none).map fun r =>
    ⟨UInt32.ofNat r.tag, UInt8.ofNat r.wire, r.raw⟩

/-- The message that a stream of records means. -/
structure Means (rs : List Record) (msg : Message desc) : Prop where
  member : ∀ f, valueOf (desc.field f) (Route.itemsOf (fieldKey desc) f rs) (desc.field f).label =
    some (msg.members f)
  unknown : msg.unknownFields = unknownRecords desc rs

/-- The message that packed bytes mean. -/
def Decodes (data : List UInt8) (msg : Message desc) : Prop :=
  ∃ rs, cut data = .ok rs ∧ Means desc rs msg

end Nais.Protobuf
