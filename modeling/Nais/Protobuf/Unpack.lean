import Nais.Lib.Refine
import Nais.Protobuf.Descriptor

/-!
# Unpacking

`protobuf_c_message_unpack` on the board, where a word has 32 bits. A pointer is the list of
the bytes from it to the end of the packed message, so a load beyond the `len` bytes that the
function is given is a fault. Two passes go over the bytes: the first cuts them into members and
counts the elements of the repeated fields, the second parses the members into the message.
Whether `malloc` has a block of some size is a parameter.
-/

namespace Nais.Protobuf
open Board Lib

/-- The ways to end without a result: the message is rejected, an assertion fails, or C leaves
undefined what happens. -/
inductive Stop where
  | rejected
  | assertion
  | fault (f : Fault)
  deriving DecidableEq, Repr

def fetch {α : Type} (x : Except Fault α) : Except Stop α := x.mapError .fault

section Primitives

/-- The loop over the bytes of a tag behind the first one. -/
def tagLoop (data : List UInt8) (maxRv rv : Nat) (tag : UInt32) (shift : Nat) :
    Except Fault (Option (Nat × UInt32)) := do
  if rv < maxRv then
    let b ← load data rv
    if b &&& 0x80 ≠ 0 then
      tagLoop data maxRv (rv + 1) (tag ||| (b &&& 0x7f).toUInt32 <<< UInt32.ofNat shift) (shift + 7)
    else .ok (some (rv + 1, tag ||| b.toUInt32 <<< UInt32.ofNat shift))
  else .ok none
termination_by maxRv - rv

/-- The bytes used, the tag and the wire type. `none` is the result 0. -/
def parseTagAndWiretype (len : Nat) (data : List UInt8) :
    Except Fault (Option (Nat × UInt32 × UInt8)) := do
  let maxRv := if 5 < len then 5 else len
  let b ← load data 0
  let tag := (b &&& 0x7f).toUInt32 >>> 3
  if b &&& 0x80 = 0 then .ok (some (1, tag, b &&& 7))
  else
    match ← tagLoop data maxRv 1 tag 4 with
    | none => .ok none
    | some (rv, tag) => .ok (some (rv, tag, b &&& 7))

/-- The loop of `scan_length_prefixed_data`: its last index, and the length. -/
def lengthLoop (data : List UInt8) (hdrMax i : Nat) (val : UInt32) (shift : Nat) :
    Except Fault (Nat × UInt32) := do
  if i < hdrMax then
    let b ← load data i
    let val := val ||| (b &&& 0x7f).toUInt32 <<< UInt32.ofNat shift
    if b &&& 0x80 = 0 then .ok (i, val)
    else lengthLoop data hdrMax (i + 1) val (shift + 7)
  else .ok (i, val)
termination_by hdrMax - i

/-- The result, which is 0 for an error, and `*prefix_len_out`. The sum of the length and the
size of its prefix is a word. -/
def scanLengthPrefixedData (len : Nat) (data : List UInt8) : Except Fault (UInt32 × UInt32) := do
  let hdrMax := if len < 5 then len else 5
  let (i, val) ← lengthLoop data hdrMax 0 0 0
  if i = hdrMax then .ok (0, 0)
  else
    let hdrLen := UInt32.ofNat (i + 1)
    if len < (hdrLen + val).toNat then .ok (0, hdrLen) else .ok (hdrLen + val, hdrLen)

/-- The loop that looks for a byte without the top bit. -/
def continuationEnd (data : List UInt8) (len i : Nat) : Except Fault Nat := do
  if i < len then
    let b ← load data i
    if b &&& 0x80 = 0 then .ok i else continuationEnd data len (i + 1)
  else .ok i
termination_by len - i

def scanVarint (len : Nat) (data : List UInt8) : Except Fault Nat := do
  let len := if 10 < len then 10 else len
  let i ← continuationEnd data len 0
  if i = len then .ok 0 else .ok (i + 1)

def maxB128Numbers : Nat → List UInt8 → Except Fault Nat
  | 0, _ => .ok 0
  | _ + 1, [] => .error .outOfBounds
  | len + 1, b :: data => do
    let rv ← maxB128Numbers len data
    .ok (if b &&& 0x80 = 0 then rv + 1 else rv)

def parseUint32 (len : Nat) (data : List UInt8) : Except Fault UInt32 := do
  let rv := ((← load data 0) &&& 0x7f).toUInt32
  if 1 < len then
    let rv := rv ||| ((← load data 1) &&& 0x7f).toUInt32 <<< 7
    if 2 < len then
      let rv := rv ||| ((← load data 2) &&& 0x7f).toUInt32 <<< 14
      if 3 < len then
        let rv := rv ||| ((← load data 3) &&& 0x7f).toUInt32 <<< 21
        if 4 < len then
          let b ← load data 4
          .ok (rv ||| b.toUInt32 <<< 28)
        else .ok rv
      else .ok rv
    else .ok rv
  else .ok rv

def parseInt32 (len : Nat) (data : List UInt8) : Except Fault Int32 :=
  (parseUint32 len data).map UInt32.toInt32

def unzigzag32 (v : UInt32) : Int32 :=
  if v &&& 1 ≠ 0 then (-(v >>> 1) - 1).toInt32 else (v >>> 1).toInt32

def littleEndian (b₀ b₁ b₂ b₃ : UInt8) : UInt32 :=
  b₀.toUInt32 ||| b₁.toUInt32 <<< 8 ||| b₂.toUInt32 <<< 16 ||| b₃.toUInt32 <<< 24

def parseFixedUint32 (data : List UInt8) : Except Fault UInt32 := do
  .ok (littleEndian (← load data 0) (← load data 1) (← load data 2) (← load data 3))

def parseBoolean (len : Nat) (data : List UInt8) (i : Nat) : Except Fault Bool := do
  if i < len then
    let b ← load data i
    if b &&& 0x7f ≠ 0 then .ok true else parseBoolean len data (i + 1)
  else .ok false
termination_by len - i

/-- The words of `memcpy(array, at, count * 4)`. -/
def copyWords : Nat → List UInt8 → Except Fault (List UInt32)
  | 0, _ => .ok []
  | count + 1, data => do
    let w ← parseFixedUint32 data
    .ok (w :: (← copyWords count (data.drop 4)))

def isPackableType (t : FieldType) : Bool := t ≠ .string

/-- `none` is the result `FALSE`. -/
def countPackedElements (t : FieldType) (len : Nat) (data : List UInt8) :
    Except Fault (Option Nat) :=
  match t with
  | .sfixed32 | .fixed32 | .float => .ok (if len % 4 ≠ 0 then none else some (len / 4))
  | .enum | .int32 | .sint32 | .uint32 => (maxB128Numbers len data).map some
  | .bool => .ok (some len)
  | .string => .ok none

end Primitives

structure ScannedMember (desc : MessageDescriptor) where
  tag : UInt32
  wireType : UInt8
  lengthPrefixLen : UInt32
  field : Option desc.Index
  len : UInt32
  data : List UInt8

structure UnknownField where
  tag : UInt32
  wireType : UInt8
  data : List UInt8
  deriving DecidableEq, Repr

@[ext]
structure Message (desc : MessageDescriptor) where
  members : (f : desc.Index) → Member (desc.field f).label (desc.field f).type
  unknownFields : List UnknownField

/-- What the first pass knows. The slabs hold `members` in order; `counts` are the counters of
the repeated fields in the new message. -/
structure Scan (desc : MessageDescriptor) where
  members : List (ScannedMember desc)
  whichSlab : Nat
  inSlabIndex : Nat
  lastField : desc.Index
  required : desc.Index → Bool
  counts : desc.Index → UInt32
  nUnknown : Nat

def MAX_SCANNED_MEMBER_SLAB : Nat := 32 - 1 - 5 - 4

def sizeofScannedMember : Nat := 20

def sizeofUnknownField : Nat := 16

def sizeofEltInRepeatedArray (t : FieldType) : UInt32 :=
  match t with
  | .sint32 | .int32 | .uint32 | .sfixed32 | .fixed32 | .float | .enum => 4
  | .bool => 4
  | .string => 4

section Passes

variable (alloc : Nat → Bool) (desc : MessageDescriptor)

/-- A block of `size` bytes, or the end. -/
def doAlloc (size : Nat) : Except Stop Unit :=
  if alloc size then .ok () else .error .rejected

/-- A block that is needed in some cases only. -/
def doAllocIf (needed : Bool) (size : Nat) : Except Stop Unit :=
  if needed then doAlloc alloc size else .ok ()

/-- The switch on the wire type: `tmp.len` and `tmp.length_prefix_len`. -/
def scanBody (wireType : UInt8) (data : List UInt8) : Except Stop (UInt32 × UInt32) := do
  let rem := data.length
  if wireType = 0 then
    let maxLen := if rem < 10 then rem else 10
    let i ← fetch (continuationEnd data maxLen 0)
    if i = maxLen then throw .rejected
    else .ok (UInt32.ofNat (i + 1), 0)
  else if wireType = 1 then
    if rem < 8 then throw .rejected else .ok (8, 0)
  else if wireType = 2 then
    let (len, prefLen) ← fetch (scanLengthPrefixedData rem data)
    if len = 0 then throw .rejected else .ok (len, prefLen)
  else if wireType = 5 then
    if rem < 4 then throw .rejected else .ok (4, 0)
  else throw .rejected

/-- Makes room for one more member. -/
def nextSlab (whichSlab inSlabIndex : Nat) : Except Stop (Nat × Nat) :=
  if inSlabIndex = 2 ^ (whichSlab + 4) then
    if whichSlab = MAX_SCANNED_MEMBER_SLAB then .error .rejected
    else do
      doAlloc alloc (sizeofScannedMember * 2 ^ (whichSlab + 1 + 4))
      .ok (whichSlab + 1, 0)
  else .ok (whichSlab, inSlabIndex)

def isPacked (f : FieldDescriptor) (wireType : UInt8) : Bool :=
  wireType = 2 && (f.packed || isPackableType f.type)

variable {desc}

/-- How many elements a member adds to its repeated field. -/
def countElements (f : FieldDescriptor) (tmp : ScannedMember desc) : Except Stop Nat := do
  if isPacked f tmp.wireType then
    match ← fetch (countPackedElements f.type (tmp.len - tmp.lengthPrefixLen).toNat
        (tmp.data.drop tmp.lengthPrefixLen.toNat)) with
    | none => throw .rejected
    | some count => .ok count
  else .ok 1

/-- `last_field`, `n_unknown` and the bitmap of required fields after a tag. -/
def Scan.note (s : Scan desc) : Option desc.Index → Scan desc
  | none => { s with nUnknown := s.nUnknown + 1 }
  | some f => { s with
      lastField := f
      required := if (desc.field f).label = .required then Function.update s.required f true
        else s.required }

/-- The field of a tag: the last one, or a lookup. -/
def Scan.fieldOfTag (s : Scan desc) (tag : UInt32) : Except Fault (Option desc.Index) :=
  if (desc.field s.lastField).id ≠ tag then desc.lookup tag else .ok (some s.lastField)

/-- The counter of a repeated field after a member. -/
def Scan.count (s : Scan desc) (tmp : ScannedMember desc) : Except Stop (Scan desc) :=
  match tmp.field with
  | none => .ok s
  | some f =>
    if (desc.field f).label = .repeated then do
      let n ← countElements (desc.field f) tmp
      .ok { s with counts := Function.update s.counts f (s.counts f + UInt32.ofNat n) }
    else .ok s

/-- One round of the first pass. -/
def scanMember (s : Scan desc) (data : List UInt8) : Except Stop (Scan desc × List UInt8) := do
  match ← fetch (parseTagAndWiretype data.length data) with
  | none => throw .rejected
  | some (used, tag, wireType) =>
    let field ← fetch (s.fieldOfTag tag)
    let s := s.note field
    let data := data.drop used
    let (len, prefLen) ← scanBody wireType data
    let tmp : ScannedMember desc := ⟨tag, wireType, prefLen, field, len, data⟩
    let (whichSlab, inSlabIndex) ← nextSlab alloc s.whichSlab s.inSlabIndex
    let s := { s with
      members := s.members ++ [tmp], whichSlab := whichSlab, inSlabIndex := inSlabIndex + 1 }
    let s ← s.count tmp
    .ok (s, data.drop len.toNat)

/-- `len` bytes of `data` and, behind them, room for one more, in a new block. -/
def copyString (data : List UInt8) (lengthPrefixLen : Nat) (len : UInt32) :
    Except Stop (List UInt8) := do
  doAlloc alloc (len + 1).toNat
  fetch (loadRange data lengthPrefixLen len.toNat)

/-- The element in a member of the wire type that `t` is written with. -/
def parseRequiredMember (m : ScannedMember desc) : (t : FieldType) → Except Stop (Cell t)
  | .enum | .int32 =>
    if m.wireType ≠ 0 then .error .rejected else fetch (parseInt32 m.len.toNat m.data)
  | .uint32 =>
    if m.wireType ≠ 0 then .error .rejected else fetch (parseUint32 m.len.toNat m.data)
  | .sint32 =>
    if m.wireType ≠ 0 then .error .rejected
    else fetch ((parseUint32 m.len.toNat m.data).map unzigzag32)
  | .sfixed32 | .fixed32 | .float =>
    if m.wireType ≠ 5 then .error .rejected else fetch (parseFixedUint32 m.data)
  | .bool => fetch (parseBoolean m.len.toNat m.data 0)
  | .string =>
    if m.wireType ≠ 2 then .error .rejected
    else copyString alloc m.data m.lengthPrefixLen.toNat (m.len - m.lengthPrefixLen)

/-- An array of `room` elements takes one more. -/
def putElement {α : Type} (room : Nat) (array : List α) (v : α) : Except Stop (List α) :=
  if array.length < room then .ok (array ++ [v]) else .error (.fault .outOfBounds)

/-- The `while` loop of `parse_packed_repeated_member`. -/
def packedLoop {α : Type} (parse : Nat → List UInt8 → Except Fault α) (room rem : Nat)
    (data : List UInt8) (array : List α) : Except Stop (List α) := do
  if _hrem : rem = 0 then .ok array
  else
    let s ← fetch (scanVarint rem data)
    if _hs : s = 0 then throw .rejected
    else
      let v ← fetch (parse s data)
      let array ← putElement room array v
      packedLoop parse room (rem - s) (data.drop s) array
termination_by rem

/-- Booleans are copied byte by byte. -/
def packedBooleans (room : Nat) : Nat → List UInt8 → List Bool → Except Stop (List Bool)
  | 0, _, array => .ok array
  | _ + 1, [], _ => .error (.fault .outOfBounds)
  | count + 1, b :: data, array =>
    if 1 < b then .error .rejected
    else do
      let array ← putElement room array (b ≠ 0)
      packedBooleans room count data array

def packedWords (room rem : Nat) (data : List UInt8) (array : List UInt32) :
    Except Stop (List UInt32) := do
  let words ← fetch (copyWords (rem / 4) data)
  if array.length + words.length ≤ room then .ok (array ++ words)
  else throw (.fault .outOfBounds)

def parsePackedRepeatedMember (room : Nat) (m : ScannedMember desc) :
    (t : FieldType) → List (Cell t) → Except Stop (List (Cell t)) :=
  let data := m.data.drop m.lengthPrefixLen.toNat
  let rem := (m.len - m.lengthPrefixLen).toNat
  fun
  | .sfixed32 | .fixed32 | .float => packedWords room rem data
  | .enum | .int32 => packedLoop parseInt32 room rem data
  | .sint32 => packedLoop (fun s at' => (parseUint32 s at').map unzigzag32) room rem data
  | .uint32 => packedLoop parseUint32 room rem data
  | .bool => packedBooleans room rem data
  | .string => fun _ => .error .assertion

def parseRepeatedMember (room : Nat) (m : ScannedMember desc) (t : FieldType)
    (array : List (Cell t)) : Except Stop (List (Cell t)) := do
  let v ← parseRequiredMember alloc m t
  putElement room array v

/-- The switch on the label: the new value of the member. -/
def parseField (room : Nat) (packed : Bool) (m : ScannedMember desc) (t : FieldType) :
    (l : Label) → Member l t → Except Stop (Member l t)
  | .required, _ => parseRequiredMember alloc m t
  | .optional, _ => do
    let v ← parseRequiredMember alloc m t
    .ok (true, v)
  | .repeated, array =>
    if packed then parsePackedRepeatedMember room m t array
    else parseRepeatedMember alloc room m t array

/-- `room` and `unknownRoom` are the sizes of the arrays that were allocated. -/
def parseMember (room : desc.Index → Nat) (unknownRoom : Nat) (msg : Message desc)
    (m : ScannedMember desc) : Except Stop (Message desc) := do
  match m.field with
  | none =>
    doAlloc alloc m.len.toNat
    let data ← fetch (loadRange m.data 0 m.len.toNat)
    let unknownFields ← putElement unknownRoom msg.unknownFields ⟨m.tag, m.wireType, data⟩
    .ok { msg with unknownFields := unknownFields }
  | some f =>
    let v ← parseField alloc (room f) (isPacked (desc.field f) m.wireType) m
      (desc.field f).type (desc.field f).label (msg.members f)
    .ok { msg with members := Function.update msg.members f v }

def Cell.zero : (t : FieldType) → Cell t
  | .int32 | .sint32 | .enum => (0 : Int32)
  | .sfixed32 | .uint32 | .fixed32 | .float => (0 : UInt32)
  | .bool => false
  | .string => []

def FieldDescriptor.default (f : FieldDescriptor) : Cell f.type :=
  f.defaultValue.getD (Cell.zero f.type)

/-- A member as `message_init` leaves it. -/
def FieldDescriptor.init (f : FieldDescriptor) : Member f.label f.type :=
  match f.label with
  | .required => f.default
  | .optional => (false, f.default)
  | .repeated => []

variable (desc)

def messageInit : Message desc := ⟨fun f => (desc.field f).init, []⟩

def Scan.init : Scan desc := ⟨[], 0, 0, ⟨0, desc.nonempty⟩, fun _ => false, fun _ => 0, 0⟩

variable {desc}

/-- Allocates the array of a repeated field, checks the bit of a required one. -/
def allocateField (s : Scan desc) (f : desc.Index) : Except Stop Unit :=
  match (desc.field f).label with
  | .repeated =>
    if s.counts f ≠ 0 then
      doAlloc alloc (sizeofEltInRepeatedArray (desc.field f).type * s.counts f).toNat
    else .ok ()
  | .required =>
    if (desc.field f).defaultValue.isNone ∧ s.required f = false then .error .rejected else .ok ()
  | .optional => .ok ()

/-- The number of elements in the block of a repeated field. -/
def Scan.room (s : Scan desc) (f : desc.Index) : Nat :=
  (sizeofEltInRepeatedArray (desc.field f).type * s.counts f).toNat /
    (sizeofEltInRepeatedArray (desc.field f).type).toNat

lemma tagLoop_pos {data : List UInt8} {maxRv rv used : Nat} {tag tag' : UInt32} {shift : Nat}
    (h : tagLoop data maxRv rv tag shift = .ok (some (used, tag'))) : 0 < used := by
  induction hn : maxRv - rv using Nat.strong_induction_on generalizing rv tag shift with
  | _ n ih =>
    rw [tagLoop] at h
    split at h
    · obtain ⟨b, -, h⟩ := Refine.bind_eq_ok_iff.mp h
      split at h
      · exact ih (maxRv - (rv + 1)) (by omega) h rfl
      · cases h
        omega
    · cases h

lemma parseTagAndWiretype_pos {data : List UInt8} {len used : Nat} {tag : UInt32} {wireType : UInt8}
    (h : parseTagAndWiretype len data = .ok (some (used, tag, wireType))) :
    0 < used ∧ 0 < data.length := by
  obtain ⟨b, hload, h⟩ := Refine.bind_eq_ok_iff.mp h
  have hpos : 0 < data.length := by
    by_contra hnil
    rw [load, List.getElem?_eq_none (by omega)] at hload
    cases hload
  split at h
  · cases h
    exact ⟨Nat.one_pos, hpos⟩
  · obtain ⟨o, hloop, h⟩ := Refine.bind_eq_ok_iff.mp h
    cases o with
    | none => cases h
    | some p =>
      cases h
      exact ⟨tagLoop_pos hloop, hpos⟩

/-- Every round of the first pass uses up some bytes. -/
lemma scanMember_length_lt {s s' : Scan desc} {data data' : List UInt8}
    (h : scanMember alloc s data = .ok (s', data')) : data'.length < data.length := by
  obtain ⟨o, htag, h⟩ := Refine.bind_eq_ok_iff.mp h
  cases o with
  | none => cases h
  | some p =>
    obtain ⟨used, tag, wireType⟩ := p
    cases hparse : parseTagAndWiretype data.length data with
    | error e =>
      rw [hparse] at htag
      cases htag
    | ok o =>
      rw [hparse] at htag
      cases htag
      obtain ⟨hused, hpos⟩ := parseTagAndWiretype_pos hparse
      obtain ⟨field, -, h⟩ := Refine.bind_eq_ok_iff.mp h
      obtain ⟨⟨len, prefLen⟩, -, h⟩ := Refine.bind_eq_ok_iff.mp h
      obtain ⟨slab, -, h⟩ := Refine.bind_eq_ok_iff.mp h
      obtain ⟨s₁, -, h⟩ := Refine.bind_eq_ok_iff.mp h
      cases h
      simp only [List.length_drop]
      omega

/-- The first pass. -/
def scanLoop (s : Scan desc) (data : List UInt8) : Except Stop (Scan desc) :=
  if data = [] then .ok s
  else
    match _h : scanMember alloc s data with
    | .error e => .error e
    | .ok (s', data') => scanLoop s' data'
termination_by data.length
decreasing_by exact scanMember_length_lt alloc _h

variable (desc)

/-- `protobuf_c_message_unpack(desc, NULL, len, data)` for the `len` bytes of `data`. -/
def protobufCMessageUnpack (data : List UInt8) : Except Stop (Message desc) := do
  doAlloc alloc desc.sizeofMessage
  let bitmapLen := (desc.fields.length + 7) / 8
  doAllocIf alloc (16 < bitmapLen) bitmapLen
  let s ← scanLoop alloc (Scan.init desc) data
  (List.finRange desc.fields.length).forM (allocateField alloc s)
  doAllocIf alloc (s.nUnknown ≠ 0) (s.nUnknown * sizeofUnknownField)
  s.members.foldlM (parseMember alloc s.room s.nUnknown) (messageInit desc)

variable {desc}

lemma scanLoop_nil (s : Scan desc) : scanLoop alloc s [] = .ok s := by
  rw [scanLoop, if_pos rfl]

lemma scanLoop_of_error {s : Scan desc} {data : List UInt8} {e : Stop} (hne : data ≠ [])
    (h : scanMember alloc s data = .error e) : scanLoop alloc s data = .error e := by
  rw [scanLoop, if_neg hne]
  split
  · next he =>
    rw [h] at he
    cases he
    rfl
  · next he =>
    rw [h] at he
    cases he

lemma scanLoop_of_ok {s s' : Scan desc} {data data' : List UInt8}
    (h : scanMember alloc s data = .ok (s', data')) :
    scanLoop alloc s data = scanLoop alloc s' data' := by
  have hne : data ≠ [] := by
    rintro rfl
    have hlt := scanMember_length_lt alloc h
    simp at hlt
  rw [scanLoop, if_neg hne]
  split
  · next he =>
    rw [h] at he
    cases he
  · next he =>
    rw [h] at he
    cases he
    rfl

end Passes

end Nais.Protobuf
