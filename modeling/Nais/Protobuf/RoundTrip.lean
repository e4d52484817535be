import Mathlib.Data.List.TakeWhile
import Nais.Protobuf.Decode
import Nais.Protobuf.Written

/-!
# Packing and unpacking

The bytes of a message are a stream of records, and they mean the message: what is packed is
unpacked again. What changes is what no reader could see: the bytes of a string behind its first
NUL, and the value of an optional field that is not there.
-/

namespace Nais.Protobuf
open Board Lib Lib.Base128 Lib.Wire Lib.Memory

section Normal

def Cell.normal : (t : FieldType) → Cell t → Cell t
  | .string, v => cString v
  | .int32, v | .sint32, v | .enum, v => v
  | .sfixed32, v | .uint32, v | .fixed32, v | .float, v => v
  | .bool, v => v

def Member.normal (f : FieldDescriptor) : (l : Label) → Member l f.type → Member l f.type
  | .required, v => Cell.normal f.type v
  | .optional, v => if v.1 then (true, Cell.normal f.type v.2) else (false, f.default)
  | .repeated, array => array.map (Cell.normal f.type)

/-- The message that comes back. -/
def Message.normal {desc : MessageDescriptor} (msg : Message desc) : Message desc :=
  ⟨fun f => Member.normal (desc.field f) (desc.field f).label (msg.members f), msg.unknownFields⟩

end Normal

section Records

def cellPrefix : (t : FieldType) → Cell t → Nat
  | .string, v => (encode (strlen v)).length
  | _, _ => 0

def cellRecord (f : FieldDescriptor) (v : Cell f.type) : Record :=
  ⟨f.id.toNat, wireOf f.type, cellPrefix f.type v, cellBytes f.type v⟩

def packedRecord (f : FieldDescriptor) (array : List (Cell f.type)) : Record :=
  ⟨f.id.toNat, 2, (encode (packedPayload f.type array).length).length,
    encode (packedPayload f.type array).length ++ packedPayload f.type array⟩

def memberRecords (f : FieldDescriptor) : (l : Label) → Member l f.type → List Record
  | .required, v => [cellRecord f v]
  | .optional, v => if v.1 then [cellRecord f v.2] else []
  | .repeated, array =>
    if f.packed then if array = [] then [] else [packedRecord f array]
    else array.map (cellRecord f)

def unknownRecord (u : UnknownField) : Record :=
  ⟨u.tag.toNat, u.wireType.toNat,
    match bodySize u.wireType.toNat u.data with
    | .ok p => p.2
    | .error _ => 0, u.data⟩

variable {f : FieldDescriptor} {l : Label}

lemma memberRecords_bytes (v : Member l f.type) :
    (memberRecords f l v).flatMap Record.bytes = memberBytes f l v := by
  cases l with
  | required => exact List.append_nil _
  | optional =>
    obtain ⟨has, v⟩ := v
    cases has with
    | false => rfl
    | true => exact List.append_nil _
  | «repeated» =>
    rw [memberRecords, memberBytes]
    by_cases hp : f.packed = true
    · rw [if_pos hp, if_pos hp]
      by_cases hne : v = []
      · rw [if_pos hne, if_pos hne]
        rfl
      · rw [if_neg hne, if_neg hne]
        exact List.append_nil _
    · rw [if_neg hp, if_neg hp, List.flatMap_map]
      rfl

lemma cellRecord_valid {v : Cell f.type} (hsmall : (cellBytes f.type v).length < 2 ^ 32) :
    (cellRecord f v).Valid := by
  refine ⟨f.id.toNat_lt, ?_, ?_⟩
  · change wireOf f.type < 8
    cases f.type <;> decide
  · change bodySize (wireOf f.type) (cellBytes f.type v) =
      .ok ((cellBytes f.type v).length, cellPrefix f.type v)
    have hnumeral : ∀ k, k < 2 ^ 64 → bodySize 0 (encode k) = .ok ((encode k).length, 0) :=
      fun k hk => bodySize_numeral (encode_isNumeral k) (encode_length_le 9 k (by omega))
    generalize f.type = t at v hsmall
    cases t with
    | sint32 => exact hnumeral _ (by have := (zigzag32 v).toNat_lt; omega)
    | enum | int32 => exact hnumeral _ (by omega)
    | uint32 => exact hnumeral _ (by have := UInt32.toNat_lt v; omega)
    | sfixed32 | fixed32 | float => rfl
    | bool => cases v <;> rfl
    | string =>
      rw [cellBytes, List.length_append] at hsmall
      exact bodySize_lengthPrefixed hsmall

lemma packedRecord_valid {array : List (Cell f.type)} (hsmall : (packedBytes f array).length < 2 ^ 32) :
    (packedRecord f array).Valid := by
  rw [packedBytes, recordBytes, List.length_append, List.length_append] at hsmall
  exact ⟨f.id.toNat_lt, (by decide : 2 < 8), bodySize_lengthPrefixed (by omega)⟩

lemma memberRecords_valid {v : Member l f.type} (hsmall : (memberBytes f l v).length < 2 ^ 32) :
    ∀ r ∈ memberRecords f l v, r.Valid := by
  intro r hr
  have hcell : ∀ {v : Cell f.type}, (fieldBytes f v).length < 2 ^ 32 → (cellRecord f v).Valid := by
    intro v hv
    rw [fieldBytes, recordBytes, List.length_append] at hv
    exact cellRecord_valid (by omega)
  cases l with
  | required =>
    rw [memberRecords, List.mem_singleton] at hr
    rw [hr]
    exact hcell hsmall
  | optional =>
    obtain ⟨has, v⟩ := v
    cases has with
    | false => cases hr
    | true =>
      obtain rfl : r = cellRecord f v := by simpa [memberRecords] using hr
      exact hcell hsmall
  | «repeated» =>
    rw [memberRecords] at hr
    rw [memberBytes] at hsmall
    by_cases hp : f.packed = true
    · rw [if_pos hp] at hr hsmall
      by_cases hne : v = []
      · rw [if_pos hne] at hr
        cases hr
      · rw [if_neg hne] at hr hsmall
        rw [List.mem_singleton.mp hr]
        exact packedRecord_valid hsmall
    · rw [if_neg hp] at hr hsmall
      obtain ⟨v', hv', rfl⟩ := List.mem_map.mp hr
      have hle := length_le_flatMap (fieldBytes f) hv'
      exact hcell (by omega)

lemma memberRecords_tag (v : Member l f.type) : ∀ r ∈ memberRecords f l v, r.tag = f.id.toNat := by
  intro r hr
  cases l with
  | required =>
    rw [memberRecords, List.mem_singleton] at hr
    rw [hr]
    rfl
  | optional =>
    obtain ⟨has, v⟩ := v
    cases has with
    | false => cases hr
    | true =>
      obtain rfl : r = cellRecord f v := by simpa [memberRecords] using hr
      rfl
  | «repeated» =>
    rw [memberRecords] at hr
    split_ifs at hr
    · cases hr
    · rw [List.mem_singleton.mp hr]
      rfl
    · obtain ⟨v', -, rfl⟩ := List.mem_map.mp hr
      rfl

end Records

section Values

lemma ofNat_number_encode (v : UInt32) : UInt32.ofNat (number (encode v.toNat)) = v := by
  rw [number_encode, UInt32.ofNat_toNat]

lemma toNat_neg_word (v : UInt32) : (-v).toNat = (2 ^ 32 - v.toNat) % 2 ^ 32 := UInt32.toNat_neg v

lemma toNat_zigzag32 (v : Int32) : (zigzag32 v).toNat =
    if v.toUInt32.toNat < 2 ^ 31 then 2 * v.toUInt32.toNat else 2 * (2 ^ 32 - v.toUInt32.toNat) - 1 := by
  have hv := v.toUInt32.toNat_lt
  have hsign : v < 0 ↔ ¬v.toUInt32.toNat < 2 ^ 31 := by
    have hzero : (0 : Int32).toInt = 0 := rfl
    rw [Int32.lt_iff_toInt_lt, toInt_eq_toUInt32]
    split_ifs <;> omega
  have htwo : (2 : UInt32).toNat = 2 := rfl
  have hone : (1 : UInt32).toNat = 1 := rfl
  unfold zigzag32
  by_cases h : v < 0
  · rw [if_pos h, if_neg (hsign.mp h), UInt32.toNat_sub, UInt32.toNat_mul, toNat_neg_word, htwo, hone]
    rw [hsign] at h
    omega
  · rw [if_neg h, if_pos (by rw [hsign, not_not] at h; exact h), UInt32.toNat_mul, htwo]
    rw [hsign] at h
    omega

lemma unzigzag32_zigzag32 (v : Int32) : unzigzag32 (zigzag32 v) = v := by
  have hv := v.toUInt32.toNat_lt
  have hz := toNat_zigzag32 v
  have hhalf : (zigzag32 v >>> 1).toNat = (zigzag32 v).toNat / 2 := toNat_shiftRight_lit _ rfl
  have hodd : zigzag32 v &&& 1 ≠ 0 ↔ (zigzag32 v).toNat % 2 = 1 := by
    have hand : (zigzag32 v &&& 1).toNat = (zigzag32 v).toNat % 2 := by
      rw [UInt32.toNat_and]
      exact Nat.and_one_is_mod _
    rw [ne_eq, ← UInt32.toNat_inj, hand]
    change ¬_ = 0 ↔ _
    omega
  have hone : (1 : UInt32).toNat = 1 := rfl
  unfold unzigzag32
  conv_rhs => rw [← Int32.toInt32_toUInt32 v]
  by_cases h : zigzag32 v &&& 1 ≠ 0
  · rw [if_pos h]
    congr 1
    rw [← UInt32.toNat_inj, UInt32.toNat_sub, toNat_neg_word, hhalf, hone]
    rw [hodd] at h
    split_ifs at hz <;> omega
  · rw [if_neg h]
    congr 1
    rw [← UInt32.toNat_inj, hhalf]
    rw [hodd] at h
    split_ifs at hz <;> omega

lemma toInt32_number_int32Numeral (v : Int32) :
    (UInt32.ofNat (number (int32Numeral v))).toInt32 = v := by
  have hv := v.toUInt32.toNat_lt
  have hword : UInt32.ofNat (number (int32Numeral v)) = v.toUInt32 := by
    rw [← UInt32.toNat_inj, int32Numeral, number_encode, UInt32.toNat_ofNat', toInt_eq_toUInt32]
    split_ifs <;> omega
  rw [hword, Int32.toInt32_toUInt32]

/-- One more byte of a word. -/
lemma or_byte (w : UInt32) {shift : Nat} (hshift : shift < 32) :
    UInt32.ofNat (w.toNat % 2 ^ shift) ||| (w >>> UInt32.ofNat shift).toUInt8.toUInt32 <<< UInt32.ofNat shift =
      UInt32.ofNat (w.toNat % 2 ^ (shift + 8)) := by
  have hbyte : (w >>> UInt32.ofNat shift).toUInt8.toUInt32.toNat = w.toNat / 2 ^ shift % 2 ^ 8 := by
    rw [UInt8.toNat_toUInt32, UInt32.toNat_toUInt8, toNat_shiftRight_lit w (i := shift)]
    rw [UInt32.toNat_ofNat']
    omega
  rw [or_digit (Nat.mod_lt _ (Nat.two_pow_pos shift)) hshift, hbyte, pow_add, Nat.mod_mul, mul_comm]

lemma littleEndian_wordBytes (w : UInt32) :
    littleEndian w.toUInt8 (w >>> 8).toUInt8 (w >>> 16).toUInt8 (w >>> 24).toUInt8 = w := by
  have h0 : w.toUInt8.toUInt32 = UInt32.ofNat (w.toNat % 2 ^ 8) := by
    rw [← UInt32.toNat_inj, UInt8.toNat_toUInt32, UInt32.toNat_toUInt8, UInt32.toNat_ofNat']
    omega
  have h1 := or_byte w (by decide : 8 < 32)
  have h2 := or_byte w (by decide : 16 < 32)
  have h3 := or_byte w (by decide : 24 < 32)
  have hw := w.toNat_lt
  rw [Nat.mod_eq_of_lt (by omega : w.toNat < 2 ^ (24 + 8)), UInt32.ofNat_toNat] at h3
  unfold littleEndian
  rw [h0]
  change UInt32.ofNat _ ||| _ <<< UInt32.ofNat 8 ||| _ <<< UInt32.ofNat 16 ||| _ <<< UInt32.ofNat 24 = _
  exact (congrArg (fun x => x ||| _ ||| _) h1).trans ((congrArg (fun x => x ||| _) h2).trans h3)

lemma words_flatMap (ws : List UInt32) : words (ws.flatMap wordBytes) = ws := by
  induction ws with
  | nil => rfl
  | cons w ws ih =>
    change littleEndian _ _ _ _ :: words (ws.flatMap wordBytes) = _
    rw [littleEndian_wordBytes, ih]

/-- Numerals one behind the other are read one by one. -/
lemma numerals_flatMap {α : Type} {g : α → Nat} (hg : ∀ v, g v < 128 ^ 10) (vs : List α) :
    numerals (vs.flatMap fun v => encode (g v)) = some (vs.map g) := by
  induction vs with
  | nil => exact numerals_nil
  | cons v vs ih =>
    have hf := front_isNumeral (encode_isNumeral (g v)) (encode_length_le 9 _ (hg v))
      (vs.flatMap fun v => encode (g v))
    rw [List.flatMap_cons, numerals_of_some hf, List.drop_left' rfl, List.take_left' rfl, ih, number_encode]
    rfl

/-- A record of a field means the value that it was made from. -/
lemma cellOf_cellRecord {f : FieldDescriptor} (v : Cell f.type) :
    cellOf (cellRecord f v) f.type = some (Cell.normal f.type v) := by
  have h : ∀ (t : FieldType) (v : Cell t) (tag : Nat),
      cellOf ⟨tag, wireOf t, cellPrefix t v, cellBytes t v⟩ t = some (Cell.normal t v) := by
    intro t v tag
    cases t with
    | sint32 => simp [cellOf, wireOf, cellBytes, ofNat_number_encode, unzigzag32_zigzag32, Cell.normal]
    | enum | int32 => exact congrArg some (toInt32_number_int32Numeral v)
    | uint32 => simp [cellOf, wireOf, cellBytes, ofNat_number_encode, Cell.normal]
    | sfixed32 | fixed32 | float =>
      have hwords := words_flatMap [v]
      simp only [List.flatMap_cons, List.flatMap_nil, List.append_nil] at hwords
      simp [cellOf, wireOf, cellBytes, hwords, Cell.normal]
    | bool => cases v <;> rfl
    | string => simp [cellOf, wireOf, cellBytes, cellPrefix, Record.payload, Cell.normal]
  exact h f.type v f.id.toNat

lemma packedCells_packedPayload {t : FieldType} (ht : t ≠ .string) (array : List (Cell t)) :
    packedCells (packedPayload t array) t = some (array.map (Cell.normal t)) := by
  have hnumerals : ∀ {α : Type} {g : α → Nat} {g' : Nat → α}, (∀ v, g v < 2 ^ 64) →
      (∀ v, g' (number (encode (g v))) = v) → ∀ array : List α,
        (numerals (array.flatMap fun v => encode (g v))).map (fun ns => ns.map g') =
          some (array.map id) := by
    intro α g g' hlt hinv array
    have hmap : array.map (g' ∘ g) = array.map id :=
      List.map_congr_left fun v _ => by
        have hv := hinv v
        rwa [number_encode] at hv
    rw [numerals_flatMap fun v => (hlt v).trans (by norm_num), Option.map_some, List.map_map, hmap]
  have hwords : ∀ ws : List UInt32, (if (ws.flatMap wordBytes).length % 4 = 0
      then some (words (ws.flatMap wordBytes)) else none) = some (ws.map id) := by
    intro ws
    have hfour : (ws.flatMap wordBytes).length % 4 = 0 := by
      rw [flatMap_wordBytes_length]
      omega
    rw [if_pos hfour, words_flatMap, List.map_id]
  cases t with
  | sint32 =>
    exact hnumerals (fun v => by have := (zigzag32 v).toNat_lt; omega)
      (fun v => by rw [ofNat_number_encode, unzigzag32_zigzag32]) array
  | enum | int32 => exact hnumerals (fun v => by omega) toInt32_number_int32Numeral array
  | uint32 => exact hnumerals (fun v => by have := v.toNat_lt; omega) ofNat_number_encode array
  | sfixed32 | fixed32 | float => exact hwords array
  | bool =>
    have hle : (packedPayload .bool array).all fun b => b ≤ 1 := by
      rw [List.all_eq_true]
      intro b hb
      obtain ⟨v, -, hv⟩ := List.mem_flatMap.mp hb
      rw [cellBytes, List.mem_singleton] at hv
      subst hv
      cases v <;> decide
    rw [packedCells, if_pos hle, packedPayload]
    congr 1
    clear hle
    induction array with
    | nil => rfl
    | cons v array ih =>
      rw [List.flatMap_cons, List.map_append, ih, List.map_cons]
      cases v <;> rfl
  | string => exact absurd rfl ht

/-- Only a packed field is written as one record of wire type 2. -/
lemma elementsOf_cellRecord {f : FieldDescriptor} (hf : ¬f.packed = true) (v : Cell f.type) :
    elementsOf f (cellRecord f v) = some [Cell.normal f.type v] := by
  have hone : isPackedRecord f (cellRecord f v) = false := by
    have h : ∀ t, (decide (wireOf t = 2) && isPackableType t) = false := by
      intro t
      cases t <;> rfl
    have hf' : f.packed = false := by simpa using hf
    rw [isPackedRecord, hf', Bool.false_or]
    exact h f.type
  rw [elementsOf, hone, cellOf_cellRecord]
  rfl

lemma elementsOf_packedRecord {f : FieldDescriptor} (hf : f.packed = true) (ht : f.type ≠ .string)
    (array : List (Cell f.type)) :
    elementsOf f (packedRecord f array) = some (array.map (Cell.normal f.type)) := by
  have hpacked : isPackedRecord f (packedRecord f array) = true := by
    rw [isPackedRecord, hf]
    rfl
  rw [elementsOf, hpacked, if_pos rfl, Record.payload, packedRecord, List.drop_left' rfl]
  exact packedCells_packedPayload ht array

/-- The records of a field mean its value. -/
lemma valueOf_memberRecords {f : FieldDescriptor} (hf : f.packed = true → f.type ≠ .string) {l : Label}
    (v : Member l f.type) : valueOf f (memberRecords f l v) l = some (Member.normal f l v) := by
  cases l with
  | required => simp [valueOf, memberRecords, cellOf_cellRecord, Member.normal]
  | optional =>
    obtain ⟨has, v⟩ := v
    cases has with
    | false => rfl
    | true => simp [valueOf, memberRecords, cellOf_cellRecord, Member.normal]
  | «repeated» =>
    rw [valueOf, memberRecords, Member.normal]
    by_cases hp : f.packed = true
    · rw [if_pos hp]
      by_cases hne : v = []
      · rw [if_pos hne, hne]
        rfl
      · rw [if_neg hne]
        simp [elementsOf_packedRecord hp (hf hp)]
    · rw [if_neg hp]
      have hcells : ∀ array : List (Cell f.type),
          (array.map (cellRecord f)).mapM (fun r => elementsOf f r) =
            some (array.map fun v => [Cell.normal f.type v]) := by
        intro array
        induction array with
        | nil => rfl
        | cons v array ih =>
          rw [List.map_cons, List.mapM_cons, elementsOf_cellRecord hp, ih]
          rfl
      rw [hcells, Option.map_some]
      congr 1
      induction v with
      | nil => rfl
      | cons v array ih =>
        rw [List.map_cons, List.flatten_cons, ih]
        rfl

end Values

section Messages

variable {desc : MessageDescriptor} {msg : Message desc}

/-- An unknown field that is kept: its number is that of no field, and its bytes are what its wire
type announces. -/
structure UnknownField.Kept (desc : MessageDescriptor) (u : UnknownField) : Prop where
  unknown : desc.fieldOf u.tag = none
  body : ∃ p, bodySize u.wireType.toNat u.data = .ok (u.data.length, p)

lemma UnknownField.Kept.wire_lt {u : UnknownField} (h : u.Kept desc) : u.wireType.toNat < 8 := by
  obtain ⟨p, hp⟩ := h.body
  by_contra hge
  unfold bodySize at hp
  rw [if_neg (by omega), if_neg (by omega), if_neg (by omega), if_neg (by omega)] at hp
  cases hp

lemma UnknownField.Kept.valid {u : UnknownField} (h : u.Kept desc) : (unknownRecord u).Valid := by
  obtain ⟨p, hp⟩ := h.body
  refine ⟨u.tag.toNat_lt, h.wire_lt, ?_⟩
  simp only [unknownRecord, hp]

def messageRecords (msg : Message desc) : List Record :=
  (List.finRange desc.fields.length).flatMap (fun f =>
    memberRecords (desc.field f) (desc.field f).label (msg.members f)) ++
    msg.unknownFields.map unknownRecord

lemma messageRecords_bytes (msg : Message desc) :
    (messageRecords msg).flatMap Record.bytes = messageBytes msg := by
  rw [messageRecords, messageBytes, List.flatMap_append, List.flatMap_assoc, List.flatMap_map]
  simp only [memberRecords_bytes]
  rfl

lemma messageRecords_valid (hkept : ∀ u ∈ msg.unknownFields, u.Kept desc)
    (hsmall : (messageBytes msg).length < 2 ^ 32) : ∀ r ∈ messageRecords msg, r.Valid := by
  intro r hr
  rw [messageRecords, List.mem_append] at hr
  obtain hr | hr := hr
  · obtain ⟨f, -, hr⟩ := List.mem_flatMap.mp hr
    exact memberRecords_valid (lt_of_le_of_lt (memberBytes_le msg f) hsmall) r hr
  · obtain ⟨u, hu, rfl⟩ := List.mem_map.mp hr
    exact (hkept u hu).valid

lemma fieldKey_memberRecords (f : desc.Index) :
    ∀ r ∈ memberRecords (desc.field f) (desc.field f).label (msg.members f), fieldKey desc r = some f := by
  intro r hr
  rw [fieldKey, memberRecords_tag _ r hr, UInt32.ofNat_toNat, MessageDescriptor.fieldOf_eq_some_iff]

lemma fieldKey_unknownRecord {u : UnknownField} (h : u.Kept desc) :
    fieldKey desc (unknownRecord u) = none := by
  change desc.fieldOf (UInt32.ofNat u.tag.toNat) = none
  rw [UInt32.ofNat_toNat]
  exact h.unknown

lemma means_messageRecords (hkept : ∀ u ∈ msg.unknownFields, u.Kept desc) :
    Means desc (messageRecords msg) msg.normal := by
  constructor
  · intro f
    have hrest : Route.itemsOf (fieldKey desc) f (msg.unknownFields.map unknownRecord) = [] := by
      rw [Route.itemsOf, List.filter_eq_nil_iff]
      intro r hr
      obtain ⟨u, hu, rfl⟩ := List.mem_map.mp hr
      simp [fieldKey_unknownRecord (hkept u hu)]
    rw [messageRecords, Route.itemsOf_append, hrest, List.append_nil,
      Route.itemsOf_flatMap _ (fun f r hr => fieldKey_memberRecords f r hr) (List.nodup_finRange _)
        (List.mem_finRange f)]
    exact valueOf_memberRecords (fun hp => desc.packable _ (List.getElem_mem f.isLt) hp) _
  · have hnone : ((List.finRange desc.fields.length).flatMap fun f =>
        memberRecords (desc.field f) (desc.field f).label (msg.members f)).filter
          (fun r => fieldKey desc r = none) = [] := by
      rw [List.filter_eq_nil_iff]
      intro r hr
      obtain ⟨f, -, hr⟩ := List.mem_flatMap.mp hr
      simp [fieldKey_memberRecords f r hr]
    have hall : (msg.unknownFields.map unknownRecord).filter (fun r => fieldKey desc r = none) =
        msg.unknownFields.map unknownRecord := by
      rw [List.filter_eq_self]
      intro r hr
      obtain ⟨u, hu, rfl⟩ := List.mem_map.mp hr
      simp [fieldKey_unknownRecord (hkept u hu)]
    rw [unknownRecords, messageRecords, List.filter_append, hnone, hall, List.nil_append, List.map_map]
    have hid : ∀ u : UnknownField, (fun r : Record => (⟨UInt32.ofNat r.tag, UInt8.ofNat r.wire, r.raw⟩ :
        UnknownField)) (unknownRecord u) = u := by
      rintro ⟨tag, wireType, data⟩
      simp [unknownRecord]
    exact (List.map_id _).symm.trans (List.map_congr_left fun u _ => (hid u).symm)

/-- The bytes of a message mean the message. -/
lemma decodes_messageBytes (hkept : ∀ u ∈ msg.unknownFields, u.Kept desc)
    (hsmall : (messageBytes msg).length < 2 ^ 32) : Decodes desc (messageBytes msg) msg.normal := by
  refine ⟨messageRecords msg, ?_, means_messageRecords hkept⟩
  rw [← messageRecords_bytes]
  exact cut_bytes (messageRecords_valid hkept hsmall)

/-- The unknown fields of an unpacked message can be packed again. -/
lemma Decodes.kept {data : List UInt8} (h : Decodes desc data msg) :
    ∀ u ∈ msg.unknownFields, u.Kept desc := by
  obtain ⟨rs, hcut, hmeans⟩ := h
  intro u hu
  rw [hmeans.unknown, unknownRecords, List.mem_map] at hu
  obtain ⟨r, hr, rfl⟩ := hu
  obtain ⟨hr, hkey⟩ := List.mem_filter.mp hr
  have hvalid := cut_valid hcut r hr
  have hwire : (UInt8.ofNat r.wire).toNat = r.wire := by
    rw [UInt8.toNat_ofNat', Nat.mod_eq_of_lt (by have := hvalid.wire_lt; omega)]
  exact ⟨of_decide_eq_true hkey, r.prefixLen, by rw [hwire]; exact hvalid.body⟩

variable {alloc : Nat → Bool} {n k : Nat} {b b' : Buffer n}

lemma unpack_of_decodes {data : List UInt8} (hlen : data.length + 16 ≤ 2 ^ 27) (henough : Enough alloc)
    (h : Decodes desc data msg) : protobufCMessageUnpack alloc desc data = .ok msg := by
  have hlong : cut data ≠ .error .overlong := by
    obtain ⟨rs, hcut, -⟩ := h
    simp [hcut]
  have hout := unpack_outcome alloc desc hlen hlong
  cases hu : protobufCMessageUnpack alloc desc data with
  | ok msg' =>
    rw [hu] at hout
    rw [h.unique hout]
  | error e =>
    rw [hu] at hout
    exact absurd h (hout.2 henough msg)

lemma pack_eq_ok (hkept : ∀ u ∈ msg.unknownFields, u.Kept desc) (hsmall : (messageBytes msg).length < 2 ^ 32)
    (hpack : protobufCMessagePack msg b 0 = .ok (k, b')) : b'.bytes.take k = messageBytes msg := by
  rw [messagePack_eq (fun u hu => (hkept u hu).wire_lt) hsmall, writing_of_le (Nat.zero_le n)] at hpack
  obtain ⟨b₁, hput, hok⟩ := Refine.bind_eq_ok_iff.mp hpack
  cases hok
  rw [Buffer.write_zero (put_eq_ok_iff.mp hput), List.take_left' rfl]

/-- What is packed is unpacked again. -/
theorem unpack_pack (hkept : ∀ u ∈ msg.unknownFields, u.Kept desc)
    (hsmall : (messageBytes msg).length + 16 ≤ 2 ^ 27) (henough : Enough alloc)
    (hpack : protobufCMessagePack msg b 0 = .ok (k, b')) :
    protobufCMessageUnpack alloc desc (b'.bytes.take k) = .ok msg.normal := by
  rw [pack_eq_ok hkept (by omega) hpack]
  exact unpack_of_decodes hsmall henough (decodes_messageBytes hkept (by omega))

lemma sampleCommandStruct_kept : ∀ u ∈ sampleCommandStruct.unknownFields, u.Kept commandDescriptor := by
  intro u hu
  rw [List.mem_singleton.mp hu]
  exact ⟨by decide +kernel, 1, rfl⟩

theorem unpack_pack_command :
    protobufCMessageUnpack (fun _ => true) commandDescriptor [8, 5, 0x7A, 1, 0x61] =
      .ok sampleCommandStruct.normal :=
  @unpack_pack _ _ (fun _ => true) _ _ (Buffer.fill 5 0) ⟨[8, 5, 0x7A, 1, 0x61], rfl⟩
    sampleCommandStruct_kept (by decide +kernel) (fun _ => rfl) rfl

def Cell.Terminated : (t : FieldType) → Cell t → Prop
  | .string, v => ∀ c ∈ v, c ≠ 0
  | _, _ => True

def Member.Terminated {t : FieldType} : (l : Label) → Member l t → Prop
  | .required, v => Cell.Terminated t v
  | .optional, v => Cell.Terminated t v.2
  | .repeated, array => ∀ v ∈ array, Cell.Terminated t v

lemma Cell.normal_eq {t : FieldType} {v : Cell t} (h : Cell.Terminated t v) : Cell.normal t v = v := by
  cases t with
  | string => exact List.takeWhile_eq_self_iff.mpr fun c hc => by simpa using h c hc
  | _ => rfl

lemma Member.normal_eq {f : FieldDescriptor} {l : Label} {v : Member l f.type} {rs : List Record}
    (hvalue : valueOf f rs l = some v) (h : Member.Terminated l v) : Member.normal f l v = v := by
  cases l with
  | required => exact Cell.normal_eq h
  | optional =>
    obtain ⟨vs, -, rfl⟩ := Option.map_eq_some_iff.mp hvalue
    rw [Member.Terminated] at h
    cases vs with
    | nil => rfl
    | cons v vs =>
      rw [Member.normal, Cell.normal_eq h]
      rfl
  | «repeated» => exact (List.map_congr_left fun v hv => Cell.normal_eq (h v hv)).trans (List.map_id _)

/-- A message that was unpacked, from whatever bytes, is the same after packing and unpacking it
again, its unknown fields included, if no string in it contains a NUL. -/
theorem unpack_repack {data : List UInt8} {alloc' : Nat → Bool} (hlen : data.length + 16 ≤ 2 ^ 27)
    (hlong : cut data ≠ .error .overlong) (hunpack : protobufCMessageUnpack alloc' desc data = .ok msg)
    (hstrings : ∀ f, Member.Terminated (desc.field f).label (msg.members f))
    (hsmall : (messageBytes msg).length + 16 ≤ 2 ^ 27) (henough : Enough alloc)
    (hpack : protobufCMessagePack msg b 0 = .ok (k, b')) :
    protobufCMessageUnpack alloc desc (b'.bytes.take k) = .ok msg := by
  have hout := unpack_outcome alloc' desc hlen hlong
  rw [hunpack] at hout
  have hkept := Decodes.kept hout
  have hsame : msg.normal = msg := by
    obtain ⟨rs, -, hmeans⟩ := hout
    ext f
    · exact Member.normal_eq (hmeans.member f) (hstrings f)
    · rfl
  have hdecodes := decodes_messageBytes hkept (by omega)
  rw [hsame] at hdecodes
  rw [pack_eq_ok hkept (by omega) hpack]
  exact unpack_of_decodes hsmall henough hdecodes

lemma unpack_scattered :
    protobufCMessageUnpack (fun _ => true) commandDescriptor scatteredCommand = .ok scatteredCommandStruct :=
  unpack_of_decodes (by decide) (fun _ => rfl) decodes_scatteredCommand

/-- It is written in another way than it was read. -/
theorem unpack_repack_scatteredCommand :
    protobufCMessageUnpack (fun _ => true) commandDescriptor scatteredCommand = .ok scatteredCommandStruct ∧
      protobufCMessageUnpack (fun _ => true) commandDescriptor
        [8, 5, 0x1A, 2, 0x61, 0x62, 0x20, 7, 0x20, 5, 0x20, 6, 0x7A, 1, 0x61] = .ok scatteredCommandStruct := by
  have hcut : cut scatteredCommand ≠ .error .overlong := by decide +kernel
  have hstrings : ∀ f, Member.Terminated (commandDescriptor.field f).label
      (scatteredCommandStruct.members f) := by
    intro f
    match f with
    | ⟨0, _⟩ => trivial
    | ⟨1, _⟩ => trivial
    | ⟨2, _⟩ =>
      intro v hv
      rw [List.mem_singleton.mp hv]
      change ∀ c ∈ ([0x61, 0x62] : List UInt8), c ≠ 0
      simp
    | ⟨3, _⟩ => exact fun v hv => trivial
  have hpack : protobufCMessagePack scatteredCommandStruct (Buffer.fill 15 0) 0 = .ok (15,
      ⟨[8, 5, 0x1A, 2, 0x61, 0x62, 0x20, 7, 0x20, 5, 0x20, 6, 0x7A, 1, 0x61], rfl⟩) := by
    decide +kernel
  exact ⟨unpack_scattered, @unpack_repack _ _ (fun _ => true) _ _ _ _ _ (fun _ => true)
    (by decide) hcut unpack_scattered hstrings (by decide +kernel) (fun _ => rfl) hpack⟩

end Messages

end Nais.Protobuf
