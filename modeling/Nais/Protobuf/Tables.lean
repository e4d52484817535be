import Nais.Protobuf.Descriptor

/-!
# The tables of the board

The descriptors that `messages.pb-c.c` gives to the library. The numbers of the fields of a message
are one range.
-/

namespace Nais.Protobuf
open Board

lemma toInt_eq_toUInt32 (v : Int32) : v.toInt =
    if v.toUInt32.toNat < 2 ^ 31 then (v.toUInt32.toNat : Int) else v.toUInt32.toNat - 2 ^ 32 := by
  have h : v.toInt = if 2 * v.toUInt32.toNat < 2 ^ 32 then (v.toUInt32.toNat : Int)
      else v.toUInt32.toNat - 2 ^ 32 := BitVec.toInt_eq_toNat_cond v.toBitVec
  rw [h]
  split_ifs <;> omega

/-- The range of the numbers 1, 2, … of `n` fields, and the end marker behind it. -/
def oneRange (n : Nat) : List IntRange := [⟨1, 0⟩, ⟨0, n⟩]

lemma ordered_oneRange (n : Nat) : Ordered 1 (oneRange n) where
  size := rfl
  wide := by
    intro k r r' hr hr'
    obtain rfl : k = 0 := by
      obtain ⟨hk, -⟩ := List.getElem?_eq_some_iff.mp hr'
      simpa [oneRange] using hk
    cases hr
    cases hr'
    simp
  apart := by
    intro j k r r' q hjk hk
    omega

lemma numbers_oneRange {fields : List FieldDescriptor} (nonempty : 0 < fields.length)
    (few : fields.length < 2 ^ 31)
    (ids : ∀ f : Fin fields.length, (fields.get f).id = UInt32.ofNat (f.val + 1)) (tag : UInt32) (i : Int) :
    (∃ k, k < 1 ∧ HoldsAt (oneRange fields.length) k tag.toInt32.toInt i) ↔
      ∃ f : Fin fields.length, (f.val : Int) = i ∧ (fields.get f).id = tag := by
  have htag := toInt_eq_toUInt32 tag.toInt32
  rw [UInt32.toUInt32_toInt32] at htag
  have hlt := tag.toNat_lt
  constructor
  · rintro ⟨k, hk, r, r', hr, hr', hle, hupper, rfl⟩
    obtain rfl : k = 0 := by omega
    cases hr
    cases hr'
    simp only at hle hupper ⊢
    refine ⟨⟨tag.toNat - 1, ?_⟩, ?_, ?_⟩
    · split_ifs at htag <;> omega
    · split_ifs at htag <;> dsimp only <;> omega
    · rw [ids, ← UInt32.toNat_inj, UInt32.toNat_ofNat']
      split_ifs at htag <;> dsimp only <;> omega
  · rintro ⟨f, rfl, rfl⟩
    have hf := f.isLt
    have hid := congrArg UInt32.toNat (ids f)
    rw [UInt32.toNat_ofNat'] at hid
    refine ⟨0, by omega, _, _, rfl, rfl, ?_⟩
    simp only
    split_ifs at htag <;> omega

/-- The tables of a message with the fields 1, 2, …: their numbers are one range. -/
def MessageDescriptor.ofFields (sizeofMessage : Nat) (fields : List FieldDescriptor)
    (nonempty : 0 < fields.length) (packable : ∀ f ∈ fields, f.packed = true → f.type ≠ .string)
    (few : fields.length < 2 ^ 31)
    (ids : ∀ f : Fin fields.length, (fields.get f).id = UInt32.ofNat (f.val + 1)) : MessageDescriptor where
  sizeofMessage := sizeofMessage
  fields := fields
  nFieldRanges := 1
  fieldRanges := oneRange fields.length
  nonempty := nonempty
  packable := packable
  ordered := ordered_oneRange fields.length
  numbers := numbers_oneRange nonempty few ids

def profileFields : List FieldDescriptor :=
  [⟨1, .required, .string, false, none⟩, ⟨2, .required, .string, false, none⟩]

def configFields : List FieldDescriptor :=
  [⟨1, .required, .string, false, none⟩, ⟨2, .required, .string, false, none⟩,
    ⟨3, .required, .string, false, none⟩, ⟨4, .optional, .int32, false, some (1883 : Int32)⟩,
    ⟨5, .optional, .int32, false, none⟩, ⟨6, .optional, .bool, false, none⟩]

def commandFields : List FieldDescriptor :=
  [⟨1, .required, .int32, false, none⟩, ⟨2, .optional, .int32, false, none⟩,
    ⟨3, .repeated, .string, false, none⟩, ⟨4, .repeated, .int32, false, none⟩]

def ackFields : List FieldDescriptor :=
  [⟨1, .required, .int32, false, none⟩, ⟨2, .optional, .int32, false, none⟩,
    ⟨3, .optional, .int32, false, none⟩]

def eventFields : List FieldDescriptor :=
  [⟨1, .required, .int32, false, none⟩, ⟨2, .repeated, .string, false, none⟩,
    ⟨3, .repeated, .float, false, none⟩, ⟨4, .repeated, .sint32, false, none⟩]

def secretFields : List FieldDescriptor := [⟨1, .required, .string, false, none⟩]

def profileDescriptor : MessageDescriptor :=
  .ofFields 20 profileFields (by decide) (by decide) (by decide) (by decide)

def configDescriptor : MessageDescriptor :=
  .ofFields 48 configFields (by decide) (by decide) (by decide) (by decide)

def commandDescriptor : MessageDescriptor :=
  .ofFields 40 commandFields (by decide) (by decide) (by decide) (by decide)

def ackDescriptor : MessageDescriptor :=
  .ofFields 32 ackFields (by decide) (by decide) (by decide) (by decide)

def eventDescriptor : MessageDescriptor :=
  .ofFields 40 eventFields (by decide) (by decide) (by decide) (by decide)

def secretDescriptor : MessageDescriptor :=
  .ofFields 16 secretFields (by decide) (by decide) (by decide) (by decide)

def descriptorOf : MsgKind → MessageDescriptor
  | .profile => profileDescriptor
  | .config => configDescriptor
  | .ack => ackDescriptor
  | .secret => secretDescriptor
  | .command => commandDescriptor
  | .event => eventDescriptor

end Nais.Protobuf
