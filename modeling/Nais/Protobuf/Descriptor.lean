import Nais.Board.Nais

/-!
# Message descriptors

`sys/protobuf-c`: the descriptors of a message and its fields, the values of a field, and the
search for the field with a given number. A descriptor carries what `protoc-c` guarantees of
the tables that it generates.
-/

namespace Nais.Protobuf
open Board

inductive Label where
  | required | optional | repeated
  deriving DecidableEq, Repr

/-- The types of at most 32 bits, and strings. No message of the board has 64-bit numbers, bytes,
sub-messages or a oneof, and the functions of the library are modelled without them. -/
inductive FieldType where
  | int32 | sint32 | sfixed32 | uint32 | fixed32 | float | bool | enum | string
  deriving DecidableEq, Repr

/-- The C type of one element. A string is the block it lies in, without the terminating NUL;
the null pointer is the empty string, which is packed the same way. -/
abbrev Cell : FieldType → Type
  | .int32 | .sint32 | .enum => Int32
  | .sfixed32 | .uint32 | .fixed32 | .float => UInt32
  | .bool => Bool
  | .string => List UInt8

/-- An optional member has its `has` flag. -/
abbrev Member : Label → FieldType → Type
  | .required, t => Cell t
  | .optional, t => Bool × Cell t
  | .repeated, t => List (Cell t)

structure FieldDescriptor where
  id : UInt32
  label : Label
  type : FieldType
  packed : Bool
  defaultValue : Option (Cell type)

structure IntRange where
  startValue : Int
  origIndex : Int

/-- The range `k` of a table, which ends with a sentinel, holds `value` at `index`. -/
def HoldsAt (ranges : List IntRange) (k : Nat) (value index : Int) : Prop :=
  ∃ r r', ranges[k]? = some r ∧ ranges[k + 1]? = some r' ∧ r.startValue ≤ value ∧
    value < r.startValue + (r'.origIndex - r.origIndex) ∧ index = value - r.startValue + r.origIndex

/-- A table of `n` ranges in ascending order, behind them the sentinel. -/
structure Ordered (n : Nat) (ranges : List IntRange) : Prop where
  size : ranges.length = n + 1
  wide : ∀ {k r r'}, ranges[k]? = some r → ranges[k + 1]? = some r' → r.origIndex ≤ r'.origIndex
  apart : ∀ {j k r r' q}, j < k → k < n → ranges[j]? = some r → ranges[j + 1]? = some r' →
    ranges[k]? = some q → r.startValue + (r'.origIndex - r.origIndex) ≤ q.startValue

def rangeAt (ranges : List IntRange) (i : Nat) : Except Fault IntRange :=
  match ranges[i]? with
  | some r => .ok r
  | none => .error .outOfBounds

/-- The loop of `int_range_lookup`, and what follows it. -/
def rangeSearch (ranges : List IntRange) (value : Int) (start n : Nat) :
    Except Fault (Option Int) := do
  if 1 < n then
    let mid := start + n / 2
    let r ← rangeAt ranges mid
    if value < r.startValue then rangeSearch ranges value start (mid - start)
    else
      let r' ← rangeAt ranges (mid + 1)
      if r.startValue + (r'.origIndex - r.origIndex) ≤ value then
        rangeSearch ranges value (mid + 1) (start + n - (mid + 1))
      else .ok (some (value - r.startValue + r.origIndex))
  else if 0 < n then
    let r ← rangeAt ranges start
    let r' ← rangeAt ranges (start + 1)
    if r.startValue ≤ value ∧ value < r.startValue + (r'.origIndex - r.origIndex) then
      .ok (some (value - r.startValue + r.origIndex))
    else .ok none
  else .ok none
termination_by n

def intRangeLookup (nRanges : Nat) (ranges : List IntRange) (value : Int) :
    Except Fault (Option Int) :=
  if nRanges = 0 then .ok none else rangeSearch ranges value 0 nRanges

variable {ranges : List IntRange} {value index : Int} {nRanges : Nat}

variable (ranges) in
lemma rangeAt_of_lt (i : Nat) (h : i < ranges.length) :
    ∃ r, ranges[i]? = some r ∧ rangeAt ranges i = .ok r := by
  obtain ⟨r, hr⟩ : ∃ r, ranges[i]? = some r := ⟨ranges[i], List.getElem?_eq_getElem h⟩
  exact ⟨r, hr, by rw [rangeAt, hr]⟩

lemma HoldsAt.not_of_lt {k mid : Nat} {r : IntRange} (hord : Ordered nRanges ranges)
    (hmid : ranges[mid]? = some r) (hlt : value < r.startValue) (hk : mid ≤ k) (hkn : k < nRanges) :
    ¬HoldsAt ranges k value index := by
  rintro ⟨q, q', hq, -, hle, -⟩
  obtain rfl | hne := Nat.eq_or_lt_of_le hk
  · rw [hmid] at hq
    cases hq
    omega
  · have hsize := hord.size
    obtain ⟨r', hr', -⟩ := rangeAt_of_lt ranges (mid + 1) (by omega)
    have hapart := hord.apart hne hkn hmid hr' hq
    have hwide := hord.wide hmid hr'
    omega

lemma HoldsAt.not_of_ge {k mid : Nat} {r r' : IntRange} (hord : Ordered nRanges ranges)
    (hmid : ranges[mid]? = some r) (hmid' : ranges[mid + 1]? = some r') (hmidn : mid < nRanges)
    (hge : r.startValue + (r'.origIndex - r.origIndex) ≤ value) (hk : k ≤ mid) :
    ¬HoldsAt ranges k value index := by
  rintro ⟨q, q', hq, hq', hle, hlt, -⟩
  obtain rfl | hne := Nat.eq_or_lt_of_le hk
  · rw [hmid] at hq
    rw [hmid'] at hq'
    cases hq
    cases hq'
    omega
  · have hapart := hord.apart hne hmidn hq hq' hmid
    have hwide := hord.wide hmid hmid'
    omega

/-- At most one range holds a value. -/
lemma HoldsAt.unique {j k : Nat} {index' : Int} (hord : Ordered nRanges ranges) (hj : j < nRanges)
    (hk : k < nRanges) (h : HoldsAt ranges j value index) (h' : HoldsAt ranges k value index') :
    j = k ∧ index = index' := by
  obtain ⟨r, r', hr, hr', hle, hlt, hindex⟩ := h
  obtain ⟨q, q', hq, hq', hle', hlt', hindex'⟩ := h'
  obtain hjk | rfl | hkj := Nat.lt_trichotomy j k
  · have := hord.apart hjk hk hr hr' hq
    omega
  · rw [hr] at hq
    cases hq
    exact ⟨rfl, by omega⟩
  · have := hord.apart hkj hj hq hq' hr
    omega

/-- The search ends with the index at which one of the ranges from `start` holds the value. -/
lemma rangeSearch_spec (hord : Ordered nRanges ranges) (value : Int) (start n : Nat)
    (hfit : start + n ≤ nRanges) :
    ∃ o, rangeSearch ranges value start n = .ok o ∧
      ∀ i, o = some i ↔ ∃ k, start ≤ k ∧ k < start + n ∧ HoldsAt ranges k value i := by
  have hsize := hord.size
  induction n using Nat.strong_induction_on generalizing start with
  | _ n ih =>
    rw [rangeSearch]
    by_cases hn : 1 < n
    · obtain ⟨r, hr, hread⟩ := rangeAt_of_lt ranges (start + n / 2) (by omega)
      obtain ⟨r', hr', hread'⟩ := rangeAt_of_lt ranges (start + n / 2 + 1) (by omega)
      simp only [if_pos hn, hread, hread', Bind.bind, Except.bind]
      by_cases hlow : value < r.startValue
      · rw [if_pos hlow]
        obtain ⟨o, ho, hspec⟩ := ih (start + n / 2 - start) (by omega) start (by omega)
        refine ⟨o, ho, fun i => ?_⟩
        rw [hspec]
        constructor
        · rintro ⟨k, hk, hkn, h⟩
          exact ⟨k, hk, by omega, h⟩
        · rintro ⟨k, hk, hkn, h⟩
          refine ⟨k, hk, ?_, h⟩
          by_contra hge
          exact HoldsAt.not_of_lt hord hr hlow (by omega) (by omega) h
      · rw [if_neg hlow]
        by_cases hhigh : r.startValue + (r'.origIndex - r.origIndex) ≤ value
        · rw [if_pos hhigh]
          obtain ⟨o, ho, hspec⟩ := ih (start + n - (start + n / 2 + 1)) (by omega)
            (start + n / 2 + 1) (by omega)
          refine ⟨o, ho, fun i => ?_⟩
          rw [hspec]
          constructor
          · rintro ⟨k, hk, hkn, h⟩
            exact ⟨k, by omega, by omega, h⟩
          · rintro ⟨k, hk, hkn, h⟩
            refine ⟨k, ?_, by omega, h⟩
            by_contra hge
            exact HoldsAt.not_of_ge hord hr hr' (by omega) hhigh (by omega) h
        · rw [if_neg hhigh]
          have hmid : HoldsAt ranges (start + n / 2) value (value - r.startValue + r.origIndex) :=
            ⟨r, r', hr, hr', by omega, by omega, rfl⟩
          refine ⟨_, rfl, fun i => ?_⟩
          rw [Option.some.injEq]
          constructor
          · rintro rfl
            exact ⟨_, by omega, by omega, hmid⟩
          · rintro ⟨k, hk, hkn, h⟩
            exact (HoldsAt.unique hord (by omega) (by omega) hmid h).2
    · rw [if_neg hn]
      by_cases hpos : 0 < n
      · have hone : n = 1 := by omega
        subst hone
        obtain ⟨r, hr, hread⟩ := rangeAt_of_lt ranges start (by omega)
        obtain ⟨r', hr', hread'⟩ := rangeAt_of_lt ranges (start + 1) (by omega)
        simp only [if_pos hpos, hread, hread', Bind.bind, Except.bind]
        split
        · next hin =>
          have hmid : HoldsAt ranges start value (value - r.startValue + r.origIndex) :=
            ⟨r, r', hr, hr', hin.1, hin.2, rfl⟩
          refine ⟨_, rfl, fun i => ?_⟩
          rw [Option.some.injEq]
          constructor
          · rintro rfl
            exact ⟨_, le_rfl, by omega, hmid⟩
          · rintro ⟨k, hk, hkn, h⟩
            exact (HoldsAt.unique hord (by omega) (by omega) hmid h).2
        · next hout =>
          refine ⟨_, rfl, fun i => ?_⟩
          simp only [reduceCtorEq, false_iff]
          rintro ⟨k, hk, hkn, q, q', hq, hq', hle, hlt, -⟩
          obtain rfl : k = start := by omega
          rw [hr] at hq
          rw [hr'] at hq'
          cases hq
          cases hq'
          exact hout ⟨hle, hlt⟩
      · rw [if_neg hpos]
        refine ⟨_, rfl, fun i => ?_⟩
        simp only [reduceCtorEq, false_iff]
        rintro ⟨k, hk, hkn, -⟩
        omega

/-- The tables of a message. The ranges of the field numbers are in order and lead to the
index of the field that has the number. Strings are never packed. -/
structure MessageDescriptor where
  sizeofMessage : Nat
  fields : List FieldDescriptor
  nFieldRanges : Nat
  fieldRanges : List IntRange
  nonempty : 0 < fields.length
  packable : ∀ f ∈ fields, f.packed = true → f.type ≠ .string
  ordered : Ordered nFieldRanges fieldRanges
  numbers : ∀ (tag : UInt32) (i : Int),
    (∃ k, k < nFieldRanges ∧ HoldsAt fieldRanges k tag.toInt32.toInt i) ↔
      ∃ f : Fin fields.length, (f.val : Int) = i ∧ (fields.get f).id = tag

/-- The index of a field. -/
abbrev MessageDescriptor.Index (desc : MessageDescriptor) : Type := Fin desc.fields.length

def MessageDescriptor.field (desc : MessageDescriptor) (f : desc.Index) : FieldDescriptor :=
  desc.fields.get f

/-- `desc->fields + int_range_lookup(...)`. -/
def MessageDescriptor.lookup (desc : MessageDescriptor) (tag : UInt32) :
    Except Fault (Option desc.Index) := do
  match ← intRangeLookup desc.nFieldRanges desc.fieldRanges tag.toInt32.toInt with
  | none => .ok none
  | some i =>
    if h : 0 ≤ i ∧ i.toNat < desc.fields.length then .ok (some ⟨i.toNat, h.2⟩)
    else .error .tableIndex

/-- The field with a number. -/
def MessageDescriptor.fieldOf (desc : MessageDescriptor) (tag : UInt32) : Option desc.Index :=
  (List.finRange desc.fields.length).find? fun f => (desc.field f).id = tag

variable {desc : MessageDescriptor} {tag : UInt32} {f : desc.Index}

lemma MessageDescriptor.holdsAt_iff (desc : MessageDescriptor) (tag : UInt32) (i : Int) :
    (∃ k, k < desc.nFieldRanges ∧ HoldsAt desc.fieldRanges k tag.toInt32.toInt i) ↔
      ∃ g : desc.Index, (g.val : Int) = i ∧ (desc.field g).id = tag := desc.numbers tag i

lemma MessageDescriptor.id_injective {g : desc.Index} (h : (desc.field f).id = (desc.field g).id) :
    f = g := by
  obtain ⟨j, hj, hf⟩ := (desc.holdsAt_iff (desc.field f).id f.val).mpr ⟨f, rfl, rfl⟩
  obtain ⟨k, hk, hg⟩ := (desc.holdsAt_iff (desc.field f).id g.val).mpr ⟨g, rfl, h.symm⟩
  have hval := (HoldsAt.unique desc.ordered hj hk hf hg).2
  exact Fin.ext (by omega)

lemma MessageDescriptor.fieldOf_eq_some_iff : desc.fieldOf tag = some f ↔ (desc.field f).id = tag := by
  unfold fieldOf
  constructor
  · intro h
    simpa using List.find?_some h
  · rintro rfl
    cases hfind : (List.finRange desc.fields.length).find? fun g =>
        (desc.field g).id = (desc.field f).id with
    | none =>
      rw [List.find?_eq_none] at hfind
      simpa using hfind f (List.mem_finRange f)
    | some g =>
      have hg : (desc.field g).id = (desc.field f).id := by simpa using List.find?_some hfind
      rw [desc.id_injective hg]

/-- The lookup finds the field with the number, and reads no entry behind its table. -/
lemma MessageDescriptor.lookup_eq (desc : MessageDescriptor) (tag : UInt32) :
    desc.lookup tag = .ok (desc.fieldOf tag) := by
  obtain ⟨o, ho, hspec⟩ : ∃ o, intRangeLookup desc.nFieldRanges desc.fieldRanges tag.toInt32.toInt = .ok o ∧
      ∀ i, o = some i ↔ ∃ g : desc.Index, (g.val : Int) = i ∧ (desc.field g).id = tag := by
    unfold intRangeLookup
    by_cases hn : desc.nFieldRanges = 0
    · rw [if_pos hn]
      refine ⟨_, rfl, fun i => ?_⟩
      rw [← desc.holdsAt_iff tag i, hn]
      simp
    · rw [if_neg hn]
      obtain ⟨o, ho, hspec⟩ := rangeSearch_spec desc.ordered tag.toInt32.toInt 0 desc.nFieldRanges
        (by omega)
      refine ⟨o, ho, fun i => ?_⟩
      rw [hspec, ← desc.holdsAt_iff tag i]
      simp
  simp only [lookup, ho, Bind.bind, Except.bind]
  cases o with
  | none =>
    cases hf : desc.fieldOf tag with
    | none => rfl
    | some g =>
      have hg := (hspec g).mpr ⟨g, rfl, fieldOf_eq_some_iff.mp hf⟩
      cases hg
  | some i =>
    obtain ⟨g, rfl, hg⟩ := (hspec i).mp rfl
    rw [fieldOf_eq_some_iff.mpr hg]
    simp

end Nais.Protobuf
