import Nais.Protobuf.Varint

/-!
# The first pass

The scan of the packed bytes leaves one scanned member for each record, a bit for each required
field that occurs, and for each repeated field as many elements as its records will fill. It stays
inside the bytes unless a length and its prefix overflow a word.
-/

namespace Nais.Protobuf
open Board Lib Lib.Base128 Lib.Wire

variable {desc : MessageDescriptor} {data : List UInt8} {r : Record} {rs : List Record}

/-- A scanned member points at the body of a record. -/
structure ScannedMember.Of (m : ScannedMember desc) (r : Record) : Prop where
  tag : m.tag = UInt32.ofNat r.tag
  wire : m.wireType = UInt8.ofNat r.wire
  wire_lt : r.wire < 8
  prefixLen : m.lengthPrefixLen.toNat = r.prefixLen
  len : m.len.toNat = r.raw.length
  raw : m.data.take r.raw.length = r.raw
  prefix_le : r.prefixLen ≤ r.raw.length
  pos : 0 < r.raw.length
  four : r.wire = 5 → r.raw.length = 4
  field : m.field = fieldKey desc r

/-- The number of elements that the first pass counts in a packed payload. -/
def payloadCount (bs : List UInt8) : FieldType → Option Nat
  | .sfixed32 | .fixed32 | .float => if bs.length % 4 = 0 then some (bs.length / 4) else none
  | .enum | .int32 | .sint32 | .uint32 => some (bs.countP fun b => b &&& 0x80 = 0)
  | .bool => some bs.length
  | .string => none

def recordCount (f : FieldDescriptor) (r : Record) : Option Nat :=
  if isPackedRecord f r then payloadCount r.payload f.type else some 1

section Body

variable {m : ScannedMember desc}

lemma ScannedMember.Of.length_le (h : m.Of r) : r.raw.length ≤ m.data.length := by
  have hlen := congrArg List.length h.raw
  rw [List.length_take] at hlen
  omega

lemma ScannedMember.Of.wireType_eq_iff (h : m.Of r) {w : Nat} (hw : w < 8) :
    m.wireType = UInt8.ofNat w ↔ r.wire = w := by
  rw [h.wire, ← UInt8.toNat_inj, UInt8.toNat_ofNat', UInt8.toNat_ofNat']
  have := h.wire_lt
  omega

lemma ScannedMember.Of.isPacked (h : m.Of r) (f : FieldDescriptor) :
    isPacked f m.wireType = isPackedRecord f r := by
  have hw : decide (m.wireType = 2) = decide (r.wire = 2) :=
    decide_eq_decide.mpr (h.wireType_eq_iff (by decide : 2 < 8))
  rw [Protobuf.isPacked, isPackedRecord, hw]

/-- The payload of a member. -/
lemma ScannedMember.Of.payload (h : m.Of r) :
    (m.len - m.lengthPrefixLen).toNat = r.payload.length ∧
      (m.data.drop m.lengthPrefixLen.toNat).take r.payload.length = r.payload ∧
      r.payload.length ≤ (m.data.drop m.lengthPrefixLen.toNat).length := by
  have hle := h.prefix_le
  have hlen := h.length_le
  have hsub : (m.len - m.lengthPrefixLen).toNat = r.raw.length - r.prefixLen := by
    rw [UInt32.toNat_sub_of_le, h.len, h.prefixLen]
    rw [UInt32.le_iff_toNat_le, h.len, h.prefixLen]
    exact hle
  have hpay : r.payload.length = r.raw.length - r.prefixLen := List.length_drop
  refine ⟨by rw [hsub, hpay], ?_, ?_⟩
  · rw [hpay, h.prefixLen, ← List.drop_take, h.raw]
    rfl
  · rw [List.length_drop, h.prefixLen]
    omega

lemma countElements_eq (h : m.Of r) (f : FieldDescriptor) :
    countElements f m = match recordCount f r with
      | none => .error .rejected
      | some n => .ok n := by
  obtain ⟨hlen, htake, hle⟩ := h.payload
  unfold countElements recordCount
  rw [h.isPacked f, hlen]
  by_cases hp : isPackedRecord f r = true
  · rw [if_pos hp, if_pos hp]
    cases f.type <;>
      simp only [countPackedElements, payloadCount, maxB128Numbers_eq hle, htake, Except.map, fetch,
        Except.mapError, Bind.bind, Except.bind, ne_eq, ite_not] <;>
      rfl
  · rw [if_neg hp, if_neg hp]

end Body

/-- The switch on the wire type finds the body that the wire type announces. -/
lemma scanBody_spec {wire : Nat} (hwire : wire < 8) (hlen : data.length < 2 ^ 32)
    (hlong : bodySize wire data ≠ .error .overlong) :
    match bodySize wire data with
    | .error _ => scanBody (UInt8.ofNat wire) data = .error .rejected
    | .ok (len, prefixLen) => ∃ l p, scanBody (UInt8.ofNat wire) data = .ok (l, p) ∧
      l.toNat = len ∧ p.toNat = prefixLen := by
  have hcase : ∀ w : Nat, w < 8 → (UInt8.ofNat wire = UInt8.ofNat w ↔ wire = w) := by
    intro w hw
    rw [← UInt8.toNat_inj, UInt8.toNat_ofNat', UInt8.toNat_ofNat']
    omega
  have h0 : UInt8.ofNat wire = 0 ↔ wire = 0 := hcase 0 (by decide)
  have h1 : UInt8.ofNat wire = 1 ↔ wire = 1 := hcase 1 (by decide)
  have h2 : UInt8.ofNat wire = 2 ↔ wire = 2 := hcase 2 (by decide)
  have h5 : UInt8.ofNat wire = 5 ↔ wire = 5 := hcase 5 (by decide)
  unfold bodySize at hlong ⊢
  unfold scanBody
  simp only [h0, h1, h2, h5]
  by_cases hw0 : wire = 0
  · have hmin : (if data.length < 10 then data.length else 10) ≤ data.length := by split <;> omega
    simp only [if_pos hw0, continuationEnd_eq hmin (Nat.zero_le _) (Nat.zero_le _), fetch,
      Except.mapError, Bind.bind, Except.bind]
    cases hf : front 10 data with
    | none =>
      have hno : min (continuations data) (if data.length < 10 then data.length else 10) =
          if data.length < 10 then data.length else 10 := by
        unfold front at hf
        split at hf
        · cases hf
        · split <;> omega
      rw [if_pos hno]
      rfl
    | some k =>
      obtain ⟨hten, hcont, rfl⟩ := front_eq_some_iff.mp hf
      have hyes : min (continuations data) (if data.length < 10 then data.length else 10) =
          continuations data := by split <;> omega
      have hne : continuations data ≠ if data.length < 10 then data.length else 10 := by
        split <;> omega
      rw [hyes, if_neg hne]
      refine ⟨_, _, rfl, ?_, rfl⟩
      rw [UInt32.toNat_ofNat']
      omega
  · rw [if_neg hw0] at hlong ⊢
    simp only [if_neg hw0]
    by_cases hw1 : wire = 1
    · simp only [if_pos hw1]
      by_cases hshort : data.length < 8
      · simp only [if_pos hshort]
        rfl
      · simp only [if_neg hshort]
        exact ⟨_, _, rfl, rfl, rfl⟩
    · rw [if_neg hw1] at hlong ⊢
      simp only [if_neg hw1]
      by_cases hw2 : wire = 2
      · rw [if_pos hw2] at hlong ⊢
        have hspec := scanLengthPrefixedData_eq data hlen
        cases hf : front 5 data with
        | none =>
          rw [hf] at hspec
          simp only [if_pos hw2, hspec, fetch, Except.mapError, Bind.bind, Except.bind]
          rfl
        | some k =>
          obtain ⟨hpos, hfive, hk⟩ := front_pos hf
          rw [hf] at hspec hlong
          dsimp only at hspec hlong ⊢
          by_cases hword : 2 ^ 32 ≤ k + number (data.take k) % 2 ^ 32
          · rw [if_pos hword] at hlong
            exact absurd rfl hlong
          · rw [if_neg hword] at hlong ⊢
            have hsum : (k + number (data.take k)) % 2 ^ 32 = k + number (data.take k) % 2 ^ 32 := by
              omega
            have hofNat : UInt32.ofNat (k + number (data.take k)) =
                UInt32.ofNat (k + number (data.take k) % 2 ^ 32) := by
              apply UInt32.toNat_inj.mp
              rw [UInt32.toNat_ofNat', UInt32.toNat_ofNat']
              omega
            rw [hsum, hofNat] at hspec
            by_cases hshort : data.length < k + number (data.take k) % 2 ^ 32
            · rw [if_pos hshort] at hspec
              rw [if_pos hshort]
              simp only [if_pos hw2, hspec, fetch, Except.mapError, Bind.bind, Except.bind]
              rfl
            · rw [if_neg hshort] at hspec
              rw [if_neg hshort]
              have hl : (UInt32.ofNat (k + number (data.take k) % 2 ^ 32)).toNat =
                  k + number (data.take k) % 2 ^ 32 := by
                rw [UInt32.toNat_ofNat', Nat.mod_eq_of_lt (by omega)]
              have hne : UInt32.ofNat (k + number (data.take k) % 2 ^ 32) ≠ 0 := by
                intro hz
                rw [hz, UInt32.toNat_zero] at hl
                omega
              simp only [if_pos hw2, hspec, fetch, Except.mapError, Bind.bind, Except.bind, if_neg hne]
              refine ⟨_, _, rfl, hl, ?_⟩
              rw [UInt32.toNat_ofNat']
              omega
      · rw [if_neg hw2] at hlong ⊢
        simp only [if_neg hw2]
        by_cases hw5 : wire = 5
        · simp only [if_pos hw5]
          by_cases hshort : data.length < 4
          · simp only [if_pos hshort]
            rfl
          · simp only [if_neg hshort]
            exact ⟨_, _, rfl, rfl, rfl⟩
        · simp only [if_neg hw5]
          rfl

/-- The shortcut over the last field and the lookup find the same field. -/
lemma fieldOfTag_eq (s : Scan desc) (tag : UInt32) : s.fieldOfTag tag = .ok (desc.fieldOf tag) := by
  unfold Scan.fieldOfTag
  by_cases htag : (desc.field s.lastField).id = tag
  · rw [if_neg (by simpa using htag), desc.fieldOf_eq_some_iff.mpr htag]
  · rw [if_pos htag, desc.lookup_eq]

variable {alloc : Nat → Bool}

variable (alloc) in
lemma nextSlab_spec {w i : Nat} (hi : i ≤ 2 ^ (w + 4)) :
    match nextSlab alloc w i with
    | .ok (w', i') => 16 * 2 ^ w' + i' = 16 * 2 ^ w + i ∧ i' < 2 ^ (w' + 4)
    | .error e => e = .rejected ∧ ((∀ size, alloc size) → 16 * 2 ^ w + i = 2 ^ 27) := by
  unfold nextSlab
  by_cases hfull : i = 2 ^ (w + 4)
  · rw [if_pos hfull]
    by_cases hmax : w = MAX_SCANNED_MEMBER_SLAB
    · rw [if_pos hmax]
      refine ⟨rfl, fun _ => ?_⟩
      rw [hfull, hmax]
      rfl
    · rw [if_neg hmax]
      unfold doAlloc
      by_cases halloc : alloc (sizeofScannedMember * 2 ^ (w + 1 + 4)) = true
      · rw [if_pos halloc]
        refine ⟨?_, Nat.two_pow_pos _⟩
        rw [hfull]
        ring
      · rw [if_neg halloc]
        exact ⟨rfl, fun henough => absurd (henough _) halloc⟩
  · rw [if_neg hfull]
    exact ⟨rfl, by omega⟩

/-- What the first pass has found out when it has cut off the records `rs`. -/
structure Scanned (s : Scan desc) (rs : List Record) : Prop where
  members : List.Forall₂ ScannedMember.Of s.members rs
  required : ∀ f, (desc.field f).label = .required →
    (s.required f = true ↔ Route.itemsOf (fieldKey desc) f rs ≠ [])
  counts : ∀ f, (desc.field f).label = .repeated → ∃ ns,
    (Route.itemsOf (fieldKey desc) f rs).mapM (recordCount (desc.field f)) = some ns ∧
      s.counts f = UInt32.ofNat ns.sum
  nUnknown : s.nUnknown = (unknownRecords desc rs).length
  slabs : rs.length + 16 = 16 * 2 ^ s.whichSlab + s.inSlabIndex
  inSlab : s.inSlabIndex ≤ 2 ^ (s.whichSlab + 4)

lemma scanned_init : Scanned (Scan.init desc) [] where
  members := .nil
  required f _ := by simp [Scan.init, Route.itemsOf]
  counts f _ := ⟨[], rfl, rfl⟩
  nUnknown := rfl
  slabs := rfl
  inSlab := Nat.zero_le _

lemma itemsOf_concat (f : desc.Index) (rs : List Record) (r : Record) :
    Route.itemsOf (fieldKey desc) f (rs ++ [r]) =
      if fieldKey desc r = some f then Route.itemsOf (fieldKey desc) f rs ++ [r]
      else Route.itemsOf (fieldKey desc) f rs := by
  rw [Route.itemsOf_append]
  by_cases h : fieldKey desc r = some f
  · simp [Route.itemsOf, h]
  · simp [Route.itemsOf, h]

lemma unknownRecords_concat_length (rs : List Record) (r : Record) :
    (unknownRecords desc (rs ++ [r])).length =
      (unknownRecords desc rs).length + if fieldKey desc r = none then 1 else 0 := by
  by_cases h : fieldKey desc r = none
  · simp [unknownRecords, h]
  · simp [unknownRecords, h]

/-- The records that no repeated field can count. -/
def Uncountable (desc : MessageDescriptor) (r : Record) : Prop :=
  ∃ f, fieldKey desc r = some f ∧ (desc.field f).label = .repeated ∧
    recordCount (desc.field f) r = none

@[simp] lemma note_members (s : Scan desc) (field) : (s.note field).members = s.members := by
  cases field <;> rfl

@[simp] lemma note_counts (s : Scan desc) (field) : (s.note field).counts = s.counts := by
  cases field <;> rfl

@[simp] lemma note_whichSlab (s : Scan desc) (field) : (s.note field).whichSlab = s.whichSlab := by
  cases field <;> rfl

@[simp] lemma note_inSlabIndex (s : Scan desc) (field) :
    (s.note field).inSlabIndex = s.inSlabIndex := by
  cases field <;> rfl

lemma note_nUnknown (s : Scan desc) (field) :
    (s.note field).nUnknown = s.nUnknown + if field = none then 1 else 0 := by
  cases field <;> rfl

lemma note_required (s : Scan desc) {field} {f : desc.Index} (hreq : (desc.field f).label = .required) :
    (s.note field).required f = true ↔ field = some f ∨ s.required f = true := by
  cases field with
  | none => simp [Scan.note]
  | some g =>
    simp only [Scan.note, Option.some.injEq]
    by_cases hg : g = f
    · subst hg
      simp [hreq]
    · by_cases hlabel : (desc.field g).label = .required
      · rw [if_pos hlabel, Function.update_of_ne (fun h => hg h.symm)]
        tauto
      · rw [if_neg hlabel]
        tauto

/-- A member is stored in the slab, and counted. -/
lemma Scanned.push {s : Scan desc} {m : ScannedMember desc} (hs : Scanned s rs) (hm : m.Of r)
    {w i : Nat} (hslab : 16 * 2 ^ w + i = 16 * 2 ^ s.whichSlab + s.inSlabIndex)
    (hi : i < 2 ^ (w + 4)) :
    let s₂ := { s.note (fieldKey desc r) with
      members := (s.note (fieldKey desc r)).members ++ [m], whichSlab := w, inSlabIndex := i + 1 }
    match s₂.count m with
    | .ok s' => Scanned s' (rs ++ [r])
    | .error e => e = .rejected ∧ Uncountable desc r := by
  intro s₂
  have hall : List.Forall₂ ScannedMember.Of (s.members ++ [m]) (rs ++ [r]) :=
    List.rel_append hs.members (.cons hm .nil)
  have hrequired : ∀ f, (desc.field f).label = .required →
      (s₂.required f = true ↔ Route.itemsOf (fieldKey desc) f (rs ++ [r]) ≠ []) := by
    intro f hreq
    change (s.note (fieldKey desc r)).required f = true ↔ _
    rw [note_required s hreq, hs.required f hreq, itemsOf_concat]
    by_cases hf : fieldKey desc r = some f
    · simp [hf]
    · simp [hf]
  have hunknown : s₂.nUnknown = (unknownRecords desc (rs ++ [r])).length := by
    change (s.note (fieldKey desc r)).nUnknown = _
    rw [note_nUnknown, hs.nUnknown, unknownRecords_concat_length]
  have hslabs : (rs ++ [r]).length + 16 = 16 * 2 ^ w + (i + 1) := by
    have := hs.slabs
    simp only [List.length_append, List.length_singleton]
    omega
  -- the counters of the fields whose number the record does not have
  have hother : ∀ f, fieldKey desc r ≠ some f → (desc.field f).label = .repeated → ∃ ns,
      (Route.itemsOf (fieldKey desc) f (rs ++ [r])).mapM (recordCount (desc.field f)) = some ns ∧
        s.counts f = UInt32.ofNat ns.sum := by
    intro f hf hrep
    rw [itemsOf_concat, if_neg hf]
    exact hs.counts f hrep
  unfold Scan.count
  rw [hm.field]
  cases hkey : fieldKey desc r with
  | none =>
    refine ⟨by simpa [s₂] using hall, hrequired, ?_, hunknown, hslabs, hi⟩
    intro f hrep
    change ∃ ns, _ ∧ (s.note (fieldKey desc r)).counts f = _
    rw [note_counts]
    exact hother f (by simp [hkey]) hrep
  | some f =>
    dsimp only
    by_cases hrep : (desc.field f).label = .repeated
    · simp only [if_pos hrep, countElements_eq hm, Bind.bind, Except.bind]
      cases hn : recordCount (desc.field f) r with
      | none => exact ⟨rfl, f, hkey, hrep, hn⟩
      | some n =>
        refine ⟨by simpa [s₂] using hall, hrequired, ?_, hunknown, hslabs, hi⟩
        intro g hg
        change ∃ ns, _ ∧ Function.update (s.note (fieldKey desc r)).counts f
          ((s.note (fieldKey desc r)).counts f + UInt32.ofNat n) g = _
        rw [note_counts]
        by_cases hgf : g = f
        · subst hgf
          obtain ⟨ns, hns, hcount⟩ := hs.counts g hg
          refine ⟨ns ++ [n], ?_, ?_⟩
          · rw [itemsOf_concat, if_pos hkey, List.mapM_append, hns]
            simp [hn]
          · rw [Function.update_self, hcount, List.sum_append, List.sum_singleton, UInt32.ofNat_add]
        · rw [Function.update_of_ne hgf]
          exact hother g (by simp [hkey, Ne.symm hgf]) hg
    · rw [if_neg hrep]
      refine ⟨by simpa [s₂] using hall, hrequired, ?_, hunknown, hslabs, hi⟩
      intro g hg
      change ∃ ns, _ ∧ (s.note (fieldKey desc r)).counts g = _
      rw [note_counts]
      refine hother g ?_ hg
      rw [hkey, ne_eq, Option.some.injEq]
      rintro rfl
      exact hrep hg

variable (alloc) in
/-- One round of the first pass cuts off one record. -/
lemma scanMember_spec {s : Scan desc} (hs : Scanned s rs) (hne : data ≠ [])
    (hlen : data.length < 2 ^ 32) (hlong : cutRecord data ≠ .error .overlong) :
    match cutRecord data with
    | .error _ => scanMember alloc s data = .error .rejected
    | .ok (r, rest) => match scanMember alloc s data with
      | .ok (s', data') => data' = rest ∧ Scanned s' (rs ++ [r])
      | .error e => e = .rejected ∧
        ((∀ size, alloc size) → rs.length + 16 = 2 ^ 27 ∨ Uncountable desc r) := by
  have htag := parseTagAndWiretype_eq hne
  unfold cutRecord at hlong ⊢
  cases hf : front 5 data with
  | none =>
    rw [hf] at htag
    simp only [scanMember, htag, fetch, Except.mapError, Option.map_none, Bind.bind, Except.bind]
    rfl
  | some k =>
    obtain ⟨hk, hk5, hkl⟩ := front_pos hf
    rw [hf] at htag hlong
    have hdrop : (data.drop k).length < 2 ^ 32 := by
      rw [List.length_drop]
      omega
    have hlt := number_take_lt data k
    have hpow : 128 ^ k ≤ 128 ^ 5 := Nat.pow_le_pow_right (by omega) hk5
    dsimp only at hlong ⊢
    have hbody := scanBody_spec (by omega : number (data.take k) % 8 < 8) hdrop (by
      intro hover
      rw [hover] at hlong
      exact hlong rfl)
    cases hb : bodySize (number (data.take k) % 8) (data.drop k) with
    | error e =>
      rw [hb] at hbody
      simp only [scanMember, htag, fetch, Except.mapError, Option.map_some, Bind.bind, Except.bind,
        fieldOfTag_eq, hbody]
    | ok p =>
      obtain ⟨len, prefixLen⟩ := p
      rw [hb] at hbody
      obtain ⟨l, p, hscan, hl, hp⟩ := hbody
      obtain ⟨hlle, hple, hlpos⟩ := bodySize_le hb
      have hm : (⟨UInt32.ofNat (number (data.take k) / 8), UInt8.ofNat (number (data.take k) % 8), p,
          desc.fieldOf (UInt32.ofNat (number (data.take k) / 8)), l, data.drop k⟩ :
            ScannedMember desc).Of ⟨number (data.take k) / 8, number (data.take k) % 8, prefixLen,
              (data.drop k).take len⟩ := by
        have hraw : ((data.drop k).take len).length = len := by
          rw [List.length_take]
          omega
        refine ⟨rfl, rfl, Nat.mod_lt _ (by omega), hp, ?_, ?_, ?_, ?_, ?_, rfl⟩
        · rw [hraw, hl]
        · rw [hraw]
        · rwa [hraw]
        · rwa [hraw]
        · intro hw
          dsimp only at hw
          rw [hw] at hb
          unfold bodySize at hb
          simp only [OfNat.ofNat_ne_zero, Nat.reduceEqDiff, ite_false, ite_true] at hb
          split at hb
          · cases hb
          · cases hb
            exact hraw
      have hslab := nextSlab_spec alloc hs.inSlab
      simp only [scanMember, htag, fetch, Except.mapError, Option.map_some, Bind.bind, Except.bind,
        fieldOfTag_eq, hscan, note_whichSlab, note_inSlabIndex]
      cases hn : nextSlab alloc s.whichSlab s.inSlabIndex with
      | error e =>
        rw [hn] at hslab
        refine ⟨hslab.1, fun henough => .inl ?_⟩
        rw [hs.slabs]
        exact hslab.2 henough
      | ok q =>
        obtain ⟨w, i⟩ := q
        rw [hn] at hslab
        have hpush := hs.push hm hslab.1 hslab.2
        dsimp only at hpush ⊢
        change match (Scan.count _ _ : Except Stop (Scan desc)) with
          | .ok s' => _
          | .error e => _ at hpush
        split at hpush
        · next s' hcount =>
          simp only [fieldKey] at hcount
          rw [hcount]
          exact ⟨by rw [hl], hpush⟩
        · next e hcount =>
          simp only [fieldKey] at hcount
          rw [hcount]
          exact ⟨hpush.1, fun _ => .inr hpush.2⟩

variable (alloc) in
/-- The first pass finds the records. When it gives up although there is memory, the bytes are no
records, or one of them is not as its repeated field needs it. -/
theorem scanLoop_spec {s : Scan desc} (hs : Scanned s rs) (hlen : rs.length + 16 + data.length ≤ 2 ^ 27)
    (hlong : cut data ≠ .error .overlong) :
    match scanLoop alloc s data with
    | .ok s' => ∃ rs', cut data = .ok rs' ∧ Scanned s' (rs ++ rs')
    | .error e => e = .rejected ∧
      ((∀ size, alloc size) → ∀ rs', cut data = .ok rs' → ∃ r ∈ rs', Uncountable desc r) := by
  induction hn : data.length using Nat.strong_induction_on generalizing data s rs with
  | _ n ih =>
    by_cases hne : data = []
    · subst hne
      rw [scanLoop_nil]
      exact ⟨[], cut_nil, by rwa [List.append_nil]⟩
    · have hpos : 0 < data.length := List.length_pos_iff.mpr hne
      have hstep := scanMember_spec alloc hs hne (by omega) (by
        intro hover
        exact hlong (cut_of_error hover hne))
      cases hc : cutRecord data with
      | error e =>
        rw [hc] at hstep
        rw [scanLoop_of_error alloc hne hstep]
        refine ⟨rfl, fun _ rs' hcut => ?_⟩
        rw [cut_of_error hc hne] at hcut
        cases hcut
      | ok p =>
        obtain ⟨r, rest⟩ := p
        rw [hc] at hstep
        have hlt := cutRecord_length_lt hc
        have hcut := cut_of_ok hc
        dsimp only at hstep
        cases hm : scanMember alloc s data with
        | error e =>
          rw [hm] at hstep
          rw [scanLoop_of_error alloc hne hm]
          refine ⟨hstep.1, fun henough rs' hrs => ?_⟩
          rw [hcut] at hrs
          cases hrest : cut rest with
          | error e =>
            rw [hrest] at hrs
            cases hrs
          | ok rs₁ =>
            rw [hrest] at hrs
            cases hrs
            obtain hfull | hun := hstep.2 henough
            · omega
            · exact ⟨r, List.mem_cons_self, hun⟩
        | ok q =>
          obtain ⟨s', data'⟩ := q
          rw [hm] at hstep
          obtain ⟨rfl, hs'⟩ := hstep
          have hi := ih data'.length (by omega) hs' (by
            rw [List.length_append, List.length_singleton]
            omega) (by
            intro hover
            rw [hcut, hover] at hlong
            exact hlong rfl) rfl
          rw [scanLoop_of_ok alloc hm]
          cases hl : scanLoop alloc s' data' with
          | error e =>
            rw [hl] at hi
            refine ⟨hi.1, fun henough rs' hrs => ?_⟩
            rw [hcut] at hrs
            cases hrest : cut data' with
            | error e =>
              rw [hrest] at hrs
              cases hrs
            | ok rs₁ =>
              rw [hrest] at hrs
              cases hrs
              obtain ⟨q, hq, hun⟩ := hi.2 henough rs₁ hrest
              exact ⟨q, List.mem_cons_of_mem _ hq, hun⟩
          | ok s'' =>
            rw [hl] at hi
            obtain ⟨rs₁, hrest, hs''⟩ := hi
            refine ⟨r :: rs₁, by rw [hcut, hrest]; rfl, ?_⟩
            rwa [List.append_assoc] at hs''

end Nais.Protobuf
