import Nais.Protobuf.Scan

/-!
# The second pass

Parsing a scanned member gives its field the value that the record means. Every load lies in the
record, and every element in the array that was allocated for its field.
-/

namespace Nais.Protobuf
open Board Lib Lib.Base128 Lib.Wire Lib.Refine

variable {desc : MessageDescriptor} {alloc : Nat → Bool} {m : ScannedMember desc} {r : Record}
  {data : List UInt8}

/-- The allocator always has a block. -/
def Enough (alloc : Nat → Bool) : Prop := ∀ size, alloc size = true

/-- What a record does to the value of its field. -/
def absorb (f : FieldDescriptor) (r : Record) : (l : Label) → Member l f.type → Option (Member l f.type)
  | .required, _ => cellOf r f.type
  | .optional, _ => (cellOf r f.type).map fun v => (true, v)
  | .repeated, vs => (elementsOf f r).map fun ws => vs ++ ws

variable (alloc) in
lemma refines_doAlloc (size : Nat) : Refines .rejected (Enough alloc) (doAlloc alloc size) (some ()) := by
  unfold doAlloc
  by_cases h : alloc size = true
  · rw [if_pos h]
    rfl
  · rw [if_neg h]
    exact refines_giveUp fun henough => absurd (henough size) h

section Cells

lemma ScannedMember.Of.parseUint32_eq (h : m.Of r) :
    parseUint32 m.len.toNat m.data = .ok (UInt32.ofNat (number r.raw)) := by
  rw [Protobuf.parseUint32_eq (by rw [h.len]; exact h.pos) (by rw [h.len]; exact h.length_le), h.len,
    h.raw]

lemma ScannedMember.Of.wire_zero_iff (h : m.Of r) : m.wireType ≠ 0 ↔ r.wire ≠ 0 :=
  not_congr (h.wireType_eq_iff (by decide : 0 < 8))

lemma ScannedMember.Of.wire_two_iff (h : m.Of r) : m.wireType ≠ 2 ↔ r.wire ≠ 2 :=
  not_congr (h.wireType_eq_iff (by decide : 2 < 8))

lemma ScannedMember.Of.wire_five_iff (h : m.Of r) : m.wireType ≠ 5 ↔ r.wire ≠ 5 :=
  not_congr (h.wireType_eq_iff (by decide : 5 < 8))

lemma ScannedMember.Of.parseFixedUint32 (h : m.Of r) (hfive : r.wire = 5) :
    ∃ w, parseFixedUint32 m.data = .ok w ∧ words r.raw = [w] := by
  have hlen := h.length_le
  have hraw := h.raw
  rw [h.four hfive] at hlen hraw
  obtain ⟨b₀, b₁, b₂, b₃, rest, hdata⟩ := exists_four_cons hlen
  rw [hdata] at hraw ⊢
  exact ⟨_, rfl, by rw [← hraw]; rfl⟩

variable (alloc) in
/-- A member is parsed to the element that its record means. -/
lemma parseRequiredMember_refines (h : m.Of r) (t : FieldType) :
    Refines .rejected (Enough alloc) (parseRequiredMember alloc m t) (cellOf r t) := by
  have hword := h.parseUint32_eq
  have hfixed : Refines .rejected (Enough alloc)
      (if m.wireType ≠ 5 then .error .rejected else fetch (parseFixedUint32 m.data))
      (if r.wire = 5 then (words r.raw).head? else none) := by
    by_cases hw : r.wire = 5
    · obtain ⟨w, hparse, hwords⟩ := h.parseFixedUint32 hw
      rw [if_neg (by rw [h.wire_five_iff]; simpa using hw), if_pos hw, hparse, hwords]
      rfl
    · rw [if_pos (h.wire_five_iff.mpr hw), if_neg hw]
      exact refines_giveUp fun _ => rfl
  -- the types that are written as a numeral
  have hnumeral : ∀ {α : Type} {x : Except Fault α} {a : α}, x = .ok a →
      Refines .rejected (Enough alloc) (if m.wireType ≠ 0 then .error .rejected else fetch x)
        (if r.wire = 0 then some a else none) := by
    intro α x a hx
    by_cases hw : r.wire = 0
    · rw [if_neg (by rw [h.wire_zero_iff]; simpa using hw), if_pos hw, hx]
      rfl
    · rw [if_pos (h.wire_zero_iff.mpr hw), if_neg hw]
      exact refines_giveUp fun _ => rfl
  cases t with
  | int32 | enum => exact hnumeral (by rw [parseInt32, hword]; rfl)
  | uint32 => exact hnumeral hword
  | sint32 => exact hnumeral (by rw [hword]; rfl)
  | sfixed32 | fixed32 | float => exact hfixed
  | bool =>
    have hle : m.len.toNat ≤ m.data.length := by
      rw [h.len]
      exact h.length_le
    have hparse := parseBoolean_eq hle (Nat.zero_le _)
    rw [h.len, h.raw] at hparse
    simp only [parseRequiredMember, h.len, hparse, List.drop_zero, cellOf]
    rfl
  | string =>
    obtain ⟨hlen, htake, hle⟩ := h.payload
    simp only [parseRequiredMember, cellOf]
    by_cases hw : r.wire = 2
    · have hload : loadRange m.data m.lengthPrefixLen.toNat (m.len - m.lengthPrefixLen).toNat =
          .ok r.payload := by
        have hpay : r.payload.length = r.raw.length - r.prefixLen := List.length_drop
        have hmem := h.length_le
        have hpre := h.prefix_le
        rw [loadRange, hlen, htake, if_pos (by rw [h.prefixLen]; omega)]
      rw [if_neg (by rw [h.wire_two_iff]; simpa using hw), if_pos hw]
      have hcopy : Refines .rejected (Enough alloc)
          (copyString alloc m.data m.lengthPrefixLen.toNat (m.len - m.lengthPrefixLen))
          ((some ()).bind fun _ => some r.payload) := by
        refine (refines_doAlloc _ _).bind fun _ _ => ?_
        rw [hload]
        rfl
      exact hcopy
    · rw [if_pos (h.wire_two_iff.mpr hw), if_neg hw]
      exact refines_giveUp fun _ => rfl

end Cells

section Arrays

variable {α : Type} {room rem : Nat} {array : List α}

/-- The bytes that end a numeral. -/
def ends (bs : List UInt8) : Nat := bs.countP fun b => b &&& 0x80 = 0

lemma ends_append (as bs : List UInt8) : ends (as ++ bs) = ends as + ends bs :=
  List.countP_append ..

/-- One byte of a numeral ends it. -/
lemma ends_front {max k : Nat} {bs : List UInt8} (h : front max bs = some k) :
    ends (bs.take k) = 1 := by
  obtain ⟨-, hlen, rfl⟩ := front_eq_some_iff.mp h
  clear h
  induction bs with
  | nil => simp at hlen
  | cons b bs ih =>
    by_cases hb : 128 ≤ b.toNat
    · have hmore : ¬b &&& 0x80 = 0 := by
        rw [and_0x80_eq_zero_iff]
        omega
      simp only [continuations, hb, ite_true, List.length_cons] at hlen ⊢
      rw [List.take_succ_cons, ends, List.countP_cons_of_neg (by simpa using hmore)]
      exact ih (by omega)
    · have hend : b &&& 0x80 = 0 := by
        rw [and_0x80_eq_zero_iff]
        omega
      simp [continuations, hb, ends, hend]

lemma numerals_nil : numerals [] = some [] := by
  rw [numerals, if_pos rfl]

lemma numerals_of_none {bs : List UInt8} (hne : bs ≠ []) (h : front 10 bs = none) :
    numerals bs = none := by
  rw [numerals, if_neg hne]
  split
  · rfl
  · next hk =>
    rw [h] at hk
    cases hk

lemma numerals_of_some {bs : List UInt8} {k : Nat} (h : front 10 bs = some k) :
    numerals bs = (numerals (bs.drop k)).map (number (bs.take k) :: ·) := by
  have hne : bs ≠ [] := by
    rintro rfl
    have := front_pos h
    simp at this
    omega
  rw [numerals, if_neg hne]
  split
  · next hk =>
    rw [h] at hk
    cases hk
  · next hk =>
    rw [h] at hk
    cases hk
    rfl

lemma numerals_length {bs : List UInt8} {ns : List Nat} (h : numerals bs = some ns) :
    ns.length = ends bs := by
  induction hn : bs.length using Nat.strong_induction_on generalizing bs ns with
  | _ n ih =>
    by_cases hne : bs = []
    · subst hne
      rw [numerals_nil] at h
      cases h
      rfl
    · cases hf : front 10 bs with
      | none =>
        rw [numerals_of_none hne hf] at h
        cases h
      | some k =>
        have hk := front_pos hf
        rw [numerals_of_some hf, Option.map_eq_some_iff] at h
        obtain ⟨ns', hrest, rfl⟩ := h
        have hi := ih (bs.drop k).length (by rw [List.length_drop]; omega) hrest rfl
        have hsplit := ends_append (bs.take k) (bs.drop k)
        rw [List.take_append_drop, ends_front hf] at hsplit
        rw [List.length_cons]
        omega

lemma putElement_eq (v : α) (hroom : array.length < room) :
    putElement room array v = .ok (array ++ [v]) := if_pos hroom

/-- The loop takes the numerals one by one, and has room for each that it takes. -/
lemma packedLoop_refines {enough : Prop} {parse : Nat → List UInt8 → Except Fault α} {g : Nat → α}
    (hparse : ∀ k (bs : List UInt8), 0 < k → k ≤ bs.length → parse k bs = .ok (g (number (bs.take k))))
    (hrem : rem ≤ data.length) (hroom : array.length + ends (data.take rem) ≤ room) :
    Refines .rejected enough (packedLoop parse room rem data array)
      ((numerals (data.take rem)).map fun ns => array ++ ns.map g) := by
  induction hn : rem using Nat.strong_induction_on generalizing rem data array with
  | _ n ih =>
    rw [packedLoop]
    by_cases hzero : n = 0
    · subst hn hzero
      simp [numerals_nil]
    · have hlen : (data.take rem).length = rem := by
        rw [List.length_take]
        omega
      rw [dif_neg hzero, ← hn, scanVarint_eq hrem]
      cases hf : front 10 (data.take rem) with
      | none =>
        rw [numerals_of_none (by rw [ne_eq, ← List.length_eq_zero_iff]; omega) hf]
        exact refines_giveUp fun _ => rfl
      | some k =>
        obtain ⟨hpos, -, hle⟩ := front_pos hf
        have htake : (data.take rem).take k = data.take k := by
          rw [List.take_take, min_eq_left (by omega)]
        have hdrop : (data.take rem).drop k = (data.drop k).take (rem - k) := by
          rw [List.drop_take]
        have hends := ends_append ((data.take rem).take k) ((data.take rem).drop k)
        rw [List.take_append_drop, ends_front hf] at hends
        have hrest : rem - k ≤ (data.drop k).length := by
          rw [List.length_drop]
          omega
        have hnext := @ih (rem - k) (by omega) (data.drop k) (rem - k) (array ++ [g (number (data.take k))])
          hrest (by
            rw [← hdrop, List.length_append, List.length_singleton]
            omega) rfl
        rw [numerals_of_some hf, htake, hdrop, Option.map_map]
        simp only [Option.getD_some, fetch, Except.mapError, Bind.bind, Except.bind,
          dif_neg (Nat.ne_of_gt hpos), hparse k data hpos (by omega),
          putElement_eq (g (number (data.take k))) (by omega : array.length < room)]
        have hcons : (fun ns : List Nat => array ++ ns.map g) ∘ (number (data.take k) :: ·) =
            fun ns => array ++ [g (number (data.take k))] ++ ns.map g := by
          funext ns
          simp
        rw [hcons]
        exact hnext

lemma packedBooleans_refines {enough : Prop} {count : Nat} {array : List Bool}
    (hcount : count ≤ data.length) (hroom : array.length + count ≤ room) :
    Refines .rejected enough (packedBooleans room count data array)
      (if (data.take count).all fun b => b ≤ 1 then
        some (array ++ (data.take count).map fun b => decide (b ≠ 0)) else none) := by
  induction count generalizing data array with
  | zero => simp [packedBooleans]
  | succ count ih =>
    cases data with
    | nil => simp at hcount
    | cons b data =>
      rw [List.length_cons] at hcount
      rw [packedBooleans, List.take_succ_cons]
      by_cases hb : 1 < b
      · have hno : decide (b ≤ 1) = false := decide_eq_false (UInt8.not_le.mpr hb)
        rw [if_pos hb, List.all_cons, hno, Bool.false_and]
        exact refines_giveUp fun _ => rfl
      · have hle : decide (b ≤ 1) = true := decide_eq_true (UInt8.not_lt.mp hb)
        have hi := @ih data (array ++ [decide (b ≠ 0)]) (by omega) (by
          rw [List.length_append, List.length_singleton]
          omega)
        rw [if_neg hb, putElement_eq _ (by omega)]
        simp only [Bind.bind, Except.bind, List.all_cons, hle, Bool.true_and]
        simpa using hi

lemma packedWords_refines {enough : Prop} {array : List UInt32} (hrem : rem ≤ data.length)
    (hfour : rem % 4 = 0) (hroom : array.length + rem / 4 ≤ room) :
    Refines .rejected enough (packedWords room rem data array)
      (some (array ++ words (data.take rem))) := by
  have hmul : 4 * (rem / 4) = rem := by omega
  have hcopy := copyWords_eq (by omega : 4 * (rem / 4) ≤ data.length)
  rw [hmul] at hcopy
  have hlen : (words (data.take rem)).length = rem / 4 := by
    rw [words_length, List.length_take, min_eq_left hrem]
  simp only [packedWords, hcopy, fetch, Except.mapError, Bind.bind, Except.bind]
  rw [if_pos (by rw [hlen]; exact hroom)]
  rfl

end Arrays

section Fields

variable {f : FieldDescriptor} {room n : Nat}

/-- The first pass counts the elements that the payload means. -/
lemma packedCells_length {t : FieldType} {bs : List UInt8} {vs : List (Cell t)}
    (h : packedCells bs t = some vs) : payloadCount bs t = some vs.length := by
  cases t with
  | int32 | enum | uint32 | sint32 =>
    obtain ⟨ns, hns, rfl⟩ := Option.map_eq_some_iff.mp h
    rw [payloadCount, List.length_map, numerals_length hns]
    rfl
  | sfixed32 | fixed32 | float =>
    simp only [packedCells] at h
    split at h
    · next hfour =>
      cases h
      rw [payloadCount, if_pos hfour, words_length]
    · cases h
  | bool =>
    simp only [packedCells] at h
    split at h
    · cases h
      rw [payloadCount, List.length_map]
    · cases h
  | string => cases h

lemma elementsOf_length {vs : List (Cell f.type)} (h : elementsOf f r = some vs) :
    recordCount f r = some vs.length := by
  unfold elementsOf at h
  unfold recordCount
  by_cases hp : isPackedRecord f r = true
  · rw [if_pos hp] at h ⊢
    exact packedCells_length h
  · rw [if_neg hp, Option.map_eq_some_iff] at h
    obtain ⟨v, -, rfl⟩ := h
    rw [if_neg hp]
    rfl

lemma parsePackedRepeatedMember_refines (h : m.Of r) {t : FieldType} {array : List (Cell t)}
    (hcount : payloadCount r.payload t = some n) (hroom : array.length + n ≤ room) :
    Refines .rejected (Enough alloc) (parsePackedRepeatedMember room m t array)
      ((packedCells r.payload t).map fun vs => array ++ vs) := by
  obtain ⟨hlen, htake, hle⟩ := h.payload
  rw [← hlen] at htake hle
  -- the types that are written as numerals
  have hloop : ∀ {α : Type} {array : List α} {parse : Nat → List UInt8 → Except Fault α} {g : Nat → α},
      (∀ k (bs : List UInt8), 0 < k → k ≤ bs.length → parse k bs = .ok (g (number (bs.take k)))) →
      array.length + ends r.payload ≤ room →
      Refines .rejected (Enough alloc)
        (packedLoop parse room (m.len - m.lengthPrefixLen).toNat
          (m.data.drop m.lengthPrefixLen.toNat) array)
        (((numerals r.payload).map fun ns => ns.map g).map fun vs => array ++ vs) := by
    intro α array parse g hparse hends
    have hr : Refines .rejected (Enough alloc) (packedLoop parse room _ _ array) _ :=
      packedLoop_refines hparse hle (by rwa [htake])
    rw [htake] at hr
    rwa [Option.map_map]
  cases t with
  | int32 | enum =>
    rw [payloadCount, Option.some.injEq] at hcount
    exact hloop (fun k bs hk hkl => by rw [parseInt32, Protobuf.parseUint32_eq hk hkl]; rfl)
      (by rw [ends, hcount]; exact hroom)
  | uint32 =>
    rw [payloadCount, Option.some.injEq] at hcount
    exact hloop (fun k bs hk hkl => Protobuf.parseUint32_eq hk hkl) (by rw [ends, hcount]; exact hroom)
  | sint32 =>
    rw [payloadCount, Option.some.injEq] at hcount
    exact hloop (fun k bs hk hkl => by rw [Protobuf.parseUint32_eq hk hkl]; rfl)
      (by rw [ends, hcount]; exact hroom)
  | sfixed32 | fixed32 | float =>
    simp only [payloadCount] at hcount
    split at hcount
    · next hfour =>
      cases hcount
      have hr : Refines .rejected (Enough alloc) (packedWords room _ _ array) _ :=
        packedWords_refines hle (by rwa [hlen]) (by rwa [hlen])
      rw [htake] at hr
      simp only [packedCells, if_pos hfour]
      exact hr
    · cases hcount
  | bool =>
    rw [payloadCount, Option.some.injEq] at hcount
    have hr : Refines .rejected (Enough alloc) (packedBooleans room _ _ array) _ :=
      packedBooleans_refines hle (by rwa [hlen, hcount])
    rw [htake] at hr
    simp only [parsePackedRepeatedMember, packedCells]
    by_cases hall : (r.payload.all fun b => b ≤ 1) = true
    · rw [if_pos hall] at hr ⊢
      exact hr
    · rw [if_neg hall] at hr ⊢
      exact hr
  | string => cases hcount

/-- The elements in the array of a repeated field. -/
def arraySize {t : FieldType} : (l : Label) → Member l t → Nat
  | .required, _ => 0
  | .optional, _ => 0
  | .repeated, vs => vs.length

/-- A field takes in a record, if the array of a repeated field has room for what was counted. -/
lemma parseField_refines (h : m.Of r) (l : Label) (v : Member l f.type)
    (hroom : l = .repeated → ∃ n, recordCount f r = some n ∧ arraySize l v + n ≤ room) :
    Refines .rejected (Enough alloc) (parseField alloc room (isPacked f m.wireType) m f.type l v)
      (absorb f r l v) := by
  have hcell := parseRequiredMember_refines alloc h f.type
  cases l with
  | required => exact hcell
  | optional =>
    exact hcell.bind_map fun _ _ => rfl
  | «repeated» =>
    obtain ⟨n, hn, hle⟩ := hroom rfl
    simp only [parseField, absorb, elementsOf, h.isPacked f]
    unfold recordCount at hn
    by_cases hp : isPackedRecord f r = true
    · rw [if_pos hp] at hn ⊢
      rw [if_pos hp]
      exact parsePackedRepeatedMember_refines h hn hle
    · rw [if_neg hp] at hn ⊢
      rw [if_neg hp]
      cases hn
      have hlt : v.length < room := Nat.lt_of_succ_le hle
      rw [Option.map_map]
      exact hcell.bind_map fun w _ => putElement_eq w hlt

end Fields

end Nais.Protobuf
