import Nais.Lib.Base128

/-!
# Tagged records

A stream of records. Each starts with a key, a base 128 numeral of at most five bytes whose
value is eight times the tag plus the wire type. The wire type says how far the body goes: one
numeral of at most ten bytes, eight bytes, a length of at most five bytes and as many bytes as it
says, or four bytes. Lengths are words of 32 bits.
-/

namespace Nais.Lib.Wire
open Base128

structure Record where
  tag : Nat
  wire : Nat
  /-- The bytes of the length in front of the payload. -/
  prefixLen : Nat
  raw : List UInt8
  deriving DecidableEq, Repr

def Record.payload (r : Record) : List UInt8 := r.raw.drop r.prefixLen

/-- `overlong`: length prefix and payload together do not fit a word. -/
inductive Malformed where
  | malformed
  | overlong
  deriving DecidableEq, Repr

/-- The size of the numeral at the front, if it ends within `max` bytes. -/
def front (max : Nat) (bs : List UInt8) : Option Nat :=
  if continuations bs < max ∧ continuations bs < bs.length then some (continuations bs + 1) else none

/-- The sizes of the body at the front and of the length it starts with. -/
def bodySize (wire : Nat) (bs : List UInt8) : Except Malformed (Nat × Nat) :=
  if wire = 0 then
    match front 10 bs with
    | none => .error .malformed
    | some k => .ok (k, 0)
  else if wire = 1 then
    if bs.length < 8 then .error .malformed else .ok (8, 0)
  else if wire = 2 then
    match front 5 bs with
    | none => .error .malformed
    | some k =>
      if 2 ^ 32 ≤ k + number (bs.take k) % 2 ^ 32 then .error .overlong
      else if bs.length < k + number (bs.take k) % 2 ^ 32 then .error .malformed
      else .ok (k + number (bs.take k) % 2 ^ 32, k)
  else if wire = 5 then
    if bs.length < 4 then .error .malformed else .ok (4, 0)
  else .error .malformed

/-- The record at the front, and the bytes after it. -/
def cutRecord (bs : List UInt8) : Except Malformed (Record × List UInt8) :=
  match front 5 bs with
  | none => .error .malformed
  | some k =>
    let key := number (bs.take k)
    match bodySize (key % 8) (bs.drop k) with
    | .error e => .error e
    | .ok (len, prefixLen) =>
      .ok (⟨key / 8, key % 8, prefixLen, (bs.drop k).take len⟩, (bs.drop k).drop len)

variable {max k wire len prefixLen : Nat} {as bs cs : List UInt8} {r : Record}

lemma front_eq_some_iff : front max bs = some k ↔
    continuations bs < max ∧ continuations bs < bs.length ∧ k = continuations bs + 1 := by
  unfold front
  split
  · next h => simp [h, eq_comm]
  · next h =>
    simp only [reduceCtorEq, false_iff]
    tauto

lemma front_pos (h : front max bs = some k) : 0 < k ∧ k ≤ max ∧ k ≤ bs.length := by
  obtain ⟨hmax, hlen, rfl⟩ := front_eq_some_iff.mp h
  omega

lemma front_append (h : front max bs = some k) (cs : List UInt8) : front max (bs ++ cs) = some k := by
  obtain ⟨hmax, hlen, rfl⟩ := front_eq_some_iff.mp h
  have hcont : continuations (bs ++ cs) = continuations bs := by
    rw [continuations_append, if_neg (by omega)]
  rw [front_eq_some_iff, hcont, List.length_append]
  omega

lemma front_isNumeral (h : IsNumeral bs) (hmax : bs.length ≤ max) (cs : List UInt8) :
    front max (bs ++ cs) = some bs.length := by
  unfold IsNumeral at h
  apply front_append
  rw [front_eq_some_iff]
  omega

lemma take_front_append (h : front max bs = some k) (cs : List UInt8) :
    (bs ++ cs).take k = bs.take k :=
  List.take_append_of_le_length (front_pos h).2.2

/-- Whether a body ends depends on nothing behind it. -/
lemma bodySize_append (h : bodySize wire bs = .ok (len, prefixLen)) (cs : List UInt8) :
    bodySize wire (bs ++ cs) = .ok (len, prefixLen) := by
  have hlen : (bs ++ cs).length = bs.length + cs.length := List.length_append
  unfold bodySize at h ⊢
  split_ifs at h ⊢ <;> try (first | exact h | omega)
  · cases hf : front 10 bs with
    | none => simp [hf] at h
    | some k =>
      rw [front_append hf]
      simpa [hf] using h
  · cases hf : front 5 bs with
    | none => simp [hf] at h
    | some k =>
      simp only [hf, front_append hf, take_front_append hf] at h ⊢
      split_ifs at h ⊢
      · omega
      · exact h

lemma bodySize_le (h : bodySize wire bs = .ok (len, prefixLen)) :
    len ≤ bs.length ∧ prefixLen ≤ len ∧ 0 < len := by
  unfold bodySize at h
  split_ifs at h
  · cases hf : front 10 bs with
    | none => simp [hf] at h
    | some k =>
      have := front_pos hf
      simp only [hf, Except.ok.injEq, Prod.mk.injEq] at h
      omega
  · simp only [Except.ok.injEq, Prod.mk.injEq] at h
    omega
  · cases hf : front 5 bs with
    | none => simp [hf] at h
    | some k =>
      have := front_pos hf
      simp only [hf] at h
      split_ifs at h
      simp only [Except.ok.injEq, Prod.mk.injEq] at h
      omega
  · simp only [Except.ok.injEq, Prod.mk.injEq] at h
    omega

lemma cutRecord_ok_iff : cutRecord bs = .ok (r, cs) ↔ ∃ k len, front 5 bs = some k ∧
    bodySize r.wire (bs.drop k) = .ok (len, r.prefixLen) ∧ r.wire = number (bs.take k) % 8 ∧
    r.tag = number (bs.take k) / 8 ∧ r.raw = (bs.drop k).take len ∧ cs = (bs.drop k).drop len := by
  unfold cutRecord
  cases hf : front 5 bs with
  | none => simp
  | some k =>
    simp only [Option.some.injEq]
    cases hb : bodySize (number (bs.take k) % 8) (bs.drop k) with
    | error e =>
      simp only [reduceCtorEq, false_iff]
      rintro ⟨_, len, rfl, hok, hw, -⟩
      rw [hw, hb] at hok
      cases hok
    | ok p =>
      obtain ⟨len, prefixLen⟩ := p
      simp only [Except.ok.injEq, Prod.mk.injEq]
      constructor
      · rintro ⟨rfl, rfl⟩
        exact ⟨k, len, rfl, hb, rfl, rfl, rfl, rfl⟩
      · obtain ⟨tag, wire, pre, raw⟩ := r
        rintro ⟨_, len', rfl, hok, hw, ht, hr, rfl⟩
        dsimp only at hok hw ht hr
        subst hw ht hr
        rw [hb] at hok
        cases hok
        exact ⟨rfl, rfl⟩

lemma cutRecord_append (h : cutRecord bs = .ok (r, cs)) (ds : List UInt8) :
    cutRecord (bs ++ ds) = .ok (r, cs ++ ds) := by
  obtain ⟨k, len, hf, hb, hw, ht, hr, rfl⟩ := cutRecord_ok_iff.mp h
  have hk := front_pos hf
  have hlen := bodySize_le hb
  rw [cutRecord_ok_iff]
  refine ⟨k, len, front_append hf ds, ?_⟩
  rw [take_front_append hf, List.drop_append_of_le_length hk.2.2,
    List.take_append_of_le_length hlen.1, List.drop_append_of_le_length hlen.1]
  exact ⟨bodySize_append hb ds, hw, ht, hr, rfl⟩

lemma cutRecord_length_lt (h : cutRecord bs = .ok (r, cs)) : cs.length < bs.length := by
  obtain ⟨k, len, hf, hb, -, -, -, rfl⟩ := cutRecord_ok_iff.mp h
  have hk := front_pos hf
  simp only [List.length_drop]
  omega

/-- All records of a stream. -/
def cut (bs : List UInt8) : Except Malformed (List Record) :=
  if bs = [] then .ok []
  else
    match _h : cutRecord bs with
    | .error e => .error e
    | .ok (r, rest) => (cut rest).map (r :: ·)
termination_by bs.length
decreasing_by exact cutRecord_length_lt _h

lemma cut_nil : cut [] = .ok [] := by
  rw [cut, if_pos rfl]

lemma cut_of_error {e : Malformed} (h : cutRecord bs = .error e) (hne : bs ≠ []) :
    cut bs = .error e := by
  rw [cut, if_neg hne]
  split
  · next e' he =>
    rw [h] at he
    cases he
    rfl
  · next he =>
    rw [h] at he
    cases he

lemma cut_of_ok (h : cutRecord bs = .ok (r, cs)) : cut bs = (cut cs).map (r :: ·) := by
  have hne : bs ≠ [] := by
    rintro rfl
    have := cutRecord_length_lt h
    simp at this
  rw [cut, if_neg hne]
  split
  · next he =>
    rw [h] at he
    cases he
  · next he =>
    rw [h] at he
    cases he
    rfl

/-- Every record has a key of at least one byte and a body. -/
lemma cut_length_le {rs : List Record} (h : cut bs = .ok rs) :
    rs.length + (rs.map fun r => r.raw.length).sum ≤ bs.length := by
  induction hn : bs.length using Nat.strong_induction_on generalizing bs rs with
  | _ n ih =>
    by_cases hne : bs = []
    · subst hne
      rw [cut_nil] at h
      cases h
      simp
    · cases hc : cutRecord bs with
      | error e =>
        rw [cut_of_error hc hne] at h
        cases h
      | ok p =>
        obtain ⟨r, rest⟩ := p
        obtain ⟨k, len, hf, hb, -, -, hr, rfl⟩ := cutRecord_ok_iff.mp hc
        have hk := front_pos hf
        have hlen := bodySize_le hb
        rw [cut_of_ok hc] at h
        cases hrest : cut ((bs.drop k).drop len) with
        | error e =>
          rw [hrest] at h
          cases h
        | ok rs' =>
          rw [hrest] at h
          cases h
          have hlt := cutRecord_length_lt hc
          have hi := ih _ (by omega) hrest rfl
          have hraw := congrArg List.length hr
          simp only [List.length_take, List.length_drop] at hlen hraw hi
          simp only [List.length_cons, List.map_cons, List.sum_cons]
          omega

/-- The records of a stream that is continued. -/
theorem cut_append {rs : List Record} (h : cut as = .ok rs) (bs : List UInt8) :
    cut (as ++ bs) = (cut bs).map (rs ++ ·) := by
  induction hn : as.length using Nat.strong_induction_on generalizing as rs with
  | _ n ih =>
    by_cases hne : as = []
    · subst hne
      rw [cut_nil] at h
      cases h
      rw [List.nil_append]
      cases cut bs <;> rfl
    · cases hc : cutRecord as with
      | error e =>
        rw [cut_of_error hc hne] at h
        cases h
      | ok p =>
        obtain ⟨r, rest⟩ := p
        have hlt := cutRecord_length_lt hc
        rw [cut_of_ok hc] at h
        rw [cut_of_ok (cutRecord_append hc bs)]
        cases hrest : cut rest with
        | error e =>
          rw [hrest] at h
          cases h
        | ok rs' =>
          rw [hrest] at h
          cases h
          rw [ih rest.length (by omega) hrest rfl]
          cases cut bs <;> rfl

/-- The records `rs`, and behind them one with the number `tag` whose length `len` overflows. -/
inductive OverlongAfter : List UInt8 → List Record → Nat → Nat → Prop where
  | here {bs : List UInt8} {k : Nat} (key : front 5 bs = some k)
      (body : bodySize (number (bs.take k) % 8) (bs.drop k) = .error .overlong) :
      OverlongAfter bs [] (number (bs.take k) / 8) (number ((bs.drop k).take 5) % 2 ^ 32)
  | there {bs rest : List UInt8} {r : Record} {rs : List Record} {tag len : Nat}
      (cut : cutRecord bs = .ok (r, rest)) (tail : OverlongAfter rest rs tag len) :
      OverlongAfter bs (r :: rs) tag len

lemma cutRecord_overlong_iff : cutRecord bs = .error .overlong ↔
    ∃ k, front 5 bs = some k ∧ bodySize (number (bs.take k) % 8) (bs.drop k) = .error .overlong := by
  unfold cutRecord
  cases front 5 bs with
  | none => simp
  | some k => cases hb : bodySize (number (bs.take k) % 8) (bs.drop k) <;> simp [hb]

lemma cut_eq_overlong_iff :
    cut bs = .error .overlong ↔ ∃ rs tag len, OverlongAfter bs rs tag len := by
  constructor
  · intro h
    induction hn : bs.length using Nat.strong_induction_on generalizing bs with
    | _ n ih =>
      by_cases hne : bs = []
      · rw [hne, cut_nil] at h
        cases h
      · cases hc : cutRecord bs with
        | error e =>
          rw [cut_of_error hc hne, Except.error.injEq] at h
          subst h
          obtain ⟨k, hf, hb⟩ := cutRecord_overlong_iff.mp hc
          exact ⟨[], _, _, .here hf hb⟩
        | ok p =>
          obtain ⟨r, rest⟩ := p
          have hlt := cutRecord_length_lt hc
          rw [cut_of_ok hc] at h
          cases hrest : cut rest with
          | error e =>
            rw [hrest] at h
            cases h
            obtain ⟨rs, tag, len, hover⟩ := ih rest.length (by omega) hrest rfl
            exact ⟨r :: rs, tag, len, .there hc hover⟩
          | ok rs =>
            rw [hrest] at h
            cases h
  · rintro ⟨rs, tag, len, h⟩
    induction h with
    | here hf hb =>
      apply cut_of_error (cutRecord_overlong_iff.mpr ⟨_, hf, hb⟩)
      rintro rfl
      have := front_pos hf
      simp at this
      omega
    | there hc _ ih =>
      rw [cut_of_ok hc, ih]
      rfl

lemma OverlongAfter.unique {rs rs' : List Record} {tag tag' len len' : Nat}
    (h : OverlongAfter bs rs tag len) (h' : OverlongAfter bs rs' tag' len') :
    rs = rs' ∧ tag = tag' ∧ len = len' := by
  induction h generalizing rs' with
  | here hf hb =>
    cases h' with
    | here hf' hb' =>
      rw [hf] at hf'
      cases hf'
      exact ⟨rfl, rfl, rfl⟩
    | there hc _ =>
      rw [cutRecord_overlong_iff.mpr ⟨_, hf, hb⟩] at hc
      cases hc
  | there hc _ ih =>
    cases h' with
    | here hf' hb' =>
      rw [cutRecord_overlong_iff.mpr ⟨_, hf', hb'⟩] at hc
      cases hc
    | there hc' htail =>
      rw [hc] at hc'
      cases hc'
      obtain ⟨rfl, rfl, rfl⟩ := ih htail
      exact ⟨rfl, rfl, rfl⟩

/-- A length overflows only if it has five bytes and is within five of the end of the word. -/
lemma bodySize_overlong (h : bodySize wire bs = .error .overlong) :
    wire = 2 ∧ front 5 bs = some 5 ∧ 2 ^ 32 ≤ 5 + number (bs.take 5) % 2 ^ 32 := by
  unfold bodySize at h
  by_cases h0 : wire = 0
  · rw [if_pos h0] at h
    cases hf : front 10 bs <;> simp [hf] at h
  · rw [if_neg h0] at h
    by_cases h1 : wire = 1
    · rw [if_pos h1] at h
      split at h <;> cases h
    · rw [if_neg h1] at h
      by_cases h2 : wire = 2
      · rw [if_pos h2] at h
        cases hf : front 5 bs with
        | none => simp [hf] at h
        | some k =>
          obtain ⟨-, hfive, hlen⟩ := front_pos hf
          have hlt := number_lt (bs.take k)
          rw [List.length_take, min_eq_left hlen] at hlt
          simp only [hf] at h
          have hover : 2 ^ 32 ≤ k + number (bs.take k) % 2 ^ 32 := by
            split_ifs at h with hover
            · exact hover
            · cases h
          obtain rfl | hfour : k = 5 ∨ k ≤ 4 := by omega
          · exact ⟨h2, rfl, hover⟩
          · have hpow : 128 ^ k ≤ 128 ^ 4 := Nat.pow_le_pow_right (by decide) hfour
            omega
      · rw [if_neg h2] at h
        split_ifs at h <;> cases h

/-- The length itself has no record behind its first byte. -/
lemma overlong_digit (hfive : 5 ≤ bs.length) (hover : 2 ^ 32 ≤ 5 + number (bs.take 5) % 2 ^ 32) {i : Nat}
    (hpos : 1 ≤ i) (hi : i ≤ 4) : ∃ b, bs[i]? = some b ∧ b.toNat % 8 = 7 := by
  have hget : ∀ j, j < 5 → ∃ b, bs[j]? = some b ∧
      number (bs.take (j + 1)) = number (bs.take j) + b.toNat % 128 * 128 ^ j := by
    intro j hj
    have hb := List.getElem?_eq_getElem (by omega : j < bs.length)
    exact ⟨_, hb, number_take_succ hb⟩
  obtain ⟨b₀, -, h0⟩ := hget 0 (by decide)
  obtain ⟨b₁, hb₁, h1⟩ := hget 1 (by decide)
  obtain ⟨b₂, hb₂, h2⟩ := hget 2 (by decide)
  obtain ⟨b₃, hb₃, h3⟩ := hget 3 (by decide)
  obtain ⟨b₄, hb₄, h4⟩ := hget 4 (by decide)
  simp only [List.take_zero, number, zero_add, Nat.reduceAdd] at h0 h1 h2 h3 h4
  obtain rfl | rfl | rfl | rfl : i = 1 ∨ i = 2 ∨ i = 3 ∨ i = 4 := by omega
  · exact ⟨b₁, hb₁, by omega⟩
  · exact ⟨b₂, hb₂, by omega⟩
  · exact ⟨b₃, hb₃, by omega⟩
  · exact ⟨b₄, hb₄, by omega⟩

/-- A numeral is the body of a record of wire type 0. -/
lemma bodySize_numeral (h : IsNumeral bs) (hlen : bs.length ≤ 10) :
    bodySize 0 bs = .ok (bs.length, 0) := by
  have hf := front_isNumeral h hlen []
  rw [List.append_nil] at hf
  simp [bodySize, hf]

/-- The body of a record of wire type 2 is a payload behind its length. -/
lemma bodySize_lengthPrefixed (h : (encode bs.length).length + bs.length < 2 ^ 32) :
    bodySize 2 (encode bs.length ++ bs) =
      .ok ((encode bs.length ++ bs).length, (encode bs.length).length) := by
  have hdigits := encode_length_le 4 bs.length (by omega)
  have hf := front_isNumeral (encode_isNumeral bs.length) hdigits bs
  have hmod : bs.length % 2 ^ 32 = bs.length := Nat.mod_eq_of_lt (by omega)
  simp only [bodySize, hf, List.take_left' rfl, number_encode, hmod, List.length_append]
  rw [if_neg (by omega), if_neg (by omega), if_pos trivial, if_neg (by omega), if_neg (by omega)]

/-- A key and the body that its wire type announces are one record. -/
lemma cutRecord_encode {tag : Nat} (htag : tag < 2 ^ 32) (hwire : wire < 8)
    (hbody : bodySize wire bs = .ok (bs.length, prefixLen)) (cs : List UInt8) :
    cutRecord (encode (8 * tag + wire) ++ bs ++ cs) = .ok (⟨tag, wire, prefixLen, bs⟩, cs) := by
  have hdigits := encode_length_le 4 (8 * tag + wire) (by omega)
  have hf := front_isNumeral (encode_isNumeral (8 * tag + wire)) hdigits bs
  have hw : number (encode (8 * tag + wire)) % 8 = wire := by
    rw [number_encode]
    omega
  have ht : number (encode (8 * tag + wire)) / 8 = tag := by
    rw [number_encode]
    omega
  have hone : cutRecord (encode (8 * tag + wire) ++ bs) = .ok (⟨tag, wire, prefixLen, bs⟩, []) := by
    rw [cutRecord_ok_iff]
    refine ⟨_, bs.length, hf, ?_⟩
    rw [List.take_left' rfl, List.drop_left' rfl, hw, ht, List.take_length, List.drop_length]
    exact ⟨hbody, rfl, rfl, rfl, rfl⟩
  have happ := cutRecord_append hone cs
  rwa [List.nil_append] at happ

/-- A record that can be written down: its body is what its wire type announces. -/
structure Record.Valid (r : Record) : Prop where
  tag_lt : r.tag < 2 ^ 32
  wire_lt : r.wire < 8
  body : bodySize r.wire r.raw = .ok (r.raw.length, r.prefixLen)

def Record.bytes (r : Record) : List UInt8 := encode (8 * r.tag + r.wire) ++ r.raw

/-- Records that are written one behind the other are cut apart again. -/
theorem cut_bytes {rs : List Record} (h : ∀ r ∈ rs, r.Valid) :
    cut (rs.flatMap Record.bytes) = .ok rs := by
  induction rs with
  | nil => exact cut_nil
  | cons r rs ih =>
    obtain ⟨hr, hrs⟩ := List.forall_mem_cons.mp h
    rw [List.flatMap_cons, Record.bytes, cut_of_ok (cutRecord_encode hr.tag_lt hr.wire_lt hr.body _), ih hrs]
    rfl

/-- A body is measured without the bytes behind it. -/
lemma bodySize_take (h : bodySize wire bs = .ok (len, prefixLen)) :
    bodySize wire (bs.take len) = .ok (len, prefixLen) := by
  have hfront : ∀ {max k}, front max bs = some k → k ≤ len → front max (bs.take len) = some k := by
    intro max k hf hk
    obtain ⟨hmax, hlen, rfl⟩ := front_eq_some_iff.mp hf
    have happ := continuations_append (bs.take len) (bs.drop len)
    have hle := continuations_le (bs.take len)
    rw [List.take_append_drop] at happ
    rw [List.length_take] at happ hle
    rw [front_eq_some_iff, List.length_take]
    split at happ <;> omega
  have hle := bodySize_le h
  have hlen : (bs.take len).length = len := by
    rw [List.length_take, min_eq_left hle.1]
  unfold bodySize at h ⊢
  rw [hlen]
  by_cases h0 : wire = 0
  · rw [if_pos h0] at h ⊢
    cases hf : front 10 bs with
    | none => simp [hf] at h
    | some k =>
      simp only [hf, Except.ok.injEq, Prod.mk.injEq] at h
      simp [hfront hf h.1.le, h.1, h.2]
  · rw [if_neg h0] at h ⊢
    by_cases h2 : wire = 2
    · subst h2
      rw [if_neg (by decide), if_pos rfl] at h ⊢
      cases hf : front 5 bs with
      | none => simp [hf] at h
      | some k =>
        simp only [hf] at h
        split_ifs at h
        simp only [Except.ok.injEq, Prod.mk.injEq] at h
        have htake : (bs.take len).take k = bs.take k := by
          rw [List.take_take, min_eq_left (by omega)]
        simp only [hfront hf (by omega), htake]
        rw [if_neg (by omega), if_neg (by omega), h.1, h.2]
    · rw [if_neg h2] at h ⊢
      split_ifs at h ⊢ <;> first
        | exact h
        | (simp only [Except.ok.injEq, Prod.mk.injEq] at h
           omega)

lemma cutRecord_valid (h : cutRecord bs = .ok (r, cs)) : r.Valid := by
  obtain ⟨k, len, hf, hb, hw, ht, hr, -⟩ := cutRecord_ok_iff.mp h
  have hk := front_pos hf
  have hle := bodySize_le hb
  have hlt := number_lt (bs.take k)
  have hpow : 128 ^ (bs.take k).length ≤ 128 ^ 5 :=
    Nat.pow_le_pow_right (by decide) ((List.length_take_le _ _).trans hk.2.1)
  refine ⟨by omega, by omega, ?_⟩
  have hraw : r.raw.length = len := by
    rw [hr, List.length_take, min_eq_left hle.1]
  rw [hraw, hr]
  exact bodySize_take hb

/-- What is cut can be written down. -/
lemma cut_valid {rs : List Record} (h : cut bs = .ok rs) : ∀ r ∈ rs, r.Valid := by
  induction hn : bs.length using Nat.strong_induction_on generalizing bs rs with
  | _ n ih =>
    by_cases hne : bs = []
    · subst hne
      rw [cut_nil] at h
      cases h
      simp
    · cases hc : cutRecord bs with
      | error e =>
        rw [cut_of_error hc hne] at h
        cases h
      | ok p =>
        obtain ⟨r, rest⟩ := p
        have hlt := cutRecord_length_lt hc
        rw [cut_of_ok hc] at h
        cases hrest : cut rest with
        | error e =>
          rw [hrest] at h
          cases h
        | ok rs' =>
          rw [hrest] at h
          cases h
          exact List.forall_mem_cons.mpr ⟨cutRecord_valid hc, ih _ (by omega) hrest rfl⟩

end Nais.Lib.Wire
