import Mathlib.Tactic

/-!
# Base 128 numerals

A natural number written as bytes of seven bits, least significant first. The top bit of
a byte is its continuation bit: it is set on every byte of a numeral but the last.
`encode` is the shortest numeral of a number, `number` is the value of any byte list read
as digits, and `continuations` counts the leading bytes that announce a further one.
-/

namespace Nais.Lib.Base128

/-- The shortest numeral of `n`. -/
def encode (n : Nat) : List UInt8 :=
  if n < 128 then [UInt8.ofNat n] else UInt8.ofNat (128 + n % 128) :: encode (n / 128)
termination_by n

/-- The value of a list of digits, the continuation bits being ignored. -/
def number : List UInt8 → Nat
  | [] => 0
  | b :: rest => b.toNat % 128 + 128 * number rest

/-- The number of leading bytes that carry the continuation bit. -/
def continuations : List UInt8 → Nat
  | [] => 0
  | b :: rest => if 128 ≤ b.toNat then continuations rest + 1 else 0

/-- A numeral: continuation bits on all bytes but the last, which has none. -/
def IsNumeral (bs : List UInt8) : Prop := bs.length = continuations bs + 1

lemma and_127 (n : Nat) : n &&& 0x7f = n % 128 := Nat.and_two_pow_sub_one_eq_mod n 7

lemma and_128_ne_zero_iff (b : UInt8) : b.toNat &&& 0x80 ≠ 0 ↔ 128 ≤ b.toNat := by
  have h : ∀ i : Fin 256, i.val &&& 0x80 ≠ 0 ↔ 128 ≤ i.val := by decide +kernel
  exact h ⟨b.toNat, b.toNat_lt⟩

lemma continuations_le (bs : List UInt8) : continuations bs ≤ bs.length := by
  induction bs with
  | nil => simp [continuations]
  | cons b rest ih =>
    simp only [continuations, List.length_cons]
    split <;> omega

/-- The digits before the first one without a continuation bit. -/
lemma exists_continuations_split (bs : List UInt8) :
    ∃ hi rest, bs = hi ++ rest ∧ hi.length = continuations bs ∧ (∀ b ∈ hi, 128 ≤ b.toNat) ∧
      ∀ d q, rest = d :: q → d.toNat < 128 := by
  induction bs with
  | nil => exact ⟨[], [], rfl, rfl, by simp, by simp⟩
  | cons b bs ih =>
    by_cases hb : 128 ≤ b.toNat
    · obtain ⟨hi, rest, rfl, hlen, hhi, hrest⟩ := ih
      refine ⟨b :: hi, rest, rfl, ?_, ?_, hrest⟩
      · simp [continuations, hb, hlen]
      · rw [List.forall_mem_cons]
        exact ⟨hb, hhi⟩
    · refine ⟨[], b :: bs, rfl, by simp [continuations, hb], by simp, ?_⟩
      intro d q h
      cases h
      omega

lemma number_append (as bs : List UInt8) :
    number (as ++ bs) = number as + 128 ^ as.length * number bs := by
  induction as with
  | nil => simp [number]
  | cons a rest ih =>
    simp only [List.cons_append, number, ih, List.length_cons, pow_succ]
    ring

lemma number_lt (bs : List UInt8) : number bs < 128 ^ bs.length := by
  induction bs with
  | nil => simp [number]
  | cons b rest ih =>
    rw [number, List.length_cons, pow_succ]
    omega

lemma continuations_append (as bs : List UInt8) :
    continuations (as ++ bs) = if continuations as = as.length then as.length + continuations bs
      else continuations as := by
  induction as with
  | nil => simp [continuations]
  | cons a rest ih =>
    have hle := continuations_le rest
    by_cases ha : 128 ≤ a.toNat
    · simp only [List.cons_append, continuations, ha, ite_true, ih, List.length_cons]
      split <;> split <;> omega
    · simp [continuations, ha]

/-- Behind `i` continuing bytes, the next one decides whether the numeral goes on. -/
lemma lt_continuations_iff {bs : List UInt8} {i : Nat} {b : UInt8} (hi : i ≤ continuations bs)
    (hb : bs[i]? = some b) : i < continuations bs ↔ 128 ≤ b.toNat := by
  induction bs generalizing i with
  | nil => simp at hb
  | cons a rest ih =>
    cases i with
    | zero =>
      rw [List.getElem?_cons_zero, Option.some.injEq] at hb
      subst hb
      by_cases ha : 128 ≤ a.toNat <;> simp [continuations, ha]
    | succ i =>
      rw [List.getElem?_cons_succ] at hb
      by_cases ha : 128 ≤ a.toNat
      · simp only [continuations, ha, ite_true] at hi ⊢
        have hrest := ih (by omega : i ≤ continuations rest) hb
        omega
      · simp [continuations, ha] at hi

/-- The value of one more digit. -/
lemma number_take_succ {bs : List UInt8} {i : Nat} {b : UInt8} (hb : bs[i]? = some b) :
    number (bs.take (i + 1)) = number (bs.take i) + b.toNat % 128 * 128 ^ i := by
  obtain ⟨hlt, rfl⟩ := List.getElem?_eq_some_iff.mp hb
  rw [List.take_succ_eq_append_getElem hlt, number_append, List.length_take, min_eq_left (by omega)]
  simp only [number]
  ring

lemma encode_small {n : Nat} (hn : n < 128) : encode n = [UInt8.ofNat n] := by
  rw [encode, if_pos hn]

lemma encode_large {n : Nat} (hn : 128 ≤ n) :
    encode n = UInt8.ofNat (128 + n % 128) :: encode (n / 128) := by
  rw [encode, if_neg (by omega)]

lemma toNat_last_digit {n : Nat} (hn : n < 128) : (UInt8.ofNat n).toNat = n := by
  rw [UInt8.toNat_ofNat']
  omega

lemma toNat_digit (n : Nat) : (UInt8.ofNat (128 + n % 128)).toNat = 128 + n % 128 := by
  rw [UInt8.toNat_ofNat']
  omega

lemma encode_isNumeral (n : Nat) : IsNumeral (encode n) := by
  induction n using Nat.strong_induction_on with
  | _ n ih =>
    unfold IsNumeral at ih ⊢
    by_cases hn : n < 128
    · simp only [encode_small hn, continuations, toNat_last_digit hn, List.length_singleton]
      rw [if_neg (by omega)]
    · have hrest := ih (n / 128) (by omega)
      have hdigit : 128 ≤ (UInt8.ofNat (128 + n % 128)).toNat := by rw [toNat_digit]; omega
      simp only [encode_large (by omega : 128 ≤ n), List.length_cons, continuations, hdigit, ite_true]
      omega

lemma number_encode (n : Nat) : number (encode n) = n := by
  induction n using Nat.strong_induction_on with
  | _ n ih =>
    by_cases hn : n < 128
    · simp only [encode_small hn, number, toNat_last_digit hn]
      omega
    · simp only [encode_large (by omega : 128 ≤ n), number, toNat_digit, ih (n / 128) (by omega)]
      omega

lemma encode_ne_nil (n : Nat) : encode n ≠ [] := by
  intro h
  have hn := encode_isNumeral n
  simp [h, IsNumeral] at hn

/-- `n` has at most `k + 1` digits when it is below `128 ^ (k + 1)`. -/
lemma encode_length_le (k n : Nat) (hn : n < 128 ^ (k + 1)) : (encode n).length ≤ k + 1 := by
  induction k generalizing n with
  | zero => simp [encode_small (by simpa using hn : n < 128)]
  | succ k ih =>
    by_cases hs : n < 128
    · simp [encode_small hs]
    · have hd : n / 128 < 128 ^ (k + 1) := by
        rw [Nat.div_lt_iff_lt_mul (by decide)]
        simpa [pow_succ] using hn
      simpa [encode_large (by omega : 128 ≤ n)] using ih (n / 128) hd

lemma encode_length_le_iff (k n : Nat) : (encode n).length ≤ k + 1 ↔ n < 128 ^ (k + 1) := by
  refine ⟨fun h => ?_, encode_length_le k n⟩
  have hlt := number_lt (encode n)
  rw [number_encode] at hlt
  exact lt_of_lt_of_le hlt (Nat.pow_le_pow_right (by omega) h)

lemma encode_length_mono {m n : Nat} (h : m ≤ n) : (encode m).length ≤ (encode n).length := by
  obtain ⟨k, hk⟩ : ∃ k, (encode n).length = k + 1 :=
    Nat.exists_eq_add_one.mpr (List.length_pos_iff.mpr (encode_ne_nil n))
  rw [hk, encode_length_le_iff]
  exact lt_of_le_of_lt h ((encode_length_le_iff k n).mp hk.le)

/-- A number that is less than 128 times as large has at most one digit more. -/
lemma encode_length_le_succ {m n : Nat} (h : n / 128 ≤ m) :
    (encode n).length ≤ (encode m).length + 1 := by
  by_cases hn : n < 128
  · simp [encode_small hn]
  · rw [encode_large (by omega), List.length_cons]
    have hmono := encode_length_mono h
    omega

lemma encode_length_one_iff (n : Nat) : (encode n).length = 1 ↔ n < 128 := by
  constructor
  · intro h
    by_contra hn
    simp only [encode_large (by omega : 128 ≤ n), List.length_cons, Nat.add_eq_right,
      List.length_eq_zero_iff] at h
    exact encode_ne_nil _ h
  · intro hn
    simp [encode_small hn]

end Nais.Lib.Base128
