import Nais.Protobuf.Meaning

/-!
# Reading numerals

What the loops over the bytes of a tag, a length and a number compute: the value of a base 128
numeral in words of 32 bits, if the numeral ends in time.
-/

namespace Nais.Protobuf
open Board Lib Lib.Base128

variable {data : List UInt8}

lemma and_0x80_eq_zero_iff (b : UInt8) : b &&& 0x80 = 0 ↔ b.toNat < 128 := by
  have h : ∀ i : Fin 256, UInt8.ofNat i.val &&& 0x80 = 0 ↔ i.val < 128 := by decide +kernel
  have hb := h ⟨b.toNat, b.toNat_lt⟩
  rwa [UInt8.ofNat_toNat] at hb

lemma toNat_and_0x7f (b : UInt8) : (b &&& 0x7f).toUInt32.toNat = b.toNat % 128 := by
  rw [UInt8.toNat_toUInt32, UInt8.toNat_and]
  exact and_127 b.toNat

lemma load_of_lt {i : Nat} (h : i < data.length) :
    ∃ b, data[i]? = some b ∧ load data i = .ok b := by
  obtain ⟨b, hb⟩ : ∃ b, data[i]? = some b := ⟨data[i], List.getElem?_eq_getElem h⟩
  exact ⟨b, hb, by rw [load, hb]⟩

/-- A digit is put in front of a word that ends below it. -/
lemma or_digit {a shift : Nat} {d : UInt32} (ha : a < 2 ^ shift) (hshift : shift < 32) :
    UInt32.ofNat a ||| d <<< UInt32.ofNat shift = UInt32.ofNat (a + d.toNat * 2 ^ shift) := by
  have hpow : 2 ^ shift * 2 ^ (32 - shift) = 2 ^ 32 := by
    rw [← pow_add]
    congr 1
    omega
  have hle : 2 ^ shift ≤ 2 ^ 32 := Nat.pow_le_pow_right (by omega) (by omega)
  have hdigit : d.toNat <<< shift % 2 ^ 32 = 2 ^ shift * (d.toNat % 2 ^ (32 - shift)) := by
    rw [Nat.shiftLeft_eq, mul_comm, ← hpow, Nat.mul_mod_mul_left]
  have hsum : (a + d.toNat * 2 ^ shift) % 2 ^ 32 = 2 ^ shift * (d.toNat % 2 ^ (32 - shift)) + a := by
    rw [← hpow, Nat.mod_mul, Nat.add_mul_mod_self_right, Nat.mod_eq_of_lt ha,
      Nat.add_mul_div_right _ _ (Nat.two_pow_pos shift), Nat.div_eq_of_lt ha, zero_add]
    omega
  apply UInt32.toNat_inj.mp
  rw [UInt32.toNat_or, UInt32.toNat_shiftLeft, UInt32.toNat_ofNat', UInt32.toNat_ofNat',
    UInt32.toNat_ofNat', Nat.mod_eq_of_lt (by omega : shift < 2 ^ 32), Nat.mod_eq_of_lt hshift,
    Nat.mod_eq_of_lt (by omega : a < 2 ^ 32), hdigit, hsum, Nat.or_comm,
    ← Nat.two_pow_add_eq_or_of_lt ha]

lemma pow_128 (i : Nat) : 128 ^ i = 2 ^ (7 * i) := by
  rw [pow_mul]
  norm_num

lemma number_take_lt (data : List UInt8) (i : Nat) : number (data.take i) < 128 ^ i :=
  lt_of_lt_of_le (number_lt _) (Nat.pow_le_pow_right (by omega) (List.length_take_le _ _))

/-- One more digit of a word. -/
lemma or_digit_take {i : Nat} {b : UInt8} (hb : data[i]? = some b) (hi : i < 5) :
    UInt32.ofNat (number (data.take i)) ||| (b &&& 0x7f).toUInt32 <<< UInt32.ofNat (7 * i) =
      UInt32.ofNat (number (data.take (i + 1))) := by
  have hlt := number_take_lt data i
  rw [pow_128] at hlt
  rw [or_digit hlt (by omega), number_take_succ hb, toNat_and_0x7f, pow_128]

lemma continuationEnd_eq {len i : Nat} (hlen : len ≤ data.length) (hi : i ≤ continuations data)
    (hil : i ≤ len) : continuationEnd data len i = .ok (min (continuations data) len) := by
  induction hn : len - i using Nat.strong_induction_on generalizing i with
  | _ n ih =>
    rw [continuationEnd]
    by_cases hlt : i < len
    · obtain ⟨b, hb, hload⟩ := load_of_lt (by omega : i < data.length)
      have hstep := lt_continuations_iff hi hb
      simp only [if_pos hlt, hload, Bind.bind, Except.bind, and_0x80_eq_zero_iff]
      by_cases hend : b.toNat < 128
      · rw [if_pos hend]
        congr 1
        omega
      · rw [if_neg hend]
        exact ih (len - (i + 1)) (by omega) (by omega) (by omega) rfl
    · rw [if_neg hlt]
      congr 1
      omega

/-- A numeral ends among the first `len` bytes, and in time. -/
lemma scanVarint_eq {len : Nat} (hlen : len ≤ data.length) :
    scanVarint len data = .ok ((Wire.front 10 (data.take len)).getD 0) := by
  have hcont : continuations (data.take len) = min (continuations data) len := by
    have hle := continuations_le data
    have happ := continuations_append (data.take len) (data.drop len)
    rw [List.take_append_drop, List.length_take, min_eq_left hlen] at happ
    have hle' := continuations_le (data.take len)
    rw [List.length_take, min_eq_left hlen] at hle'
    split at happ <;> omega
  have hten : (if 10 < len then 10 else len) ≤ data.length := by split <;> omega
  simp only [scanVarint, continuationEnd_eq hten (Nat.zero_le _) (Nat.zero_le _), Bind.bind,
    Except.bind, Wire.front, hcont, List.length_take, min_eq_left hlen]
  split <;> split <;> split <;> simp only [Option.getD_some, Option.getD_none] <;>
    first | rfl | (congr 1; omega)

lemma lengthLoop_eq {hdrMax i : Nat} (hmax : hdrMax ≤ data.length) (hfive : hdrMax ≤ 5)
    (hi : i ≤ continuations data) (hil : i ≤ hdrMax) :
    lengthLoop data hdrMax i (UInt32.ofNat (number (data.take i))) (7 * i) =
      .ok (if continuations data < hdrMax then
        (continuations data, UInt32.ofNat (number (data.take (continuations data + 1))))
      else (hdrMax, UInt32.ofNat (number (data.take hdrMax)))) := by
  induction hn : hdrMax - i using Nat.strong_induction_on generalizing i with
  | _ n ih =>
    rw [lengthLoop]
    by_cases hlt : i < hdrMax
    · obtain ⟨b, hb, hload⟩ := load_of_lt (by omega : i < data.length)
      have hstep := lt_continuations_iff hi hb
      simp only [if_pos hlt, hload, Bind.bind, Except.bind, and_0x80_eq_zero_iff,
        or_digit_take hb (by omega : i < 5)]
      by_cases hend : b.toNat < 128
      · have heq : continuations data = i := by omega
        rw [if_pos hend, heq, if_pos hlt]
      · rw [if_neg hend]
        exact ih (hdrMax - (i + 1)) (by omega) (by omega) (by omega) rfl
    · have heq : i = hdrMax := by omega
      rw [if_neg hlt, if_neg (by omega), heq]

/-- The length at the front and the size of its prefix, added in a word. -/
lemma scanLengthPrefixedData_eq (data : List UInt8) (hlen : data.length < 2 ^ 32) :
    scanLengthPrefixedData data.length data =
      match Wire.front 5 data with
      | none => .ok (0, 0)
      | some k =>
        if data.length < (k + number (data.take k)) % 2 ^ 32 then .ok (0, UInt32.ofNat k)
        else .ok (UInt32.ofNat (k + number (data.take k)), UInt32.ofNat k) := by
  have hmax : (if data.length < 5 then data.length else 5) ≤ data.length := by split <;> omega
  have hfive : (if data.length < 5 then data.length else 5) ≤ 5 := by split <;> omega
  have hloop := lengthLoop_eq hmax hfive (Nat.zero_le _) (Nat.zero_le _)
  rw [List.take_zero] at hloop
  change lengthLoop data _ 0 0 0 = _ at hloop
  cases hf : Wire.front 5 data with
  | none =>
    have hno : ¬continuations data < if data.length < 5 then data.length else 5 := by
      unfold Wire.front at hf
      split at hf
      · cases hf
      · split <;> omega
    rw [if_neg hno] at hloop
    simp [scanLengthPrefixedData, hloop, Bind.bind, Except.bind]
  | some k =>
    obtain ⟨hfour, hcont, rfl⟩ := Wire.front_eq_some_iff.mp hf
    have hyes : continuations data < if data.length < 5 then data.length else 5 := by
      split <;> omega
    rw [if_pos hyes] at hloop
    simp only [scanLengthPrefixedData, hloop, Bind.bind, Except.bind, if_neg (Nat.ne_of_lt hyes),
      ← UInt32.ofNat_add, UInt32.toNat_ofNat']

lemma or_tag_digit {rv : Nat} {b : UInt8} {d : UInt32} (hb : data[rv]? = some b)
    (hd : d.toNat = b.toNat % 128) (hrv : 1 ≤ rv) (hfive : rv < 5) :
    UInt32.ofNat (number (data.take rv) / 8) ||| d <<< UInt32.ofNat (7 * rv - 3) =
      UInt32.ofNat (number (data.take (rv + 1)) / 8) := by
  have hpow : 128 ^ rv = 8 * 2 ^ (7 * rv - 3) := by
    rw [pow_128, show 7 * rv = 3 + (7 * rv - 3) by omega, pow_add]
    simp
  have hlt := number_take_lt data rv
  have hsum : number (data.take (rv + 1)) = number (data.take rv) + d.toNat * 2 ^ (7 * rv - 3) * 8 := by
    rw [number_take_succ hb, hpow, hd]
    ring
  rw [or_digit (by omega) (by omega), hsum, Nat.add_mul_div_right _ _ (by omega)]

lemma tagLoop_eq {maxRv rv : Nat} (hmax : maxRv ≤ data.length) (hfive : maxRv ≤ 5) (hpos : 1 ≤ rv)
    (hrv : rv ≤ continuations data) (hrvm : rv ≤ maxRv) :
    tagLoop data maxRv rv (UInt32.ofNat (number (data.take rv) / 8)) (7 * rv - 3) =
      .ok (if continuations data < maxRv then
        some (continuations data + 1, UInt32.ofNat (number (data.take (continuations data + 1)) / 8))
      else none) := by
  induction hn : maxRv - rv using Nat.strong_induction_on generalizing rv with
  | _ n ih =>
    rw [tagLoop]
    by_cases hlt : rv < maxRv
    · obtain ⟨b, hb, hload⟩ := load_of_lt (by omega : rv < data.length)
      have hstep := lt_continuations_iff hrv hb
      simp only [if_pos hlt, hload, Bind.bind, Except.bind, ne_eq, and_0x80_eq_zero_iff]
      by_cases hend : b.toNat < 128
      · have heq : continuations data = rv := by omega
        have hd : b.toUInt32.toNat = b.toNat % 128 := by
          rw [UInt8.toNat_toUInt32]
          omega
        rw [if_neg (by simpa using hend), heq, if_pos hlt, or_tag_digit hb hd hpos (by omega)]
      · have hshift : 7 * rv - 3 + 7 = 7 * (rv + 1) - 3 := by omega
        rw [if_pos hend, or_tag_digit hb (toNat_and_0x7f b) hpos (by omega), hshift]
        exact ih (maxRv - (rv + 1)) (by omega) (by omega) (by omega) (by omega) rfl
    · rw [if_neg hlt, if_neg (by omega)]

lemma parseTagAndWiretype_eq (hne : data ≠ []) :
    parseTagAndWiretype data.length data = .ok ((Wire.front 5 data).map fun k =>
      (k, UInt32.ofNat (number (data.take k) / 8), UInt8.ofNat (number (data.take k) % 8))) := by
  have hpos : 0 < data.length := List.length_pos_iff.mpr hne
  obtain ⟨b, hb, hload⟩ := load_of_lt hpos
  have hone : number (data.take 1) = b.toNat % 128 := by
    have h := number_take_succ hb
    simpa [number] using h
  have hstep := lt_continuations_iff (Nat.zero_le _) hb
  have htag : (b &&& 0x7f).toUInt32 >>> 3 = UInt32.ofNat (number (data.take 1) / 8) := by
    apply UInt32.toNat_inj.mp
    rw [UInt32.toNat_shiftRight, toNat_and_0x7f, UInt32.toNat_ofNat', hone, Nat.shiftRight_eq_div_pow]
    simp only [UInt32.toNat_ofNat, Nat.reduceMod, Nat.reducePow]
    omega
  have hwire : ∀ k, b &&& 7 = UInt8.ofNat (number (data.take (k + 1)) % 8) := by
    intro k
    have hmod : number (data.take (k + 1)) % 8 = b.toNat % 8 := by
      cases data with
      | nil => simp at hb
      | cons c rest =>
        rw [List.getElem?_cons_zero, Option.some.injEq] at hb
        rw [List.take_succ_cons, number, hb]
        omega
    apply UInt8.toNat_inj.mp
    rw [UInt8.toNat_and, UInt8.toNat_ofNat', hmod, Nat.mod_eq_of_lt (by omega)]
    exact Nat.and_two_pow_sub_one_eq_mod b.toNat 3
  have hmax : (if 5 < data.length then 5 else data.length) ≤ data.length := by split <;> omega
  have hfive : (if 5 < data.length then 5 else data.length) ≤ 5 := by split <;> omega
  simp only [parseTagAndWiretype, hload, Bind.bind, Except.bind, and_0x80_eq_zero_iff, htag]
  by_cases hend : b.toNat < 128
  · have hcont : continuations data = 0 := by omega
    rw [if_pos hend, Wire.front_eq_some_iff.mpr ⟨by omega, by omega, rfl⟩, hcont, Option.map_some,
      zero_add, ← hwire 0]
  · have hloop := tagLoop_eq hmax hfive le_rfl (by omega) (by split <;> omega)
    rw [if_neg hend, hloop]
    cases hf : Wire.front 5 data with
    | none =>
      have hno : ¬continuations data < if 5 < data.length then 5 else data.length := by
        unfold Wire.front at hf
        split at hf
        · cases hf
        · split <;> omega
      rw [if_neg hno]
      rfl
    | some k =>
      obtain ⟨hfour, hcont, rfl⟩ := Wire.front_eq_some_iff.mp hf
      have hyes : continuations data < if 5 < data.length then 5 else data.length := by
        split <;> omega
      rw [if_pos hyes, Option.map_some, ← hwire]

lemma maxB128Numbers_eq {len : Nat} (hlen : len ≤ data.length) :
    maxB128Numbers len data = .ok ((data.take len).countP fun b => b &&& 0x80 = 0) := by
  induction data generalizing len with
  | nil =>
    obtain rfl : len = 0 := by simpa using hlen
    rfl
  | cons b data ih =>
    cases len with
    | zero => rfl
    | succ len =>
      rw [List.length_cons] at hlen
      have hrest : len ≤ data.length := by omega
      simp only [maxB128Numbers, ih hrest, Bind.bind, Except.bind, List.take_succ_cons,
        List.countP_cons, decide_eq_true_eq]
      split <;> rfl

/-- The fifth byte is not masked: what the mask would take away does not fit the word. -/
lemma or_last_digit {b : UInt8} (hb : data[4]? = some b) :
    UInt32.ofNat (number (data.take 4)) ||| b.toUInt32 <<< UInt32.ofNat 28 =
      UInt32.ofNat (number (data.take 5)) := by
  have hlt := number_take_lt data 4
  rw [pow_128] at hlt
  have hmod := Nat.mod_add_div b.toNat 128
  rw [or_digit hlt (by omega), number_take_succ hb, UInt8.toNat_toUInt32]
  apply UInt32.toNat_inj.mp
  rw [UInt32.toNat_ofNat', UInt32.toNat_ofNat']
  omega

/-- More than five digits are more than a word. -/
lemma ofNat_number_take (hlen : 5 ≤ data.length) :
    UInt32.ofNat (number (data.take 5)) = UInt32.ofNat (number data) := by
  have happ := number_append (data.take 5) (data.drop 5)
  rw [List.take_append_drop, List.length_take, min_eq_left hlen] at happ
  apply UInt32.toNat_inj.mp
  rw [UInt32.toNat_ofNat', UInt32.toNat_ofNat', happ]
  omega

lemma parseUint32_eq {len : Nat} (hpos : 0 < len) (hlen : len ≤ data.length) :
    parseUint32 len data = .ok (UInt32.ofNat (number (data.take len))) := by
  obtain ⟨b₀, hb₀, hload₀⟩ := load_of_lt (by omega : 0 < data.length)
  have h₀ : (b₀ &&& 0x7f).toUInt32 = UInt32.ofNat (number (data.take 1)) := by
    have h := or_digit_take hb₀ (by omega)
    simpa [number] using h
  simp only [parseUint32, hload₀, Bind.bind, Except.bind, h₀]
  by_cases h1 : 1 < len
  · obtain ⟨b₁, hb₁, hload₁⟩ := load_of_lt (by omega : 1 < data.length)
    have h₁ : UInt32.ofNat (number (data.take 1)) ||| (b₁ &&& 0x7f).toUInt32 <<< 7 = _ :=
      or_digit_take hb₁ (by omega)
    simp only [if_pos h1, hload₁, h₁]
    by_cases h2 : 2 < len
    · obtain ⟨b₂, hb₂, hload₂⟩ := load_of_lt (by omega : 2 < data.length)
      have h₂ : UInt32.ofNat (number (data.take 2)) ||| (b₂ &&& 0x7f).toUInt32 <<< 14 = _ :=
        or_digit_take hb₂ (by omega)
      simp only [if_pos h2, hload₂, h₂]
      by_cases h3 : 3 < len
      · obtain ⟨b₃, hb₃, hload₃⟩ := load_of_lt (by omega : 3 < data.length)
        have h₃ : UInt32.ofNat (number (data.take 3)) ||| (b₃ &&& 0x7f).toUInt32 <<< 21 = _ :=
          or_digit_take hb₃ (by omega)
        simp only [if_pos h3, hload₃, h₃]
        by_cases h4 : 4 < len
        · obtain ⟨b₄, hb₄, hload₄⟩ := load_of_lt (by omega : 4 < data.length)
          have h₄ : UInt32.ofNat (number (data.take 4)) ||| b₄.toUInt32 <<< 28 = _ :=
            or_last_digit hb₄
          have hfive := ofNat_number_take (by rw [List.length_take]; omega : 5 ≤ (data.take len).length)
          rw [List.take_take, min_eq_left (by omega)] at hfive
          rw [if_pos h4, hload₄]
          dsimp only
          rw [h₄, hfive]
        · obtain rfl : len = 4 := by omega
          rw [if_neg h4]
      · obtain rfl : len = 3 := by omega
        rw [if_neg h3]
    · obtain rfl : len = 2 := by omega
      rw [if_neg h2]
  · obtain rfl : len = 1 := by omega
    rw [if_neg h1]

lemma parseBoolean_eq {len i : Nat} (hlen : len ≤ data.length) (hi : i ≤ len) :
    parseBoolean len data i = .ok (((data.take len).drop i).any fun b => b &&& 0x7f ≠ 0) := by
  induction hn : len - i using Nat.strong_induction_on generalizing i with
  | _ n ih =>
    rw [parseBoolean]
    by_cases hlt : i < len
    · obtain ⟨b, hb, hload⟩ := load_of_lt (by omega : i < data.length)
      have hb' : (data.take len)[i]? = some b := by rwa [List.getElem?_take_of_lt hlt]
      obtain ⟨hi', hget⟩ := List.getElem?_eq_some_iff.mp hb'
      rw [List.drop_eq_getElem_cons hi', hget]
      simp only [if_pos hlt, hload, Bind.bind, Except.bind, List.any_cons]
      by_cases hz : b &&& 0x7f ≠ 0
      · simp [hz]
      · rw [if_neg hz, ih (len - (i + 1)) (by omega) (by omega) rfl]
        simp [hz]
    · have hnil : (data.take len).drop i = [] := by
        rw [List.drop_eq_nil_iff, List.length_take]
        omega
      rw [if_neg hlt, hnil]
      rfl

lemma parseFixedUint32_eq (b₀ b₁ b₂ b₃ : UInt8) (rest : List UInt8) :
    parseFixedUint32 (b₀ :: b₁ :: b₂ :: b₃ :: rest) = .ok (littleEndian b₀ b₁ b₂ b₃) := rfl

lemma exists_four_cons (h : 4 ≤ data.length) :
    ∃ b₀ b₁ b₂ b₃ rest, data = b₀ :: b₁ :: b₂ :: b₃ :: rest := by
  obtain ⟨b₀, d₁, rfl⟩ := List.exists_cons_of_length_pos (by omega : 0 < data.length)
  rw [List.length_cons] at h
  obtain ⟨b₁, d₂, rfl⟩ := List.exists_cons_of_length_pos (by omega : 0 < d₁.length)
  rw [List.length_cons] at h
  obtain ⟨b₂, d₃, rfl⟩ := List.exists_cons_of_length_pos (by omega : 0 < d₂.length)
  rw [List.length_cons] at h
  obtain ⟨b₃, d₄, rfl⟩ := List.exists_cons_of_length_pos (by omega : 0 < d₃.length)
  exact ⟨b₀, b₁, b₂, b₃, d₄, rfl⟩

lemma copyWords_eq {count : Nat} (hlen : 4 * count ≤ data.length) :
    copyWords count data = .ok (words (data.take (4 * count))) := by
  induction count generalizing data with
  | zero => rfl
  | succ count ih =>
    obtain ⟨b₀, b₁, b₂, b₃, rest, rfl⟩ := exists_four_cons (by omega : 4 ≤ data.length)
    have hrest : 4 * count ≤ rest.length := by
      simp only [List.length_cons] at hlen
      omega
    have htake : (b₀ :: b₁ :: b₂ :: b₃ :: rest).take (4 * (count + 1)) =
        b₀ :: b₁ :: b₂ :: b₃ :: rest.take (4 * count) := by
      rw [show 4 * (count + 1) = 4 * count + 1 + 1 + 1 + 1 by omega]
      simp only [List.take_succ_cons]
    have hdrop : (b₀ :: b₁ :: b₂ :: b₃ :: rest).drop 4 = rest := rfl
    simp only [copyWords, parseFixedUint32_eq, Bind.bind, Except.bind, hdrop, ih hrest, htake, words]

lemma words_length (data : List UInt8) : (words data).length = data.length / 4 := by
  induction data using words.induct with
  | case1 b₀ b₁ b₂ b₃ rest ih =>
    simp only [words, List.length_cons, ih]
    omega
  | case2 data h =>
    have hlt : data.length < 4 := by
      by_contra hge
      obtain ⟨b₀, b₁, b₂, b₃, rest, hd⟩ := exists_four_cons (by omega : 4 ≤ data.length)
      exact h _ _ _ _ _ hd
    rw [words, List.length_nil]
    · omega
    · exact h

end Nais.Protobuf
