import Nais.Protobuf.Encode
import Nais.Protobuf.Varint

/-!
# Packing writes the bytes down

Every packing function writes the bytes of its value at one place, changes nothing else, and
returns their number. It leaves the buffer only if the bytes do not fit.
-/

namespace Nais.Protobuf
open Board Lib Lib.Base128 Lib.Memory

variable {n : Nat} {b b' : Buffer n} {i j out : Nat} {xs ys bs : List UInt8}

lemma ok_bind {α β : Type} (a : α) (f : α → Except Stop β) : (Except.ok a >>= f) = f a := rfl

section Put

lemma put_eq (b : Buffer n) (i : Nat) (xs : List UInt8) : put b i xs =
    match b.write i xs with
    | some b' => .ok b'
    | none => .error (.fault .outOfBounds) := by
  unfold put store
  cases b.write i xs <;> rfl

lemma put_eq_ok_iff : put b i xs = .ok b' ↔ b.write i xs = some b' := by
  rw [put_eq]
  cases b.write i xs <;> simp

lemma put_fits (h : put b i xs = .ok b') : i + xs.length ≤ n :=
  ((b.write_eq_some_iff b' i xs).mp (put_eq_ok_iff.mp h)).1

/-- Two stores are one sequence of writes. -/
lemma put_put (b : Buffer n) (i j : Nat) (xs ys : List UInt8) :
    put b i xs >>= (fun b => put b j ys) =
      match (b.write i xs).bind (fun b => b.write j ys) with
      | some b' => .ok b'
      | none => .error (.fault .outOfBounds) := by
  rw [put_eq]
  cases b.write i xs with
  | none => rfl
  | some b₁ => exact put_eq b₁ j ys

lemma put_adjacent (b : Buffer n) (i : Nat) (xs ys : List UInt8) :
    put b i xs >>= (fun b => put b (i + xs.length) ys) = put b i (xs ++ ys) := by
  rw [put_put, Buffer.write_adjacent, put_eq]

lemma put_cons (b : Buffer n) (i : Nat) (x : UInt8) (xs : List UInt8) :
    put b i (x :: xs) = put b i [x] >>= fun b => put b (i + 1) xs :=
  (put_adjacent b i [x] xs).symm

lemma put_covered (b : Buffer n) (hij : j ≤ i) (hcover : i + xs.length ≤ j + ys.length) :
    put b i xs >>= (fun b => put b j ys) = put b j ys := by
  rw [put_put, Buffer.write_covered b hij hcover, put_eq]

lemma put_comm (b : Buffer n) (hapart : i + xs.length ≤ j) :
    put b j ys >>= (fun b => put b i xs) = put b i xs >>= fun b => put b j ys := by
  rw [put_put, put_put, Buffer.write_comm b hapart]

lemma put_nil (hout : out ≤ n) : put b out [] = .ok b := by
  obtain ⟨b', hb'⟩ := b.exists_write (by simpa using hout : out + ([] : List UInt8).length ≤ n)
  rw [put_eq_ok_iff, hb', Buffer.write_nil hb']

/-- What was written is there. -/
lemma loadRange_put (h : put b i xs = .ok b') : loadRange b'.bytes i xs.length = .ok xs := by
  obtain ⟨hfit, hb'⟩ := (b.write_eq_some_iff b' i xs).mp (put_eq_ok_iff.mp h)
  have hsize := b.size
  have hlen : (b.bytes.take i).length = i := by
    rw [List.length_take]
    omega
  rw [loadRange, b'.size, if_pos hfit, hb', List.append_assoc, List.drop_left' hlen,
    List.take_left' rfl]

end Put

section Writers

/-- The writer of some bytes. -/
def writing (bs : List UInt8) : Writer n := fun b out =>
  if bs = [] then .ok (0, b) else put b out bs >>= fun b => .ok (bs.length, b)

lemma writing_nil : (writing [] : Writer n) = Writer.nothing := rfl

lemma writing_of_ne_nil (hne : bs ≠ []) (b : Buffer n) (out : Nat) :
    writing bs b out = put b out bs >>= fun b => .ok (bs.length, b) := if_neg hne

/-- No bytes can be written at the end of the buffer, too. -/
lemma writing_of_le (hout : out ≤ n) (b : Buffer n) (bs : List UInt8) :
    writing bs b out = put b out bs >>= fun b => .ok (bs.length, b) := by
  by_cases hne : bs = []
  · subst hne
    rw [put_nil hout]
    rfl
  · exact writing_of_ne_nil hne b out

/-- Bytes, and then whatever comes behind them. -/
lemma writing_append (xs ys : List UInt8) :
    (writing (xs ++ ys) : Writer n) = (writing xs).andThen (writing ys) := by
  funext b out
  unfold Writer.andThen
  by_cases hxs : xs = []
  · subst hxs
    simp only [List.nil_append, writing_nil, Writer.nothing, Bind.bind, Except.bind, add_zero, zero_add]
    cases writing ys b out <;> rfl
  · rw [writing_of_ne_nil (by simp [hxs]), writing_of_ne_nil hxs, ← put_adjacent, List.length_append]
    cases hput : put b out xs with
    | error e => rfl
    | ok b₁ =>
      simp only [Bind.bind, Except.bind, writing_of_le (put_fits hput)]
      cases put b₁ (out + xs.length) ys <;> rfl

lemma packEach_writing {α : Type} {pack : α → Writer n} {bytes : α → List UInt8} {array : List α}
    (h : ∀ v ∈ array, pack v = writing (bytes v)) :
    packEach pack array = writing (array.flatMap bytes) := by
  induction array with
  | nil => rfl
  | cons v array ih =>
    rw [List.forall_mem_cons] at h
    rw [packEach, h.1, ih h.2, List.flatMap_cons, writing_append]

end Writers

section Numerals

lemma or_0x80 (c : UInt8) : c ||| 0x80 = UInt8.ofNat (128 + c.toNat % 128) := by
  have h : ∀ i : Fin 256, UInt8.ofNat i.val ||| 0x80 = UInt8.ofNat (128 + i.val % 128) := by
    decide +kernel
  have hc := h ⟨c.toNat, c.toNat_lt⟩
  rwa [UInt8.ofNat_toNat] at hc

/-- The low byte of a word with the top bit set is a digit. -/
lemma low_or_0x80 {v : UInt32} {k : Nat} (h : v.toNat % 128 = k % 128) :
    v.toUInt8 ||| 0x80 = UInt8.ofNat (128 + k % 128) := by
  rw [or_0x80, UInt32.toNat_toUInt8, ← h]
  congr 2
  omega

lemma toUInt8_of_lt {v : UInt32} (h : v.toNat < 128) : [v.toUInt8] = encode v.toNat := by
  rw [encode_small h, ← UInt32.toUInt8_ofNat', UInt32.ofNat_toNat]

lemma toNat_shiftRight_seven (v : UInt32) : (v >>> 7).toNat = v.toNat / 128 := by
  rw [UInt32.toNat_shiftRight, Nat.shiftRight_eq_div_pow]
  rfl

variable (out) in
/-- The nested conditionals write all digits but the last. -/
lemma uint32PackDigits_eq {depth : Nat} (rv : Nat) {v : UInt32} (hv : v.toNat < 128 ^ (depth + 1)) :
    (uint32PackDigits out depth rv v b >>= fun p =>
      put p.2.2 (out + p.1) [p.2.1.toUInt8] >>= fun b => .ok (p.1 + 1, b)) =
      put b (out + rv) (encode v.toNat) >>= fun b => .ok (rv + (encode v.toNat).length, b) := by
  induction depth generalizing rv v b with
  | zero =>
    rw [zero_add, pow_one] at hv
    rw [uint32PackDigits, ← toUInt8_of_lt hv]
    rfl
  | succ depth ih =>
    rw [uint32PackDigits]
    by_cases hmore : 0x80 ≤ v
    · have hlarge : 128 ≤ v.toNat := UInt32.le_iff_toNat_le.mp hmore
      have hshift := toNat_shiftRight_seven v
      rw [if_pos hmore, encode_large hlarge, low_or_0x80 (k := v.toNat) rfl,
        put_cons b _ _ (encode (v.toNat / 128))]
      cases put b (out + rv) [UInt8.ofNat (128 + v.toNat % 128)] with
      | error e => rfl
      | ok b₁ =>
        have hdigits : (v >>> 7).toNat < 128 ^ (depth + 1) := by
          rw [hshift, Nat.div_lt_iff_lt_mul (by decide), ← pow_succ]
          exact hv
        have hnext := @ih b₁ (rv + 1) _ hdigits
        rw [hshift, ← add_assoc] at hnext
        rw [List.length_cons, add_comm (encode _).length 1, ← add_assoc]
        exact hnext
    · have hsmall : v.toNat < 128 := by
        rw [UInt32.le_iff_toNat_le] at hmore
        exact not_le.mp hmore
      rw [if_neg hmore, ← toUInt8_of_lt hsmall]
      rfl

lemma uint32Pack_eq (v : UInt32) : (uint32Pack v : Writer n) = writing (encode v.toNat) := by
  funext b out
  have hv := v.toNat_lt
  have hdigits : v.toNat < 128 ^ (4 + 1) := by
    norm_num
    omega
  have h := uint32PackDigits_eq (b := b) out 0 hdigits
  simp only [add_zero, zero_add] at h
  rw [writing_of_ne_nil (encode_ne_nil _), ← h]
  rfl

lemma toInt_shiftRight (v : Int32) {k : Int32} {i : Nat}
    (hk : (k.toBitVec.smod 32).toNat = i) : (v >>> k).toInt = v.toInt / 2 ^ i := by
  have h : (v >>> k).toInt = v.toBitVec.toInt >>> (k.toBitVec.smod 32).toNat :=
    BitVec.toInt_sshiftRight'
  rw [h, hk, Int.shiftRight_eq_div_pow]
  norm_num

/-- The low digit of a signed number. -/
lemma toInt_digit {v : Int32} {k : Nat} (h : v.toInt % 128 = (k % 128 : Nat)) :
    v.toUInt32.toUInt8 ||| 0x80 = UInt8.ofNat (128 + k % 128) := by
  have hv := v.toUInt32.toNat_lt
  apply low_or_0x80
  rw [toInt_eq_toUInt32] at h
  split_ifs at h <;> omega

/-- A negative number has ten digits, and the upper ones are the same for all of them. -/
lemma int32Numeral_of_neg {v : Int32} (h : v < 0) : int32Numeral v =
    [v.toUInt32.toUInt8 ||| 0x80, (v >>> 7).toUInt32.toUInt8 ||| 0x80,
      (v >>> 14).toUInt32.toUInt8 ||| 0x80, (v >>> 21).toUInt32.toUInt8 ||| 0x80,
      (v >>> 28).toUInt32.toUInt8 ||| 0x80, 0xff, 0xff, 0xff, 0xff, 0x01] := by
  have hle := v.le_toInt
  have hneg : v.toInt < 0 := Int32.lt_iff_toInt_lt.mp h
  obtain ⟨k, hk⟩ : ∃ k, (v.toInt % 2 ^ 64).toNat = k := ⟨_, rfl⟩
  have hsum : (k : Int) = v.toInt + 2 ^ 64 := by omega
  have h0 := toInt_digit (v := v) (k := k) (by omega)
  have h1 := toInt_digit (v := v >>> 7) (k := k / 128) (by
    rw [toInt_shiftRight v (i := 7) rfl]
    omega)
  have h2 := toInt_digit (v := v >>> 14) (k := k / 128 / 128) (by
    rw [toInt_shiftRight v (i := 14) rfl]
    omega)
  have h3 := toInt_digit (v := v >>> 21) (k := k / 128 / 128 / 128) (by
    rw [toInt_shiftRight v (i := 21) rfl]
    omega)
  have h4 := toInt_digit (v := v >>> 28) (k := k / 128 / 128 / 128 / 128) (by
    rw [toInt_shiftRight v (i := 28) rfl]
    omega)
  -- the digits of the sign
  have hones : k / 128 / 128 / 128 / 128 / 128 = 2 ^ 29 - 1 := by omega
  have hsign : encode (2 ^ 29 - 1) = [0xff, 0xff, 0xff, 0xff, 0x01] := by decide +kernel
  rw [int32Numeral, hk, encode_large (by omega), encode_large (by omega), encode_large (by omega),
    encode_large (by omega), encode_large (by omega), hones, hsign, h0, h1, h2, h3, h4]

lemma int32Pack_eq (v : Int32) : (int32Pack v : Writer n) = writing (int32Numeral v) := by
  funext b out
  unfold int32Pack
  by_cases h : v < 0
  · have hne : int32Numeral v ≠ [] := encode_ne_nil _
    rw [if_pos h, writing_of_ne_nil hne, int32Numeral_of_neg h]
    change _ = put b out ([_] ++ ([_] ++ ([_] ++ ([_] ++ ([_] ++ ([0xff, 0xff, 0xff, 0xff] ++ [0x01])))))) >>= _
    simp only [← put_adjacent, bind_assoc, List.length_cons, List.length_nil, add_assoc,
      Nat.reduceAdd]
  · rw [if_neg h, int32Numeral_of_nonneg h]
    rw [uint32Pack_eq]

lemma uint64PackLoop_eq (out rv : Nat) (hi : UInt32) (b : Buffer n) :
    uint64PackLoop out rv hi b = put b (out + rv) (encode hi.toNat) >>= fun b =>
      .ok (rv + (encode hi.toNat).length, b) := by
  induction hk : hi.toNat using Nat.strong_induction_on generalizing rv hi b with
  | _ k ih =>
    rw [uint64PackLoop]
    subst hk
    by_cases hmore : 128 ≤ hi
    · have hlarge : 128 ≤ hi.toNat := UInt32.le_iff_toNat_le.mp hmore
      have hshift := toNat_shiftRight_seven hi
      rw [dif_pos hmore, encode_large hlarge, low_or_0x80 (k := hi.toNat) rfl,
        put_cons b _ _ (encode (hi.toNat / 128))]
      cases put b (out + rv) [UInt8.ofNat (128 + hi.toNat % 128)] with
      | error e => rfl
      | ok b₁ =>
        have hnext := ih (hi.toNat / 128) (by omega) (rv + 1) (hi >>> 7) b₁ hshift
        rw [← add_assoc] at hnext
        rw [List.length_cons, add_comm (encode _).length 1, ← add_assoc]
        exact hnext
    · have hsmall : hi.toNat < 128 := by
        rw [UInt32.le_iff_toNat_le] at hmore
        exact not_le.mp hmore
      rw [dif_neg hmore, ← toUInt8_of_lt hsmall]
      rfl

/-- The digit across the halves of a word of 64 bits. -/
lemma toNat_middle {hi : UInt32} (lo : UInt32) (hhi : hi.toNat < 8) :
    (hi <<< 4 ||| lo >>> 28).toNat = 2 ^ 4 * hi.toNat + lo.toNat / 2 ^ 28 := by
  have hlo := lo.toNat_lt
  have hshift : (hi <<< 4).toNat = 2 ^ 4 * hi.toNat := by
    rw [UInt32.toNat_shiftLeft, Nat.shiftLeft_eq]
    change hi.toNat * 2 ^ 4 % 2 ^ 32 = _
    omega
  have hdown : (lo >>> 28).toNat = lo.toNat / 2 ^ 28 := by
    rw [UInt32.toNat_shiftRight, Nat.shiftRight_eq_div_pow]
    rfl
  rw [UInt32.toNat_or, hshift, hdown, Nat.two_pow_add_eq_or_of_lt (by omega)]

lemma toNat_shiftRight_lit (v : UInt32) {k : UInt32} {i : Nat} (hk : k.toNat % 32 = i) :
    (v >>> k).toNat = v.toNat / 2 ^ i := by
  rw [UInt32.toNat_shiftRight, Nat.shiftRight_eq_div_pow, hk]

lemma uint64Pack_eq (v : UInt64) : (uint64Pack v : Writer n) = writing (encode v.toNat) := by
  funext b out
  have hv := v.toNat_lt
  obtain ⟨hi, hhi⟩ : ∃ hi, (v >>> 32).toUInt32 = hi := ⟨_, rfl⟩
  obtain ⟨lo, hlo⟩ : ∃ lo, v.toUInt32 = lo := ⟨_, rfl⟩
  have hupper : hi.toNat = v.toNat / 2 ^ 32 := by
    rw [← hhi, UInt64.toNat_toUInt32, UInt64.toNat_shiftRight, Nat.shiftRight_eq_div_pow]
    change v.toNat / 2 ^ 32 % 2 ^ 32 = _
    omega
  have hlower : lo.toNat = v.toNat % 2 ^ 32 := by
    rw [← hlo, UInt64.toNat_toUInt32]
  simp only [uint64Pack, hhi, hlo]
  by_cases hzero : hi = 0
  · have hsame : v.toNat = lo.toNat := by
      rw [hzero] at hupper
      change 0 = _ at hupper
      omega
    rw [if_pos hzero, hsame, uint32Pack_eq]
  · have hpos : 0 < hi.toNat := by
      rw [Nat.pos_iff_ne_zero]
      exact fun h => hzero (UInt32.toNat_inj.mp h)
    have h0 := low_or_0x80 (v := lo) (k := v.toNat) (by omega)
    have h1 := low_or_0x80 (v := lo >>> 7) (k := v.toNat / 128) (by
      rw [toNat_shiftRight_lit lo (i := 7) rfl]
      omega)
    have h2 := low_or_0x80 (v := lo >>> 14) (k := v.toNat / 128 / 128) (by
      rw [toNat_shiftRight_lit lo (i := 14) rfl]
      omega)
    have h3 := low_or_0x80 (v := lo >>> 21) (k := v.toNat / 128 / 128 / 128) (by
      rw [toNat_shiftRight_lit lo (i := 21) rfl]
      omega)
    rw [if_neg hzero, h0, h1, h2, h3, writing_of_ne_nil (encode_ne_nil _),
      encode_large (by omega : 128 ≤ v.toNat),
      encode_large (by omega : 128 ≤ v.toNat / 128),
      encode_large (by omega : 128 ≤ v.toNat / 128 / 128),
      encode_large (by omega : 128 ≤ v.toNat / 128 / 128 / 128)]
    by_cases hsmall : hi < 8
    · have hlt : hi.toNat < 8 := UInt32.lt_iff_toNat_lt.mp hsmall
      have hmid := toNat_middle lo hlt
      have hlast := toUInt8_of_lt (v := hi <<< 4 ||| lo >>> 28) (by omega)
      rw [hmid, show 2 ^ 4 * hi.toNat + lo.toNat / 2 ^ 28 = v.toNat / 128 / 128 / 128 / 128 by omega]
        at hlast
      simp only [if_pos hsmall, ← hlast]
      change _ = put b out ([_] ++ ([_] ++ ([_] ++ ([_] ++ [_])))) >>= _
      simp only [← put_adjacent, bind_assoc, List.length_cons, List.length_nil, add_assoc,
        Nat.reduceAdd]
    · have hge : 8 ≤ hi.toNat := by
        rw [UInt32.lt_iff_toNat_lt] at hsmall
        exact not_lt.mp hsmall
      have hand : (hi &&& 7).toNat = hi.toNat % 8 := by
        rw [UInt32.toNat_and]
        exact Nat.and_two_pow_sub_one_eq_mod hi.toNat 3
      have hmid := toNat_middle lo (by omega : (hi &&& 7).toNat < 8)
      have h4 : ((hi &&& 7) <<< 4 ||| lo >>> 28 ||| 0x80).toUInt8 =
          UInt8.ofNat (128 + v.toNat / 128 / 128 / 128 / 128 % 128) := by
        rw [UInt32.toUInt8_or]
        exact low_or_0x80 (by omega)
      have hrest : (hi >>> 3).toNat = v.toNat / 128 / 128 / 128 / 128 / 128 := by
        rw [toNat_shiftRight_lit hi (i := 3) rfl]
        omega
      simp only [if_neg hsmall, h4, encode_large (by omega : 128 ≤ v.toNat / 128 / 128 / 128 / 128),
        ← hrest, uint64PackLoop_eq]
      change _ = put b out ([_] ++ ([_] ++ ([_] ++ ([_] ++ ([_] ++ encode _))))) >>= _
      simp only [← put_adjacent, bind_assoc, List.length_cons, List.length_nil, add_assoc,
        Nat.reduceAdd, add_comm (encode _).length 5]

lemma tagPack_eq (tag : UInt32) :
    (tagPack tag : Writer n) = writing (encode (8 * tag.toNat)) := by
  have htag := tag.toNat_lt
  unfold tagPack
  split
  · next hsmall =>
    have hlt : tag.toNat < 2 ^ 29 := hsmall
    have hshift : (tag <<< 3).toNat = 8 * tag.toNat := by
      rw [UInt32.toNat_shiftLeft, Nat.shiftLeft_eq]
      change tag.toNat * 2 ^ 3 % 2 ^ 32 = _
      omega
    rw [← hshift]
    exact uint32Pack_eq _
  · have hshift : (tag.toUInt64 <<< 3).toNat = 8 * tag.toNat := by
      rw [UInt64.toNat_shiftLeft, Nat.shiftLeft_eq, UInt32.toNat_toUInt64]
      change tag.toNat * 2 ^ 3 % 2 ^ 64 = _
      omega
    rw [← hshift]
    exact uint64Pack_eq _

end Numerals

section Records

/-- The wire type goes into the three bits that the tag leaves free. -/
lemma encode_key (k : Nat) {wire : Nat} (hwire : wire < 8) :
    ∃ c cs, encode (8 * k) = c :: cs ∧ encode (8 * k + wire) = (c ||| UInt8.ofNat wire) :: cs := by
  by_cases hsmall : 8 * k < 128
  · have h : ∀ i : Fin 16, ∀ w : Fin 8,
        UInt8.ofNat (8 * i.val) ||| UInt8.ofNat w.val = UInt8.ofNat (8 * i.val + w.val) := by
      decide +kernel
    refine ⟨_, [], encode_small hsmall, ?_⟩
    rw [encode_small (by omega), h ⟨k, by omega⟩ ⟨wire, hwire⟩]
  · have h : ∀ i : Fin 16, ∀ w : Fin 8, UInt8.ofNat (128 + 8 * i.val) ||| UInt8.ofNat w.val =
        UInt8.ofNat (128 + (8 * i.val + w.val)) := by decide +kernel
    refine ⟨_, _, encode_large (by omega), ?_⟩
    have hdigit : 8 * k % 128 = 8 * (k % 16) := by omega
    have hsum : (8 * k + wire) % 128 = 8 * (k % 16) + wire := by omega
    have hrest : (8 * k + wire) / 128 = 8 * k / 128 := by omega
    rw [encode_large (by omega), hsum, hrest, hdigit,
      h ⟨k % 16, Nat.mod_lt _ (by decide)⟩ ⟨wire, hwire⟩]

/-- A tag and then its wire type are a key. -/
lemma key_then {α : Type} (tag : UInt32) {wireType : UInt8} (hwire : wireType.toNat < 8)
    (f : Nat → Buffer n → Except Stop α) :
    (tagPack tag b out >>= fun p => orWireType wireType p.2 out >>= f p.1) =
      writing (encode (8 * tag.toNat + wireType.toNat)) b out >>= fun p => f p.1 p.2 := by
  obtain ⟨c, cs, hc, hkey⟩ := encode_key tag.toNat hwire
  rw [UInt8.ofNat_toNat] at hkey
  rw [tagPack_eq, writing_of_ne_nil (encode_ne_nil _), writing_of_ne_nil (encode_ne_nil _), hc, hkey]
  have hover : put b out (c :: cs) >>= (fun b => put b out [c ||| wireType]) =
      put b out ((c ||| wireType) :: cs) := by
    rw [put_cons b out c cs, put_cons b out _ cs, bind_assoc]
    simp only [put_comm _ (by simp : out + [c ||| wireType].length ≤ out + 1), ← bind_assoc]
    rw [put_covered b le_rfl (by simp)]
  cases hput : put b out (c :: cs) with
  | error e =>
    rw [hput] at hover
    rw [← hover]
    rfl
  | ok b₁ =>
    have hload : load b₁.bytes out = .ok c := by
      have hget := Buffer.getElem?_write (put_eq_ok_iff.mp hput) out
      rw [if_pos (by simp), Nat.sub_self, List.getElem?_cons_zero] at hget
      rw [load, hget]
    rw [hput] at hover
    simp only [Bind.bind, Except.bind] at hover ⊢
    rw [← hover]
    simp only [orWireType, hload, fetch, Except.mapError, Bind.bind, Except.bind, List.length_cons]
    cases put b₁ out [c ||| wireType] <;> rfl

/-- A writer that follows some bytes writes inside the buffer. -/
lemma writing_then {w w' : Writer n} (hne : bs ≠ []) (hw : ∀ b out, out ≤ n → w b out = w' b out) :
    (writing bs).andThen w = (writing bs).andThen w' := by
  funext b out
  unfold Writer.andThen
  cases h : writing bs b out with
  | error e => rfl
  | ok p =>
    obtain ⟨k, b₁⟩ := p
    rw [writing_of_ne_nil hne] at h
    obtain ⟨b₂, hput, hb₂⟩ := Refine.bind_eq_ok_iff.mp h
    cases hb₂
    simp only [Bind.bind, Except.bind, hw b₁ _ (put_fits hput)]

/-- A key and a body are a record. -/
lemma record_writing (tag : UInt32) {wireType : UInt8} (hwire : wireType.toNat < 8)
    {w : Writer n} {body : List UInt8} (hw : ∀ b out, out ≤ n → w b out = writing body b out)
    (b : Buffer n) (out : Nat) :
    (tagPack tag b out >>= fun p => orWireType wireType p.2 out >>= fun b =>
      w b (out + p.1) >>= fun q => .ok (p.1 + q.1, q.2)) =
      writing (recordBytes tag wireType.toNat body) b out := by
  rw [key_then tag hwire fun rv b => w b (out + rv) >>= fun q => .ok (rv + q.1, q.2), recordBytes,
    writing_append, ← writing_then (encode_ne_nil _) hw]
  rfl

lemma stringPack_eq {str : List UInt8} (hsmall : strlen str < 2 ^ 32) :
    (stringPack str : Writer n) = writing (encode (strlen str) ++ cString str) := by
  have hlen : (UInt32.ofNat (strlen str)).toNat = strlen str := by
    rw [UInt32.toNat_ofNat', Nat.mod_eq_of_lt hsmall]
  have hcopy : ∀ (b : Buffer n) out, out ≤ n →
      (fun b out => put b out (cString str) >>= fun b => .ok (strlen str, b) : Writer n) b out =
        writing (cString str) b out := fun b out hout => (writing_of_le hout b _).symm
  rw [writing_append, ← writing_then (encode_ne_nil _) hcopy, ← hlen, ← uint32Pack_eq, hlen]
  funext b out
  unfold stringPack Writer.andThen
  cases uint32Pack (UInt32.ofNat (strlen str)) b out with
  | error e => rfl
  | ok p =>
    simp only [Bind.bind, Except.bind]
    cases put p.2 (out + p.1) (cString str) <;> rfl

lemma cellPack_wire (t : FieldType) (v : Cell t) : (cellPack (n := n) t v).1.toNat = wireOf t := by
  cases t <;> rfl

lemma cellPack_eq {t : FieldType} {v : Cell t} (hsmall : (cellBytes t v).length < 2 ^ 32) :
    (cellPack (n := n) t v).2 = writing (cellBytes t v) := by
  cases t with
  | sint32 => exact uint32Pack_eq _
  | enum | int32 => exact int32Pack_eq v
  | uint32 => exact uint32Pack_eq v
  | sfixed32 | fixed32 | float | bool => rfl
  | string =>
    simp only [cellBytes, List.length_append] at hsmall
    exact stringPack_eq (by unfold strlen at *; omega)

lemma requiredFieldPack_eq {f : FieldDescriptor} {v : Cell f.type}
    (hsmall : (fieldBytes f v).length < 2 ^ 32) :
    (requiredFieldPack f v : Writer n) = writing (fieldBytes f v) := by
  funext b out
  have hcell : (cellBytes f.type v).length < 2 ^ 32 := by
    rw [fieldBytes, recordBytes, List.length_append] at hsmall
    omega
  have hlt : (cellPack (n := n) f.type v).1.toNat < 8 := by
    rw [cellPack_wire]
    cases f.type <;> decide
  have hpack : ∀ (b : Buffer n) out, out ≤ n →
      (cellPack f.type v).2 b out = writing (cellBytes f.type v) b out := by
    intro b out _
    rw [cellPack_eq hcell]
  rw [fieldBytes, ← cellPack_wire (n := n) f.type v, ← record_writing f.id hlt hpack]
  rfl

lemma unknownFieldPack_eq {u : UnknownField} (hwire : u.wireType.toNat < 8) :
    (unknownFieldPack u : Writer n) = writing (unknownBytes u) := by
  funext b out
  have hcopy : ∀ (b : Buffer n) out, out ≤ n →
      (fun b out => put b out u.data >>= fun b => .ok (u.data.length, b) : Writer n) b out =
        writing u.data b out := fun b out hout => (writing_of_le hout b _).symm
  rw [unknownBytes, ← record_writing u.tag hwire hcopy]
  unfold unknownFieldPack
  simp only [bind_assoc]
  rfl

end Records

section Packed

lemma flatMap_length_le {α : Type} {bytes : α → List UInt8} {k : Nat} (array : List α)
    (h : ∀ v ∈ array, (bytes v).length ≤ k) : (array.flatMap bytes).length ≤ k * array.length := by
  induction array with
  | nil => simp
  | cons v array ih =>
    rw [List.forall_mem_cons] at h
    have hrest := ih h.2
    rw [List.flatMap_cons, List.length_append, List.length_cons, mul_add]
    omega

lemma le_flatMap_length {α : Type} {bytes : α → List UInt8} {k : Nat} (array : List α)
    (h : ∀ v ∈ array, k ≤ (bytes v).length) : k * array.length ≤ (array.flatMap bytes).length := by
  induction array with
  | nil => simp
  | cons v array ih =>
    rw [List.forall_mem_cons] at h
    have hrest := ih h.2
    rw [List.flatMap_cons, List.length_append, List.length_cons, mul_add]
    omega

lemma wordBytes_length (w : UInt32) : (wordBytes w).length = 4 := rfl

lemma flatMap_wordBytes_length (array : List UInt32) :
    (array.flatMap wordBytes).length = 4 * array.length :=
  le_antisymm (flatMap_length_le array fun w _ => (wordBytes_length w).le)
    (le_flatMap_length array fun w _ => (wordBytes_length w).ge)

/-- An element of a packed field has between one and ten bytes. -/
lemma cellBytes_length {t : FieldType} (ht : t ≠ .string) (v : Cell t) :
    1 ≤ (cellBytes t v).length ∧ (cellBytes t v).length ≤ 10 := by
  have hnumeral : ∀ k, k < 2 ^ 64 → 1 ≤ (encode k).length ∧ (encode k).length ≤ 10 := by
    intro k hk
    exact ⟨List.length_pos_iff.mpr (encode_ne_nil k), encode_length_le 9 k (by omega)⟩
  cases t with
  | sint32 => exact hnumeral _ (by have := (zigzag32 v).toNat_lt; omega)
  | enum | int32 => exact hnumeral _ (by omega)
  | uint32 => exact hnumeral _ (by have := UInt32.toNat_lt v; omega)
  | sfixed32 | fixed32 | float =>
    rw [cellBytes, wordBytes_length]
    omega
  | bool => simp [cellBytes]
  | string => exact absurd rfl ht

/-- The length that is expected for a payload is the right one, or one digit too short. -/
lemma lengthSize_of_payload {t : FieldType} (ht : t ≠ .string) (array : List (Cell t)) :
    getTypeMinSize t * array.length ≤ (packedPayload t array).length ∧
      ((encode (packedPayload t array).length).length =
        (encode (getTypeMinSize t * array.length)).length ∨
      (encode (packedPayload t array).length).length =
        (encode (getTypeMinSize t * array.length)).length + 1) := by
  have hfixed : ∀ k, k = (packedPayload t array).length → k ≤ (packedPayload t array).length ∧
      ((encode (packedPayload t array).length).length = (encode k).length ∨
        (encode (packedPayload t array).length).length = (encode k).length + 1) := by
    rintro k rfl
    exact ⟨le_rfl, .inl rfl⟩
  have hone : array.length ≤ (packedPayload t array).length ∧
      ((encode (packedPayload t array).length).length = (encode array.length).length ∨
        (encode (packedPayload t array).length).length = (encode array.length).length + 1) := by
    have hlow := le_flatMap_length array fun v _ => (cellBytes_length ht v).1
    have hhigh := flatMap_length_le array fun v _ => (cellBytes_length ht v).2
    rw [one_mul] at hlow
    have hmono := encode_length_mono hlow
    have hsucc := encode_length_le_succ (m := array.length) (n := (packedPayload t array).length) (by
      unfold packedPayload
      omega)
    unfold packedPayload at hsucc ⊢
    omega
  cases t with
  | sfixed32 | fixed32 | float => exact hfixed _ (flatMap_wordBytes_length array).symm
  | int32 | enum | sint32 | uint32 | bool | string =>
    rw [getTypeMinSize, one_mul]
    · exact hone
    all_goals simp

lemma packPayload_eq {t : FieldType} (ht : t ≠ .string) {array : List (Cell t)} (hne : array ≠ []) :
    (packPayload t array : Writer n) = writing (packedPayload t array) := by
  have hwords : ∀ {array : List UInt32}, array ≠ [] →
      (fun b out => put b out (array.flatMap wordBytes) >>= fun b => .ok (4 * array.length, b) : Writer n) =
        writing (array.flatMap wordBytes) := by
    intro array hne
    have hlen := flatMap_wordBytes_length array
    have hpos := List.length_pos_iff.mpr hne
    funext b out
    rw [writing_of_ne_nil (by rw [← List.length_pos_iff]; omega), hlen]
  cases t with
  | sfixed32 | fixed32 | float => exact hwords hne
  | sint32 => exact packEach_writing fun v _ => uint32Pack_eq _
  | enum | int32 => exact packEach_writing fun v _ => int32Pack_eq v
  | uint32 => exact packEach_writing fun v _ => uint32Pack_eq v
  | bool => exact packEach_writing fun v _ => rfl
  | string => exact absurd rfl ht

/-- A payload behind the right gap, and then its length. -/
lemma put_length_behind (header payload : List UInt8) (b : Buffer n) (out : Nat) :
    put b (out + header.length) payload >>= (fun b => put b out header) =
      put b out (header ++ payload) := by
  rw [put_comm b le_rfl, put_adjacent]

/-- A payload behind a gap that is one byte too short, its copy one byte further, and then its
length. -/
lemma put_length_moved {header : List UInt8} (payload : List UInt8) {gap : Nat} (hgap : header.length = gap + 1)
    (b : Buffer n) (out : Nat) :
    (put b (out + gap) payload >>= fun b =>
      fetch (loadRange b.bytes (out + gap) payload.length) >>= fun bs =>
        put b (out + gap + 1) bs >>= fun b => put b out header) =
      put b out (header ++ payload) := by
  have hload : (put b (out + gap) payload >>= fun b =>
      fetch (loadRange b.bytes (out + gap) payload.length) >>= fun bs =>
        put b (out + gap + 1) bs >>= fun b => put b out header) =
      put b (out + gap) payload >>= fun b => put b (out + header.length) payload >>= fun b =>
        put b out header := by
    rw [hgap, ← add_assoc]
    cases hput : put b (out + gap) payload with
    | error e => rfl
    | ok b₁ =>
      simp only [Bind.bind, Except.bind, loadRange_put hput, fetch, Except.mapError]
  simp only [hload, put_length_behind]
  exact put_covered b (by omega) (by rw [List.length_append]; omega)

/-- The payload is moved when its length needs the additional byte, and the assertion holds. -/
lemma packedBodyPack_eq {f : FieldDescriptor} (ht : f.type ≠ .string) {array : List (Cell f.type)}
    (hne : array ≠ []) (hpay : (packedPayload f.type array).length < 2 ^ 32) (b : Buffer n)
    (out k : Nat) :
    packedBodyPack f array out k b =
      writing (encode (packedPayload f.type array).length ++ packedPayload f.type array) b (out + k) >>=
        fun q => .ok (k + q.1, q.2) := by
  obtain ⟨hmin, hsizes⟩ := lengthSize_of_payload ht array
  obtain ⟨payload, hpayload⟩ : ∃ bs, packedPayload f.type array = bs := ⟨_, rfl⟩
  have hpacked : payload ≠ [] := by
    have hpos := List.length_pos_iff.mpr hne
    have hone : 1 ≤ getTypeMinSize f.type := by cases f.type <;> decide
    have hmul := Nat.mul_le_mul hone hpos
    rw [hpayload] at hmin
    rw [← List.length_pos_iff]
    omega
  have hword : (UInt32.ofNat payload.length).toNat = payload.length := by
    rw [UInt32.toNat_ofNat', Nat.mod_eq_of_lt (by rwa [← hpayload])]
  rw [packedBodyPack, packPayload_eq ht hne, writing_of_ne_nil (by rw [hpayload]; exact hpacked),
    writing_of_ne_nil (by simp [encode_ne_nil]), uint32Size_ofNat (by omega : _ < 2 ^ 32)]
  rw [hpayload] at hpay hsizes ⊢
  simp only [bind_assoc, ok_bind, uint32Size_ofNat hpay, uint32Pack_eq, hword,
    writing_of_ne_nil (encode_ne_nil _), List.length_append, ← add_assoc]
  obtain hsame | hmore := hsizes
  · simp only [if_neg (not_not.mpr hsame.symm)]
    have hbehind := put_length_behind (encode payload.length) payload b (out + k)
    rw [← hbehind, ← hsame, bind_assoc]
  · simp only [if_pos (by omega : (encode (getTypeMinSize f.type * array.length)).length ≠
      (encode payload.length).length), if_neg (not_not.mpr hmore)]
    have hmoved := put_length_moved payload hmore b (out + k)
    rw [← hmoved]
    simp only [bind_assoc, hmore, ← add_assoc]

/-- An array is a record, or a record for each element. -/
lemma repeatedFieldPack_eq {f : FieldDescriptor} (hf : f.packed = true → f.type ≠ .string)
    {array : List (Cell f.type)} (hsmall : (memberBytes f .repeated array).length < 2 ^ 32) :
    (repeatedFieldPack f array : Writer n) = writing (memberBytes f .repeated array) := by
  rw [memberBytes] at hsmall ⊢
  rw [repeatedFieldPack]
  by_cases hp : f.packed = true
  · rw [if_pos hp] at hsmall ⊢
    rw [if_pos hp]
    by_cases hne : array = []
    · subst hne
      rfl
    · rw [if_neg hne] at hsmall ⊢
      have hpay : (packedPayload f.type array).length < 2 ^ 32 := by
        rw [packedBytes, recordBytes, List.length_append, List.length_append] at hsmall
        omega
      funext b out
      simp only [if_neg (fun h => hne (List.length_eq_zero_iff.mp h) : ¬array.length = 0)]
      refine (key_then f.id (by decide : (2 : UInt8).toNat < 8) (packedBodyPack f array out)).trans ?_
      rw [packedBytes, recordBytes, writing_append]
      unfold Writer.andThen
      simp only [packedBodyPack_eq (hf hp) hne hpay]
      rfl
  · rw [if_neg hp] at hsmall ⊢
    rw [if_neg hp]
    exact packEach_writing fun v hv => requiredFieldPack_eq (by
      have hle := (List.sublist_flatten_of_mem (List.mem_map_of_mem (f := fieldBytes f) hv)).length_le
      rw [← List.flatMap_def] at hle
      omega)

end Packed

section Messages

lemma sum_map_length {α : Type} {size : α → Nat} {bytes : α → List UInt8} {as : List α}
    (h : ∀ a ∈ as, size a = (bytes a).length) : (as.map size).sum = (as.flatMap bytes).length := by
  rw [List.length_flatMap, List.map_congr_left h]

lemma length_le_flatMap {α : Type} (bytes : α → List UInt8) {as : List α} {a : α} (ha : a ∈ as) :
    (bytes a).length ≤ (as.flatMap bytes).length := by
  rw [List.length_flatMap]
  exact List.single_le_sum (fun _ _ => Nat.zero_le _) _ (List.mem_map_of_mem ha)

variable {f : FieldDescriptor}

lemma requiredFieldGetPackedSize_eq {v : Cell f.type} (hsmall : (fieldBytes f v).length < 2 ^ 32) :
    requiredFieldGetPackedSize f v = (fieldBytes f v).length := by
  have hwire : wireOf f.type < 8 := by cases f.type <;> decide
  rw [fieldBytes, recordBytes, List.length_append] at hsmall ⊢
  rw [requiredFieldGetPackedSize, getTagSize_eq f.id hwire, cellSize_eq (by omega)]

lemma repeatedFieldGetPackedSize_eq {array : List (Cell f.type)}
    (hsmall : (memberBytes f .repeated array).length < 2 ^ 32) :
    repeatedFieldGetPackedSize f array = (memberBytes f .repeated array).length := by
  rw [memberBytes] at hsmall ⊢
  rw [repeatedFieldGetPackedSize]
  by_cases hne : array = []
  · subst hne
    simp
  · rw [if_neg (fun h => hne (List.length_eq_zero_iff.mp h))]
    by_cases hp : f.packed = true
    · rw [if_pos hp, if_neg hne, packedBytes, recordBytes, List.length_append, List.length_append]
        at hsmall
      have hsum : (array.map (cellSize f.type)).sum = (packedPayload f.type array).length :=
        sum_map_length fun v hv => cellSize_eq (by
          have hle := length_le_flatMap (cellBytes f.type) hv
          unfold packedPayload at hsmall
          omega)
      simp only [if_pos hp, if_neg hne, hsum, packedBytes, recordBytes, List.length_append]
      rw [uint32Size_ofNat (by omega), getTagSize_eq f.id (by decide : 2 < 8)]
      omega
    · rw [if_neg hp] at hsmall ⊢
      have hsum : (array.map fun v => getTagSize f.id + cellSize f.type v).sum =
          (array.flatMap (fieldBytes f)).length :=
        sum_map_length fun v hv => requiredFieldGetPackedSize_eq (by
          have hle := length_le_flatMap (fieldBytes f) hv
          omega)
      rw [List.sum_map_add, List.map_const', List.sum_replicate, smul_eq_mul, mul_comm] at hsum
      simp only [if_neg hp, hsum]

variable {l : Label}

lemma memberSize_eq {v : Member l f.type} (hsmall : (memberBytes f l v).length < 2 ^ 32) :
    memberSize f l v = (memberBytes f l v).length := by
  cases l with
  | required => exact requiredFieldGetPackedSize_eq hsmall
  | optional =>
    obtain ⟨has, v⟩ := v
    cases has with
    | false => rfl
    | true => exact requiredFieldGetPackedSize_eq hsmall
  | «repeated» => exact repeatedFieldGetPackedSize_eq hsmall

lemma memberPack_eq (hf : f.packed = true → f.type ≠ .string) {v : Member l f.type}
    (hsmall : (memberBytes f l v).length < 2 ^ 32) :
    (memberPack f l v : Writer n) = writing (memberBytes f l v) := by
  cases l with
  | required => exact requiredFieldPack_eq hsmall
  | optional =>
    obtain ⟨has, v⟩ := v
    cases has with
    | false => rfl
    | true => exact requiredFieldPack_eq hsmall
  | «repeated» => exact repeatedFieldPack_eq hf hsmall

variable {desc : MessageDescriptor} {msg : Message desc}

lemma memberBytes_le (msg : Message desc) (f : desc.Index) :
    (memberBytes (desc.field f) (desc.field f).label (msg.members f)).length ≤
      (messageBytes msg).length := by
  have hle := length_le_flatMap (fun f =>
    memberBytes (desc.field f) (desc.field f).label (msg.members f)) (List.mem_finRange f)
  rw [messageBytes, List.length_append]
  omega

/-- The wire types of unknown fields have three bits. -/
def Message.Keyed (msg : Message desc) : Prop := ∀ u ∈ msg.unknownFields, u.wireType.toNat < 8

lemma messagePack_eq (hkeyed : msg.Keyed) (hsmall : (messageBytes msg).length < 2 ^ 32) :
    (protobufCMessagePack msg : Writer n) = writing (messageBytes msg) := by
  rw [protobufCMessagePack, messageBytes, writing_append]
  congr 1
  · refine packEach_writing fun f _ => memberPack_eq (fun hp => ?_) ?_
    · exact desc.packable _ (List.getElem_mem f.isLt) hp
    · exact lt_of_le_of_lt (memberBytes_le msg f) hsmall
  · exact packEach_writing fun u hu => unknownFieldPack_eq (hkeyed u hu)

lemma getPackedSize_eq (hkeyed : msg.Keyed) (hsmall : (messageBytes msg).length < 2 ^ 32) :
    protobufCMessageGetPackedSize msg = (messageBytes msg).length := by
  rw [protobufCMessageGetPackedSize, messageBytes, List.length_append]
  congr 1
  · exact sum_map_length fun f _ => memberSize_eq (lt_of_le_of_lt (memberBytes_le msg f) hsmall)
  · refine sum_map_length fun u hu => ?_
    rw [unknownFieldGetPackedSize, getTagSize_eq u.tag (hkeyed u hu), unknownBytes, recordBytes,
      List.length_append]

/-- Packing writes the bytes of the message, as many as `protobuf_c_message_get_packed_size` says, and
changes no other. It leaves the buffer only if there is less room than that. -/
theorem pack_writes_packed_size (hkeyed : msg.Keyed) (hsmall : (messageBytes msg).length < 2 ^ 32)
    (b : Buffer n) (hout : out ≤ n) :
    (∀ b', protobufCMessagePack msg b out = .ok (protobufCMessageGetPackedSize msg, b') ↔
      out + protobufCMessageGetPackedSize msg ≤ n ∧ b'.bytes = b.bytes.take out ++ messageBytes msg ++
        b.bytes.drop (out + protobufCMessageGetPackedSize msg)) ∧
      ∀ e, protobufCMessagePack msg b out = .error e ↔
        e = .fault .outOfBounds ∧ n < out + protobufCMessageGetPackedSize msg := by
  rw [getPackedSize_eq hkeyed hsmall, messagePack_eq hkeyed hsmall, writing_of_le hout]
  refine ⟨fun b' => ?_, fun e => ?_⟩
  · rw [← Buffer.write_eq_some_iff, ← put_eq_ok_iff]
    cases put b out (messageBytes msg) <;> simp [Bind.bind, Except.bind]
  · rw [← Buffer.write_eq_none_iff b out (messageBytes msg), put_eq]
    cases b.write out (messageBytes msg) <;> simp [Bind.bind, Except.bind, eq_comm]

/-- `Command(id=5)`, with an unknown field. -/
def sampleCommandStruct : Message commandDescriptor where
  members
    | ⟨0, _⟩ => (5 : Int32)
    | ⟨1, _⟩ => (false, (0 : Int32))
    | ⟨2, _⟩ => ([] : List (List UInt8))
    | ⟨3, _⟩ => ([] : List Int32)
  unknownFields := [⟨15, 2, [1, 0x61]⟩]

theorem pack_leaves_short_buffer :
    protobufCMessagePack sampleCommandStruct (Buffer.fill 8 0) 4 = .error (.fault .outOfBounds) := by
  have hkeyed : sampleCommandStruct.Keyed := by
    intro u hu
    rw [List.mem_singleton.mp hu]
    decide
  exact ((pack_writes_packed_size hkeyed (by decide +kernel) (Buffer.fill 8 0) (by decide)).2 _).mpr
    ⟨rfl, by decide +kernel⟩

end Messages

end Nais.Protobuf
