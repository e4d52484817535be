import Mathlib.Tactic

/-!
# Fixed-size buffers

A `Buffer n` is a static byte array of `n` bytes. A write of consecutive bytes that would
leave the array is refused, so every buffer that a program reaches still has its size.
-/

namespace Nais.Lib.Memory

variable {n : Nat}

@[ext]
structure Buffer (n : Nat) where
  bytes : List UInt8
  size : bytes.length = n
  deriving DecidableEq

/-- A buffer filled with one byte. -/
def Buffer.fill (n : Nat) (b : UInt8) : Buffer n := ⟨List.replicate n b, List.length_replicate⟩

/-- Writes `xs` at the offsets `i, i + 1, …`. -/
def Buffer.write (b : Buffer n) (i : Nat) (xs : List UInt8) : Option (Buffer n) :=
  if h : i + xs.length ≤ n then
    some ⟨b.bytes.take i ++ xs ++ b.bytes.drop (i + xs.length), by
      have := b.size
      simp only [List.length_append, List.length_take, List.length_drop]
      omega⟩
  else none

lemma Buffer.write_eq_some_iff (b b' : Buffer n) (i : Nat) (xs : List UInt8) :
    b.write i xs = some b' ↔ i + xs.length ≤ n ∧
      b'.bytes = b.bytes.take i ++ xs ++ b.bytes.drop (i + xs.length) := by
  unfold Buffer.write
  split_ifs with h
  · simp only [Option.some.injEq, Buffer.ext_iff, h, true_and]
    exact eq_comm
  · simp [h]

lemma Buffer.write_eq_none_iff (b : Buffer n) (i : Nat) (xs : List UInt8) :
    b.write i xs = none ↔ n < i + xs.length := by
  unfold Buffer.write
  split_ifs with h
  · simp only [false_iff]
    omega
  · simp only [true_iff]
    omega

/-- Two adjacent writes are one write. -/
lemma Buffer.write_adjacent (b : Buffer n) (i : Nat) (xs ys : List UInt8) :
    (b.write i xs).bind (fun b' => b'.write (i + xs.length) ys) = b.write i (xs ++ ys) := by
  cases hx : b.write i xs with
  | none =>
    rw [Option.bind_none, eq_comm, write_eq_none_iff, List.length_append]
    have := (b.write_eq_none_iff i xs).mp hx
    omega
  | some b' =>
    obtain ⟨hfit, hb'⟩ := (b.write_eq_some_iff b' i xs).mp hx
    rw [Option.bind_some]
    cases hy : b'.write (i + xs.length) ys with
    | none =>
      have := (b'.write_eq_none_iff (i + xs.length) ys).mp hy
      rw [eq_comm, write_eq_none_iff, List.length_append]
      omega
    | some b'' =>
      obtain ⟨hfit', hb''⟩ := (b'.write_eq_some_iff b'' (i + xs.length) ys).mp hy
      have hsize := b.size
      have hpre : (b.bytes.take i ++ xs).length = i + xs.length := by
        rw [List.length_append, List.length_take]
        omega
      rw [eq_comm, write_eq_some_iff, List.length_append]
      refine ⟨by omega, ?_⟩
      rw [hb'', hb', List.take_left' hpre, List.drop_append, hpre,
        List.drop_eq_nil_of_le (by omega), List.drop_drop, List.nil_append]
      simp only [List.append_assoc]
      congr 4
      omega

lemma Buffer.write_cons_iff {b b' : Buffer n} {i : Nat} {x : UInt8} {xs : List UInt8} :
    b.write i (x :: xs) = some b' ↔
      ∃ b₁, b.write i [x] = some b₁ ∧ b₁.write (i + 1) xs = some b' := by
  rw [← List.singleton_append, ← write_adjacent, List.length_singleton, Option.bind_eq_some_iff]

lemma Buffer.write_nil {b b' : Buffer n} {i : Nat} (h : b.write i [] = some b') : b' = b := by
  obtain ⟨-, hb'⟩ := (b.write_eq_some_iff b' i []).mp h
  ext1
  simpa using hb'

lemma Buffer.exists_write (b : Buffer n) {i : Nat} {xs : List UInt8} (hfit : i + xs.length ≤ n) :
    ∃ b', b.write i xs = some b' := by
  cases h : b.write i xs with
  | none =>
    rw [write_eq_none_iff] at h
    omega
  | some b' => exact ⟨b', rfl⟩

/-- A header is written, then the byte behind the gap that is left for `ys`, then `ys`. -/
lemma Buffer.write_around {b b₁ b₂ b₃ : Buffer n} {xs ys : List UInt8} {e : UInt8}
    (hx : b.write 0 xs = some b₁) (he : b₁.write (ys.length + xs.length) [e] = some b₂)
    (hy : b₂.write xs.length ys = some b₃) :
    b₃.bytes.take (ys.length + xs.length + 1) = xs ++ ys ++ [e] := by
  obtain ⟨hxfit, hx'⟩ := (b.write_eq_some_iff b₁ 0 xs).mp hx
  obtain ⟨hefit, he'⟩ := (b₁.write_eq_some_iff b₂ _ [e]).mp he
  obtain ⟨hyfit, hy'⟩ := (b₂.write_eq_some_iff b₃ _ ys).mp hy
  have hsize := b.size
  have hsize₁ := b₁.size
  rw [List.length_singleton] at hefit
  have hgap : (b₁.bytes.take (ys.length + xs.length)).length = ys.length + xs.length := by
    rw [List.length_take]
    omega
  have hhead : b₂.bytes.take xs.length = xs := by
    rw [he', List.append_assoc, List.take_append_of_le_length (by omega), List.take_take,
      min_eq_left (by omega), hx']
    simp
  have htail : (b₂.bytes.drop (xs.length + ys.length)).take 1 = [e] := by
    rw [he', List.append_assoc, List.drop_append_of_le_length (by omega),
      List.drop_eq_nil_of_le (by omega)]
    rfl
  rw [hy', hhead, List.take_append, List.take_of_length_le (by rw [List.length_append]; omega)]
  have hone : ys.length + xs.length + 1 - (xs ++ ys).length = 1 := by
    rw [List.length_append]
    omega
  rw [hone, htail]

/-- A write leaves the bytes before it alone. -/
lemma Buffer.getElem?_write_before {b b' : Buffer n} {i : Nat} {xs : List UInt8}
    (h : b.write i xs = some b') {j : Nat} (hj : j < i) : b'.bytes[j]? = b.bytes[j]? := by
  obtain ⟨hfit, hb'⟩ := (b.write_eq_some_iff b' i xs).mp h
  have hsize := b.size
  rw [hb', List.append_assoc, List.getElem?_append_left (by rw [List.length_take]; omega),
    List.getElem?_take_of_lt hj]

/-- A write changes the bytes that it covers. -/
lemma Buffer.getElem?_write {b b' : Buffer n} {i : Nat} {xs : List UInt8}
    (h : b.write i xs = some b') (j : Nat) :
    b'.bytes[j]? = if i ≤ j ∧ j < i + xs.length then xs[j - i]? else b.bytes[j]? := by
  obtain ⟨hfit, hb'⟩ := (b.write_eq_some_iff b' i xs).mp h
  have hsize := b.size
  have hlen : (b.bytes.take i).length = i := by
    rw [List.length_take]
    omega
  by_cases hlow : j < i
  · rw [if_neg (by omega), getElem?_write_before h hlow]
  · rw [hb', List.append_assoc, List.getElem?_append_right (by omega), hlen]
    by_cases hhigh : j < i + xs.length
    · rw [if_pos (by omega), List.getElem?_append_left (by omega)]
    · rw [if_neg (by omega), List.getElem?_append_right (by omega), List.getElem?_drop]
      congr 1
      omega

/-- A write is lost when a later one covers it. -/
lemma Buffer.write_covered (b : Buffer n) {i j : Nat} {xs ys : List UInt8} (hij : j ≤ i)
    (hcover : i + xs.length ≤ j + ys.length) :
    (b.write i xs).bind (fun b' => b'.write j ys) = b.write j ys := by
  by_cases hfit : j + ys.length ≤ n
  · obtain ⟨b₁, h₁⟩ := b.exists_write (by omega : i + xs.length ≤ n)
    obtain ⟨b₂, h₂⟩ := b₁.exists_write hfit
    obtain ⟨b₃, h₃⟩ := b.exists_write hfit
    rw [h₁, Option.bind_some, h₂, h₃, Option.some.injEq]
    refine Buffer.ext (List.ext_getElem? fun k => ?_)
    rw [getElem?_write h₂, getElem?_write h₃]
    split
    · rfl
    · rw [getElem?_write h₁, if_neg (by omega)]
  · rw [(b.write_eq_none_iff j ys).mpr (by omega), Option.bind_eq_none_iff]
    intro b₁ _
    rw [write_eq_none_iff]
    omega

/-- Writes to different places can be exchanged. -/
lemma Buffer.write_comm (b : Buffer n) {i j : Nat} {xs ys : List UInt8}
    (hapart : i + xs.length ≤ j) :
    (b.write j ys).bind (fun b' => b'.write i xs) = (b.write i xs).bind (fun b' => b'.write j ys) := by
  by_cases hfit : j + ys.length ≤ n
  · obtain ⟨b₁, h₁⟩ := b.exists_write (by omega : i + xs.length ≤ n)
    obtain ⟨b₂, h₂⟩ := b.exists_write hfit
    obtain ⟨b₃, h₃⟩ := b₁.exists_write hfit
    obtain ⟨b₄, h₄⟩ := b₂.exists_write (by omega : i + xs.length ≤ n)
    rw [h₁, h₂, Option.bind_some, Option.bind_some, h₃, h₄, Option.some.injEq]
    refine Buffer.ext (List.ext_getElem? fun k => ?_)
    rw [getElem?_write h₄, getElem?_write h₃, getElem?_write h₁, getElem?_write h₂]
    split_ifs <;> first | rfl | omega
  · rw [(b.write_eq_none_iff j ys).mpr (by omega), Option.bind_none, eq_comm, Option.bind_eq_none_iff]
    intro b₁ _
    rw [write_eq_none_iff]
    omega

/-- The bytes of a write at offset 0, and the old bytes behind it. -/
lemma Buffer.write_zero {b b' : Buffer n} {xs : List UInt8} (h : b.write 0 xs = some b') :
    b'.bytes = xs ++ b.bytes.drop xs.length := by
  obtain ⟨-, hb'⟩ := (b.write_eq_some_iff b' 0 xs).mp h
  simpa using hb'

end Nais.Lib.Memory
