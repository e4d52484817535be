import Nais.Lib.Halt
import Nais.Board.Unmarshall

/-!
# When the unmarshaller returns

`nais_unmarshall` reads LEN for as long as bytes have the continuation bit, and then traces
LEN + 1 bytes with an index of 16 bits. The memory behind the pointer has no end here, so that
nothing but its two loops keeps the function from returning.
-/

namespace Nais.Board

open Nais.Lib Nais.Lib.Halt

inductive Loop where
  | len
  | dump
  | returned
  deriving DecidableEq

/-- The local variables of `nais_unmarshall`, with the loop it is in. -/
structure Dump where
  loop : Loop
  cptr : ℕ
  len : BitVec 32
  multiplier : BitVec 32
  i : UInt16

namespace Dump

/-- One turn of a loop. What comes behind the loops has none of its own. -/
def step (data : ℕ → UInt8) (s : Dump) : Dump := match s.loop with
  | .len =>
    let cptr := s.cptr + 1
    let c := data cptr
    let len := s.len + BitVec.ofNat 32 (c.toNat &&& 127) * s.multiplier
    let multiplier := s.multiplier * 128
    if c.toNat &&& 128 ≠ 0 then
      { s with cptr := cptr, len := len, multiplier := multiplier }
    else ⟨.dump, cptr + 1, len, multiplier, 0⟩
  | .dump =>
    -- `len + 1` does not wrap: where it overflows C leaves the loop undefined, and it is compiled to
    -- the comparison of `i` with `len`
    if (s.i.toNat : ℤ) < s.len.toInt + 1 then { s with i := s.i + 1 }
    else { s with loop := .returned }
  | .returned => s

/-- The flags have been read. -/
def start : Dump := ⟨.len, 3, 0, 1, 0⟩

def Returns (data : ℕ → UInt8) (s : Dump) : Prop := Halts (step data) (·.loop = .returned) s

/-- The `n + 1` bytes behind `cptr`. -/
def bytesBehind (data : ℕ → UInt8) (cptr n : ℕ) : List UInt8 :=
  (List.range (n + 1)).map fun j => data (cptr + 1 + j)

lemma bytesBehind_succ (data : ℕ → UInt8) (cptr n : ℕ) :
    bytesBehind data cptr (n + 1) = data (cptr + 1) :: bytesBehind data (cptr + 1) n := by
  unfold bytesBehind
  rw [List.range_succ_eq_map, List.map_cons, List.map_map]
  congr 1
  apply List.map_congr_left
  intro j _
  rw [Function.comp_apply]
  congr 1
  omega

section Len

variable {data : ℕ → UInt8} {s : Dump} {n : ℕ}

/-- The loop reads on while bytes have the continuation bit, and adds their digits to `len`. -/
lemma iterate_len (hloop : s.loop = .len) (hmore : ∀ j < n, 128 ≤ (data (s.cptr + 1 + j)).toNat)
    (hlast : (data (s.cptr + 1 + n)).toNat < 128) :
    (∀ m < n + 1, ((step data)^[m] s).loop = .len) ∧
      ((step data)^[n + 1] s).loop = .dump ∧ ((step data)^[n + 1] s).i = 0 ∧
      ((step data)^[n + 1] s).len =
        s.len + BitVec.ofNat 32 (Base128.number (bytesBehind data s.cptr n)) * s.multiplier := by
  induction n generalizing s with
  | zero =>
    have hc : ¬(data (s.cptr + 1)).toNat &&& 128 ≠ 0 := by
      rw [Base128.and_128_ne_zero_iff]
      exact Nat.not_le.mpr hlast
    refine ⟨fun m hm => ?_, ?_⟩
    · obtain rfl : m = 0 := by omega
      exact hloop
    · rw [Function.iterate_succ_apply, Function.iterate_zero_apply, step, hloop]
      dsimp only
      rw [if_neg hc]
      simp [bytesBehind, Base128.number, Base128.and_127]
  | succ n ih =>
    have hfirst := hmore 0 n.succ_pos
    have hc : (data (s.cptr + 1)).toNat &&& 128 ≠ 0 := (Base128.and_128_ne_zero_iff _).mpr hfirst
    set next : Dump := { s with
      cptr := s.cptr + 1
      len := s.len + BitVec.ofNat 32 ((data (s.cptr + 1)).toNat &&& 127) * s.multiplier
      multiplier := s.multiplier * 128 } with hnext
    have hstep : step data s = next := by
      rw [step, hloop]
      dsimp only
      rw [if_pos hc, hnext, hloop]
    have hshift : ∀ j, next.cptr + 1 + j = s.cptr + 1 + (j + 1) := fun j => by
      simp only [hnext]
      omega
    obtain ⟨hpath, hdump, hi, hlen⟩ := ih (s := next) hloop
      (fun j hj => by rw [hshift]; exact hmore (j + 1) (by omega)) (by rw [hshift]; exact hlast)
    refine ⟨fun m hm => ?_, ?_⟩
    · cases m with
      | zero => exact hloop
      | succ m =>
        rw [Function.iterate_succ_apply, hstep]
        exact hpath m (by omega)
    · rw [Function.iterate_succ_apply, hstep]
      refine ⟨hdump, hi, ?_⟩
      have h128 : BitVec.ofNat 32 128 = 128 := rfl
      rw [hlen, bytesBehind_succ, Base128.number, BitVec.ofNat_add, BitVec.ofNat_mul, h128]
      simp only [hnext, Base128.and_127]
      ring

end Len

section Trace

variable {data : ℕ → UInt8} {s : Dump}

/-- The index of the trace reaches every bound below 2^16 and no other one. -/
lemma returns_of_dump_iff (hloop : s.loop = .dump) (hi : s.i = 0) :
    Returns data s ↔ s.len.toInt + 1 < 2 ^ 16 := by
  constructor
  · intro hreturns
    by_contra hlarge
    refine not_halts_of_invariant (fun t => t.loop = .dump ∧ t.len = s.len) ?_ ?_ ⟨hloop, rfl⟩
      hreturns
    · rintro t ⟨ht, -⟩ hfinal
      simp [ht] at hfinal
    · rintro t ⟨ht, hlen⟩
      have hindex := t.i.toNat_lt
      rw [step, ht]
      dsimp only
      rw [if_pos (by rw [hlen]; omega)]
      exact ⟨rfl, hlen⟩
  · intro hsmall
    refine halts_of_measure
      (fun t => t.loop ≠ .len ∧ t.len = s.len ∧ (t.i.toNat : ℤ) ≤ max 0 (s.len.toInt + 1))
      (fun t => if t.loop = .dump then 2 ^ 16 - t.i.toNat + 1 else 0) ?_
      ⟨by simp [hloop], rfl, by simp [hi]⟩
    rintro t ⟨hnotlen, hlen, hbound⟩ hnotfinal
    have ht : t.loop = .dump := by
      cases hcase : t.loop with
      | len => exact absurd hcase hnotlen
      | dump => rfl
      | returned => exact absurd hcase hnotfinal
    have hindex := t.i.toNat_lt
    rw [step, ht]
    dsimp only
    by_cases hmore : (t.i.toNat : ℤ) < t.len.toInt + 1
    · rw [if_pos hmore]
      rw [hlen] at hmore
      have hnext : (t.i + 1).toNat = t.i.toNat + 1 := by
        rw [UInt16.toNat_add, UInt16.toNat_one]
        omega
      refine ⟨⟨by simp, hlen, ?_⟩, ?_⟩
      · dsimp only
        rw [hnext]
        omega
      · simp only [if_true, hnext]
        omega
    · rw [if_neg hmore]
      exact ⟨⟨by simp, hlen, hbound⟩, by simp⟩

end Trace

section Start

variable {data : ℕ → UInt8} {n : ℕ}

lemma returns_start_iff (hmore : ∀ j < n, 128 ≤ (data (4 + j)).toNat)
    (hlast : (data (4 + n)).toNat < 128) :
    Returns data start ↔
      (BitVec.ofNat 32 (Base128.number (bytesBehind data 3 n))).toInt + 1 < 2 ^ 16 := by
  obtain ⟨hpath, hdump, hi, hlen⟩ := iterate_len (s := start) rfl hmore hlast
  have hstart : Returns data start ↔ Returns data ((step data)^[n + 1] start) :=
    halts_iterate_iff fun m hm => by simp [hpath m hm]
  rw [hstart, returns_of_dump_iff hdump hi, hlen]
  simp [start]

end Start

/-- Where the bounds of an object of less than 2^16 bytes are kept, the function returns. -/
theorem returns_of_naisUnmarshall (pb : Protobufc) {data : List UInt8} (hsize : data.length < 2 ^ 16)
    {r : Unmarshalled} (h : naisUnmarshall pb data = .ok r) :
    Returns (fun i => data.getD i 0) start := by
  obtain ⟨hcomplete, hfit, -, -⟩ := (naisUnmarshall_ok_iff pb hsize r).mp h
  obtain ⟨hi, rest, hdrop, hcount, hhi, hrest⟩ := Base128.exists_continuations_split (data.drop 4)
  have hget : ∀ j, data.getD (4 + j) 0 = (hi ++ rest).getD j 0 := fun j => by
    rw [← hdrop, List.getD_eq_getElem?_getD, List.getD_eq_getElem?_getD, List.getElem?_drop]
  obtain ⟨d, q, rfl⟩ : ∃ d q, rest = d :: q := by
    cases rest with
    | nil =>
      rw [LenComplete, ← hcount, hdrop] at hcomplete
      simp at hcomplete
    | cons d q => exact ⟨d, q, rfl⟩
  have hfield : bytesBehind (fun i => data.getD i 0) 3 hi.length = lenField data := by
    rw [lenField, ← hcount, hdrop]
    apply List.ext_getElem
    · simp [bytesBehind]
    · intro j hj hj'
      have hlt : j < (hi ++ d :: q).length := by
        rw [List.length_take] at hj'
        omega
      simp only [bytesBehind, List.getElem_map, List.getElem_range, List.getElem_take]
      rw [hget, List.getD_eq_getElem _ _ hlt]
  refine (returns_start_iff (n := hi.length) (fun j hj => ?_) ?_).mpr ?_
  · rw [hget, List.getD_append _ _ _ _ hj, List.getD_eq_getElem _ _ hj]
    exact hhi _ (List.getElem_mem hj)
  · rw [hget, List.getD_append_right _ _ _ _ le_rfl]
    simpa using hrest d q rfl
  · rw [hfield, ofNat_number_lenField, toInt_ofNat_small (by omega)]
    omega

end Dump

end Nais.Board
