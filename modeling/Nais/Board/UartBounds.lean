import Nais.Board.UartReader

/-!
# The bounds of the UART receiver

The position is not compared with the size of the buffer, nor the number of LEN bytes with
anything. A LEN value below the number of LEN bytes puts the end of the payload at a position
that was already passed, and everything behind it is stored.
-/

namespace Nais.Board

open Nais.Lib Nais.Lib.Base128 Nais.Lib.Memory

def InInt32 (x : ℤ) : Prop := -2 ^ 31 ≤ x ∧ x < 2 ^ 31

/-- What `binlen` and `multiplier` become fits their types. -/
def NoOverflow (s : SerialLoop) (c : UInt8) : Prop :=
  s.sts = .LEN →
    InInt32 ((c.toNat &&& 127 : ℕ) * s.multiplier.toInt) ∧
    InInt32 (s.binlen.toInt + (c.toNat &&& 127 : ℕ) * s.multiplier.toInt) ∧
    InInt32 (s.multiplier.toInt * 128)

/-- The step stores inside the buffer and overflows no variable. -/
def InBounds (w : Watch) (c : UInt8) : Prop := NoOverflow w.loop c ∧ (w.step c).isOk = true

/-- No fifth LEN byte comes behind a START: the bytes are too few for it, or one of the first
four ends LEN. -/
def ShortLen (q : List UInt8) : Prop := q.length ≤ 8 ∨ continuations (q.drop 4) ≤ 3

/-- Behind every accepted START come at most 512 bytes up to the end of the payload, and no
fifth LEN byte. -/
def Confined (cs : List UInt8) : Prop :=
  Cut Stored (fun _ _ => True) (fun q => q.length ≤ 512 ∧ ShortLen q) cs

/-- No byte behind the buffer, and no fifth LEN byte. -/
def StoresInside (p : List UInt8) (_ : UInt8) : Prop :=
  p.length < 512 ∧ ¬(phase p = .LEN ∧ p.length = 8)

lemma inInt32_natCast {n : ℕ} (hn : n < 2 ^ 31) : InInt32 n := by
  rw [InInt32]
  omega

/-- The first four LEN bytes fit, the fifth shifts `multiplier` out of its type. What is left
of it then is zero. -/
lemma noOverflow_iff {w : Watch} {p : List UInt8} (hw : Framed w p) (c : UInt8) :
    NoOverflow w.loop c ↔ ¬(phase p = .LEN ∧ p.length = 8) := by
  rw [NoOverflow, hw.sts]
  by_cases hl : phase p = .LEN
  · have hp := (phase_eq_len_iff.mp hl).1
    have hlen : (lenField p).length = p.length - 4 := by
      rw [lenField_of_len hl, List.length_drop]
    have hnumber := number_lt (lenField p)
    have hdigit : c.toNat &&& 127 < 128 := by
      rw [and_127]
      exact Nat.mod_lt _ (by norm_num)
    rw [hlen] at hnumber
    simp only [hl, true_and, forall_const, hw.binlen, hw.multiplier, hlen]
    generalize c.toNat &&& 127 = digit at hdigit
    obtain hsmall | hfive | hlarge : p.length ≤ 7 ∨ p.length = 8 ∨ 9 ≤ p.length := by omega
    · have hpow : 128 ^ (p.length - 4) ≤ 128 ^ 3 := Nat.pow_le_pow_right (by norm_num) (by omega)
      have hprod : digit * 128 ^ (p.length - 4) ≤ 127 * 128 ^ 3 := Nat.mul_le_mul (by omega) hpow
      rw [toInt_ofNat_small (by omega), toInt_ofNat_small (by omega), ← Nat.cast_mul, ← Nat.cast_add]
      refine iff_of_true ⟨inInt32_natCast (by omega), inInt32_natCast (by omega), ?_⟩ (by omega)
      exact inInt32_natCast (n := 128 ^ (p.length - 4) * 128) (by omega)
    · have hfour : (BitVec.ofNat 32 (128 ^ (p.length - 4))).toInt = 2 ^ 28 := by
        rw [hfive]
        rfl
      rw [hfour]
      refine iff_of_false ?_ (not_not.mpr hfive)
      rintro ⟨-, -, hout⟩
      exact absurd hout.2 (by norm_num)
    · have hzero : BitVec.ofNat 32 (128 ^ (p.length - 4)) = 0 := by
        apply BitVec.eq_of_toNat_eq
        rw [BitVec.toNat_ofNat]
        apply Nat.mod_eq_zero_of_dvd
        calc 2 ^ 32 ∣ 128 ^ 5 := by norm_num
          _ ∣ 128 ^ (p.length - 4) := pow_dvd_pow 128 (by omega)
      have hlow := BitVec.le_toInt (BitVec.ofNat 32 (number (lenField p)))
      have hhigh := BitVec.toInt_lt (x := BitVec.ofNat 32 (number (lenField p)))
      rw [hzero]
      refine iff_of_true ⟨?_, ?_, ?_⟩ (by omega)
      · simp [InInt32]
      · simpa [InInt32] using ⟨hlow, hhigh⟩
      · simp [InInt32]
  · simp [hl]

lemma inBounds_describes : Describes InBounds StoresInside (fun _ _ => True) where
  idle {w c} hw := by
    refine ⟨fun hs => absurd (hw.sts.symm.trans hs) (by decide), ?_⟩
    by_cases hc : c = RECORD_START
    · obtain ⟨w', hstep, -⟩ := idle_start hw
      rw [hc, hstep]
      rfl
    · obtain ⟨w', hstep, -⟩ := idle_step hw hc
      rw [hstep]
      rfl
  framed {w p c} hw hlen _ := by
    rw [InBounds, StoresInside, noOverflow_iff hw, and_comm]
    refine and_congr_left fun _ => ?_
    by_cases hfull : p.length < 512
    · obtain ⟨w', hstep, -⟩ := framed_step hw hfull c
      rw [hstep]
      exact iff_of_true rfl hfull
    · obtain ⟨e, hfault⟩ := framed_fault hw (not_lt.mp hfull) c
      rw [hfault]
      exact iff_of_false Bool.false_ne_true hfull
  expecting {w p skipped c} hw hc := by
    refine ⟨fun hs => absurd (hw.sts.symm.trans hs) (by decide), ?_⟩
    obtain ⟨w', hstep, -⟩ := expecting_step hw hc
    rw [hstep]
    rfl
  ended {w p skipped} _ hw := by
    refine iff_of_true ⟨fun hs => absurd (hw.sts.symm.trans hs) (by decide), ?_⟩ trivial
    obtain ⟨w', hstep, -⟩ := expecting_end hw
    rw [hstep]
    rfl

lemma restOk_storesInside_iff (q : List UInt8) :
    RestOk StoresInside q ↔ q.length ≤ 512 ∧ ShortLen q := by
  constructor
  · intro h
    refine ⟨?_, ?_⟩
    · by_contra hlong
      obtain ⟨p, c, more, rfl, hp⟩ := exists_split_at (not_le.mp hlong)
      have hin := (h p c ⟨more, by simp⟩ hp.le).1
      omega
    · by_contra hlong
      rw [ShortLen, not_or, not_le, not_le] at hlong
      obtain ⟨p, c, more, rfl, hp⟩ := exists_split_at hlong.1
      have hcont : continuations (p.drop 4) = (p.drop 4).length := by
        by_contra hne
        have hle := continuations_le (p.drop 4)
        have hfour := hlong.2
        have hdrop : (p.drop 4).length = p.length - 4 := List.length_drop
        rw [drop_header_append (by omega), continuations_append, if_neg hne] at hfour
        omega
      exact (h p c ⟨more, by simp⟩ (by omega)).2 ⟨phase_eq_len_iff.mpr ⟨by omega, hcont⟩, hp⟩
  · rintro ⟨hlen, hshort⟩ p c ⟨more, rfl⟩ -
    simp only [List.length_append, List.length_singleton] at hlen
    refine ⟨by omega, ?_⟩
    rintro ⟨hl, hp⟩
    obtain ⟨-, hcont⟩ := phase_eq_len_iff.mp hl
    have hdrop : (p.drop 4).length = p.length - 4 := List.length_drop
    obtain hshort | hfour := hshort
    · simp only [List.length_append, List.length_singleton] at hshort
      omega
    · rw [List.append_assoc, drop_header_append (by omega), continuations_append, if_pos hcont] at hfour
      omega

/-- The receiver stays in its buffer, and its variables in their types, on exactly the
confined streams. -/
theorem serial_loop_in_bounds_iff (rxbuff : Buffer 512) (cs : List UInt8) :
    Always InBounds (.start rxbuff) cs ↔ Confined cs := by
  have hrest : RestOk StoresInside = fun q => q.length ≤ 512 ∧ ShortLen q :=
    funext fun q => propext (restOk_storesInside_iff q)
  rw [Confined, ← hrest]
  exact always_iff_cut inBounds_describes ⟨rfl, rfl, rfl⟩ cs

/-- A LEN of zero puts the end of the payload at the last LEN byte. -/
lemma not_ended_of_zero (k : ℕ) : ¬Ended (List.replicate k 0) := by
  rintro ⟨hlong, hend⟩
  rw [List.length_replicate] at hlong hend
  obtain hshort | hk := Nat.lt_or_ge k 5
  · rw [lenField_short (by rw [List.length_replicate]; omega)] at hlong
    omega
  · obtain ⟨m, rfl⟩ := Nat.exists_eq_add_of_le hk
    have hdrop : (List.replicate (5 + m) (0 : UInt8)).drop 4 = 0 :: List.replicate m 0 := by
      rw [List.drop_replicate, Nat.add_comm 5 m, Nat.add_sub_assoc (by norm_num)]
      rfl
    have hfield : lenField (List.replicate (5 + m) (0 : UInt8)) = [0] := by
      rw [lenField, hdrop]
      rfl
    have hzero : declaredLen (List.replicate (5 + m) 0) = 0 := by
      rw [declaredLen, hfield]
      rfl
    rw [hfield] at hlong
    rw [hzero] at hend
    have hone : [(0 : UInt8)].length = 1 := rfl
    omega

/-- A header of zeros, LEN included, and 508 bytes behind it. -/
theorem serial_loop_leaves_buffer :
    ¬∀ (rxbuff : Buffer 512) (cs : List UInt8), Always InBounds (.start rxbuff) cs := by
  intro h
  have hidle : (Watch.start (Buffer.fill 512 0)).loop.Idle := ⟨rfl, rfl, rfl⟩
  obtain ⟨w, hframed, hopened⟩ :=
    always_opened inBounds_describes hidle (List.not_mem_nil (a := RECORD_START))
  have hin := (hopened _).mp (h (Buffer.fill 512 0) ([] ++ RECORD_START :: List.replicate 513 0))
  have hnot : ∀ p, p <+: List.replicate 513 (0 : UInt8) → ¬Stored p := by
    intro p hp hstored
    rw [(List.prefix_replicate_iff.mp hp).2] at hstored
    exact not_ended_of_zero p.length hstored.1
  rw [always_unended inBounds_describes hframed hnot, restOk_storesInside_iff,
    List.length_replicate] at hin
  exact absurd hin.1 (by norm_num)

end Nais.Board
