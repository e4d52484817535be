import Nais.Board.Uart
import Nais.Board.Unmarshall

/-!
# What the UART receiver takes for a frame

Everything behind an accepted START is stored until the position that the LEN field implies
is reached; from there on everything is ignored until an END. `Cut` divides a stream at these
places. A property of every step of `serial_loop` holds along a stream exactly when it holds
of the pieces.
-/

namespace Nais.Board

open Nais.Lib Nais.Lib.Base128 Nais.Lib.Memory

/-- What `serial_loop` decides with. It does not look at what it has stored. -/
structure Control where
  lineBufPtr : ℕ
  sts : Sts
  binlen : BitVec 32
  multiplier : BitVec 32
  deriving DecidableEq

def SerialLoop.control (s : SerialLoop) : Control := ⟨s.lineBufPtr, s.sts, s.binlen, s.multiplier⟩

/-- The body of the loop, without its memory. -/
def Control.step (s : Control) (c : UInt8) : Control :=
  if c = RECORD_END ∧ s.sts = .EXPECT_END then { s with sts := .WAIT_START, lineBufPtr := 0, binlen := 0 }
  else
    match s.sts with
    | .WAIT_START => if c = RECORD_START then { s with sts := .MSG_TYPE, multiplier := 1 } else s
    | .MSG_TYPE => { s with sts := .SLINE, lineBufPtr := s.lineBufPtr + 1 }
    | .SLINE => { s with sts := .DLINE, lineBufPtr := s.lineBufPtr + 1 }
    | .DLINE => { s with sts := .FLAGS, lineBufPtr := s.lineBufPtr + 1 }
    | .FLAGS => { s with sts := .LEN, lineBufPtr := s.lineBufPtr + 1 }
    | .LEN =>
      { lineBufPtr := s.lineBufPtr + 1
        sts := if c.toNat &&& 128 ≠ 0 then .LEN else .BIN_BLOCK
        binlen := s.binlen + BitVec.ofNat 32 (c.toNat &&& 127) * s.multiplier
        multiplier := s.multiplier * 128 }
    | .BIN_BLOCK =>
      { s with
        lineBufPtr := s.lineBufPtr + 1
        sts := if BitVec.ofNat 32 (s.lineBufPtr + 1) = s.binlen + 5 then .EXPECT_END else .BIN_BLOCK }
    | .EXPECT_END => s

/-- The loop with the bytes received since it last accepted a START, that one included. -/
structure Watch where
  loop : SerialLoop
  received : List UInt8
  deriving DecidableEq

def Watch.start (rxbuff : Buffer 512) : Watch := ⟨.start rxbuff, []⟩

def Watch.step (w : Watch) (c : UInt8) : Except Fault Watch :=
  (serialStep w.loop c).map fun loop =>
    ⟨loop, if w.loop.sts = .WAIT_START ∧ c = RECORD_START then [c] else w.received ++ [c]⟩

/-- Every step of the loop along a stream is `ok`, up to the first fault. -/
def Always (ok : Watch → UInt8 → Prop) : Watch → List UInt8 → Prop
  | _, [] => True
  | w, c :: cs => ok w c ∧ ∀ w', w.step c = .ok w' → Always ok w' cs

/-- Where the loop is behind the bytes `p` that follow a START. -/
def phase (p : List UInt8) : Sts :=
  if p.length = 0 then .MSG_TYPE
  else if p.length = 1 then .SLINE
  else if p.length = 2 then .DLINE
  else if p.length = 3 then .FLAGS
  else if continuations (p.drop 4) = (p.drop 4).length then .LEN
  else .BIN_BLOCK

/-- The last of the bytes is of the payload, and at the position that ends it, in 32 bits. -/
def AtEnd (p : List UInt8) : Prop :=
  4 + (lenField p).length < p.length ∧
    BitVec.ofNat 32 p.length = BitVec.ofNat 32 (number (lenField p)) + 5

/-- The last of the bytes is of the payload, and at the position that ends it. -/
def Ended (p : List UInt8) : Prop :=
  4 + (lenField p).length < p.length ∧ p.length = declaredLen p + 5

/-- All of it is in the buffer. -/
def Stored (p : List UInt8) : Prop := Ended p ∧ p.length ≤ 512

/-- The pieces of a stream: bytes before a START, the bytes `stored` behind it, the bytes
skipped before the END. `rest` is what is asked of the stored bytes, `frame` of those that
are followed by an END. -/
inductive Cut (stored : List UInt8 → Prop) (frame : List UInt8 → List UInt8 → Prop)
    (rest : List UInt8 → Prop) : List UInt8 → Prop
  | quiet {gap : List UInt8} (hgap : RECORD_START ∉ gap) : Cut stored frame rest gap
  | unended {gap tail : List UInt8} (hgap : RECORD_START ∉ gap)
      (htail : ∀ p, p <+: tail → ¬stored p) (hrest : rest tail) :
      Cut stored frame rest (gap ++ RECORD_START :: tail)
  | waiting {gap p skipped : List UInt8} (hgap : RECORD_START ∉ gap) (hp : stored p)
      (hskipped : RECORD_END ∉ skipped) (hrest : rest p) :
      Cut stored frame rest (gap ++ RECORD_START :: (p ++ skipped))
  | closed {gap p skipped more : List UInt8} (hgap : RECORD_START ∉ gap) (hp : stored p)
      (hskipped : RECORD_END ∉ skipped) (hrest : rest p) (hframe : frame p skipped)
      (hmore : Cut stored frame rest more) :
      Cut stored frame rest (gap ++ RECORD_START :: (p ++ (skipped ++ RECORD_END :: more)))

/-- The loop has read `p` behind a START. -/
structure FramedAt (s : Control) (p : List UInt8) : Prop where
  sts : s.sts = phase p
  ptr : s.lineBufPtr = p.length
  binlen : s.binlen = BitVec.ofNat 32 (number (lenField p))
  multiplier : s.multiplier = BitVec.ofNat 32 (128 ^ (lenField p).length)

structure Framed (w : Watch) (p : List UInt8) : Prop where
  received : w.received = RECORD_START :: p
  sts : w.loop.sts = phase p
  ptr : w.loop.lineBufPtr = p.length
  binlen : w.loop.binlen = BitVec.ofNat 32 (number (lenField p))
  multiplier : w.loop.multiplier = BitVec.ofNat 32 (128 ^ (lenField p).length)

/-- The loop waits for END, and has ignored `skipped`. -/
structure Expecting (w : Watch) (p skipped : List UInt8) : Prop where
  received : w.received = RECORD_START :: (p ++ skipped)
  sts : w.loop.sts = .EXPECT_END

/-- What is watched is the run of the loop. -/
theorem watch_run (w : Watch) (cs : List UInt8) :
    (cs.foldlM Watch.step w).map Watch.loop = serialLoop w.loop cs := by
  induction cs generalizing w with
  | nil => rfl
  | cons c cs ih =>
    rw [List.foldlM_cons, serialLoop_cons, Watch.step]
    cases serialStep w.loop c with
    | error e => rfl
    | ok loop => exact ih _

lemma exists_split_at {α : Type} {q : List α} {k : ℕ} (h : k < q.length) :
    ∃ p c more, q = p ++ c :: more ∧ p.length = k := by
  have hsplit := (List.take_append_drop k q).symm
  cases hdrop : q.drop k with
  | nil =>
    have hle := List.drop_eq_nil_iff.mp hdrop
    omega
  | cons c more =>
    rw [hdrop] at hsplit
    exact ⟨q.take k, c, more, hsplit, by rw [List.length_take]; omega⟩

section LenField

variable {p : List UInt8} {c : UInt8}

lemma phase_ne_waitStart (p : List UInt8) : phase p ≠ .WAIT_START := by
  unfold phase
  split_ifs <;> decide

lemma phase_ne_expectEnd (p : List UInt8) : phase p ≠ .EXPECT_END := by
  unfold phase
  split_ifs <;> decide

lemma phase_eq_len_iff :
    phase p = .LEN ↔ 4 ≤ p.length ∧ continuations (p.drop 4) = (p.drop 4).length := by
  unfold phase
  split_ifs with h₀ h₁ h₂ h₃ hcont
  all_goals simp only [false_iff, true_iff, not_and]
  · omega
  · omega
  · omega
  · omega
  · exact ⟨by omega, hcont⟩
  · exact fun _ => hcont

lemma phase_eq_binBlock_iff :
    phase p = .BIN_BLOCK ↔ 4 ≤ p.length ∧ continuations (p.drop 4) ≠ (p.drop 4).length := by
  unfold phase
  split_ifs with h₀ h₁ h₂ h₃ hcont
  all_goals simp only [false_iff, true_iff, not_and]
  · omega
  · omega
  · omega
  · omega
  · exact fun _ => not_not.mpr hcont
  · exact ⟨by omega, hcont⟩

lemma lenField_short (hp : p.length ≤ 4) : lenField p = [] := by
  rw [lenField, List.drop_eq_nil_of_le hp, List.take_nil]

lemma drop_header_append (hp : 4 ≤ p.length) (xs : List UInt8) :
    (p ++ xs).drop 4 = p.drop 4 ++ xs := List.drop_append_of_le_length hp

/-- While it lasts, the LEN field is all that follows the header. -/
lemma lenField_of_len (h : phase p = .LEN) : lenField p = p.drop 4 := by
  rw [lenField, (phase_eq_len_iff.mp h).2]
  exact List.take_of_length_le (Nat.le_succ _)

lemma lenField_append_of_len (h : phase p = .LEN) (c : UInt8) :
    lenField (p ++ [c]) = p.drop 4 ++ [c] := by
  obtain ⟨hp, hcont⟩ := phase_eq_len_iff.mp h
  rw [lenField, drop_header_append hp, continuations_append, if_pos hcont]
  apply List.take_of_length_le
  rw [List.length_append, List.length_singleton]
  omega

/-- Once it has ended, the LEN field does not change. -/
lemma lenField_append_of_block (h : phase p = .BIN_BLOCK) (xs : List UInt8) :
    lenField (p ++ xs) = lenField p := by
  obtain ⟨hp, hcont⟩ := phase_eq_binBlock_iff.mp h
  have hle := continuations_le (p.drop 4)
  rw [lenField, lenField, drop_header_append hp, continuations_append, if_neg hcont]
  exact List.take_append_of_le_length (by omega)

lemma length_lenField_of_block (h : phase p = .BIN_BLOCK) :
    (lenField p).length = continuations (p.drop 4) + 1 ∧ 4 + (lenField p).length ≤ p.length := by
  obtain ⟨hp, hcont⟩ := phase_eq_binBlock_iff.mp h
  have hle := continuations_le (p.drop 4)
  have hlen : (p.drop 4).length = p.length - 4 := List.length_drop
  have hfield : (lenField p).length = min (continuations (p.drop 4) + 1) (p.drop 4).length := by
    rw [lenField, List.length_take]
  omega

lemma phase_append_of_len (h : phase p = .LEN) (c : UInt8) :
    phase (p ++ [c]) = if 128 ≤ c.toNat then .LEN else .BIN_BLOCK := by
  obtain ⟨hp, hcont⟩ := phase_eq_len_iff.mp h
  have hlong : 4 ≤ (p ++ [c]).length := by
    rw [List.length_append]
    omega
  have hiff : continuations ((p ++ [c]).drop 4) = ((p ++ [c]).drop 4).length ↔ 128 ≤ c.toNat := by
    rw [drop_header_append hp, continuations_append, if_pos hcont, List.length_append]
    simp only [continuations, List.length_singleton, Nat.add_left_cancel_iff]
    split_ifs with hc <;> simp [hc]
  split_ifs with hc
  · exact phase_eq_len_iff.mpr ⟨hlong, hiff.mpr hc⟩
  · exact phase_eq_binBlock_iff.mpr ⟨hlong, mt hiff.mp hc⟩

lemma phase_append_of_block (h : phase p = .BIN_BLOCK) (xs : List UInt8) :
    phase (p ++ xs) = .BIN_BLOCK := by
  obtain ⟨hp, hcont⟩ := phase_eq_binBlock_iff.mp h
  have hle := continuations_le (p.drop 4)
  refine phase_eq_binBlock_iff.mpr ⟨by rw [List.length_append]; omega, ?_⟩
  rw [drop_header_append hp, continuations_append, if_neg hcont, List.length_append]
  omega

lemma Ended.phase (h : Ended p) : phase p = .BIN_BLOCK := by
  rw [phase_eq_binBlock_iff]
  have hlong : 4 < p.length := by
    have hlt := h.1
    omega
  refine ⟨by omega, ?_⟩
  intro hcont
  have hlen : Nais.Board.phase p = .LEN := phase_eq_len_iff.mpr ⟨by omega, hcont⟩
  have hlt := h.1
  rw [lenField_of_len hlen, List.length_drop] at hlt
  omega

/-- The end of the payload is at one place only. -/
lemma Ended.eq_of_prefix {p q : List UInt8} (hp : Ended p) (hq : Ended q) (h : p <+: q) : p = q := by
  obtain ⟨xs, rfl⟩ := h
  have hlen := hq.2
  rw [declaredLen, lenField_append_of_block hp.phase, ← declaredLen, ← hp.2, List.length_append] at hlen
  have hxs : xs = [] := List.length_eq_zero_iff.mp (by omega)
  rw [hxs, List.append_nil]

end LenField

section Steps

variable {w : Watch} {p : List UInt8} {c : UInt8}

lemma Watch.step_ok {loop : SerialLoop} (h : serialStep w.loop c = .ok loop)
    (hs : w.loop.sts ≠ .WAIT_START) : w.step c = .ok ⟨loop, w.received ++ [c]⟩ := by
  rw [Watch.step, h, Except.map, if_neg (fun hboth => hs hboth.1)]

lemma idle_step (h : w.loop.Idle) (hc : c ≠ RECORD_START) :
    ∃ w', w.step c = .ok w' ∧ w'.loop = w.loop := by
  have hstep : serialStep w.loop c = .ok w.loop := by
    rw [serialStep, if_neg (by rw [h.sts]; simp), h.sts]
    exact if_neg hc
  refine ⟨⟨w.loop, if w.loop.sts = .WAIT_START ∧ c = RECORD_START then [c]
    else w.received ++ [c]⟩, ?_, rfl⟩
  rw [Watch.step, hstep, Except.map]

lemma idle_start (h : w.loop.Idle) :
    ∃ w', w.step RECORD_START = .ok w' ∧ Framed w' [] ∧
      w'.loop.unmarshalled = w.loop.unmarshalled := by
  have hstep : serialStep w.loop RECORD_START =
      .ok { w.loop with sts := .MSG_TYPE, multiplier := 1 } := by
    rw [serialStep, if_neg (by rw [h.sts]; simp), h.sts]
    rfl
  refine ⟨⟨{ w.loop with sts := .MSG_TYPE, multiplier := 1 }, [RECORD_START]⟩, ?_, ?_, rfl⟩
  · rw [Watch.step, hstep, Except.map, if_pos ⟨h.sts, rfl⟩]
  · exact ⟨rfl, rfl, h.ptr, h.binlen, rfl⟩

lemma phase_field (hlen : p.length ≤ 3) (c : UInt8) :
    ∃ next, (phase p = .MSG_TYPE ∧ next = .SLINE ∨ phase p = .SLINE ∧ next = .DLINE ∨
      phase p = .DLINE ∧ next = .FLAGS ∨ phase p = .FLAGS ∧ next = .LEN) ∧
      next = phase (p ++ [c]) := by
  match p with
  | [] => exact ⟨.SLINE, Or.inl ⟨rfl, rfl⟩, rfl⟩
  | [_] => exact ⟨.DLINE, Or.inr (Or.inl ⟨rfl, rfl⟩), rfl⟩
  | [_, _] => exact ⟨.FLAGS, Or.inr (Or.inr (Or.inl ⟨rfl, rfl⟩)), rfl⟩
  | [_, _, _] => exact ⟨.LEN, Or.inr (Or.inr (Or.inr ⟨rfl, rfl⟩)), rfl⟩
  | _ :: _ :: _ :: _ :: rest =>
    simp only [List.length_cons] at hlen
    omega

/-- A field of the header. -/
lemma FramedAt.step_field {s : Control} (hs : FramedAt s p) (hlen : p.length ≤ 3) (c : UInt8) :
    FramedAt (s.step c) (p ++ [c]) := by
  have hfield : lenField (p ++ [c]) = lenField p := by
    rw [lenField_short (by rw [List.length_append, List.length_singleton]; omega),
      lenField_short (by omega)]
  obtain ⟨next, hnext, hphase⟩ := phase_field hlen c
  have hstep : s.step c = { s with sts := next, lineBufPtr := s.lineBufPtr + 1 } := by
    rw [← hs.sts] at hnext
    obtain ⟨hsts, rfl⟩ | ⟨hsts, rfl⟩ | ⟨hsts, rfl⟩ | ⟨hsts, rfl⟩ := hnext <;>
    · rw [Control.step, if_neg (by simp [hsts]), hsts]
  rw [hstep]
  refine ⟨hphase, ?_, ?_, ?_⟩
  · dsimp only
    rw [hs.ptr, List.length_append, List.length_singleton]
  · rw [hfield]
    exact hs.binlen
  · rw [hfield]
    exact hs.multiplier

/-- One byte of LEN. -/
lemma FramedAt.step_len {s : Control} (hs : FramedAt s p) (hl : phase p = .LEN) (c : UInt8) :
    FramedAt (s.step c) (p ++ [c]) := by
  rw [Control.step, if_neg (by simp [hs.sts, hl]), hs.sts, hl]
  dsimp only
  simp only [Base128.and_127, Base128.and_128_ne_zero_iff]
  refine ⟨(phase_append_of_len hl c).symm, ?_, ?_, ?_⟩
  · dsimp only
    rw [hs.ptr, List.length_append, List.length_singleton]
  · dsimp only
    rw [hs.binlen, hs.multiplier, lenField_append_of_len hl, lenField_of_len hl, number_append,
      BitVec.ofNat_add, BitVec.ofNat_mul, number, number, Nat.mul_zero, Nat.add_zero, mul_comm]
  · dsimp only
    rw [hs.multiplier, lenField_append_of_len hl, lenField_of_len hl, List.length_append,
      List.length_singleton, pow_succ, BitVec.ofNat_mul]
    rfl

/-- A byte behind a START is stored, and ends the payload or does not. -/
lemma FramedAt.step {s : Control} (hs : FramedAt s p) (c : UInt8) :
    (AtEnd (p ++ [c]) → (s.step c).sts = .EXPECT_END) ∧
      (¬AtEnd (p ++ [c]) → FramedAt (s.step c) (p ++ [c])) := by
  have hsucc : (p ++ [c]).length = p.length + 1 := by
    rw [List.length_append, List.length_singleton]
  by_cases hfield : p.length ≤ 3
  · refine ⟨fun hend => ?_, fun _ => hs.step_field hfield c⟩
    have hlt := hend.1
    omega
  · by_cases hl : phase p = .LEN
    · refine ⟨fun hend => ?_, fun _ => hs.step_len hl c⟩
      have hlt := hend.1
      have hdrop : (p.drop 4).length = p.length - 4 := List.length_drop
      rw [lenField_append_of_len hl, List.length_append, List.length_singleton] at hlt
      omega
    · have hb : phase p = .BIN_BLOCK := by
        rw [phase_eq_len_iff] at hl
        exact phase_eq_binBlock_iff.mpr ⟨by omega, fun hcont => hl ⟨by omega, hcont⟩⟩
      obtain ⟨hcount, hlong⟩ := length_lenField_of_block hb
      have hkeep := lenField_append_of_block hb [c]
      have hiff : BitVec.ofNat 32 (s.lineBufPtr + 1) = s.binlen + 5 ↔ AtEnd (p ++ [c]) := by
        rw [hs.binlen, hs.ptr, AtEnd, hkeep, hsucc]
        exact (and_iff_right (by omega)).symm
      rw [Control.step, if_neg (by simp [hs.sts, hb]), hs.sts, hb]
      dsimp only
      refine ⟨fun hend => if_pos (hiff.mpr hend), fun hend => ⟨?_, ?_, ?_, ?_⟩⟩
      · rw [if_neg (mt hiff.mp hend), phase_append_of_block hb [c]]
      · rw [hs.ptr, hsucc]
      · rw [hkeep]
        exact hs.binlen
      · rw [hkeep]
        exact hs.multiplier

lemma Framed.control (hw : Framed w p) : FramedAt w.loop.control p :=
  ⟨hw.sts, hw.ptr, hw.binlen, hw.multiplier⟩

lemma atEnd_iff_ended (hlen : p.length ≤ 512) : AtEnd p ↔ Ended p := by
  rw [AtEnd, Ended, ofNat_eq_add_five_iff, declaredLen]
  refine and_congr_right fun _ => ?_
  omega

/-- What the loop does next does not depend on its memory. -/
lemma control_serialStep {s s' : SerialLoop} (h : serialStep s c = .ok s') :
    s'.control = s.control.step c ∧
      s'.unmarshalled = if c = RECORD_END ∧ s.sts = .EXPECT_END then s.unmarshalled ++ [s.rxbuff.bytes]
        else s.unmarshalled := by
  have hput : ∀ {t t' : SerialLoop}, t.put c = .ok t' → t'.control = { t.control with
      lineBufPtr := t.lineBufPtr + 1 } ∧ t'.unmarshalled = t.unmarshalled := by
    intro t t' ht
    rw [SerialLoop.put] at ht
    cases hstore : store t.rxbuff t.lineBufPtr [c] with
    | error e =>
      rw [hstore] at ht
      cases ht
    | ok b =>
      rw [hstore] at ht
      cases ht
      exact ⟨rfl, rfl⟩
  have hcontrol : s.control.sts = s.sts := rfl
  rw [Control.step, hcontrol]
  rw [serialStep] at h
  by_cases hend : c = RECORD_END ∧ s.sts = .EXPECT_END
  · rw [if_pos hend] at h
    rw [if_pos hend, if_pos hend]
    cases h
    exact ⟨rfl, rfl⟩
  · rw [if_neg hend] at h
    rw [if_neg hend, if_neg hend]
    cases hs : s.sts with
    | WAIT_START =>
      rw [hs] at h
      dsimp only at h ⊢
      split_ifs at h ⊢ <;> cases h <;> exact ⟨rfl, rfl⟩
    | EXPECT_END =>
      rw [hs] at h
      cases h
      exact ⟨rfl, rfl⟩
    | MSG_TYPE | SLINE | DLINE | FLAGS | LEN =>
      rw [hs] at h
      exact hput h
    | BIN_BLOCK =>
      rw [hs] at h
      dsimp only at h ⊢
      cases hp : s.put c with
      | error e =>
        rw [hp] at h
        cases h
      | ok t =>
        rw [hp, Except.map, Except.ok.injEq] at h
        obtain ⟨hcontrol, hcalls⟩ := hput hp
        have hptr : t.lineBufPtr = s.control.lineBufPtr + 1 := congrArg Control.lineBufPtr hcontrol
        have hsts : t.sts = .BIN_BLOCK := (congrArg Control.sts hcontrol).trans hs
        have hbinlen : t.binlen = s.control.binlen := congrArg Control.binlen hcontrol
        have hmultiplier : t.multiplier = s.control.multiplier := congrArg Control.multiplier hcontrol
        rw [hptr, hbinlen] at h
        subst h
        refine ⟨?_, ?_⟩
        · split_ifs
          · exact congrArg (Control.mk _ _ _) hmultiplier
          · rw [SerialLoop.control, hptr, hsts, hbinlen, hmultiplier]
        · split_ifs <;> exact hcalls

/-- While the buffer has room, the loop goes on. -/
lemma exists_serialStep {s : SerialLoop} (hroom : s.lineBufPtr < 512) (c : UInt8) :
    ∃ s', serialStep s c = .ok s' := by
  obtain ⟨b, hb⟩ : ∃ b, s.rxbuff.write s.lineBufPtr [c] = some b :=
    s.rxbuff.exists_write (by rw [List.length_singleton]; omega)
  have hput : ∀ t : SerialLoop, t.rxbuff = s.rxbuff → t.lineBufPtr = s.lineBufPtr → ∃ s', t.put c = .ok s' :=
    fun t hbuff hptr => ⟨_, put_ok (by rw [hbuff, hptr]; exact hb)⟩
  rw [serialStep]
  by_cases hend : c = RECORD_END ∧ s.sts = .EXPECT_END
  · rw [if_pos hend]
    exact ⟨_, rfl⟩
  · rw [if_neg hend]
    cases s.sts with
    | WAIT_START =>
      dsimp only
      split_ifs <;> exact ⟨_, rfl⟩
    | EXPECT_END => exact ⟨_, rfl⟩
    | MSG_TYPE | SLINE | DLINE | FLAGS | LEN => exact hput _ rfl rfl
    | BIN_BLOCK =>
      dsimp only
      rw [put_ok hb]
      exact ⟨_, rfl⟩

/-- A byte of a frame is stored, while the buffer has room for it. -/
lemma framed_step (hw : Framed w p) (hlen : p.length < 512) (c : UInt8) :
    ∃ w', w.step c = .ok w' ∧ w'.loop.unmarshalled = w.loop.unmarshalled ∧
      (Ended (p ++ [c]) → Expecting w' (p ++ [c]) []) ∧
      (¬Ended (p ++ [c]) → Framed w' (p ++ [c])) := by
  have hwait : w.loop.sts ≠ .WAIT_START := by
    rw [hw.sts]
    exact phase_ne_waitStart p
  have hexpect : ¬(c = RECORD_END ∧ w.loop.sts = .EXPECT_END) := by
    rw [hw.sts]
    exact fun h => phase_ne_expectEnd p h.2
  have hreceived : w.received ++ [c] = RECORD_START :: (p ++ [c]) := by
    rw [hw.received]
    rfl
  obtain ⟨s', hstep⟩ := exists_serialStep (by rw [hw.ptr]; exact hlen) c
  obtain ⟨hcontrol, hcalls⟩ := control_serialStep hstep
  rw [if_neg hexpect] at hcalls
  obtain ⟨hend, hnext⟩ := hw.control.step c
  rw [← hcontrol, atEnd_iff_ended (by rw [List.length_append, List.length_singleton]; omega)] at hend hnext
  refine ⟨⟨s', w.received ++ [c]⟩, Watch.step_ok hstep hwait, hcalls, fun h => ⟨?_, hend h⟩, fun h => ?_⟩
  · rw [List.append_nil]
    exact hreceived
  · exact ⟨hreceived, (hnext h).sts, (hnext h).ptr, (hnext h).binlen, (hnext h).multiplier⟩

/-- A byte that the buffer has no room for is stored behind it. -/
lemma framed_fault (hw : Framed w p) (hlen : 512 ≤ p.length) (c : UInt8) :
    ∃ e, w.step c = .error e := by
  have hput : ∀ s : SerialLoop, s.lineBufPtr = p.length → s.put c = .error .outOfBounds := by
    intro s hs
    have hnone := (s.rxbuff.write_eq_none_iff s.lineBufPtr [c]).mpr
      (by rw [hs, List.length_singleton]; omega)
    rw [SerialLoop.put, store, hnone]
    rfl
  refine ⟨.outOfBounds, ?_⟩
  have hfault : serialStep w.loop c = .error .outOfBounds := by
    have hptr := hw.ptr
    rw [serialStep, if_neg (by rw [hw.sts]; simp [phase_ne_expectEnd])]
    cases hs : w.loop.sts with
    | WAIT_START => exact absurd (hw.sts.symm.trans hs) (phase_ne_waitStart p)
    | EXPECT_END => exact absurd (hw.sts.symm.trans hs) (phase_ne_expectEnd p)
    | MSG_TYPE => exact hput _ hptr
    | SLINE => exact hput _ hptr
    | DLINE => exact hput _ hptr
    | FLAGS => exact hput _ hptr
    | LEN => exact hput _ hptr
    | BIN_BLOCK =>
      dsimp only
      rw [hput _ hptr]
      rfl
  rw [Watch.step, hfault, Except.map]

lemma expecting_step {skipped : List UInt8} (hw : Expecting w p skipped) (hc : c ≠ RECORD_END) :
    ∃ w', w.step c = .ok w' ∧ w'.loop.unmarshalled = w.loop.unmarshalled ∧
      Expecting w' p (skipped ++ [c]) := by
  have hstep : serialStep w.loop c = .ok w.loop := by
    rw [serialStep, if_neg (fun h => hc h.1), hw.sts]
  refine ⟨_, Watch.step_ok hstep (by rw [hw.sts]; simp), rfl, ?_, hw.sts⟩
  rw [hw.received, List.cons_append, List.append_assoc]

/-- The END makes one call, and leaves the loop idle. -/
lemma expecting_end {skipped : List UInt8} (hw : Expecting w p skipped) :
    ∃ w', w.step RECORD_END = .ok w' ∧ w'.loop.Idle ∧
      w'.loop.unmarshalled = w.loop.unmarshalled ++ [w.loop.rxbuff.bytes] ∧
      w'.received = RECORD_START :: (p ++ skipped ++ [RECORD_END]) := by
  refine ⟨_, Watch.step_ok (serialStep_end hw.sts) (by rw [hw.sts]; simp), ⟨rfl, rfl, rfl⟩, rfl, ?_⟩
  rw [hw.received]
  rfl

end Steps

/-- What a property of the steps says in terms of the bytes: nothing of bytes that are not
stored, `okFrame` of a byte behind the stored ones, `okEnd` of an END. -/
structure Describes (ok : Watch → UInt8 → Prop) (okFrame : List UInt8 → UInt8 → Prop)
    (okEnd : List UInt8 → List UInt8 → Prop) : Prop where
  idle : ∀ {w c}, w.loop.Idle → ok w c
  framed : ∀ {w p c}, Framed w p → p.length ≤ 512 → ¬Ended p → (ok w c ↔ okFrame p c)
  expecting : ∀ {w p skipped c}, Expecting w p skipped → c ≠ RECORD_END → ok w c
  ended : ∀ {w p skipped}, Stored p → Expecting w p skipped →
    (ok w RECORD_END ↔ okEnd p skipped)

/-- `okFrame` of every byte, as far as the buffer goes. -/
def RestOk (okFrame : List UInt8 → UInt8 → Prop) (q : List UInt8) : Prop :=
  ∀ p c, p ++ [c] <+: q → p.length ≤ 512 → okFrame p c

section Pieces

variable {ok : Watch → UInt8 → Prop} {okFrame : List UInt8 → UInt8 → Prop}
  {okEnd : List UInt8 → List UInt8 → Prop} {w : Watch}

lemma always_cons_ok {c : UInt8} {w' : Watch} (h : w.step c = .ok w') (cs : List UInt8) :
    Always ok w (c :: cs) ↔ ok w c ∧ Always ok w' cs := by
  rw [Always, h]
  refine and_congr_right fun _ => ⟨fun hall => hall w' rfl, ?_⟩
  rintro hall _ ⟨⟩
  exact hall

lemma always_cons_error {c : UInt8} {e : Fault} (h : w.step c = .error e) (cs : List UInt8) :
    Always ok w (c :: cs) ↔ ok w c := by
  rw [Always, h]
  exact and_iff_left (fun _ h => nomatch h)

lemma restOk_append_singleton {q : List UInt8} {c : UInt8} (hlen : q.length ≤ 512) :
    RestOk okFrame (q ++ [c]) ↔ RestOk okFrame q ∧ okFrame q c := by
  constructor
  · intro h
    exact ⟨fun p d hp => h p d (hp.trans (List.prefix_append q [c])), h q c List.prefix_rfl hlen⟩
  · rintro ⟨h, hc⟩ p d hp hshort
    obtain heq | hp := (List.prefix_concat_iff ..).mp hp
    · obtain ⟨rfl, hd⟩ := List.append_inj' heq rfl
      rw [List.singleton_inj.mp hd]
      exact hc
    · exact h p d hp hshort

variable (hd : Describes ok okFrame okEnd)

include hd

lemma always_gap (hw : w.loop.Idle) {gap : List UInt8} (hgap : RECORD_START ∉ gap) :
    ∃ w', w'.loop.Idle ∧ ∀ tail, Always ok w (gap ++ tail) ↔ Always ok w' tail := by
  induction gap generalizing w with
  | nil => exact ⟨w, hw, fun _ => Iff.rfl⟩
  | cons c gap ih =>
    rw [List.mem_cons, not_or] at hgap
    obtain ⟨w₁, hstep, hloop⟩ := idle_step hw (Ne.symm hgap.1)
    obtain ⟨w', hidle, htail⟩ := ih (w := w₁) (by rw [hloop]; exact hw) hgap.2
    refine ⟨w', hidle, fun tail => ?_⟩
    rw [List.cons_append, always_cons_ok hstep, htail]
    exact and_iff_right (hd.idle hw)

/-- The bytes up to a START ask for nothing. -/
lemma always_opened (hw : w.loop.Idle) {gap : List UInt8} (hgap : RECORD_START ∉ gap) :
    ∃ w', Framed w' [] ∧
      ∀ tail, Always ok w (gap ++ RECORD_START :: tail) ↔ Always ok w' tail := by
  obtain ⟨w₁, hidle, hall⟩ := always_gap hd hw hgap
  obtain ⟨w', hstep, hframed, -⟩ := idle_start hidle
  refine ⟨w', hframed, fun tail => ?_⟩
  rw [hall, always_cons_ok hstep]
  exact and_iff_right (hd.idle hidle)

/-- The loop stores what does not end the payload. -/
lemma always_block (hw : Framed w []) {q : List UInt8} (hlen : q.length ≤ 512)
    (hq : ∀ p, p <+: q → ¬Ended p) :
    ∃ w', Framed w' q ∧ ∀ tail, Always ok w (q ++ tail) ↔ RestOk okFrame q ∧ Always ok w' tail := by
  induction q using List.reverseRecOn with
  | nil =>
    refine ⟨w, hw, fun tail => ?_⟩
    refine (and_iff_right ?_).symm
    intro p c hp
    have hnil := List.prefix_nil.mp hp
    simp at hnil
  | append_singleton q c ih =>
    rw [List.length_append, List.length_singleton] at hlen
    obtain ⟨w₁, hframed, hall⟩ := ih (by omega)
      (fun p hp => hq p (hp.trans (List.prefix_append q [c])))
    obtain ⟨w', hstep, -, -, hnext⟩ := framed_step hframed (by omega) c
    refine ⟨w', hnext (hq _ List.prefix_rfl), fun tail => ?_⟩
    rw [List.append_assoc, hall, List.singleton_append, always_cons_ok hstep,
      hd.framed hframed (by omega) (hq q (List.prefix_append q [c])),
      restOk_append_singleton (by omega), and_assoc]

/-- The last stored byte ends the payload. -/
lemma always_stored (hw : Framed w []) {p : List UInt8} (hp : Stored p) :
    ∃ w', Expecting w' p [] ∧
      ∀ tail, Always ok w (p ++ tail) ↔ RestOk okFrame p ∧ Always ok w' tail := by
  obtain ⟨hend, hlen⟩ := hp
  have hne : p ≠ [] := by
    rintro rfl
    exact absurd hend.1 (by simp)
  obtain ⟨q, c, rfl⟩ := List.eq_nil_or_concat' p |>.resolve_left hne
  rw [List.length_append, List.length_singleton] at hlen
  have hq : ∀ p, p <+: q → ¬Ended p := by
    intro p hp hended
    have heq := hended.eq_of_prefix hend (hp.trans (List.prefix_append q [c]))
    have hle := hp.length_le
    rw [heq, List.length_append, List.length_singleton] at hle
    omega
  obtain ⟨w₁, hframed, hall⟩ := always_block hd hw (by omega) hq
  obtain ⟨w', hstep, -, hnext, -⟩ := framed_step hframed (by omega) c
  refine ⟨w', hnext hend, fun tail => ?_⟩
  rw [List.append_assoc, hall, List.singleton_append, always_cons_ok hstep,
    hd.framed hframed (by omega) (hq q List.prefix_rfl), restOk_append_singleton (by omega), and_assoc]

/-- What never ends the payload is stored until the buffer is full. -/
lemma always_unended (hw : Framed w []) {tail : List UInt8} (htail : ∀ p, p <+: tail → ¬Stored p) :
    Always ok w tail ↔ RestOk okFrame tail := by
  by_cases hlen : tail.length ≤ 512
  · have hq : ∀ p, p <+: tail → ¬Ended p := fun p hp hend =>
      htail p hp ⟨hend, hp.length_le.trans hlen⟩
    obtain ⟨w', -, hall⟩ := always_block hd hw hlen hq
    have hnil := hall []
    rw [List.append_nil] at hnil
    rw [hnil]
    exact and_iff_left trivial
  · obtain ⟨q, c, more, rfl, hq⟩ := exists_split_at (not_le.mp hlen)
    have hnot : ∀ p, p <+: q → ¬Ended p := fun p hp hend =>
      htail p (hp.trans (List.prefix_append q _)) ⟨hend, by have := hp.length_le; omega⟩
    obtain ⟨w', hframed, hall⟩ := always_block hd hw hq.le hnot
    obtain ⟨e, hfault⟩ := framed_fault hframed hq.ge c
    have hrest : RestOk okFrame (q ++ c :: more) ↔ RestOk okFrame (q ++ [c]) := by
      have hprefix : q ++ [c] <+: q ++ c :: more := ⟨more, by simp⟩
      refine ⟨fun h p d hp => h p d (hp.trans hprefix), fun h p d hp hshort => ?_⟩
      refine h p d (List.prefix_of_prefix_length_le hp hprefix ?_) hshort
      simp only [List.length_append, List.length_singleton]
      omega
    rw [hall, always_cons_error hfault, hd.framed hframed hq.le (hnot q List.prefix_rfl), hrest,
      restOk_append_singleton hq.le]

lemma always_skipped {p skipped : List UInt8} (hw : Expecting w p skipped) {more : List UInt8}
    (hmore : RECORD_END ∉ more) :
    ∃ w', Expecting w' p (skipped ++ more) ∧
      ∀ tail, Always ok w (more ++ tail) ↔ Always ok w' tail := by
  induction more generalizing w skipped with
  | nil => exact ⟨w, by rwa [List.append_nil], fun _ => Iff.rfl⟩
  | cons c more ih =>
    rw [List.mem_cons, not_or] at hmore
    obtain ⟨w₁, hstep, -, hnext⟩ := expecting_step hw (Ne.symm hmore.1)
    obtain ⟨w', hexpecting, hall⟩ := ih hnext hmore.2
    refine ⟨w', by rwa [List.append_assoc] at hexpecting, fun tail => ?_⟩
    rw [List.cons_append, always_cons_ok hstep, hall]
    exact and_iff_right (hd.expecting hw (Ne.symm hmore.1))

lemma always_closed {p skipped : List UInt8} (hp : Stored p) (hw : Expecting w p skipped) :
    ∃ w', w'.loop.Idle ∧
      ∀ more, Always ok w (RECORD_END :: more) ↔ okEnd p skipped ∧ Always ok w' more := by
  obtain ⟨w', hstep, hidle, -⟩ := expecting_end hw
  refine ⟨w', hidle, fun more => ?_⟩
  rw [always_cons_ok hstep, hd.ended hp hw]

/-- A property of every step holds along a stream exactly when the pieces have it. -/
theorem always_iff_cut (hw : w.loop.Idle) (cs : List UInt8) :
    Always ok w cs ↔ Cut Stored okEnd (RestOk okFrame) cs := by
  constructor
  · intro h
    induction hn : cs.length using Nat.strong_induction_on generalizing cs w with
    | _ n ih =>
      by_cases hstart : RECORD_START ∈ cs
      · obtain ⟨gap, tail, rfl, hgap⟩ := List.eq_append_cons_of_mem hstart
        obtain ⟨w₁, hframed, hopened⟩ := always_opened hd hw hgap
        rw [hopened] at h
        by_cases hstored : ∃ p, p <+: tail ∧ Stored p
        · obtain ⟨p, ⟨behind, rfl⟩, hp⟩ := hstored
          obtain ⟨w₂, hexpecting, hall⟩ := always_stored hd hframed hp
          rw [hall] at h
          by_cases hend : RECORD_END ∈ behind
          · obtain ⟨skipped, more, rfl, hskipped⟩ := List.eq_append_cons_of_mem hend
            obtain ⟨w₃, hexpecting', hskip⟩ := always_skipped hd hexpecting hskipped
            rw [List.nil_append] at hexpecting'
            obtain ⟨w₄, hidle, hclosed⟩ := always_closed hd hp hexpecting'
            rw [hskip, hclosed] at h
            refine .closed hgap hp hskipped h.1 h.2.1 (ih _ ?_ hidle more h.2.2 rfl)
            rw [← hn]
            simp only [List.length_append, List.length_cons]
            omega
          · exact .waiting hgap hp hend h.1
        · exact .unended hgap (fun p hp hps => hstored ⟨p, hp, hps⟩)
            ((always_unended hd hframed fun p hp hps => hstored ⟨p, hp, hps⟩).mp h)
      · exact .quiet hstart
  · intro h
    induction h generalizing w with
    | quiet hgap =>
      obtain ⟨w', -, hall⟩ := always_gap hd hw hgap
      have hnil := hall []
      rw [List.append_nil] at hnil
      exact hnil.mpr trivial
    | unended hgap htail hrest =>
      obtain ⟨w₁, hframed, hopened⟩ := always_opened hd hw hgap
      exact (hopened _).mpr ((always_unended hd hframed htail).mpr hrest)
    | waiting hgap hp hskipped hrest =>
      obtain ⟨w₁, hframed, hopened⟩ := always_opened hd hw hgap
      obtain ⟨w₂, hexpecting, hall⟩ := always_stored hd hframed hp
      obtain ⟨w₃, -, hskip⟩ := always_skipped hd hexpecting hskipped
      have hnil := hskip []
      rw [List.append_nil] at hnil
      exact (hopened _).mpr ((hall _).mpr ⟨hrest, hnil.mpr trivial⟩)
    | closed hgap hp hskipped hrest hframe _ ih =>
      obtain ⟨w₁, hframed, hopened⟩ := always_opened hd hw hgap
      obtain ⟨w₂, hexpecting, hall⟩ := always_stored hd hframed hp
      obtain ⟨w₃, hexpecting', hskip⟩ := always_skipped hd hexpecting hskipped
      rw [List.nil_append] at hexpecting'
      obtain ⟨w₄, hidle, hclosed⟩ := always_closed hd hp hexpecting'
      exact (hopened _).mpr ((hall _).mpr ⟨hrest, (hskip _).mpr ((hclosed _).mpr ⟨hframe, ih hidle⟩)⟩)

end Pieces

end Nais.Board
