import Nais.Board.UartReader

/-!
# What the UART receiver dispatches

The position that ends a payload takes the LEN field for one byte, and what comes between
that position and the END is not looked at. A dispatched frame is well formed when exactly the
END comes where the LEN field says. A store behind the buffer does not stop the loop, so that
longer frames are dispatched too.
-/

namespace Nais.Board

open Nais.Lib Nais.Lib.Base128 Nais.Lib.Memory

/-- The format of `docs/nais_protocol.rst`. -/
def WellFormed (received : List UInt8) : Prop :=
  ∃ header len payload,
    received = RECORD_START :: (header ++ len ++ payload ++ [RECORD_END]) ∧
      header.length = 4 ∧ IsNumeral len ∧ payload.length = number len

/-- `serial_loop` on any stream. `received` are the bytes since it last accepted a START, that one
included, and `dispatched` what they were at the calls of `bocia_unmarshall`. -/
structure Receiver where
  control : Control
  received : List UInt8
  dispatched : List (List UInt8)
  deriving DecidableEq

namespace Receiver

def start : Receiver := ⟨⟨0, .WAIT_START, 0, 1⟩, [], []⟩

def step (r : Receiver) (c : UInt8) : Receiver :=
  let received := if r.control.sts = .WAIT_START ∧ c = RECORD_START then [c] else r.received ++ [c]
  ⟨r.control.step c, received,
    if c = RECORD_END ∧ r.control.sts = .EXPECT_END then r.dispatched ++ [received] else r.dispatched⟩

def run (r : Receiver) (cs : List UInt8) : Receiver := cs.foldl step r

end Receiver

/-- The END that closes the frame comes behind as many payload bytes as the LEN field says. -/
def Punctual (p skipped : List UInt8) : Prop :=
  p.length + skipped.length = 4 + (lenField p).length + number (lenField p)

/-- The bytes up to the first position at which the payload ends. -/
def Closing (p : List UInt8) : Prop := AtEnd p ∧ ∀ q, q <+: p → AtEnd q → q = p

/-- Every END that closes a frame is punctual. -/
def Terminated (cs : List UInt8) : Prop := Cut Closing Punctual (fun _ => True) cs

instance (p skipped : List UInt8) : Decidable (Punctual p skipped) :=
  inferInstanceAs (Decidable (_ = _))

lemma AtEnd.phase {p : List UInt8} (h : AtEnd p) : phase p = .BIN_BLOCK := by
  rw [phase_eq_binBlock_iff]
  have hlt := h.1
  refine ⟨by omega, ?_⟩
  intro hcont
  have hlen : Nais.Board.phase p = .LEN := phase_eq_len_iff.mpr ⟨by omega, hcont⟩
  rw [lenField_of_len hlen, List.length_drop] at hlt
  omega

lemma isNumeral_lenField {p : List UInt8} (h : phase p = .BIN_BLOCK) : IsNumeral (lenField p) := by
  obtain ⟨hp, hcont⟩ := phase_eq_binBlock_iff.mp h
  have hle := continuations_le (p.drop 4)
  have hlen := (length_lenField_of_block h).1
  have hsplit := (List.take_append_drop (continuations (p.drop 4) + 1) (p.drop 4)).symm
  have hle' := continuations_le (lenField p)
  have hcount := continuations_append (lenField p) ((p.drop 4).drop (continuations (p.drop 4) + 1))
  rw [lenField, ← hsplit, ← lenField] at hcount
  rw [IsNumeral]
  split_ifs at hcount with hall
  · omega
  · omega

/-- A numeral at the beginning of what follows the header is the LEN field. -/
lemma lenField_of_numeral {header len payload : List UInt8} (hheader : header.length = 4)
    (hlen : IsNumeral len) : lenField (header ++ len ++ payload) = len := by
  have hdrop : (header ++ len ++ payload).drop 4 = len ++ payload := by
    rw [List.append_assoc, List.drop_left' hheader]
  have hcont : continuations (len ++ payload) = continuations len := by
    rw [continuations_append, if_neg (by rw [IsNumeral] at hlen; omega)]
  rw [lenField, hdrop, hcont, ← hlen]
  exact List.take_left

lemma wellFormed_iff {p skipped : List UInt8} (hp : AtEnd p) :
    WellFormed (RECORD_START :: (p ++ skipped ++ [RECORD_END])) ↔ Punctual p skipped := by
  have hblock := hp.phase
  have hfield := lenField_append_of_block hblock skipped
  have hlong := hp.1
  constructor
  · rintro ⟨header, len, payload, heq, hheader, hlen, hpayload⟩
    rw [List.cons.injEq, List.append_left_inj] at heq
    have hlenField : lenField p = len := by
      rw [← hfield, heq.2]
      exact lenField_of_numeral hheader hlen
    have hcount := congrArg List.length heq.2
    rw [List.length_append, List.length_append, List.length_append, hheader, hpayload] at hcount
    rw [Punctual, hlenField]
    exact hcount
  · intro hpunctual
    rw [Punctual] at hpunctual
    obtain ⟨rest, hrest⟩ : ∃ rest, p.drop 4 = lenField p ++ rest :=
      ⟨_, (List.take_append_drop (continuations (p.drop 4) + 1) (p.drop 4)).symm⟩
    have hsplit : p = p.take 4 ++ (lenField p ++ rest) := by
      rw [← hrest, List.take_append_drop]
    have hheader : (p.take 4).length = 4 := by
      rw [List.length_take]
      omega
    have hcount := congrArg List.length hsplit
    rw [List.length_append, List.length_append, hheader] at hcount
    refine ⟨p.take 4, lenField p, rest ++ skipped, ?_, hheader, isNumeral_lenField hblock, ?_⟩
    · conv_lhs => rw [hsplit]
      simp only [List.append_assoc]
    · rw [List.length_append]
      omega

namespace Receiver

/-- As long as the stores of the loop stay inside the buffer, the receiver is what is watched. -/
theorem run_of_watch {w w' : Watch} {cs : List UInt8} (h : cs.foldlM Watch.step w = .ok w')
    {r : Receiver} (hcontrol : r.control = w.loop.control) (hreceived : r.received = w.received)
    (hcalls : r.dispatched.length = w.loop.unmarshalled.length) :
    (r.run cs).control = w'.loop.control ∧ (r.run cs).received = w'.received ∧
      (r.run cs).dispatched.length = w'.loop.unmarshalled.length := by
  induction cs generalizing w r with
  | nil =>
    cases h
    exact ⟨hcontrol, hreceived, hcalls⟩
  | cons c cs ih =>
    have hsts : r.control.sts = w.loop.sts := congrArg Control.sts hcontrol
    rw [List.foldlM_cons, Watch.step] at h
    cases hstep : serialStep w.loop c with
    | error e =>
      rw [hstep] at h
      cases h
    | ok loop =>
      rw [hstep] at h
      obtain ⟨hnext, hdispatch⟩ := control_serialStep hstep
      refine ih (r := r.step c) h ?_ ?_ ?_
      · rw [step, hnext, hcontrol]
      · rw [step, hsts, hreceived]
      · rw [hdispatch]
        by_cases hend : c = RECORD_END ∧ w.loop.sts = .EXPECT_END
        · rw [step, hsts, if_pos hend, if_pos hend, List.length_append, List.length_append, hcalls]
          rfl
        · rw [step, hsts, if_neg hend, if_neg hend, hcalls]

/-- Nothing of a frame was read yet. -/
structure Idle (r : Receiver) : Prop where
  sts : r.control.sts = .WAIT_START
  ptr : r.control.lineBufPtr = 0
  binlen : r.control.binlen = 0

/-- The loop has read `p` behind a START. -/
structure Reads (r : Receiver) (p : List UInt8) : Prop where
  received : r.received = RECORD_START :: p
  framed : FramedAt r.control p

/-- The loop waits for END, and has ignored `skipped`. -/
structure Waits (r : Receiver) (p skipped : List UInt8) : Prop where
  received : r.received = RECORD_START :: (p ++ skipped)
  sts : r.control.sts = .EXPECT_END

section Steps

variable {r : Receiver} {p skipped : List UInt8} {c : UInt8}

lemma run_append (r : Receiver) (xs ys : List UInt8) : r.run (xs ++ ys) = (r.run xs).run ys :=
  List.foldl_append ..

lemma run_cons (r : Receiver) (c : UInt8) (cs : List UInt8) : r.run (c :: cs) = (r.step c).run cs := rfl

lemma step_dispatched (h : r.control.sts ≠ .EXPECT_END) : (r.step c).dispatched = r.dispatched :=
  if_neg fun hboth => h hboth.2

/-- Nothing dispatched is forgotten. -/
lemma dispatched_grows (r : Receiver) (cs : List UInt8) : r.dispatched <+: (r.run cs).dispatched := by
  induction cs generalizing r with
  | nil => exact List.prefix_rfl
  | cons c cs ih =>
    refine List.IsPrefix.trans ?_ (ih (r.step c))
    by_cases hend : c = RECORD_END ∧ r.control.sts = .EXPECT_END
    · rw [step, if_pos hend]
      exact List.prefix_append _ _
    · rw [step, if_neg hend]

lemma run_gap (hr : r.Idle) {gap : List UInt8} (hgap : RECORD_START ∉ gap) :
    (r.run gap).Idle ∧ (r.run gap).dispatched = r.dispatched := by
  induction gap generalizing r with
  | nil => exact ⟨hr, rfl⟩
  | cons c gap ih =>
    rw [List.mem_cons, not_or] at hgap
    have hcontrol : (r.step c).control = r.control := by
      rw [step, Control.step, if_neg (by simp [hr.sts]), hr.sts]
      exact if_neg (Ne.symm hgap.1)
    have hidle : (r.step c).Idle :=
      ⟨by rw [hcontrol, hr.sts], by rw [hcontrol, hr.ptr], by rw [hcontrol, hr.binlen]⟩
    obtain ⟨hend, hcalls⟩ := ih hidle hgap.2
    rw [run_cons]
    exact ⟨hend, hcalls.trans (step_dispatched (by rw [hr.sts]; decide))⟩

lemma step_start (hr : r.Idle) :
    (r.step RECORD_START).Reads [] ∧ (r.step RECORD_START).dispatched = r.dispatched := by
  have hcontrol : (r.step RECORD_START).control = { r.control with sts := .MSG_TYPE, multiplier := 1 } := by
    rw [step, Control.step, if_neg (by simp [hr.sts]), hr.sts]
    rfl
  refine ⟨⟨if_pos ⟨hr.sts, rfl⟩, ?_⟩, step_dispatched (by rw [hr.sts]; decide)⟩
  rw [hcontrol]
  exact ⟨rfl, hr.ptr, hr.binlen, rfl⟩

lemma Reads.step_received (hr : r.Reads p) (c : UInt8) :
    (r.step c).received = RECORD_START :: (p ++ [c]) ∧ (r.step c).dispatched = r.dispatched := by
  have hsts := hr.framed.sts
  refine ⟨?_, step_dispatched (by rw [hsts]; exact phase_ne_expectEnd p)⟩
  rw [step, if_neg (by rw [hsts]; exact fun h => phase_ne_waitStart p h.1), hr.received]
  rfl

/-- The loop stores what does not end the payload. -/
lemma Reads.run_block (hr : r.Reads []) (hp : ∀ q, q <+: p → ¬AtEnd q) :
    (r.run p).Reads p ∧ (r.run p).dispatched = r.dispatched := by
  induction p using List.reverseRecOn with
  | nil => exact ⟨hr, rfl⟩
  | append_singleton p c ih =>
    obtain ⟨hreads, hcalls⟩ := ih fun q hq => hp q (hq.trans (List.prefix_append p [c]))
    obtain ⟨hreceived, hcalls'⟩ := hreads.step_received c
    rw [run_append]
    exact ⟨⟨hreceived, (hreads.framed.step c).2 (hp _ List.prefix_rfl)⟩, hcalls'.trans hcalls⟩

/-- The last stored byte ends the payload. -/
lemma Reads.run_closing (hr : r.Reads []) (hp : Closing p) :
    (r.run p).Waits p [] ∧ (r.run p).dispatched = r.dispatched := by
  obtain ⟨hend, hfirst⟩ := hp
  have hne : p ≠ [] := by
    rintro rfl
    exact absurd hend.1 (by simp)
  obtain ⟨q, c, rfl⟩ := List.eq_nil_or_concat' p |>.resolve_left hne
  have hq : ∀ t, t <+: q → ¬AtEnd t := by
    intro t ht hat
    have heq := hfirst t (ht.trans (List.prefix_append q [c])) hat
    have hle := ht.length_le
    rw [heq, List.length_append, List.length_singleton] at hle
    omega
  obtain ⟨hreads, hcalls⟩ := hr.run_block hq
  obtain ⟨hreceived, hcalls'⟩ := hreads.step_received c
  rw [run_append]
  refine ⟨⟨?_, (hreads.framed.step c).1 hend⟩, hcalls'.trans hcalls⟩
  rw [List.append_nil]
  exact hreceived

lemma Waits.run_skipped (hr : r.Waits p skipped) {more : List UInt8} (hmore : RECORD_END ∉ more) :
    (r.run more).Waits p (skipped ++ more) ∧ (r.run more).dispatched = r.dispatched := by
  induction more generalizing r skipped with
  | nil => exact ⟨by rwa [List.append_nil], rfl⟩
  | cons c more ih =>
    rw [List.mem_cons, not_or] at hmore
    have hc : ¬(c = RECORD_END ∧ r.control.sts = .EXPECT_END) := fun h => hmore.1 h.1.symm
    have hstep : (r.step c).Waits p (skipped ++ [c]) := by
      constructor
      · rw [step, if_neg (by rw [hr.sts]; simp), hr.received, List.cons_append, List.append_assoc]
      · rw [step, Control.step, if_neg hc, hr.sts]
        exact hr.sts
    obtain ⟨hwaits, hcalls⟩ := ih hstep hmore.2
    rw [List.append_assoc] at hwaits
    rw [run_cons]
    exact ⟨hwaits, hcalls.trans (if_neg hc)⟩

/-- The END makes one call, and leaves the loop idle. -/
lemma Waits.step_end (hr : r.Waits p skipped) :
    (r.step RECORD_END).Idle ∧ (r.step RECORD_END).dispatched =
      r.dispatched ++ [RECORD_START :: (p ++ skipped ++ [RECORD_END])] := by
  have hboth : RECORD_END = RECORD_END ∧ r.control.sts = .EXPECT_END := ⟨rfl, hr.sts⟩
  have hcontrol : (r.step RECORD_END).control =
      { r.control with sts := .WAIT_START, lineBufPtr := 0, binlen := 0 } := by
    rw [step, Control.step, if_pos hboth]
  refine ⟨⟨by rw [hcontrol], by rw [hcontrol], by rw [hcontrol]⟩, ?_⟩
  rw [step, if_pos hboth, if_neg (by rw [hr.sts]; simp), hr.received]
  rfl

end Steps

section Pieces

variable {r : Receiver} {gap p skipped : List UInt8}

lemma run_opened (hr : r.Idle) (hgap : RECORD_START ∉ gap) :
    ∃ r' : Receiver, r'.Reads [] ∧ r'.dispatched = r.dispatched ∧
      ∀ tail, r.run (gap ++ RECORD_START :: tail) = r'.run tail := by
  obtain ⟨hidle, hcalls⟩ := run_gap hr hgap
  obtain ⟨hreads, hcalls'⟩ := step_start hidle
  exact ⟨_, hreads, hcalls'.trans hcalls, fun tail => by rw [run_append, run_cons]⟩

lemma run_closed (hr : r.Reads []) (hp : Closing p) (hskipped : RECORD_END ∉ skipped) :
    ∃ r' : Receiver, r'.Idle ∧ r'.dispatched = r.dispatched ++ [RECORD_START :: (p ++ skipped ++ [RECORD_END])] ∧
      ∀ more, r.run (p ++ (skipped ++ RECORD_END :: more)) = r'.run more := by
  obtain ⟨hwaits, hcalls⟩ := hr.run_closing hp
  obtain ⟨hwaits', hcalls'⟩ := hwaits.run_skipped hskipped
  obtain ⟨hidle, hend⟩ := hwaits'.step_end
  rw [hcalls', hcalls] at hend
  exact ⟨_, hidle, hend, fun more => by rw [run_append, run_append, run_cons]⟩

/-- Where the payload ends somewhere, it ends at a first position. -/
lemma exists_closing {tail : List UInt8} (h : p <+: tail) (hp : AtEnd p) :
    ∃ q, q <+: tail ∧ Closing q := by
  induction hn : p.length using Nat.strong_induction_on generalizing p with
  | _ n ih =>
    by_cases hfirst : ∀ q, q <+: p → AtEnd q → q = p
    · exact ⟨p, h, hp, hfirst⟩
    · push Not at hfirst
      obtain ⟨q, hq, hat, hne⟩ := hfirst
      have hlt : q.length < p.length :=
        lt_of_le_of_ne hq.length_le fun heq => hne (hq.eq_of_length heq)
      exact ih q.length (hn ▸ hlt) (hq.trans h) hat rfl

/-- Where everything dispatched is well formed, the ENDs are punctual. -/
lemma terminated_of_wellFormed (hr : r.Idle) (cs : List UInt8)
    (h : ∀ received ∈ (r.run cs).dispatched, WellFormed received) : Terminated cs := by
  induction hn : cs.length using Nat.strong_induction_on generalizing cs r with
  | _ n ih =>
    by_cases hstart : RECORD_START ∈ cs
    · obtain ⟨gap, tail, rfl, hgap⟩ := List.eq_append_cons_of_mem hstart
      obtain ⟨r₁, hreads, -, hrun⟩ := run_opened hr hgap
      rw [hrun] at h
      by_cases hends : ∃ p, p <+: tail ∧ AtEnd p
      · obtain ⟨q, hq, hat⟩ := hends
        obtain ⟨p, ⟨behind, rfl⟩, hp⟩ := exists_closing hq hat
        by_cases hend : RECORD_END ∈ behind
        · obtain ⟨skipped, more, rfl, hskipped⟩ := List.eq_append_cons_of_mem hend
          obtain ⟨r₂, hidle, hcalls, hrun'⟩ := run_closed hreads hp hskipped
          rw [hrun'] at h
          have hless : more.length < n := by
            rw [← hn]
            simp only [List.length_append, List.length_cons]
            omega
          have hmem : RECORD_START :: (p ++ skipped ++ [RECORD_END]) ∈ r₂.dispatched := by
            rw [hcalls]
            exact List.mem_append_right _ List.mem_cons_self
          have hformed := h _ ((dispatched_grows r₂ more).subset hmem)
          exact .closed hgap hp hskipped trivial ((wellFormed_iff hp.1).mp hformed)
            (ih _ hless hidle more h rfl)
        · exact .waiting hgap hp hend trivial
      · exact .unended hgap (fun p hp hclosing => hends ⟨p, hp, hclosing.1⟩) trivial
    · exact .quiet hstart

/-- Where the ENDs are punctual, everything dispatched is well formed. -/
lemma wellFormed_of_terminated (hr : r.Idle) {cs : List UInt8} (h : Terminated cs)
    (hcalls : ∀ received ∈ r.dispatched, WellFormed received) :
    ∀ received ∈ (r.run cs).dispatched, WellFormed received := by
  induction h generalizing r with
  | quiet hgap =>
    rw [(run_gap hr hgap).2]
    exact hcalls
  | unended hgap htail =>
    obtain ⟨r₁, hreads, hopened, hrun⟩ := run_opened hr hgap
    have hblock : ∀ q, q <+: _ → ¬AtEnd q := fun q hq hat => by
      obtain ⟨p, hp, hclosing⟩ := exists_closing hq hat
      exact htail p hp hclosing
    rw [hrun, (hreads.run_block hblock).2, hopened]
    exact hcalls
  | waiting hgap hp hskipped =>
    obtain ⟨r₁, hreads, hopened, hrun⟩ := run_opened hr hgap
    obtain ⟨hwaits, hclosing⟩ := hreads.run_closing hp
    rw [hrun, run_append, (hwaits.run_skipped hskipped).2, hclosing, hopened]
    exact hcalls
  | closed hgap hp hskipped _ hpunctual _ ih =>
    obtain ⟨r₁, hreads, hopened, hrun⟩ := run_opened hr hgap
    obtain ⟨r₂, hidle, hclosed, hrun'⟩ := run_closed hreads hp hskipped
    rw [hrun, hrun']
    refine ih hidle ?_
    rw [hclosed, hopened, List.forall_mem_append, List.forall_mem_singleton]
    exact ⟨hcalls, (wellFormed_iff hp.1).mpr hpunctual⟩

end Pieces

end Receiver

/-- Only well-formed frames are dispatched on exactly the streams whose frames all end with a
punctual END. -/
theorem serial_loop_sound_iff (cs : List UInt8) :
    (∀ received ∈ (Receiver.start.run cs).dispatched, WellFormed received) ↔ Terminated cs :=
  ⟨Receiver.terminated_of_wellFormed ⟨rfl, rfl, rfl⟩ cs,
    fun h => Receiver.wellFormed_of_terminated ⟨rfl, rfl, rfl⟩ h (by simp [Receiver.start])⟩

/-- A payload of one byte, as LEN says, and one more byte before the END. -/
theorem serial_loop_ignores_extra_bytes :
    ¬∀ cs, ∀ received ∈ (Receiver.start.run cs).dispatched, WellFormed received := by
  intro h
  have hat : AtEnd [COMMAND_TYPE, 7, 0, 0, 1, 8] := ⟨by decide, by decide⟩
  have hformed := h [RECORD_START, COMMAND_TYPE, 7, 0, 0, 1, 8, 0, RECORD_END]
    (RECORD_START :: ([COMMAND_TYPE, 7, 0, 0, 1, 8] ++ [0] ++ [RECORD_END])) (by decide)
  exact absurd ((wellFormed_iff hat).mp hformed) (by decide)

end Nais.Board
