import Nais.Timer.Early

/-!
# Which timers `_timer_callback` fires

The match handler compares the timers at the head of the list with the counter, which it reads
again each time. As long as the values it reads do not decrease, it fires the timers of a prefix
of the list, each when the counter has reached its deadline, and stops at one that is not due.
-/

namespace Nais.Timer

open Nais.Lib Nais.Lib.Chain

variable {ι : Type}

/-- The values of the counter that the next step of `_timer_callback` reads. -/
def State.counterReads (s : State ι) : List UInt32 := match s.phase with
  | some .entered | some (.spin _) | some .rearm => [s.xtimerNow]
  | some (.check _) => if s.list.head.isSome then [s.xtimerNow] else []
  | _ => []

/-- The counter counts, or the handler takes a step. -/
def Event.isServed : Event ι → Bool
  | .tick _ | .handler => true
  | _ => false

def Event.reads (s : State ι) : Event ι → List UInt32
  | .handler => s.counterReads
  | _ => []

section Run

variable [Fintype ι] [DecidableEq ι] (isrBackoff : UInt64)

/-- The values that the handler reads in a run, in the order in which it reads them. -/
def readsOf : State ι → List (Event ι) → List UInt32
  | _, [] => []
  | s, e :: es => e.reads s ++ readsOf (step isrBackoff s e) es

end Run

/-- The first timer left is not due: it is of a later period, or its target is not below the
last value that was compared. -/
def Waits (s : State ι) (reads : List UInt32) (rest : List ι) : Prop :=
  ∀ timer ∈ rest.head?, s.longTarget timer = 0 → ∀ reference ∈ reads.getLast?,
    reference ≤ s.target timer

/-- What the handler knows when it has come to a phase. -/
def AtPhase (s : State ι) (reads : List UInt32) (rest : List ι) : Option (Phase ι) → Prop
  | some .entered | some .rearm => True
  | some (.check reference) | some (.calling reference) => reference ∈ reads
  | some (.spin reference) => reference ∈ reads ∧ rest ≠ []
  | some (.arm _) | none => Waits s reads rest
  | _ => False

/-- What `_timer_callback` has done since the state `s₀`, in which it had the list `l`: the timers
of `done` are fired, those of `rest` are left, and it has read the values `reads`. -/
structure Served (s₀ : State ι) (reads : List UInt32) (done rest : List ι) (s : State ι) : Prop where
  holds : s.list.Holds rest
  target : ∀ x ∈ rest, s.target x = s₀.target x
  longTarget : ∀ x ∈ rest, s.longTarget x = s₀.longTarget x
  fired : ∃ firings, s.fired = firings ++ s₀.fired ∧ firings.map (·.timer) = done.reverse ∧
    ∀ f ∈ firings, s₀.val64 f.timer ≤ f.firedAt % 2 ^ 32
  idle : s.tasks .callback = none
  running : s.halted = false
  phase : AtPhase s reads rest s.phase

section Step

variable [DecidableEq ι] {isrBackoff : UInt64} {s₀ s : State ι} {reads : List UInt32}
  {done rest : List ι}

omit [DecidableEq ι] in
/-- A step that fires nothing and leaves the list and the fields of its timers. -/
lemma Served.goOn (h : Served s₀ reads done rest s) {s' : State ι} {reads' : List UInt32}
    (hlist : s'.list = s.list) (htarget : s'.target = s.target)
    (hlong : s'.longTarget = s.longTarget) (hfired : s'.fired = s.fired)
    (htasks : s'.tasks = s.tasks) (hhalted : s'.halted = s.halted)
    (hphase : AtPhase s' reads' rest s'.phase) : Served s₀ reads' done rest s' where
  holds := hlist ▸ h.holds
  target x hx := (congrFun htarget x).trans (h.target x hx)
  longTarget x hx := (congrFun hlong x).trans (h.longTarget x hx)
  fired := hfired ▸ h.fired
  idle := (congrFun htasks _).trans h.idle
  running := hhalted.trans h.running
  phase := hphase

lemma Served.fire (h : Served s₀ reads done rest s) {timer : ι} {reference : UInt32}
    (hhead : s.list.head = some timer) (hmem : reference ∈ reads)
    (hdue : s.val64 timer ≤ s.now % 2 ^ 32) (now : UInt32) :
    ∃ rest', rest = timer :: rest' ∧ Served s₀ (reads ++ [now]) (done ++ [timer]) rest'
      ({ s with
        list := s.list.unlinkAt .head timer
        phase := some (.calling reference) }.fire timer) := by
  obtain ⟨rest', rfl, -⟩ := Path.tail h.holds hhead
  have hne : ∀ x ∈ rest', x ≠ timer := fun x hx hxt =>
    (List.nodup_cons.mp h.holds.nodup).1 (hxt ▸ hx)
  obtain ⟨firings, hfirings, htimers, hearly⟩ := h.fired
  refine ⟨rest', rfl, Links.Holds.unlinkAt (a := []) h.holds, fun x hx => ?_, fun x hx => ?_, ?_,
    h.idle, h.running, List.mem_append_left _ hmem⟩
  · rw [← h.target x (List.mem_cons_of_mem timer hx)]
    simp [State.fire, State.shoot, Sys.setTarget, hne x hx]
  · rw [← h.longTarget x (List.mem_cons_of_mem timer hx)]
    simp [State.fire, State.shoot, Sys.setTarget]
  · refine ⟨⟨timer, (s.setting timer).time, (s.setting timer).offset, s.now⟩ :: firings, ?_, ?_, ?_⟩
    · exact congrArg (List.cons _) hfirings
    · simp [htimers]
    · intro f hf
      rcases List.mem_cons.mp hf with rfl | hf
      · have hsame : s₀.val64 timer = s.val64 timer := by
          unfold Sys.val64
          rw [h.target timer List.mem_cons_self, h.longTarget timer List.mem_cons_self]
        rw [hsame]
        exact hdue
      · exact hearly f hf

omit [DecidableEq ι] in
lemma waits_of_head {timer : ι} (h : Served s₀ reads done rest s)
    (hhead : s.list.head = some timer)
    (hlate : s.longTarget timer = 0 → ¬s.target timer < s.xtimerNow) :
    Waits s (reads ++ [s.xtimerNow]) rest := by
  obtain ⟨rest', rfl, -⟩ := Path.tail h.holds hhead
  intro x hx hlong reference hlast
  obtain rfl : timer = x := by simpa using hx
  obtain rfl : s.xtimerNow = reference := by simpa using hlast
  exact UInt32.not_lt.mp (hlate hlong)

lemma Served.runHandler (h : Served s₀ reads done rest s) {phase : Phase ι}
    (hphase : s.phase = some phase) (hreads : (reads ++ s.counterReads).Pairwise (· ≤ ·)) :
    ∃ done' rest', done' ++ rest' = done ++ rest ∧
      Served s₀ (reads ++ s.counterReads) done' rest' (s.runHandler isrBackoff phase) := by
  have hok := h.phase
  rw [hphase] at hok
  have hstays : ∀ {s' : State ι} {reads' : List UInt32}, Served s₀ reads' done rest s' →
      ∃ done' rest', done' ++ rest' = done ++ rest ∧ Served s₀ reads' done' rest' s' :=
    fun h => ⟨done, rest, rfl, h⟩
  unfold State.counterReads at hreads ⊢
  rw [hphase] at hreads ⊢
  cases phase with
  | entered =>
    exact hstays (h.goOn rfl rfl rfl rfl rfl rfl (List.mem_append_right _ (by simp)))
  | check reference =>
    have hmem : ∀ now, reference ∈ reads ++ now := fun now => List.mem_append_left _ hok
    dsimp only [State.runHandler]
    cases hhead : s.list.head with
    | none => exact hstays (h.goOn rfl rfl rfl rfl rfl rfl trivial)
    | some timer =>
      obtain ⟨rest', rfl, -⟩ := Path.tail h.holds hhead
      simp only [Option.isSome_some, if_true]
      split
      · exact hstays (h.goOn rfl rfl rfl rfl rfl rfl ⟨hmem _, by simp⟩)
      · exact hstays (h.goOn rfl rfl rfl rfl rfl rfl trivial)
  | spin reference =>
    obtain ⟨hmem, hrest⟩ := hok
    dsimp only [State.runHandler]
    cases hhead : s.list.head with
    | none =>
      have hempty : rest = [] := Path.unique h.holds hhead
      exact absurd hempty hrest
    | some timer =>
      dsimp only
      split
      · rename_i hleft
        -- the reference was read before, so the counter is not below it
        have hlow : ¬s.xtimerNow < reference := UInt32.not_lt.mpr
          ((List.pairwise_append.mp hreads).2.2 reference hmem _ (by simp))
        have hdue := (timeLeft_eq_zero hleft).resolve_left hlow
        rw [Sys.toNat_xtimerNow] at hdue
        obtain ⟨rest', rfl, hfired⟩ := h.fire hhead hmem hdue s.xtimerNow
        exact ⟨_, rest', by simp, hfired⟩
      · refine hstays (h.goOn rfl rfl rfl rfl rfl rfl ?_)
        rw [hphase]
        exact ⟨List.mem_append_left _ hmem, hrest⟩
  | calling reference =>
    dsimp only [State.runHandler]
    rw [h.idle]
    exact hstays (h.goOn rfl rfl rfl rfl rfl rfl (List.mem_append_left _ hok))
  | rearm =>
    dsimp only [State.runHandler]
    cases hhead : s.list.head with
    | none =>
      obtain rfl : rest = [] := Path.unique h.holds hhead
      exact hstays (h.goOn rfl rfl rfl rfl rfl rfl fun x hx => by simp at hx)
    | some timer =>
      dsimp only
      split_ifs with hlong hpast
      · exact hstays (h.goOn rfl rfl rfl rfl rfl rfl (List.mem_append_right _ (by simp)))
      · have hwaits := waits_of_head h hhead fun _ => hpast
        exact hstays (h.goOn rfl rfl rfl rfl rfl rfl hwaits)
      · have hwaits := waits_of_head h hhead fun hzero => absurd hzero hlong
        exact hstays (h.goOn rfl rfl rfl rfl rfl rfl hwaits)
  | arm nextTarget =>
    rw [List.append_nil]
    exact hstays (h.goOn rfl rfl rfl rfl rfl rfl hok)
  | wrap listHead scheduled => exact hok.elim
  | wrapCalling timer => exact hok.elim
  | wrapArm timer => exact hok.elim

variable [Fintype ι]

lemma Served.step (isrBackoff : UInt64) (h : Served s₀ reads done rest s) {e : Event ι}
    (he : e.isServed = true)
    (hreads : (reads ++ e.reads s).Pairwise (· ≤ ·)) :
    ∃ done' rest', done' ++ rest' = done ++ rest ∧
      Served s₀ (reads ++ e.reads s) done' rest' (Timer.step isrBackoff s e) := by
  unfold Timer.step
  rw [if_neg (show ¬s.halted = true by rw [h.running]; decide)]
  cases e with
  | tick n =>
    have hnone : Event.reads s (.tick n : Event ι) = [] := rfl
    rw [hnone, List.append_nil]
    exact ⟨done, rest, rfl, h.goOn rfl rfl rfl rfl rfl rfl h.phase⟩
  | handler =>
    dsimp only
    cases hphase : s.phase with
    | none =>
      have hnone : Event.reads s (.handler : Event ι) = [] := by
        simp [Event.reads, State.counterReads, hphase]
      rw [hnone, List.append_nil]
      exact ⟨done, rest, rfl, h⟩
    | some phase => exact h.runHandler hphase hreads
  | call c op => simp [Event.isServed] at he
  | task c => simp [Event.isServed] at he
  | irq => simp [Event.isServed] at he

lemma Served.run (isrBackoff : UInt64) (h : Served s₀ reads done rest s) (es : List (Event ι))
    (hes : ∀ e ∈ es, e.isServed = true)
    (hreads : (reads ++ readsOf isrBackoff s es).Pairwise (· ≤ ·)) :
    ∃ done' rest', done' ++ rest' = done ++ rest ∧
      Served s₀ (reads ++ readsOf isrBackoff s es) done' rest'
        (Run.run (Timer.step isrBackoff) s es) := by
  induction es generalizing s reads done rest with
  | nil =>
    rw [readsOf, List.append_nil]
    exact ⟨done, rest, rfl, h⟩
  | cons e es ih =>
    rw [readsOf, ← List.append_assoc] at hreads ⊢
    obtain ⟨done₁, rest₁, hcut₁, h₁⟩ := h.step isrBackoff (hes e List.mem_cons_self)
      (List.pairwise_append.mp hreads).1
    obtain ⟨done', rest', hcut', h'⟩ := ih h₁ (fun e' he' => hes e' (List.mem_cons_of_mem e he')) hreads
    exact ⟨done', rest', hcut'.trans hcut₁, h'⟩

/-- Whenever `_timer_callback` returns, it has fired a prefix of the list, each timer once, in
order and at a counter value that is not below its deadline. The rest of the list is as it was,
and the first timer of it is not due at the last value compared. -/
theorem timer_callback_fires_due_prefix (isrBackoff : UInt64) {l : List ι}
    (hphase : s.phase = some .entered) (hhalted : s.halted = false)
    (hidle : s.tasks .callback = none) (hholds : s.list.Holds l) (es : List (Event ι))
    (hes : ∀ e ∈ es, e.isServed = true)
    (hreads : (readsOf isrBackoff s es).Pairwise (· ≤ ·))
    (hreturns : (Run.run (Timer.step isrBackoff) s es).phase = none) :
    let s' := Run.run (Timer.step isrBackoff) s es
    ∃ done rest firings, l = done ++ rest ∧ s'.fired = firings ++ s.fired ∧
      firings.map (·.timer) = done.reverse ∧ done.Nodup ∧
      (∀ f ∈ firings, s.val64 f.timer ≤ f.firedAt % 2 ^ 32) ∧
      s'.list.Holds rest ∧
      (∀ x ∈ rest, s'.target x = s.target x ∧ s'.longTarget x = s.longTarget x) ∧
      ∀ timer ∈ rest.head?, s'.longTarget timer = 0 →
        ∀ reference ∈ (readsOf isrBackoff s es).getLast?, reference ≤ s'.target timer := by
  have hentered : Served s [] [] l s := ⟨hholds, fun x _ => rfl, fun x _ => rfl,
    ⟨[], rfl, rfl, by simp⟩, hidle, hhalted, by rw [hphase]; trivial⟩
  obtain ⟨done, rest, hcut, h⟩ := hentered.run isrBackoff es hes hreads
  obtain ⟨firings, hfired, htimers, hearly⟩ := h.fired
  have hwaits := h.phase
  rw [hreturns] at hwaits
  obtain rfl : done ++ rest = l := hcut
  have hnodup : done.Nodup := (List.nodup_append.mp hholds.nodup).1
  exact ⟨done, rest, firings, rfl, hfired, htimers, hnodup, hearly, h.holds,
    fun x hx => ⟨h.target x hx, h.longTarget x hx⟩, hwaits⟩

end Step

/-- The match handler has entered five ticks before the first of two timers is due. -/
def sampleMatch : State Bool :=
  { sampleBoard with
    list := ⟨some true, fun timer => if timer then some false else none⟩
    target := fun timer => if timer then 100 else 5
    longTarget := fun timer => if timer then 0 else 1
    inHandler := true
    phase := some .entered
    now := 95 }

/-- The handler spins until the timer is due, fires it and leaves the other. -/
def sampleServed : List (Event Bool) :=
  [.handler, .handler, .handler, .tick 10, .handler, .handler, .handler, .handler]

theorem sample_match_fires_prefix :
    let s' := Run.run (step 20) sampleMatch sampleServed
    ∃ done rest firings, [true, false] = done ++ rest ∧ s'.fired = firings ++ [] ∧
      firings.map (·.timer) = done.reverse ∧ done.Nodup ∧
      (∀ f ∈ firings, sampleMatch.val64 f.timer ≤ f.firedAt % 2 ^ 32) ∧
      s'.list.Holds rest ∧
      (∀ x ∈ rest, s'.target x = sampleMatch.target x ∧
        s'.longTarget x = sampleMatch.longTarget x) ∧
      ∀ timer ∈ rest.head?, s'.longTarget timer = 0 →
        ∀ reference ∈ (readsOf 20 sampleMatch sampleServed).getLast?,
          reference ≤ s'.target timer :=
  timer_callback_fires_due_prefix 20 (s := sampleMatch) (l := [true, false]) rfl rfl rfl
    ⟨rfl, rfl, rfl⟩ sampleServed (by decide) (by decide +kernel) (by decide +kernel)

end Nais.Timer
