import Nais.Timer.Wakeup

/-!
# Periodic wake-ups do not drift

`_xtimer_periodic_wakeup` stores the time for which it woke up, which is to be the last one plus
the period. On the relative path it counts the offset from a second reading of the counter, so
that the ticks between its two readings are added to the time it stores.
-/

namespace Nais.Timer

open Nais.Lib

variable {ι : Type}

def Wakeup.isRelative : Wakeup ι → Bool
  | .relative _ _ => true
  | _ => false

/-- The timer module, with how many calls of a thread have returned and what the first reading
of its current call was. -/
structure Periodic (ι : Type) extends System ι where
  returned : ℕ
  firstRead : UInt32

namespace Periodic

section Step

variable [Fintype ι] [DecidableEq ι]

def step (config : Config) (k : ℕ) (s : Periodic ι) (turn : Turn ι) : Periodic ι :=
  let next := s.toSystem.step config turn
  { toSystem := next
    returned := s.returned + ((s.wakeups k).isSome && (next.wakeups k).isNone).toNat
    firstRead := match s.wakeups k with
      | some (.start _ _) => s.xtimerNow
      | _ => s.firstRead }

end Step

/-- The calls of the thread are successive calls with the same period on the same variable. -/
def Successive (k : ℕ) (period : UInt32) (s : Periodic ι) : Turn ι → Prop
  | .wakeup j _ lastWakeup period' =>
    j = k → lastWakeup = s.lastWakeup k ∧ period' = period
  | _ => True

/-- On the relative path the second reading finds the counter where the first one did. -/
def Steady (k : ℕ) (s : Periodic ι) : Turn ι → Prop
  | .resume j => j = k → ∀ wakeup ∈ s.current k, wakeup.isRelative = true →
      s.xtimerNow = s.firstRead
  | _ => True

instance (k : ℕ) (period : UInt32) (s : Periodic ι) (turn : Turn ι) :
    Decidable (s.Successive k period turn) := match turn with
  | .wakeup j _ lastWakeup period' =>
    inferInstanceAs (Decidable (j = k → lastWakeup = s.lastWakeup k ∧ period' = period))
  | .timer _ | .resume _ => isTrue trivial

instance (k : ℕ) (s : Periodic ι) (turn : Turn ι) : Decidable (s.Steady k turn) := match turn with
  | .resume j => inferInstanceAs (Decidable (j = k → ∀ wakeup ∈ s.current k,
      wakeup.isRelative = true → s.xtimerNow = s.firstRead))
  | .timer _ | .wakeup _ _ _ _ => isTrue trivial

/-- The value that `last_wakeup` is to have. -/
def InPhase (k : ℕ) (start period : UInt32) (s : Periodic ι) : Prop :=
  s.lastWakeup k = start + .ofNat s.returned * period

/-- The target that a call has computed is `next`, or will be if its second reading is the same
as its first. -/
def Aims (config : Config) (period firstRead next : UInt32) : Option (Wakeup ι) → Prop
  | none => True
  | some (.start _ period') => period' = period
  | some (.relative _ offset) => firstRead + offset = next ∧
      ¬offset < config.periodicSpin ∧ offset < config.periodicRelative
  | some (.spin target _) | some (.spinning target _ _) | some (.set _ target _ _)
  | some (.waiting _ target _) => target = next

structure Kept (config : Config) (k : ℕ) (start period : UInt32) (s : Periodic ι) : Prop where
  inPhase : s.InPhase k start period
  aims : Aims config period s.firstRead (s.lastWakeup k + period) (s.wakeups k)

section Step

variable [Fintype ι] [DecidableEq ι] {config : Config} {k : ℕ} {start period : UInt32}
  {s : Periodic ι} {turn : Turn ι}

lemma Kept.goOn (h : s.Kept config k start period)
    (hcall : (s.wakeups k).isSome = true → ((s.toSystem.step config turn).wakeups k).isSome = true)
    (hlast : (s.toSystem.step config turn).lastWakeup k = s.lastWakeup k)
    (haims : Aims config period (s.step config k turn).firstRead (s.lastWakeup k + period)
      ((s.toSystem.step config turn).wakeups k)) :
    (s.step config k turn).Kept config k start period := by
  have hreturned : (s.step config k turn).returned = s.returned := by
    have hnone : ((s.wakeups k).isSome &&
        ((s.toSystem.step config turn).wakeups k).isNone) = false := by
      rw [← Option.not_isSome]
      revert hcall
      generalize (s.wakeups k).isSome = before
      generalize ((s.toSystem.step config turn).wakeups k).isSome = after
      cases before <;> cases after <;> simp
    simp [step, hnone]
  have hl : (s.step config k turn).lastWakeup k = s.lastWakeup k := hlast
  refine ⟨?_, ?_⟩
  · unfold InPhase
    rw [hreturned, hl]
    exact h.inPhase
  · rw [hl]
    exact haims

/-- Turns that are none of the thread's leave its call and its variable. -/
lemma Kept.other (h : s.Kept config k start period)
    (hwakeups : (s.toSystem.step config turn).wakeups k = s.wakeups k)
    (hlast : (s.toSystem.step config turn).lastWakeup k = s.lastWakeup k) :
    (s.step config k turn).Kept config k start period := by
  refine h.goOn (by simp [hwakeups]) hlast ?_
  have haims := h.aims
  rw [hwakeups]
  unfold step
  dsimp only
  cases hwakeup : s.wakeups k with
  | none => trivial
  | some wakeup =>
    rw [hwakeup] at haims
    cases wakeup <;> exact haims

lemma Kept.wakeUp (h : s.Kept config k start period) {wakeup : Wakeup ι}
    (hwakeup : s.wakeups k = some wakeup)
    (hwakeups : (s.toSystem.step config turn).wakeups k = none)
    (hlast : (s.toSystem.step config turn).lastWakeup k = s.lastWakeup k + period) :
    (s.step config k turn).Kept config k start period := by
  have hreturned : (s.step config k turn).returned = s.returned + 1 := by
    simp [step, hwakeups, hwakeup]
  have hl : (s.step config k turn).lastWakeup k = s.lastWakeup k + period := hlast
  have hw : (s.step config k turn).wakeups k = none := hwakeups
  refine ⟨?_, ?_⟩
  · have hphase := h.inPhase
    have hone : UInt32.ofNat 1 = 1 := rfl
    unfold InPhase at hphase ⊢
    rw [hl, hreturned, hphase, UInt32.ofNat_add, hone, add_mul, one_mul, add_assoc]
  · rw [hw]
    trivial

end Step

section Resume

variable [DecidableEq ι] {config : Config} {k j : ℕ} {s : System ι}

variable (config s) in
lemma runWakeup_other (hj : j ≠ k) (wakeup : Wakeup ι) :
    (s.runWakeup config j wakeup).wakeups k = s.wakeups k ∧
      (s.runWakeup config j wakeup).lastWakeup k = s.lastWakeup k := by
  have hk : k ≠ j := hj.symm
  cases wakeup with
  | start timer period =>
    simp only [System.runWakeup]
    split_ifs <;> simp [System.wakeUp, System.goOnWakeup, hk]
  | spin target offset => simp [System.runWakeup, System.goOnWakeup, hk]
  | spinning target offset start =>
    simp only [System.runWakeup]
    split_ifs <;> simp [System.wakeUp, hk]
  | relative timer offset => simp [System.runWakeup, System.goOnWakeup, hk]
  | set timer target offset time => simp [System.runWakeup, System.goOnWakeup, hk]
  | waiting timer target fired =>
    simp only [System.runWakeup]
    split_ifs <;> simp [System.wakeUp, hk]

end Resume

section Run

variable [Fintype ι] [DecidableEq ι] {config : Config} {k : ℕ} {start period : UInt32}
  {s : Periodic ι} {turn : Turn ι}

lemma Kept.resume (h : s.Kept config k start period) (hhalted : s.halted = false) {wakeup : Wakeup ι}
    (hcurrent : s.current k = some wakeup) (hsteady : s.Steady k (.resume k)) :
    (s.step config k (.resume k)).Kept config k start period := by
  have hwakeup := System.wakeup_of_current hcurrent
  have hstep : s.toSystem.step config (.resume k) = s.toSystem.runWakeup config k wakeup := by
    unfold System.step
    dsimp only
    rw [if_neg (by simp [hhalted]), hcurrent]
  have haims := h.aims
  rw [hwakeup] at haims
  have hgoes : ∀ (sys : System ι) (next : Wakeup ι),
      s.toSystem.step config (.resume k) = sys.goOnWakeup k next →
      sys.lastWakeup k = s.lastWakeup k →
      Aims config period (s.step config k (.resume k)).firstRead (s.lastWakeup k + period) (some next) →
      (s.step config k (.resume k)).Kept config k start period := by
    intro sys next hsys hlast haims
    have hnext : (s.toSystem.step config (.resume k)).wakeups k = some next := by
      rw [hsys]
      exact Function.update_self ..
    exact h.goOn (by simp [hnext]) (by rw [hsys]; exact hlast) (by rwa [hnext])
  have hreturns : ∀ (sys : System ι) (target : UInt32),
      s.toSystem.step config (.resume k) = sys.wakeUp k target → target = s.lastWakeup k + period →
      (s.step config k (.resume k)).Kept config k start period := by
    intro sys target hsys htarget
    exact h.wakeUp hwakeup (by rw [hsys]; exact Function.update_self ..)
      (by rw [hsys, ← htarget]; exact Function.update_self ..)
  cases wakeup with
  | start timer period' =>
    have hfirst : (s.step config k (.resume k)).firstRead = s.xtimerNow := by simp [step, hwakeup]
    obtain rfl : period' = period := haims
    simp only [System.runWakeup] at hstep
    split_ifs at hstep with hpassed hspin hrelative
    · exact hreturns _ _ hstep rfl
    · exact hgoes _ _ hstep rfl rfl
    · refine hgoes _ _ hstep rfl ⟨?_, hspin, hrelative⟩
      rw [hfirst]
      exact add_sub_cancel _ _
    · exact hgoes _ _ hstep rfl rfl
  | spin target offset => exact hgoes _ _ hstep rfl haims
  | spinning target offset begin =>
    simp only [System.runWakeup] at hstep
    split_ifs at hstep
    · exact hreturns _ _ hstep haims
    · exact h.other (by rw [hstep]) (by rw [hstep])
  | relative timer offset =>
    refine hgoes _ _ hstep rfl ?_
    change s.xtimerNow + offset = _
    rw [hsteady rfl _ hcurrent rfl]
    exact haims.1
  | set timer target offset time => exact hgoes _ _ hstep rfl haims
  | waiting timer target fired =>
    simp only [System.runWakeup] at hstep
    split_ifs at hstep
    · exact hreturns _ _ hstep haims
    · exact h.other (by rw [hstep]) (by rw [hstep])

lemma Kept.step (h : s.Kept config k start period) (hsuccessive : s.Successive k period turn)
    (hsteady : s.Steady k turn) : (s.step config k turn).Kept config k start period := by
  cases turn with
  | timer e =>
    have hstep : (s.toSystem.step config (.timer e)).wakeups = s.wakeups ∧
        (s.toSystem.step config (.timer e)).lastWakeup = s.lastWakeup := by
      simp only [System.step]
      split_ifs <;> exact ⟨rfl, rfl⟩
    exact h.other (congrFun hstep.1 k) (congrFun hstep.2 k)
  | wakeup j timer lastWakeup period' =>
    by_cases hcalls : s.halted = false ∧ s.mayRun (.thread j) ∧ (s.tasks (.thread j)).isNone ∧
        (s.wakeups j).isNone
    · obtain ⟨hhalted, hfree⟩ := hcalls
      have hstep : s.toSystem.step config (.wakeup j timer lastWakeup period') =
          { s.toSystem with lastWakeup := Function.update s.lastWakeup j lastWakeup }.goOnWakeup j
            (.start timer period') := by
        simp only [System.step]
        rw [if_neg (by simp [hhalted]), if_pos hfree]
      by_cases hj : j = k
      · subst hj
        obtain ⟨hlast, rfl⟩ := hsuccessive rfl
        have hnext : (s.toSystem.step config (.wakeup j timer lastWakeup period')).wakeups j =
            some (.start timer period') := by
          rw [hstep]
          exact Function.update_self ..
        refine h.goOn (by simp [hnext]) ?_ ?_
        · rw [hstep]
          simp [System.goOnWakeup, hlast]
        · rw [hnext]
          rfl
      · refine h.other ?_ ?_
        · rw [hstep]
          simp [System.goOnWakeup, Ne.symm hj]
        · rw [hstep]
          simp [System.goOnWakeup, Ne.symm hj]
    · have hstep : s.toSystem.step config (.wakeup j timer lastWakeup period') = s.toSystem := by
        simp only [System.step]
        split_ifs with hhalted hfree
        · rfl
        · exact absurd ⟨by simpa using hhalted, hfree⟩ hcalls
        · rfl
      exact h.other (by rw [hstep]) (by rw [hstep])
  | resume j =>
    cases hhalted : s.halted with
    | true =>
      have hstep : s.toSystem.step config (.resume j) = s.toSystem := by simp [System.step, hhalted]
      exact h.other (by rw [hstep]) (by rw [hstep])
    | false =>
      cases hcurrent : s.current j with
      | none =>
        have hstep : s.toSystem.step config (.resume j) = s.toSystem := by
          simp [System.step, hhalted, hcurrent]
        exact h.other (by rw [hstep]) (by rw [hstep])
      | some wakeup =>
        by_cases hj : j = k
        · subst hj
          exact h.resume hhalted hcurrent hsteady
        · have hstep : s.toSystem.step config (.resume j) =
              s.toSystem.runWakeup config j wakeup := by
            simp [System.step, hhalted, hcurrent]
          obtain ⟨hwakeups, hlast⟩ := runWakeup_other config s.toSystem hj wakeup
          exact h.other (by rw [hstep, hwakeups]) (by rw [hstep, hlast])

omit [Fintype ι] [DecidableEq ι] in
lemma kept_of_idle (hidle : s.wakeups k = none) (hreturned : s.returned = 0) :
    s.Kept config k (s.lastWakeup k) period := by
  refine ⟨?_, by rw [hidle]; trivial⟩
  unfold InPhase
  rw [hreturned]
  simp

/-- In every run of successive calls whose relative steps find the counter where the call first
read it, the time stored after `n` calls is the first one plus `n` periods. -/
theorem periodic_wakeup_does_not_drift (config : Config) (k : ℕ) (period : UInt32)
    (hidle : s.wakeups k = none) (hreturned : s.returned = 0) (turns : List (Turn ι))
    (h : Run.Meets (step config k)
      (fun s turn => s.Successive k period turn ∧ s.Steady k turn) s turns) :
    Run.Throughout (step config k) (InPhase k (s.lastWakeup k) period) s turns := by
  exact (Run.throughout_of_meets _ (Kept config k (s.lastWakeup k) period)
    (fun s turn hs hok => hs.step hok.1 hok.2) (kept_of_idle hidle hreturned) h).mono
    fun s hs => hs.inPhase

/-- Where the relative path is for offsets for which the call spins already, no run takes it. -/
theorem in_phase_of_spin (hconfig : config.periodicRelative ≤ config.periodicSpin)
    (hidle : s.wakeups k = none) (hreturned : s.returned = 0) (turns : List (Turn ι))
    (h : Run.Meets (step config k) (fun s turn => s.Successive k period turn) s turns) :
    Run.Throughout (step config k) (InPhase k (s.lastWakeup k) period) s turns := by
  refine (Run.throughout_of_meets _ (Kept config k (s.lastWakeup k) period)
    (fun s turn hs hok => hs.step hok ?_) (kept_of_idle hidle hreturned) h).mono
    fun s hs => hs.inPhase
  cases turn with
  | timer e => trivial
  | wakeup j timer lastWakeup period' => trivial
  | resume j =>
    rintro rfl wakeup hcurrent hrelative
    have haims := hs.aims
    rw [System.wakeup_of_current hcurrent] at haims
    cases wakeup with
    | relative timer offset =>
      exact absurd (UInt32.lt_of_lt_of_le haims.2.2 hconfig) haims.2.1
    | start _ _ => simp [Wakeup.isRelative] at hrelative
    | spin _ _ => simp [Wakeup.isRelative] at hrelative
    | spinning _ _ _ => simp [Wakeup.isRelative] at hrelative
    | set _ _ _ _ => simp [Wakeup.isRelative] at hrelative
    | waiting _ _ _ => simp [Wakeup.isRelative] at hrelative

end Run

/-- Thread 0 wakes up 500 ticks after the counter 1000, with `n` ticks before its second reading. -/
def sampleWakeup (n : ℕ) : List (Turn Bool) :=
  [.wakeup 0 true 1000 500, .resume 0, .timer (.tick n), .resume 0, .resume 0,
    .timer (.task (.thread 0)), .timer (.tick 500), .timer .irq] ++
    List.replicate 6 (.timer .handler) ++ [.resume 0]

/-- A system in which thread 0 has not called `_xtimer_periodic_wakeup` yet. -/
def samplePeriodic : Periodic Bool where
  toSystem := { sampleSystem 1000 with lastWakeup := fun _ => 1000 }
  returned := 0
  firstRead := 0

theorem sample_wakeup_in_phase :
    Run.Throughout (step ⟨20, 60, 512⟩ 0) (InPhase 0 1000 500) samplePeriodic (sampleWakeup 0) :=
  periodic_wakeup_does_not_drift ⟨20, 60, 512⟩ 0 500 (s := samplePeriodic) rfl rfl (sampleWakeup 0)
    (by decide +kernel)

/-- Ten ticks between the two readings are added to the time that is stored. -/
theorem periodic_wakeup_drifts :
    ¬∀ (config : Config) (period : UInt32) (s : Periodic Bool) (turns : List (Turn Bool)),
      s.wakeups 0 = none → s.returned = 0 →
      Run.Meets (step config 0) (fun s turn => s.Successive 0 period turn) s turns →
      Run.Throughout (step config 0) (InPhase 0 (s.lastWakeup 0) period) s turns := by
  intro h
  have hlast := (h ⟨20, 60, 512⟩ 500 samplePeriodic (sampleWakeup 10) rfl rfl
    (by decide +kernel)).last
  have hstored : (Run.run (step ⟨20, 60, 512⟩ 0) samplePeriodic (sampleWakeup 10)).lastWakeup 0 =
      1510 := by decide +kernel
  have hreturned : (Run.run (step ⟨20, 60, 512⟩ 0) samplePeriodic (sampleWakeup 10)).returned =
      1 := by decide +kernel
  unfold InPhase at hlast
  rw [hstored, hreturned] at hlast
  exact absurd hlast (by decide)

end Periodic

end Nais.Timer
