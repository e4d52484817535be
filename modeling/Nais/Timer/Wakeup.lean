import Nais.Timer.Order

/-!
# Periodic wake-ups

`_xtimer_periodic_wakeup` suspends the thread that calls it until its last wake-up plus the
period. It spins, or it sets a timer of its own by `_xtimer_set_absolute`, which knows no
`long_target` but 0, and waits until the callback unlocks its mutex.
-/

namespace Nais.Timer

open Nais.Lib Nais.Lib.Chain

variable {ι : Type}

/-- The thresholds that the header of xtimer defines: `XTIMER_ISR_BACKOFF`,
`XTIMER_PERIODIC_SPIN` and `XTIMER_PERIODIC_RELATIVE`. -/
structure Config where
  isrBackoff : UInt64
  periodicSpin : UInt32
  periodicRelative : UInt32

/-- How far a call of `_xtimer_periodic_wakeup` has come. `target` is its local variable, and
`fired` the number of callbacks there had been when it set its timer. -/
inductive Wakeup (ι : Type) where
  | start (timer : ι) (period : UInt32)
  | spin (target offset : UInt32)
  | spinning (target offset : UInt32) (start : ℕ)
  | relative (timer : ι) (offset : UInt32)
  | set (timer : ι) (target offset : UInt32) (time : ℕ)
  | waiting (timer : ι) (target : UInt32) (fired : ℕ)

/-- The offset that the call waits for. -/
def Wakeup.offset : Wakeup ι → Option UInt32
  | .spin _ offset | .spinning _ offset _ | .relative _ offset | .set _ _ offset _ => some offset
  | .start _ _ | .waiting _ _ _ => none

/-- The timer module with the threads that wake up periodically: a callback may not wait.
`lastWakeup` holds for each thread the variable whose address it passes. -/
structure System (ι : Type) extends State ι where
  wakeups : ℕ → Option (Wakeup ι)
  lastWakeup : ℕ → UInt32

def targetPassed (lastWakeup target now : UInt32) : Bool :=
  if now < lastWakeup then !(now < target && target < lastWakeup)
  else lastWakeup ≤ target && target ≤ now

section Due

variable {lastWakeup period now : UInt32}

/-- A target before the last wake-up has wrapped, and so has a counter before it: the three
comparisons leave out only the counters from the last wake-up to the target. -/
lemma targetPassed_iff :
    targetPassed lastWakeup (lastWakeup + period) now = true ↔ period ≤ now - lastWakeup := by
  have hlast := lastWakeup.toNat_lt
  have hperiod := period.toNat_lt
  have hnow := now.toNat_lt
  have htarget := UInt32.toNat_add lastWakeup period
  have helapsed := UInt32.toNat_sub now lastWakeup
  simp only [UInt32.le_iff_toNat_le, helapsed]
  unfold targetPassed
  split
  · rename_i hwrapped
    simp only [Bool.not_eq_true', Bool.and_eq_false_iff, decide_eq_false_iff_not,
      UInt32.lt_iff_toNat_lt, htarget] at hwrapped ⊢
    omega
  · rename_i hwrapped
    simp only [Bool.and_eq_true, decide_eq_true_eq, UInt32.lt_iff_toNat_lt,
      UInt32.le_iff_toNat_le, htarget] at hwrapped ⊢
    omega

lemma toNat_elapsed :
    ((now - lastWakeup).toNat : ℤ) = ((now.toNat : ℤ) - lastWakeup.toNat) % 2 ^ 32 := by
  have hlast := lastWakeup.toNat_lt
  have hnow := now.toNat_lt
  rw [UInt32.toNat_sub]
  omega

lemma toNat_offset (h : ¬period ≤ now - lastWakeup) :
    ((lastWakeup + period - now).toNat : ℤ) = period.toNat - (now - lastWakeup).toNat := by
  have heq : lastWakeup + period - now = period - (now - lastWakeup) := by grind
  have hle : now - lastWakeup ≤ period := UInt32.le_of_lt (UInt32.not_le.mp h)
  rw [heq, UInt32.toNat_sub_of_le _ _ hle]
  rw [UInt32.le_iff_toNat_le] at hle
  omega

end Due

/-- `_xtimer_set_absolute` before it adds the timer to the list. -/
def Sys.setAbsolute [DecidableEq ι] (s : Sys ι) (timer : ι) (ticksOffset : UInt32) : Sys ι :=
  (s.setTarget timer (ticksOffset - xtimerOverhead.toUInt32)).setLongTarget timer 0

/-- What happens next: something in the timer module, a call, or a step of a call. -/
inductive Turn (ι : Type) where
  | timer (e : Event ι)
  | wakeup (k : ℕ) (timer : ι) (lastWakeup period : UInt32)
  | resume (k : ℕ)

namespace System

def goOnWakeup (s : System ι) (k : ℕ) (wakeup : Wakeup ι) : System ι :=
  { s with wakeups := Function.update s.wakeups k (some wakeup) }

def wakeUp (s : System ι) (k : ℕ) (target : UInt32) : System ι :=
  { s with
    wakeups := Function.update s.wakeups k none
    lastWakeup := Function.update s.lastWakeup k target }

/-- The step a thread in `_xtimer_periodic_wakeup` takes when it is its turn. -/
def current (s : System ι) (k : ℕ) : Option (Wakeup ι) :=
  if s.mayRun (.thread k) ∧ (s.tasks (.thread k)).isNone then s.wakeups k else none

variable [DecidableEq ι]

def runWakeup (config : Config) (s : System ι) (k : ℕ) : Wakeup ι → System ι
  | .start timer period =>
    let s := { s with callback := Function.update s.callback timer true }
    let target := s.lastWakeup k + period
    let now := s.xtimerNow
    if targetPassed (s.lastWakeup k) target now then s.wakeUp k target
    else
      let offset := target - now
      if offset < config.periodicSpin then s.goOnWakeup k (.spin target offset)
      else if offset < config.periodicRelative then s.goOnWakeup k (.relative timer offset)
      else s.goOnWakeup k (.set timer target offset s.now)
  | .spin target offset => s.goOnWakeup k (.spinning target offset s.now)
  | .spinning target offset start =>
    if start + offset.toNat ≤ s.now then s.wakeUp k target else s
  | .relative timer offset => s.goOnWakeup k (.set timer (s.xtimerNow + offset) offset s.now)
  | .set timer target offset time =>
    let sys := s.toSys.setAbsolute timer target
    let setting := ⟨time, offset.toNat, sys.target timer, sys.longTarget timer⟩
    { s with
      toState := { s.toState with toSys := sys }.goOn (.thread k) (some (.link timer setting))
    }.goOnWakeup k (.waiting timer target s.fired.length)
  | .waiting timer target fired =>
    if (s.fired.take (s.fired.length - fired)).any (·.timer = timer) then s.wakeUp k target else s

/-- A thread in `_xtimer_periodic_wakeup` calls nothing else. -/
def Waits (s : System ι) : Event ι → Bool
  | .call (.thread k) _ => (s.wakeups k).isSome
  | _ => false

/-- How a call goes on that does not return at once is a matter of its offset. -/
lemma wakeups_start (config : Config) (s : System ι) (k : ℕ) (timer : ι) (period : UInt32) :
    let target := s.lastWakeup k + period
    let next := (s.runWakeup config k (.start timer period)).wakeups k
    if targetPassed (s.lastWakeup k) target s.xtimerNow then next = none
    else ∃ wakeup, next = some wakeup ∧ wakeup.offset = some (target - s.xtimerNow) := by
  dsimp only [runWakeup]
  have hnow : ({ s with callback := Function.update s.callback timer true } : System ι).xtimerNow =
    s.xtimerNow := rfl
  rw [hnow]
  split_ifs
  · exact Function.update_self ..
  · exact ⟨_, Function.update_self .., rfl⟩
  · exact ⟨_, Function.update_self .., rfl⟩
  · exact ⟨_, Function.update_self .., rfl⟩

/-- A call returns at once if its period is over, and otherwise waits for the rest of it. -/
theorem returns_at_once_iff (config : Config) (s : System ι) (k : ℕ) (timer : ι) (period : UInt32) :
    let elapsed := ((s.xtimerNow.toNat : ℤ) - (s.lastWakeup k).toNat) % 2 ^ 32
    let next := (s.runWakeup config k (.start timer period)).wakeups k
    (next = none ↔ (period.toNat : ℤ) ≤ elapsed) ∧
      ∀ wakeup ∈ next, ∃ offset ∈ wakeup.offset, (offset.toNat : ℤ) = period.toNat - elapsed := by
  intro elapsed next
  have helapsed : elapsed = (s.xtimerNow - s.lastWakeup k).toNat := toNat_elapsed.symm
  have hdue : period ≤ s.xtimerNow - s.lastWakeup k ↔ (period.toNat : ℤ) ≤ elapsed := by
    rw [UInt32.le_iff_toNat_le, helapsed, Nat.cast_le]
  have hstart := wakeups_start config s k timer period
  simp only [targetPassed_iff] at hstart
  rw [← hdue]
  split at hstart
  · rename_i hpassed
    have hnone : next = none := hstart
    exact ⟨iff_of_true hnone hpassed, by simp [hnone]⟩
  · rename_i hpassed
    obtain ⟨wakeup, hnext, hoffset⟩ := hstart
    have hsome : next = some wakeup := hnext
    refine ⟨iff_of_false (by simp [hsome]) hpassed, ?_⟩
    intro wakeup' hwakeup'
    obtain rfl : wakeup = wakeup' := by simpa [hsome] using hwakeup'
    refine ⟨_, hoffset, ?_⟩
    rw [toNat_offset hpassed, helapsed]

variable [Fintype ι]

def step (config : Config) (s : System ι) : Turn ι → System ι
  | .timer e =>
    if s.Waits e then s else { s with toState := Timer.step config.isrBackoff s.toState e }
  | .wakeup k timer lastWakeup period =>
    if s.halted then s
    else if s.mayRun (.thread k) ∧ (s.tasks (.thread k)).isNone ∧ (s.wakeups k).isNone then
      { s with lastWakeup := Function.update s.lastWakeup k lastWakeup }.goOnWakeup k
        (.start timer period)
    else s
  | .resume k =>
    if s.halted then s
    else match s.current k with
      | none => s
      | some wakeup => s.runWakeup config k wakeup

/-- A wake-up writes to the fields of its timer only while that timer is not pending. -/
def ClearWakeup (s : System ι) : Wakeup ι → Prop
  | .set timer _ _ _ => ¬s.Pending timer
  | _ => True

def Clear (s : System ι) : Turn ι → Prop
  | .timer e => Timer.Clear s.toState e
  | .wakeup _ _ _ _ => True
  | .resume k => ∀ wakeup ∈ s.current k, s.ClearWakeup wakeup

instance (s : System ι) (wakeup : Wakeup ι) : Decidable (s.ClearWakeup wakeup) :=
  match wakeup with
  | .set timer _ _ _ => inferInstanceAs (Decidable ¬s.Pending timer)
  | .start _ _ | .spin _ _ | .spinning _ _ _ | .relative _ _ | .waiting _ _ _ => isTrue trivial

instance (s : System ι) (turn : Turn ι) : Decidable (s.Clear turn) := match turn with
  | .timer e => inferInstanceAs (Decidable (Timer.Clear s.toState e))
  | .wakeup _ _ _ _ => isTrue trivial
  | .resume k => inferInstanceAs (Decidable (∀ wakeup ∈ s.current k, s.ClearWakeup wakeup))

structure Booted (s : System ι) : Prop where
  timer : Timer.Booted s.toState
  wakeups : ∀ k, s.wakeups k = none

variable {config : Config} {s : System ι} {l : List ι}

/-- A turn leaves the timer module alone but for the `callback` fields, or it is one of its own
steps, or a wake-up writes its timer and goes on to link it. -/
theorem step_cases (config : Config) (s : System ι) (turn : Turn ι) :
    (∃ e, turn = .timer e ∧ (s.step config turn).toState =
      Timer.step config.isrBackoff s.toState e) ∨
    (∃ callback, (s.step config turn).toState = { s.toState with callback := callback }) ∨
    ∃ k timer target offset time, turn = .resume k ∧
      s.current k = some (.set timer target offset time) ∧ (s.step config turn).toState =
        { s.toState with toSys := s.toSys.setAbsolute timer target }.goOn (.thread k)
          (some (.link timer ⟨time, offset.toNat, (s.toSys.setAbsolute timer target).target timer,
            (s.toSys.setAbsolute timer target).longTarget timer⟩)) := by
  have hsame : (∃ callback, s.toState = { s.toState with callback := callback }) := ⟨_, rfl⟩
  cases turn with
  | timer e =>
    simp only [step]
    split
    · exact Or.inr (Or.inl hsame)
    · exact Or.inl ⟨e, rfl, rfl⟩
  | wakeup k timer lastWakeup period =>
    refine Or.inr (Or.inl ?_)
    simp only [step]
    split_ifs <;> exact hsame
  | resume k =>
    apply Or.inr
    simp only [step]
    split
    · exact Or.inl hsame
    · cases hcurrent : s.current k with
      | none => exact Or.inl hsame
      | some wakeup =>
        cases wakeup with
        | set timer target offset time =>
          exact Or.inr ⟨k, timer, target, offset, time, rfl, hcurrent, rfl⟩
        | start timer period =>
          refine Or.inl ⟨Function.update s.callback timer true, ?_⟩
          simp only [runWakeup]
          split_ifs <;> rfl
        | spin target offset => exact Or.inl hsame
        | spinning target offset start =>
          simp only [runWakeup]
          split_ifs <;> exact Or.inl hsame
        | relative timer offset => exact Or.inl hsame
        | waiting timer target fired =>
          simp only [runWakeup]
          split_ifs <;> exact Or.inl hsame

omit [DecidableEq ι] [Fintype ι] in
lemma mayRun_of_current {k : ℕ} {wakeup : Wakeup ι} (h : s.current k = some wakeup) :
    s.mayRun (.thread k) = true := by
  unfold current at h
  split at h
  · rename_i hrun
    exact hrun.1
  · simp at h

omit [DecidableEq ι] [Fintype ι] in
lemma wakeup_of_current {k : ℕ} {wakeup : Wakeup ι} (h : s.current k = some wakeup) :
    s.wakeups k = some wakeup := by
  unfold current at h
  split at h
  · exact h
  · simp at h

lemma listed_step (h : Listed s.toState l) {turn : Turn ι} (hclear : s.Clear turn) :
    ∃ l', Listed (s.step config turn).toState l' := by
  rcases step_cases config s turn with
    ⟨e, rfl, heq⟩ | ⟨callback, heq⟩ | ⟨k, timer, target, offset, time, rfl, hcurrent, heq⟩
  · rw [heq]
    exact Timer.listed_step h hclear
  · rw [heq]
    exact ⟨l, h.holds, h.sorted, h.mem, h.phase, h.idle⟩
  · rw [heq]
    have hrun := mayRun_of_current hcurrent
    refine ⟨l, Listed.goOn ?_ ?_ fun x rest hx => by simp⟩
    · exact h.write hrun (hclear _ hcurrent) _ _ s.callback
    · exact hrun

omit [DecidableEq ι] [Fintype ι] in
lemma Booted.listed (h : Booted s) : Listed s.toState [] := h.timer.listed

end System

/-- A board with two timers that has just started, and no thread in a wake-up. -/
def sampleSystem (now : ℕ) : System Bool where
  toState := { sampleBoard with now := now }
  wakeups _ := none
  lastWakeup _ := 0

lemma sampleSystem_booted (now : ℕ) : (sampleSystem now).Booted :=
  ⟨sampleBoard_booted now, fun _ => rfl⟩

def sampleConfig : Config := ⟨20, 1440, 512⟩

end Nais.Timer
