import Nais.Timer.Reading

/-!
# What `_timer_wrap` finds in the list

`_timer_wrap` asserts that every timer in the list has a wrap to wait for. The handler serves
the wrap before the match, so this rests on two things: the timers that are due before a wrap
are off the list when it is served, and the `long_target` of every other timer counts the wraps
from the period that was served last to the one in which the timer is due. A wrap during the
match handler is no harm: `_time_left` then takes every timer for due, and the handler empties
the list before it returns.
-/

namespace Nais.Timer

open Nais.Lib Nais.Lib.Chain

variable {ι : Type}

namespace State

variable (s : State ι)

/-- The links from `timer_list_head` lead to the timer. -/
def OnList (timer : ι) : Prop := ∃ a, Path s.list.next s.list.head a (some timer)

/-- The counter has wrapped since `_timer_callback` read its reference. -/
def Past : Prop := match s.phase with
  | some (.check reference) | some (.spin reference) | some (.calling reference) =>
    s.xtimerNow < reference
  | _ => False

/-- The arguments fit the fields. A timer that is linked has the fields the operation wrote, and
every wrap before the reading of the counter has been served to the end; only while
`_timer_callback` fires all there is, this may be otherwise. -/
def SetInPeriod : Task ι → Prop
  | .store _ request time => request.Fits (time % 2 ^ 32)
  | .link timer setting => s.Past ∨ s.wrapping = 0 ∧ s.target timer = setting.target ∧
      s.longTarget timer = setting.longTarget ∧ setting.time / 2 ^ 32 ≤ s.served
  | _ => True

/-- The timers that were due before the counter wrapped have fired or were removed. -/
def PeriodOver : Prop :=
  ∀ timer ∈ s.pending, s.now / 2 ^ 32 * 2 ^ 32 + xtimerOverhead.toNat ≤
    (s.setting timer).time + (s.setting timer).offset

instance : Decidable s.Past := by
  unfold Past
  split <;> infer_instance

instance (task : Task ι) : Decidable (s.SetInPeriod task) := match task with
  | .store _ request time => inferInstanceAs (Decidable (request.Fits (time % 2 ^ 32)))
  | .link _ _ => inferInstanceAs (Decidable (s.Past ∨ _ ∧ _ ∧ _ ∧ _))
  | .set _ _ | .remove _ _ | .unlink _ _ | .spin _ _ | .spinning _ _ _ | .read _ _ => isTrue trivial

instance : Decidable s.PeriodOver := inferInstanceAs (Decidable (∀ timer ∈ s.pending, _))

end State

namespace System

/-- When the interrupt handler comes to run `_timer_wrap`, every timer in the list has a wrap to
wait for, and the assertion in its loop holds. -/
def WrapReady (s : System ι) : Turn ι → Prop
  | .timer .irq => s.phase = none → s.wrapFlag = true → ∀ timer, s.OnList timer →
      1 ≤ s.longTarget timer
  | .timer .handler => ∀ timer scheduled, s.phase = some (.wrap (some timer) scheduled) →
      1 ≤ s.longTarget timer
  | _ => True

variable [DecidableEq ι]

/-- The target of a wake-up that sets its timer is before the wrap, `_xtimer_set_absolute` knowing
no other. -/
def BeforeWrap : Wakeup ι → Prop
  | .set _ _ offset time => time % 2 ^ 32 + offset.toNat < 2 ^ 32 + xtimerOverhead.toNat
  | _ => True

/-- Timers are set in the period that was served last, and no wrap is served before the timers
of the period it ends are gone. -/
def InPeriod (s : System ι) : Turn ι → Prop
  | .timer (.tick n) => s.Past → State.Past { s.toState with toSys := s.toSys.tick n }
  | .timer (.task c) => ∀ task ∈ s.toState.current c, s.toState.Clear task ∧ s.SetInPeriod task
  | .timer .irq => s.phase = none → s.wrapFlag = true → s.PeriodOver
  | .resume k => ∀ wakeup ∈ s.current k, s.ClearWakeup wakeup ∧ BeforeWrap wakeup
  | _ => True

instance (wakeup : Wakeup ι) : Decidable (BeforeWrap wakeup) := match wakeup with
  | .set _ _ _ _ => inferInstanceAs (Decidable (_ < _))
  | .start _ _ | .spin _ _ | .spinning _ _ _ | .relative _ _ | .waiting _ _ _ => isTrue trivial

instance (s : System ι) (turn : Turn ι) : Decidable (s.InPeriod turn) := match turn with
  | .timer (.tick n) => inferInstanceAs (Decidable
      (s.Past → State.Past { s.toState with toSys := s.toSys.tick n }))
  | .timer (.task c) => inferInstanceAs (Decidable
      (∀ task ∈ s.toState.current c, s.toState.Clear task ∧ s.SetInPeriod task))
  | .timer .irq => inferInstanceAs (Decidable (s.phase = none → s.wrapFlag = true → s.PeriodOver))
  | .resume k => inferInstanceAs (Decidable
      (∀ wakeup ∈ s.current k, s.ClearWakeup wakeup ∧ BeforeWrap wakeup))
  | .timer (.call _ _) | .timer .handler | .wakeup _ _ _ _ => isTrue trivial

omit [DecidableEq ι] in
lemma clear_of_inPeriod {s : System ι} {turn : Turn ι} (h : s.InPeriod turn) : s.Clear turn := by
  rcases turn with (_ | _ | c | _ | _) | _ | k
  case timer.task => exact fun task htask => (h task htask).1
  case resume => exact fun wakeup hwakeup => (h wakeup hwakeup).1
  all_goals trivial

end System

/-- A timer with `w` decrements to come was set before the wraps of these, its fields give no time
before it is due, and it has as many wraps to wait for. -/
def Counts (s : State ι) (w : ℕ) (timer : ι) : Prop :=
  (s.setting timer).time / 2 ^ 32 + w ≤ s.served ∧
    (s.setting timer).time + (s.setting timer).offset + w * 2 ^ 32 ≤
      s.served * 2 ^ 32 + s.val64 timer + xtimerOverhead.toNat ∧
    w ≤ (s.longTarget timer).toNat

lemma counts_tracked : Tracked (Counts : State ι → ℕ → ι → Prop) where
  congr h hnow hflag hsetting hlong hval := by
    unfold Counts State.served at h ⊢
    rwa [hnow, hflag, hsetting, hlong, hval]
  decrement {s s' timer} h hlong hnow hflag hsetting hval := by
    unfold Counts State.served at h ⊢
    rw [hnow, hflag, hsetting]
    omega

lemma Counts.tick {s : State ι} {w : ℕ} {timer : ι} (h : Counts s w timer) (n : ℕ) :
    Counts ({ s with toSys := s.toSys.tick n } : State ι) w timer := by
  have hserved := served_tick s n
  obtain ⟨htime, hdue, hlong⟩ := h
  refine ⟨htime.trans hserved, hdue.trans ?_, hlong⟩
  gcongr
  exact le_rfl

/-- A timer that is due after the wrap has one to wait for when the wrap is served. -/
lemma Counts.lasts {s : State ι} {timer : ι} (h : Counts s 0 timer) (hflag : s.wrapFlag = true)
    (hwraps : 1 ≤ s.now / 2 ^ 32) (hover : s.now / 2 ^ 32 * 2 ^ 32 + xtimerOverhead.toNat ≤
      (s.setting timer).time + (s.setting timer).offset) : 1 ≤ (s.longTarget timer).toNat := by
  obtain ⟨-, hdue, -⟩ := h
  have htarget := (s.target timer).toNat_lt
  simp only [State.served, hflag, Bool.toNat_true, Sys.val64] at hdue
  omega

/-- With the wrap served, its decrement is to come. -/
lemma Counts.wrap {s s' : State ι} {timer : ι} (h : Counts s 0 timer) (hflag : s.wrapFlag = true)
    (hwraps : 1 ≤ s.now / 2 ^ 32) (hlasts : 1 ≤ (s.longTarget timer).toNat) (hnow : s'.now = s.now)
    (hflag' : s'.wrapFlag = false) (hsetting : s'.setting timer = s.setting timer)
    (hlong : s'.longTarget timer = s.longTarget timer) (hval : s'.val64 timer = s.val64 timer) :
    Counts s' 1 timer := by
  unfold Counts State.served at h ⊢
  rw [hnow, hflag', hsetting, hlong, hval, Bool.toNat_false]
  rw [hflag, Bool.toNat_true] at h
  omega

/-- What holds of the timers between the steps, if the match handler does not empty the list. -/
def Ready [DecidableEq ι] (s : State ι) : Prop := s.Past ∨ Ahead Counts s

section Step

variable [DecidableEq ι] {s s' : State ι} {l : List ι} {c : Ctx}

/-- An operation neither lets time pass nor goes on for the handler. -/
lemma Listed.runTask_frame [Fintype ι] (h : Listed s l) {task : Task ι} (hclear : s.Clear task) :
    (s.runTask c task).phase = s.phase ∧ (s.runTask c task).now = s.now ∧
      (s.runTask c task).wrapFlag = s.wrapFlag := by
  cases task with
  | unlink timer rest =>
    obtain ⟨list, value, enabled, hremove, -⟩ := Sys.remove_spec timer h.holds
    simp only [State.runTask, hremove]
    exact ⟨rfl, rfl, rfl⟩
  | store timer request time =>
    obtain ⟨target, longTarget, callback, hstore⟩ := s.toSys.store_eq timer (.ofNat time) request
    simp only [State.runTask, hstore]
    exact ⟨rfl, rfl, rfl⟩
  | link timer setting =>
    have htimer : timer ∉ l := fun hmem => hclear ((h.mem timer).mp hmem)
    obtain ⟨a, b, list, value, enabled, -, -, -, -, hadd⟩ :=
      Sys.addTimerToList_spec h.holds h.sorted htimer
    simp only [State.runTask, hadd]
    exact ⟨rfl, rfl, rfl⟩
  | remove timer rest =>
    simp only [State.runTask]
    split <;> exact ⟨rfl, rfl, rfl⟩
  | spinning timer offset start =>
    simp only [State.runTask]
    split <;> exact ⟨rfl, rfl, rfl⟩
  | set timer offset => exact ⟨rfl, rfl, rfl⟩
  | spin timer offset => exact ⟨rfl, rfl, rfl⟩
  | read timer request => exact ⟨rfl, rfl, rfl⟩

omit [DecidableEq ι] in
lemma State.Past.congr (h : s.Past) (hphase : s'.phase = s.phase) (hnow : s'.now = s.now) :
    s'.Past := by
  unfold State.Past at h ⊢
  simpa only [hphase, Sys.xtimerNow, hnow] using h

lemma Ready.tick (h : Ready s) {n : ℕ}
    (hpast : s.Past → State.Past { s with toSys := s.toSys.tick n }) :
    Ready { s with toSys := s.toSys.tick n } :=
  h.imp hpast fun hahead timer htimer w hw => (hahead timer htimer w hw).tick n

lemma Ready.goOn (h : Ready s) (c : Ctx) (task : Option (Task ι)) : Ready (s.goOn c task) :=
  h.imp (fun hpast => hpast.congr rfl rfl) fun hahead => hahead.goOn counts_tracked c task

lemma Ready.enterIrq (h : Ready s) (hphase : s.phase = none)
    (hwraps : s.wrapFlag = true → 1 ≤ s.now / 2 ^ 32) (hover : s.wrapFlag = true → s.PeriodOver) :
    Ready s.enterIrq := by
  have hquiet : Quiet s.phase := by rw [hphase]; trivial
  have hahead : Ahead Counts s := by
    apply h.resolve_left
    simp [State.Past, hphase]
  unfold State.enterIrq
  split_ifs with hflag hmatch
  · refine Or.inr fun timer htimer w hw => ?_
    obtain rfl : w = 1 := hw
    have hcounts := hahead.of_quiet hquiet htimer
    have hlasts := hcounts.lasts hflag (hwraps hflag) (hover hflag timer htimer)
    exact hcounts.wrap hflag (hwraps hflag) hlasts rfl rfl rfl rfl rfl
  · refine Or.inr (Ahead.to_quiet trivial fun timer htimer => ?_)
    exact counts_tracked.congr (hahead.of_quiet hquiet htimer) rfl rfl rfl rfl rfl
  · exact h

variable [Fintype ι]

lemma Ready.runTask (h : Ready s) (hl : Listed s l) (hc : s.mayRun c = true) {task : Task ι}
    (hclear : s.Clear task) (hwrote : task.Wrote Setting.Kept) (hset : s.SetInPeriod task) :
    Ready (s.runTask c task) := by
  obtain ⟨hphase, hnow, -⟩ := hl.runTask_frame (c := c) hclear
  by_cases hpast : s.Past
  · exact Or.inl (hpast.congr hphase hnow)
  · refine Or.inr (Ahead.runTask counts_tracked (h.resolve_left hpast) hl hc hclear ?_)
    rintro timer setting rfl s' hnow' hflag hsetting hlong hval
    obtain ⟨hwrapping, htarget, hlong', hserved⟩ := hset.resolve_left hpast
    have hkept : setting.Kept := hwrote
    unfold Setting.Kept at hkept
    have hsame : s'.served = s.served := by rw [State.served, State.served, hnow', hflag]
    have hperiods := Nat.mul_le_mul_right (2 ^ 32) hserved
    rw [hwrapping]
    refine ⟨?_, ?_, Nat.zero_le _⟩
    · rw [hsetting, hsame]
      exact hserved
    · rw [hsetting, hval, hsame, Sys.val64, htarget, hlong', Nat.zero_mul, Nat.add_zero]
      exact hkept.trans (Nat.add_le_add_right (Nat.add_le_add_right hperiods _) _)

omit [DecidableEq ι] [Fintype ι] in
/-- `_time_left` says 0 once the counter is below the reference. -/
lemma timeLeft_of_lt {s : Sys ι} {reference : UInt32} (h : s.xtimerNow < reference) (timer : ι) :
    s.timeLeft timer reference = 0 := by
  rw [Sys.timeLeft, if_pos h]

variable {isrBackoff : UInt64}

omit [Fintype ι] in
/-- Once the counter has wrapped, the loop of `_timer_callback` ends with an empty list. -/
lemma Ready.of_past (hbackoff : 0 < isrBackoff) (hpast : s.Past) (hl : Listed s l) {phase : Phase ι}
    (hphase : s.phase = some phase) : Ready (s.runHandler isrBackoff phase) := by
  unfold State.Past at hpast
  rw [hphase] at hpast
  cases phase with
  | check reference =>
    simp only [State.runHandler]
    split
    · rename_i hhead
      refine Or.inr (Ahead.to_quiet trivial fun timer htimer => ?_)
      have hempty : l = [] := by
        have hpath := Path.eq_head? hl.holds
        cases l with
        | nil => rfl
        | cons x l => simp [hhead] at hpath
      have hmem := (hl.mem timer).mpr (Or.inl htimer)
      simp [hempty] at hmem
    · rename_i timer hhead
      rw [timeLeft_of_lt hpast, if_pos hbackoff]
      exact Or.inl hpast
  | spin reference =>
    simp only [State.runHandler]
    split
    · exact Or.inl (by simpa [State.Past, State.halt, hphase] using hpast)
    · rename_i timer hhead
      rw [if_pos (timeLeft_of_lt hpast timer)]
      exact Or.inl hpast
  | calling reference =>
    simp only [State.runHandler]
    split
    · exact Or.inl hpast
    · exact Or.inl (by simpa [State.Past, hphase] using hpast)
  | _ => exact hpast.elim

lemma ready_step (hbackoff : 0 < isrBackoff) (h : Ready s) (hl : Listed s l) {e : Event ι}
    (hclear : Clear s e) (hwraps : s.wrapFlag = true → 1 ≤ s.now / 2 ^ 32)
    (hwrote : ∀ c, ∀ task ∈ s.tasks c, task.Wrote Setting.Kept)
    (htick : ∀ n, e = .tick n → s.Past → State.Past { s with toSys := s.toSys.tick n })
    (htask : ∀ c, e = .task c → ∀ task ∈ s.current c, s.SetInPeriod task)
    (hirq : e = .irq → s.phase = none → s.wrapFlag = true → s.PeriodOver) :
    Ready (step isrBackoff s e) := by
  rcases step_cases isrBackoff s e with heq | ⟨n, rfl, heq⟩ | ⟨c, op, rfl, hc, heq⟩ |
    ⟨c, task, rfl, hcurrent, heq⟩ | ⟨rfl, hphase, heq⟩ | ⟨phase, rfl, hphase, heq⟩
  all_goals rw [heq]
  · exact h
  · exact h.tick (htick n rfl)
  · exact h.goOn c _
  · obtain ⟨hc, htask'⟩ := of_current hcurrent
    exact h.runTask hl hc (hclear task hcurrent) (hwrote c task htask') (htask c rfl task hcurrent)
  · exact h.enterIrq hphase hwraps (hirq rfl hphase)
  · by_cases hpast : s.Past
    · exact Ready.of_past hbackoff hpast hl hphase
    · exact Or.inr (Ahead.runHandler counts_tracked (h.resolve_left hpast) hl hphase)

/-- A wrap is pending only once the counter has wrapped. -/
lemma wraps_step (h : s.wrapFlag = true → 1 ≤ s.now / 2 ^ 32) (hl : Listed s l) {e : Event ι}
    (hclear : Clear s e) :
    (step isrBackoff s e).wrapFlag = true → 1 ≤ (step isrBackoff s e).now / 2 ^ 32 := by
  rcases step_cases isrBackoff s e with heq | ⟨n, rfl, heq⟩ | ⟨c, op, rfl, hc, heq⟩ |
    ⟨c, task, rfl, hcurrent, heq⟩ | ⟨rfl, hphase, heq⟩ | ⟨phase, rfl, hphase, heq⟩
  all_goals rw [heq]
  · exact h
  · intro hflag
    have hmono : s.now / 2 ^ 32 ≤ (s.now + n) / 2 ^ 32 :=
      Nat.div_le_div_right (Nat.le_add_right _ _)
    simp only [Sys.tick, Bool.or_eq_true, decide_eq_true_eq] at hflag ⊢
    rcases hflag with hflag | hwrap
    · exact (h hflag).trans hmono
    · omega
  · exact h
  · obtain ⟨-, hnow, hflag⟩ := hl.runTask_frame (c := c) (hclear task hcurrent)
    rwa [hnow, hflag]
  · unfold State.enterIrq
    split_ifs
    · simp
    · exact h
    · exact h
  · obtain ⟨hnow, hflag, -⟩ := runHandler_frame isrBackoff s phase
    rwa [hnow, hflag]

end Step

section Run

variable [DecidableEq ι] {s : System ι} {l : List ι}

/-- The timers that wait are those that `_timer_wrap` asks for. -/
lemma Ready.wrapReady (h : Ready s.toState) (hl : Listed s.toState l)
    (hwraps : s.wrapFlag = true → 1 ≤ s.now / 2 ^ 32) {turn : Turn ι} (hperiod : s.InPeriod turn) :
    s.WrapReady turn := by
  rcases turn with (n | _ | _ | _ | _) | _ | _
  case timer.irq =>
    intro hphase hflag timer hlist
    have hquiet : Quiet s.phase := by rw [hphase]; trivial
    have hahead : Ahead Counts s.toState := h.resolve_left (by simp [State.Past, hphase])
    obtain ⟨a, ha⟩ := hlist
    have hmem := Path.mem_of_path hl.holds ha
    have hpending := (hl.mem_pending (ne_wrapCalling_of_quiet hquiet) timer).mp hmem
    exact (hahead.of_quiet hquiet hpending).lasts hflag (hwraps hflag)
      (hperiod hphase hflag timer hpending)
  case timer.handler =>
    intro timer scheduled hphase
    have hahead : Ahead Counts s.toState := h.resolve_left (by simp [State.Past, hphase])
    obtain ⟨a, b, -, -, -, -, hcounts⟩ := hahead.of_node hl hphase
    exact (hcounts timer List.mem_cons_self).2.2
  all_goals trivial

lemma Booted.ready {s : State ι} (h : Booted s) : Ready s :=
  Or.inr fun timer htimer => by simp [h.pending] at htimer

/-- What is written before a timer is linked gives no time before the timer is due. -/
lemma writes_kept (hreads : ∀ k, ∀ wakeup ∈ s.wakeups k, wakeup.Reads) {turn : Turn ι}
    (hperiod : s.InPeriod turn) {setting : Setting} (h : s.Writes setting turn) : setting.Kept := by
  rcases turn with (_ | _ | c | _ | _) | _ | k
  case timer.task =>
    obtain ⟨timer, request, time, hcurrent, rfl⟩ := h
    have hfits : request.Fits (time % 2 ^ 32) := (hperiod _ hcurrent).2
    have hread : (UInt32.ofNat time).toNat = time % 2 ^ 32 := UInt32.toNat_ofNat'
    have hkept := store_kept s.toSys timer (.ofNat time) (by rwa [hread])
    rw [hread, Sys.val64] at hkept
    unfold Setting.Kept
    dsimp only
    omega
  case resume =>
    obtain ⟨timer, target, offset, time, hcurrent, rfl⟩ := h
    obtain rfl : target = .ofNat time + offset := hreads k _ (System.wakeup_of_current hcurrent)
    have hbefore : time % 2 ^ 32 + offset.toNat < 2 ^ 32 + xtimerOverhead.toNat :=
      (hperiod _ hcurrent).2
    have htarget := setAbsolute_target s.toSys timer offset time
    have hlong : ((s.toSys.setAbsolute timer (.ofNat time + offset)).longTarget timer).toNat = 0 := by
      simp [Sys.setAbsolute, Sys.setLongTarget]
    unfold Setting.Kept
    dsimp only
    rw [htarget, hlong]
    rw [toNat_xtimerOverhead] at hbefore ⊢
    omega
  all_goals exact h.elim

/-- What holds between the steps of a run. -/
structure Held (s : System ι) : Prop where
  listed : ∃ l, Listed s.toState l
  ready : Ready s.toState
  wraps : s.wrapFlag = true → 1 ≤ s.now / 2 ^ 32
  noted : s.Noted Setting.Kept

lemma System.Booted.held (h : s.Booted) : Held s :=
  ⟨⟨[], h.listed⟩, h.timer.ready, by simp [h.timer.wrapFlag], h.noted⟩

variable [Fintype ι] {config : Config}

lemma Held.step (hbackoff : 0 < config.isrBackoff) (h : Held s) {turn : Turn ι}
    (hperiod : s.InPeriod turn) : Held (s.step config turn) := by
  have hclear := System.clear_of_inPeriod hperiod
  obtain ⟨l, hl⟩ := h.listed
  refine ⟨System.listed_step hl hclear, ?_, ?_,
    h.noted.step fun setting hwrites => writes_kept h.noted.wakeups hperiod hwrites⟩
  all_goals rcases s.step_cases config turn with
    ⟨e, rfl, heq⟩ | ⟨callback, heq⟩ | ⟨k, timer, target, offset, time, rfl, hcurrent, heq⟩
  · rw [heq]
    refine ready_step hbackoff h.ready hl hclear h.wraps h.noted.tasks ?_ ?_ ?_
    · rintro n rfl
      exact hperiod
    · rintro c rfl task htask
      exact (hperiod task htask).2
    · rintro rfl
      exact hperiod
  · rw [heq]
    refine h.ready.imp (fun hpast => hpast.congr rfl rfl) fun hahead timer htimer w hw => ?_
    exact counts_tracked.congr (hahead timer htimer w hw) rfl rfl rfl rfl rfl
  · rw [heq]
    have hrun := System.mayRun_of_current hcurrent
    refine Ready.goOn ?_ _ _
    refine h.ready.imp (fun hpast => hpast.congr rfl rfl) fun hahead => ?_
    exact hahead.write counts_tracked hrun (hclear _ hcurrent) _ _ s.callback
  · rw [heq]
    exact wraps_step h.wraps hl hclear
  · rw [heq]
    exact h.wraps
  · rw [heq]
    exact h.wraps

/-- In every run in which timers are set in the period that was served last, and no wrap is
served before the timers that were due by then are gone, `_timer_wrap` finds only timers that
have a wrap to wait for. -/
theorem wrap_finds_timers_waiting (config : Config) (hbackoff : 0 < config.isrBackoff)
    (hs : s.Booted) (turns : List (Turn ι))
    (h : Run.Meets (System.step config) System.InPeriod s turns) :
    Run.Meets (System.step config) System.WrapReady s turns :=
  Run.Meets.of_invariant Held (fun _ _ hs hperiod => hs.step hbackoff hperiod)
    (fun _ _ hs hperiod => hs.listed.elim fun _ hl => hs.ready.wrapReady hl hs.wraps hperiod)
    hs.held h

end Run

/-- A wake-up fires before the counter wraps, a timer set for after the wrap waits for it. -/
def sampleWakeup : List (Turn Bool) :=
  [.wakeup 1 false 4294957296 5000, .resume 1, .resume 1, .timer (.task (.thread 1)),
    .timer (.tick 4700), .timer .irq] ++ List.replicate 6 (.timer .handler) ++ .resume 1 ::
    (callOf (.set64 true 20000 0) 3).map .timer ++ [.timer (.tick 6000), .timer .irq] ++
    List.replicate 3 (.timer .handler)

theorem sample_timers_waiting :
    Run.Meets (System.step sampleConfig) System.WrapReady (sampleSystem 4294957296) sampleWakeup :=
  wrap_finds_timers_waiting sampleConfig (by decide) (sampleSystem_booted _) sampleWakeup
    (by decide +kernel)

/-- A wake-up for after the wrap links its timer with a `long_target` of 0. -/
def wakeupAcrossWrap : List (Turn Bool) :=
  [.wakeup 1 false 4294966296 5000, .resume 1, .resume 1, .timer (.task (.thread 1)),
    .timer (.tick 1100)]

theorem wrap_finds_timer_of_wakeup :
    ¬∀ turns, Run.Meets (System.step sampleConfig) System.WrapReady (sampleSystem 4294966296)
      turns := by
  intro h
  have hirq := (h (wakeupAcrossWrap ++ [.timer .irq])).last
  have hhead : (Run.run (System.step sampleConfig) (sampleSystem 4294966296)
      wakeupAcrossWrap).list.head = some false := by decide +kernel
  have hlong := hirq (by decide +kernel) (by decide +kernel) false ⟨[], hhead⟩
  revert hlong
  decide +kernel

end Nais.Timer
