import Nais.Timer.Early
import Nais.Timer.Wakeup

/-!
# From the reading of the counter to the list

An operation reads the counter, writes the fields of its timer and links it, each in a step of
its own. Whatever comes between the steps, what it wrote was computed from its reading and the
offset it was given.
-/

namespace Nais.Timer

open Nais.Lib Nais.Lib.Chain

variable {ι : Type}

/-- The counter value at which a timer is due: that of the reading plus the offset, less the
overhead. -/
def Setting.dueAt (setting : Setting) : ℕ :=
  (setting.time + setting.offset + (2 ^ 32 - xtimerOverhead.toNat)) % 2 ^ 32

/-- If the operation is to link a timer next, `P` holds of what it wrote. -/
def Task.Wrote (P : Setting → Prop) : Task ι → Prop
  | .link _ setting => P setting
  | _ => True

/-- A call that is to set its timer waits for its reading plus its offset. -/
def Wakeup.Reads : Wakeup ι → Prop
  | .set _ target offset time => target = .ofNat time + offset
  | _ => True

/-- What the step writes to a timer before it links it. -/
def System.Writes [DecidableEq ι] (s : System ι) (setting : Setting) : Turn ι → Prop
  | .timer (.task c) => ∃ timer request time, s.toState.current c = some (.store timer request time) ∧
      setting = ⟨time, request.ticks, (s.toSys.store timer (.ofNat time) request).target timer,
        (s.toSys.store timer (.ofNat time) request).longTarget timer⟩
  | .resume k => ∃ timer target offset time, s.current k = some (.set timer target offset time) ∧
      setting = ⟨time, offset.toNat, (s.toSys.setAbsolute timer target).target timer,
        (s.toSys.setAbsolute timer target).longTarget timer⟩
  | _ => False

section Values

variable [DecidableEq ι]

/-- The set operations write the counter value at which the timer is due. -/
lemma store_target (s : Sys ι) (timer : ι) (request : Request) (time : ℕ) :
    ((s.store timer (.ofNat time) request).target timer).toNat =
      (time + request.ticks + (2 ^ 32 - xtimerOverhead.toNat)) % 2 ^ 32 := by
  have hread : (UInt32.ofNat time).toNat = time % 2 ^ 32 := UInt32.toNat_ofNat'
  cases request with
  | set offset =>
    simp only [Sys.store, Sys.setAbsolute64, Sys.setLongTarget, Sys.setTarget, Function.update_self,
      UInt64.toNat_toUInt32, UInt64.toNat_sub, UInt64.toNat_add, UInt32.toNat_toUInt64, hread,
      toNat_xtimerOverhead, Request.ticks]
    omega
  | set64 offset longOffset =>
    simp only [Sys.store, Sys.set64, Sys.setLongTarget, Sys.setTarget, Function.update_self,
      UInt64.toNat_toUInt32, UInt64.toNat_sub, UInt64.toNat_add, UInt32.toNat_toUInt64, hread,
      toNat_xtimerOverhead, Request.ticks]
    omega
  | setMsg64 offset =>
    simp only [Sys.store, Sys.setMsg64_eq, Sys.setLongTarget, Sys.setTarget, Function.update_self,
      UInt64.toNat_toUInt32, UInt64.toNat_sub, UInt64.toNat_add, UInt32.toNat_toUInt64, hread,
      toNat_xtimerOverhead, Request.ticks]
    omega

/-- So does a wake-up, in 32 bits. -/
lemma setAbsolute_target (s : Sys ι) (timer : ι) (offset : UInt32) (time : ℕ) :
    ((s.setAbsolute timer (.ofNat time + offset)).target timer).toNat =
      (time + offset.toNat + (2 ^ 32 - xtimerOverhead.toNat)) % 2 ^ 32 := by
  have hread : (UInt32.ofNat time).toNat = time % 2 ^ 32 := UInt32.toNat_ofNat'
  have hoverhead : xtimerOverhead.toUInt32.toNat = 320 := rfl
  simp only [Sys.setAbsolute, Sys.setLongTarget, Sys.setTarget, Function.update_self,
    UInt32.toNat_sub, UInt32.toNat_add, hread, hoverhead, toNat_xtimerOverhead]
  omega

lemma writes_target {s : System ι} {setting : Setting} {turn : Turn ι}
    (hreads : ∀ k, ∀ wakeup ∈ s.wakeups k, wakeup.Reads) (h : s.Writes setting turn) :
    setting.target.toNat = setting.dueAt := by
  rcases turn with (_ | _ | c | _ | _) | _ | k
  case timer.task =>
    obtain ⟨timer, request, time, -, rfl⟩ := h
    exact store_target s.toSys timer request time
  case resume =>
    obtain ⟨timer, target, offset, time, hcurrent, rfl⟩ := h
    obtain rfl : target = .ofNat time + offset := hreads k _ (System.wakeup_of_current hcurrent)
    exact setAbsolute_target s.toSys timer offset time
  all_goals exact h.elim

end Values

section Step

variable [DecidableEq ι] {P : Setting → Prop}

omit [DecidableEq ι] in
lemma wrote_goOn {s : State ι} (h : ∀ c, ∀ task ∈ s.tasks c, task.Wrote P) {c : Ctx}
    {task : Option (Task ι)} (htask : ∀ t ∈ task, t.Wrote P) :
    ∀ c', ∀ t ∈ (s.goOn c task).tasks c', t.Wrote P :=
  (Function.forall_update_iff s.tasks fun _ o => ∀ t ∈ o, t.Wrote P).mpr ⟨htask, fun c' _ => h c'⟩

omit [DecidableEq ι] in
lemma wrote_afterRemove (timer : ι) (rest : Option UInt32) :
    ∀ t ∈ afterRemove timer rest, t.Wrote P := by
  intro t ht
  cases rest with
  | none => simp [afterRemove] at ht
  | some offset =>
    simp only [afterRemove] at ht
    split at ht <;> cases ht <;> trivial

variable [Fintype ι]

lemma wrote_runTask {s : State ι} (h : ∀ c, ∀ task ∈ s.tasks c, task.Wrote P) {c : Ctx}
    {task : Task ι} (hstore : ∀ timer request time, task = .store timer request time →
      P ⟨time, request.ticks, (s.toSys.store timer (.ofNat time) request).target timer,
        (s.toSys.store timer (.ofNat time) request).longTarget timer⟩) :
    ∀ c', ∀ t ∈ (s.runTask c task).tasks c', t.Wrote P := by
  cases task with
  | set timer offset =>
    refine wrote_goOn h fun t ht => ?_
    split at ht <;> cases ht
    trivial
  | remove timer rest =>
    simp only [State.runTask]
    split
    · exact wrote_goOn h (by rintro t ⟨⟩; trivial)
    · exact wrote_goOn h (wrote_afterRemove timer rest)
  | unlink timer rest =>
    simp only [State.runTask]
    split
    · exact h
    · exact wrote_goOn h (wrote_afterRemove timer rest)
  | spin timer offset => exact wrote_goOn h (by rintro t ⟨⟩; trivial)
  | spinning timer offset start =>
    simp only [State.runTask]
    split
    · exact wrote_goOn h (by simp)
    · exact h
  | read timer request => exact wrote_goOn h (by rintro t ⟨⟩; trivial)
  | store timer request time =>
    refine wrote_goOn h ?_
    rintro t ⟨⟩
    exact hstore timer request time rfl
  | link timer setting =>
    simp only [State.runTask]
    split
    · exact h
    · exact wrote_goOn h (by simp)

/-- Between its reading and the list, an operation keeps what it wrote. -/
theorem wrote_step {config : Config} {s : System ι} {turn : Turn ι}
    (h : ∀ c, ∀ task ∈ s.tasks c, task.Wrote P) (hwrites : ∀ setting, s.Writes setting turn → P setting) :
    ∀ c, ∀ task ∈ (s.step config turn).tasks c, task.Wrote P := by
  rcases s.step_cases config turn with
    ⟨e, rfl, heq⟩ | ⟨callback, heq⟩ | ⟨k, timer, target, offset, time, rfl, hcurrent, heq⟩
  · rw [heq]
    rcases step_cases config.isrBackoff s.toState e with heq | ⟨n, rfl, heq⟩ |
      ⟨c, op, rfl, hc, heq⟩ | ⟨c, task, rfl, hcurrent, heq⟩ | ⟨rfl, hphase, heq⟩ |
      ⟨phase, rfl, hphase, heq⟩
    all_goals rw [heq]
    · exact h
    · exact h
    · refine wrote_goOn h ?_
      rintro t ⟨⟩
      cases op <;> trivial
    · refine wrote_runTask h ?_
      rintro timer request time rfl
      exact hwrites _ ⟨timer, request, time, hcurrent, rfl⟩
    · unfold State.enterIrq
      split_ifs <;> exact h
    · rw [(runHandler_frame config.isrBackoff s.toState phase).2.2]
      exact h
  · rw [heq]
    exact h
  · rw [heq]
    refine wrote_goOn h ?_
    rintro t ⟨⟩
    exact hwrites _ ⟨timer, target, offset, time, hcurrent, rfl⟩

/-- A wake-up that sets its timer has read the counter and computed its offset from it. -/
theorem reads_step {config : Config} {s : System ι} (turn : Turn ι)
    (h : ∀ k, ∀ wakeup ∈ s.wakeups k, wakeup.Reads) :
    ∀ k, ∀ wakeup ∈ (s.step config turn).wakeups k, wakeup.Reads := by
  have hupdate : ∀ k (next : Option (Wakeup ι)), (∀ w ∈ next, w.Reads) →
      ∀ k', ∀ w ∈ Function.update s.wakeups k next k', w.Reads := fun k next hnext =>
    (Function.forall_update_iff s.wakeups fun _ o => ∀ w ∈ o, w.Reads).mpr ⟨hnext, fun k' _ => h k'⟩
  have hend : ∀ k k', ∀ w ∈ Function.update s.wakeups k none k', w.Reads :=
    fun k => hupdate k none (by simp)
  have hgoOn : ∀ k (wakeup : Wakeup ι), wakeup.Reads →
      ∀ k', ∀ w ∈ Function.update s.wakeups k (some wakeup) k', w.Reads :=
    fun k wakeup hwakeup => hupdate k _ (by rintro w ⟨⟩; exact hwakeup)
  cases turn with
  | timer e =>
    simp only [System.step]
    split <;> exact h
  | wakeup k timer lastWakeup period =>
    simp only [System.step]
    split_ifs
    · exact h
    · exact hgoOn k _ trivial
    · exact h
  | resume k =>
    simp only [System.step]
    split_ifs
    · exact h
    · split
      · exact h
      · rename_i wakeup hcurrent
        cases wakeup with
        | start timer period =>
          simp only [System.runWakeup]
          split_ifs
          · exact hend k
          · exact hgoOn k _ trivial
          · exact hgoOn k _ trivial
          · refine hgoOn k _ ?_
            simp only [Wakeup.Reads, Sys.xtimerNow]
            grind
        | spin target offset => exact hgoOn k _ trivial
        | spinning target offset start =>
          simp only [System.runWakeup]
          split_ifs
          · exact hend k
          · exact h
        | relative timer offset => exact hgoOn k _ rfl
        | set timer target offset time => exact hgoOn k _ trivial
        | waiting timer target fired =>
          simp only [System.runWakeup]
          split_ifs
          · exact hend k
          · exact h

/-- What the operations under way have read and written. -/
structure System.Noted (P : Setting → Prop) (s : System ι) : Prop where
  tasks : ∀ c, ∀ task ∈ s.tasks c, task.Wrote P
  wakeups : ∀ k, ∀ wakeup ∈ s.wakeups k, wakeup.Reads

theorem System.Noted.step {config : Config} {s : System ι} {turn : Turn ι} (h : s.Noted P)
    (hwrites : ∀ setting, s.Writes setting turn → P setting) : (s.step config turn).Noted P :=
  ⟨wrote_step h.tasks hwrites, reads_step turn h.wakeups⟩

omit [DecidableEq ι] [Fintype ι] in
lemma System.Booted.noted {s : System ι} (h : s.Booted) : s.Noted P :=
  ⟨by simp [h.timer.tasks], by simp [h.wakeups]⟩

end Step

/-- What `_xtimer_set` links within `XTIMER_BACKOFF` less `XTIMER_OVERHEAD` ticks of its reading
is not due yet: it spins for an offset below `XTIMER_BACKOFF`. -/
lemma lt_dueAt_of_backoff {timer : ι} {offset : UInt32}
    (hread : afterRemove timer (some offset) = some (.read timer (.set offset))) {setting : Setting}
    (hoffset : setting.offset = offset.toNat) {now : ℕ} (hle : setting.time ≤ now)
    (hsoon : now + xtimerOverhead.toNat < setting.time + xtimerBackoff.toNat)
    (hperiod : setting.time % 2 ^ 32 + setting.offset < 2 ^ 32 + xtimerOverhead.toNat) :
    now % 2 ^ 32 < setting.dueAt := by
  have hlong : ¬offset < xtimerBackoff := by
    intro hspin
    simp [afterRemove, hspin] at hread
  have hbackoff : xtimerBackoff.toNat = 720 := rfl
  rw [UInt32.lt_iff_toNat_lt] at hlong
  simp only [Setting.dueAt, toNat_xtimerOverhead, hbackoff, hoffset] at *
  omega

end Nais.Timer
