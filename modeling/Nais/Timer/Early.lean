import Nais.Timer.Ahead

/-!
# No timer fires early

A timer is due at the time its set operation read, plus the offset, less the overhead. Its
fields give that time from the period whose wrap was served last; while `_timer_wrap` runs,
the timers it has still to come to are one period behind.
-/

namespace Nais.Timer

open Nais.Lib Nais.Lib.Chain

variable {ι : Type}

/-- No callback came before the time its timer was set for. -/
def State.NoneEarly (s : State ι) : Prop :=
  ∀ f ∈ s.fired, f.setAt + f.offset ≤ f.firedAt + xtimerOverhead.toNat

/-- `_xtimer_set64` adds the period count to `long_offset` in 32 bits, and `_xtimer_set_msg64`
knows no `long_target` but 0 and 1. -/
def Request.Fits (now : ℕ) : Request → Prop
  | .set _ => True
  | .set64 offset longOffset =>
    now + (Request.set64 offset longOffset).ticks < 2 ^ 64 + xtimerOverhead.toNat
  | .setMsg64 offset => now + offset.toNat < 2 ^ 33 + xtimerOverhead.toNat

namespace State

variable (s : State ι)

/-- The period whose wrap was served last. -/
def served : ℕ := s.now / 2 ^ 32 - s.wrapFlag.toNat

/-- The fields can hold what was asked for, they are as the operation wrote them when it links
the timer, and a timer that has a wrap to wait for is not linked while the wrap before the
read of the counter is still to be served. -/
def Timely : Task ι → Prop
  | .store _ request time => request.Fits (time % 2 ^ 32)
  | .link timer setting =>
    s.target timer = setting.target ∧ s.longTarget timer = setting.longTarget ∧
      (setting.longTarget = 0 ∨ setting.time / 2 ^ 32 + s.wrapping ≤ s.served)
  | _ => True

/-- When `_timer_callback` is about to fire, the counter has not wrapped since it read its
reference, or the timer was set before that wrap and due before it. -/
def ReadsOn : Phase ι → Prop
  | .spin reference => ∀ timer ∈ s.list.head, reference ≤ s.xtimerNow ∨
      s.wrapFlag = true ∧ s.longTarget timer = 0 ∧
        (s.setting timer).time / 2 ^ 32 < s.now / 2 ^ 32
  | _ => True

instance (now : ℕ) (request : Request) : Decidable (request.Fits now) := match request with
  | .set _ => isTrue trivial
  | .set64 _ _ | .setMsg64 _ => inferInstanceAs (Decidable (_ < _))

instance (task : Task ι) : Decidable (s.Timely task) := match task with
  | .store _ request time => inferInstanceAs (Decidable (request.Fits (time % 2 ^ 32)))
  | .link _ _ => inferInstanceAs (Decidable (_ ∧ _ ∧ (_ ∨ _)))
  | .set _ _ | .remove _ _ | .unlink _ _ | .spin _ _ | .spinning _ _ _ | .read _ _ => isTrue trivial

instance (phase : Phase ι) : Decidable (s.ReadsOn phase) := match phase with
  | .spin _ => inferInstanceAs (Decidable (∀ timer ∈ s.list.head, _ ∨ _))
  | .entered | .check _ | .calling _ | .rearm | .arm _ | .wrap _ _ | .wrapCalling _
  | .wrapArm _ => isTrue trivial

end State

def Timely (s : State ι) : Event ι → Prop
  | .task c => ∀ task ∈ s.current c, s.Clear task ∧ s.Timely task
  | .handler => ∀ phase ∈ s.phase, s.ReadsOn phase
  | _ => True

instance [DecidableEq ι] (s : State ι) (e : Event ι) : Decidable (Timely s e) := match e with
  | .task c => inferInstanceAs (Decidable (∀ task ∈ s.current c, s.Clear task ∧ s.Timely task))
  | .handler => inferInstanceAs (Decidable (∀ phase ∈ s.phase, s.ReadsOn phase))
  | .tick _ | .call _ _ | .irq => isTrue trivial

instance (s : State ι) : Decidable s.NoneEarly :=
  inferInstanceAs (Decidable (∀ f ∈ s.fired, _))

lemma clear_of_timely {s : State ι} {e : Event ι} (h : Timely s e) : Clear s e := by
  cases e with
  | task c => exact fun task htask => (h task htask).1
  | _ => trivial

/-- The fields that the operation wrote give the time it was asked for, from the period in
which it read the counter. -/
def Setting.Kept (setting : Setting) : Prop :=
  setting.time + setting.offset ≤ setting.time / 2 ^ 32 * 2 ^ 32 +
    (setting.longTarget.toNat * 2 ^ 32 + setting.target.toNat) + xtimerOverhead.toNat

/-- A timer with `w` decrements of its `long_target` to come before the wraps that are not
served yet has fields that give no time before the one it was set for. -/
def Due (s : State ι) (w : ℕ) (timer : ι) : Prop :=
  (s.setting timer).time ≤ s.now ∧
    (s.longTarget timer = 0 ∨ (s.setting timer).time / 2 ^ 32 + w ≤ s.served) ∧
    (s.setting timer).time + (s.setting timer).offset + w * 2 ^ 32 ≤
      max s.served ((s.setting timer).time / 2 ^ 32 + w) * 2 ^ 32 + s.val64 timer +
        xtimerOverhead.toNat

def TaskOk (now : ℕ) : Task ι → Prop
  | .store _ _ time => time ≤ now
  | .link _ setting => setting.time ≤ now ∧ setting.Kept
  | _ => True

structure OnTime [DecidableEq ι] (s : State ι) : Prop where
  wraps : s.wrapFlag = true → 1 ≤ s.now / 2 ^ 32
  tasks : ∀ c, ∀ task ∈ s.tasks c, TaskOk s.now task
  due : ∀ timer ∈ s.pending, ∀ w, AheadBy s w timer → Due s w timer
  fired : s.NoneEarly

section Arithmetic

variable [DecidableEq ι]

lemma toNat_xtimerOverhead : xtimerOverhead.toNat = 320 := rfl

lemma toNat_high (x : UInt64) : (x >>> 32).toNat = x.toNat / 2 ^ 32 := by
  simp only [UInt64.toNat_shiftRight, UInt64.reduceToNat, Nat.reduceMod, Nat.shiftRight_eq_div_pow]

/-- What a set operation subtracts the overhead from is the sum itself or, below the overhead,
a value near the top of the range. -/
lemma toNat_overhead_sub (now : UInt32) (offset : UInt64)
    (h : now.toNat + offset.toNat < 2 ^ 64 + 320) :
    (now.toNat + offset.toNat < 320 ∧ (now.toUInt64 + offset - xtimerOverhead).toNat =
        2 ^ 64 + now.toNat + offset.toNat - 320) ∨
      (320 ≤ now.toNat + offset.toNat ∧ (now.toUInt64 + offset - xtimerOverhead).toNat =
        now.toNat + offset.toNat - 320) := by
  have hnow := now.toNat_lt
  simp only [UInt64.toNat_sub, UInt64.toNat_add, UInt32.toNat_toUInt64, toNat_xtimerOverhead]
  omega

/-- What the set operations write gives the time asked for, from the period of the read. -/
lemma store_kept (s : Sys ι) (timer : ι) (now : UInt32) {request : Request}
    (h : request.Fits now.toNat) :
    now.toNat + request.ticks ≤ (s.store timer now request).val64 timer + xtimerOverhead.toNat := by
  have hnow := now.toNat_lt
  rw [toNat_xtimerOverhead]
  cases request with
  | set offset =>
    have hoffset := offset.toNat_lt
    have hsub := toNat_overhead_sub now offset.toUInt64 (by rw [UInt32.toNat_toUInt64]; omega)
    simp only [UInt32.toNat_toUInt64] at hsub
    simp only [Request.ticks, Sys.store, Sys.setAbsolute64, Sys.val64, Sys.setLongTarget,
      Sys.setTarget, Function.update_self, toNat_high, UInt64.toNat_toUInt32]
    omega
  | set64 offset longOffset =>
    have hoffset := offset.toNat_lt
    have hlong := longOffset.toNat_lt
    have hsub := toNat_overhead_sub now offset.toUInt64 (by rw [UInt32.toNat_toUInt64]; omega)
    simp only [UInt32.toNat_toUInt64] at hsub
    simp only [Request.Fits, Request.ticks, toNat_xtimerOverhead] at h
    simp only [Request.ticks, Sys.store, Sys.set64, Sys.val64, Sys.setLongTarget, Sys.setTarget,
      Function.update_self, UInt32.toNat_add, toNat_high, UInt64.toNat_toUInt32]
    omega
  | setMsg64 offset =>
    simp only [Request.Fits, toNat_xtimerOverhead] at h
    have hsub := toNat_overhead_sub now offset (by omega)
    set sum := now.toUInt64 + offset - xtimerOverhead with hsum
    simp only [Request.ticks, Sys.store, Sys.setMsg64_eq, Sys.val64, Sys.setLongTarget,
      Sys.setTarget, Function.update_self, ← hsum, UInt64.toNat_toUInt32]
    split
    · rw [UInt32.toNat_one]
      omega
    · rename_i hlow
      rw [UInt64.lt_iff_toNat_lt, UInt32.toNat_toUInt64, UInt64.toNat_toUInt32] at hlow
      omega

end Arithmetic

section Due

variable {s s' : State ι} {w : ℕ} {timer : ι}

lemma Due.congr (h : Due s w timer) (hnow : s'.now = s.now) (hflag : s'.wrapFlag = s.wrapFlag)
    (hsetting : s'.setting timer = s.setting timer)
    (hlong : s'.longTarget timer = s.longTarget timer) (hval : s'.val64 timer = s.val64 timer) :
    Due s' w timer := by
  unfold Due State.served at h ⊢
  rwa [hnow, hflag, hsetting, hlong, hval]

lemma served_tick (s : State ι) (n : ℕ) :
    s.served ≤ ({ s with toSys := s.toSys.tick n } : State ι).served := by
  have hmono : s.now / 2 ^ 32 ≤ (s.now + n) / 2 ^ 32 := Nat.div_le_div_right (Nat.le_add_right _ _)
  simp only [State.served, Sys.tick]
  cases hflag : s.wrapFlag with
  | true => simpa using Nat.sub_le_sub_right hmono 1
  | false =>
    by_cases hwrap : s.now / 2 ^ 32 < (s.now + n) / 2 ^ 32
    · simp only [hwrap, decide_true, Bool.or_true, Bool.toNat_true, Bool.toNat_false]
      omega
    · simp only [hwrap, decide_false, Bool.or_false, Bool.toNat_false]
      omega

lemma Due.tick (h : Due s w timer) (n : ℕ) :
    Due ({ s with toSys := s.toSys.tick n } : State ι) w timer := by
  have hserved := served_tick s n
  obtain ⟨htime, hlong, hdue⟩ := h
  refine ⟨htime.trans (Nat.le_add_right _ _), hlong.imp_right fun hlong => hlong.trans hserved, ?_⟩
  apply hdue.trans
  gcongr
  exact le_rfl

/-- When the wrap interrupt is served, every timer in the list has one decrement before it. -/
lemma Due.wrap (h : Due s 0 timer) (hflag : s.wrapFlag = true) (hwraps : 1 ≤ s.now / 2 ^ 32)
    (hnow : s'.now = s.now) (hflag' : s'.wrapFlag = false)
    (hsetting : s'.setting timer = s.setting timer)
    (hlong : s'.longTarget timer = s.longTarget timer) (hval : s'.val64 timer = s.val64 timer) :
    Due s' 1 timer := by
  unfold Due State.served at h ⊢
  rw [hnow, hflag', hsetting, hlong, hval, Bool.toNat_false]
  rw [hflag, Bool.toNat_true] at h
  obtain ⟨htime, hlong, hdue⟩ := h
  refine ⟨htime, hlong.imp_right fun hlong => by omega, ?_⟩
  omega

lemma Due.decrement (h : Due s 1 timer) (hlong : s.longTarget timer ≠ 0)
    (hnow : s'.now = s.now) (hflag : s'.wrapFlag = s.wrapFlag)
    (hsetting : s'.setting timer = s.setting timer)
    (hval : s'.val64 timer + 2 ^ 32 = s.val64 timer) : Due s' 0 timer := by
  unfold Due State.served at h ⊢
  rw [hnow, hflag, hsetting]
  obtain ⟨htime, hzero | hserved, hdue⟩ := h
  · exact absurd hzero hlong
  · refine ⟨htime, Or.inr (by omega), ?_⟩
    omega

lemma due_tracked : Tracked (Due : State ι → ℕ → ι → Prop) := ⟨Due.congr, Due.decrement⟩

/-- A timer without a wrap to wait for is due once the counter has come to its target. -/
lemma Due.reached (h : Due s 0 timer) (hval : s.val64 timer ≤ s.xtimerNow.toNat) :
    (s.setting timer).time + (s.setting timer).offset ≤ s.now + xtimerOverhead.toNat := by
  obtain ⟨htime, -, hdue⟩ := h
  have hserved : s.served ≤ s.now / 2 ^ 32 := Nat.sub_le _ _
  rw [Sys.toNat_xtimerNow] at hval
  have hperiod : (s.setting timer).time / 2 ^ 32 ≤ s.now / 2 ^ 32 := Nat.div_le_div_right htime
  omega

/-- So is one that was set before the wrap that is pending. -/
lemma Due.passed (h : Due s 0 timer) (hflag : s.wrapFlag = true) (hlong : s.longTarget timer = 0)
    (hbefore : (s.setting timer).time / 2 ^ 32 < s.now / 2 ^ 32) :
    (s.setting timer).time + (s.setting timer).offset ≤ s.now + xtimerOverhead.toNat := by
  obtain ⟨-, -, hdue⟩ := h
  have htarget := (s.target timer).toNat_lt
  simp only [State.served, hflag, Bool.toNat_true, Sys.val64, hlong, UInt32.toNat_zero] at hdue
  omega

/-- `_time_left` says 0 to a counter below the reference and to a time that has come. -/
lemma timeLeft_eq_zero {s : Sys ι} {timer : ι} {reference : UInt32}
    (h : s.timeLeft timer reference = 0) :
    s.xtimerNow < reference ∨ s.val64 timer ≤ s.xtimerNow.toNat := by
  have hlong := (s.longTarget timer).toNat_lt
  have htarget := (s.target timer).toNat_lt
  have hnow := s.xtimerNow.toNat_lt
  rw [Sys.timeLeft] at h
  by_cases href : s.xtimerNow < reference
  · exact Or.inl href
  · apply Or.inr
    rw [if_neg href] at h
    dsimp only at h
    set timerVal := ((s.longTarget timer).toUInt64 <<< 32) + (s.target timer).toUInt64 with hdef
    have hval : timerVal.toNat = s.val64 timer := by
      simp only [hdef, UInt64.toNat_add, UInt64.toNat_shiftLeft, UInt32.toNat_toUInt64,
        UInt64.reduceToNat, Nat.reduceMod, Nat.shiftLeft_eq, Sys.val64]
      omega
    by_contra hlt
    have hless : s.xtimerNow.toUInt64 < timerVal := by
      rw [UInt64.lt_iff_toNat_lt, UInt32.toNat_toUInt64, hval]
      omega
    rw [if_pos hless] at h
    have hzero := congrArg UInt64.toNat h
    rw [UInt64.toNat_sub_of_le _ _ (UInt64.le_of_lt hless), UInt32.toNat_toUInt64, hval,
      UInt64.toNat_zero] at hzero
    omega

end Due

section Task

lemma taskOk_afterRemove (now : ℕ) (timer : ι) (rest : Option UInt32) :
    ∀ t ∈ afterRemove timer rest, TaskOk now t := by
  intro t ht
  cases rest with
  | none => simp [afterRemove] at ht
  | some offset =>
    simp only [afterRemove] at ht
    split at ht <;> cases ht <;> trivial

variable [DecidableEq ι] {s s' : State ι} {l : List ι} {c : Ctx}

omit [DecidableEq ι] in
lemma Due.of_link {timer : ι} {setting : Setting} (htask : TaskOk s.now (.link timer setting))
    (htimely : s.Timely (.link timer setting)) (hnow : s'.now = s.now)
    (hflag : s'.wrapFlag = s.wrapFlag) (hsetting : s'.setting timer = setting)
    (hlong' : s'.longTarget timer = s.longTarget timer) (hval : s'.val64 timer = s.val64 timer) :
    Due s' s.wrapping timer := by
  obtain ⟨htarget, hlong, hserved⟩ := htimely
  obtain ⟨htime, hkept⟩ := htask
  refine ⟨?_, ?_, ?_⟩
  · rwa [hsetting, hnow]
  · rw [hlong', hsetting, hlong, State.served, hnow, hflag]
    exact hserved
  · rw [hsetting, hval, State.served, hnow, hflag, Sys.val64, htarget, hlong]
    unfold Setting.Kept at hkept
    omega

/-- An operation comes to its next step, with what it did before it. -/
lemma OnTime.goOn (h : OnTime s) {task : Option (Task ι)} (hnow : s'.now = s.now)
    (hflag : s'.wrapFlag = s.wrapFlag) (htasks : s'.tasks = s.tasks)
    (htask : ∀ t ∈ task, TaskOk s.now t) (hdue : Ahead Due (s'.goOn c task))
    (hfired : s'.NoneEarly) : OnTime (s'.goOn c task) := by
  refine ⟨?_, fun c' t ht => ?_, hdue, hfired⟩
  · simp only [State.goOn, hflag, hnow]
    exact h.wraps
  · simp only [State.goOn, htasks, hnow] at ht ⊢
    by_cases hc : c' = c
    · subst hc
      exact htask t (by simpa using ht)
    · exact h.tasks c' t (by simpa [hc] using ht)

variable [Fintype ι]

lemma OnTime.store (h : OnTime s) {timer : ι} {request : Request} {time : ℕ} (htime : time ≤ s.now)
    (hfits : request.Fits (time % 2 ^ 32))
    (hdue : Ahead Due (s.runTask c (.store timer request time))) :
    OnTime (s.runTask c (.store timer request time)) := by
  obtain ⟨target, longTarget, callback, hstore⟩ := s.toSys.store_eq timer (.ofNat time) request
  have hread : (UInt32.ofNat time).toNat = time % 2 ^ 32 := UInt32.toNat_ofNat'
  have hkept := store_kept s.toSys timer (.ofNat time) (by rwa [hread])
  rw [hread] at hkept
  simp only [State.runTask] at hdue ⊢
  refine h.goOn ?_ ?_ rfl ?_ hdue h.fired
  · simp only [hstore]
  · simp only [hstore]
  · rintro t ⟨⟩
    refine ⟨htime, ?_⟩
    unfold Setting.Kept
    simp only [Sys.val64] at hkept
    dsimp only
    omega

lemma OnTime.runTask (h : OnTime s) (hl : Listed s l) (hc : s.mayRun c = true) {task : Task ι}
    (htask : s.tasks c = some task) (hclear : s.Clear task) (htimely : s.Timely task) :
    OnTime (s.runTask c task) := by
  have hok := h.tasks c task htask
  have hdue : Ahead Due (s.runTask c task) := by
    apply Ahead.runTask due_tracked h.due hl hc hclear
    rintro timer setting rfl s' hnow hflag hsetting hlong hval
    exact Due.of_link hok htimely hnow hflag hsetting hlong hval
  cases task with
  | set timer offset =>
    refine h.goOn rfl rfl rfl (fun t ht => ?_) hdue h.fired
    split at ht <;> cases ht
    trivial
  | remove timer rest =>
    simp only [State.runTask] at hdue ⊢
    split at hdue
    · rename_i hset
      rw [if_pos hset]
      exact h.goOn rfl rfl rfl (by rintro t ⟨⟩; trivial) hdue h.fired
    · rename_i hset
      rw [if_neg hset]
      exact h.goOn rfl rfl rfl (taskOk_afterRemove _ _ _) hdue h.fired
  | unlink timer rest =>
    obtain ⟨list, value, enabled, hremove, -⟩ := Sys.remove_spec timer hl.holds
    simp only [State.runTask, hremove] at hdue ⊢
    exact h.goOn rfl rfl rfl (taskOk_afterRemove _ _ _) hdue h.fired
  | spin timer offset => exact h.goOn rfl rfl rfl (by rintro t ⟨⟩; trivial) hdue h.fired
  | spinning timer offset start =>
    simp only [State.runTask] at hdue ⊢
    split at hdue
    · rename_i hspun
      rw [if_pos hspun]
      refine h.goOn rfl rfl rfl (by simp) hdue fun f hf => ?_
      rcases List.mem_cons.mp hf with rfl | hf
      · dsimp only
        omega
      · exact h.fired f hf
    · rename_i hspun
      rw [if_neg hspun]
      exact h
  | read timer request => exact h.goOn rfl rfl rfl (by rintro t ⟨⟩; exact le_rfl) hdue h.fired
  | store timer request time => exact h.store hok htimely hdue
  | link timer setting =>
    have htimer : timer ∉ l := fun hmem => hclear ((hl.mem timer).mp hmem)
    obtain ⟨a, b, list, value, enabled, -, -, -, -, hadd⟩ :=
      Sys.addTimerToList_spec hl.holds hl.sorted htimer
    simp only [State.runTask, hadd] at hdue ⊢
    exact h.goOn rfl rfl rfl (by simp) hdue h.fired

end Task

section Handler

variable [DecidableEq ι] {s s' : State ι} {l : List ι} {isrBackoff : UInt64}

/-- The handler neither lets time pass nor touches what the threads have under way. -/
lemma runHandler_frame (isrBackoff : UInt64) (s : State ι) (phase : Phase ι) :
    (s.runHandler isrBackoff phase).now = s.now ∧
      (s.runHandler isrBackoff phase).wrapFlag = s.wrapFlag ∧
      (s.runHandler isrBackoff phase).tasks = s.tasks := by
  cases phase with
  | wrap listHead scheduled =>
    cases listHead with
    | none => exact ⟨rfl, rfl, rfl⟩
    | some timer =>
      simp only [State.runHandler, State.wrapNode]
      split_ifs <;> exact ⟨rfl, rfl, rfl⟩
  | entered => exact ⟨rfl, rfl, rfl⟩
  | arm nextTarget => exact ⟨rfl, rfl, rfl⟩
  | wrapArm timer => exact ⟨rfl, rfl, rfl⟩
  | _ =>
    simp only [State.runHandler]
    (repeat' split) <;> exact ⟨rfl, rfl, rfl⟩

/-- The handler fires the head that `_time_left` takes for due, and in `_timer_wrap` one whose
period has come and whose target is behind the counter. -/
lemma runHandler_fired (isrBackoff : UInt64) (s : State ι) (phase : Phase ι) :
    (s.runHandler isrBackoff phase).fired = s.fired ∨ ∃ timer,
      (s.runHandler isrBackoff phase).fired =
        ⟨timer, (s.setting timer).time, (s.setting timer).offset, s.now⟩ :: s.fired ∧
      ((∃ reference, phase = .spin reference ∧ s.list.head = some timer ∧
          s.timeLeft timer reference = 0) ∨
        phase = .wrap (some timer) false ∧ s.longTarget timer ≠ 0 ∧
          s.longTarget timer - 1 = 0 ∧ s.target timer < s.xtimerNow) := by
  cases phase with
  | spin reference =>
    simp only [State.runHandler]
    split
    · exact Or.inl rfl
    · rename_i timer hhead
      split_ifs with hleft
      · exact Or.inr ⟨timer, rfl, Or.inl ⟨reference, rfl, hhead, hleft⟩⟩
      · exact Or.inl rfl
  | wrap listHead scheduled =>
    cases listHead with
    | none => exact Or.inl rfl
    | some timer =>
      simp only [State.runHandler, State.wrapNode]
      split_ifs with hlong hscheduled hfire
      · exact Or.inl rfl
      · exact Or.inl rfl
      · obtain rfl : scheduled = false := by simpa using hscheduled
        have hzero : s.longTarget timer - 1 = 0 := by simpa [Sys.setLongTarget] using hfire.1
        exact Or.inr ⟨timer, rfl, Or.inr ⟨rfl, hlong, hzero, hfire.2⟩⟩
      · exact Or.inl rfl
      · exact Or.inl rfl
  | entered => exact Or.inl rfl
  | arm nextTarget => exact Or.inl rfl
  | wrapArm timer => exact Or.inl rfl
  | _ =>
    simp only [State.runHandler]
    (repeat' split) <;> exact Or.inl rfl

omit [DecidableEq ι] in
lemma noneEarly_cons {timer : ι} (h : s.NoneEarly)
    (hfired : s'.fired = ⟨timer, (s.setting timer).time, (s.setting timer).offset, s.now⟩ :: s.fired)
    (hdue : (s.setting timer).time + (s.setting timer).offset ≤ s.now + xtimerOverhead.toNat) :
    s'.NoneEarly := by
  intro f hf
  rw [hfired] at hf
  rcases List.mem_cons.mp hf with rfl | hf
  · exact hdue
  · exact h f hf

/-- `_timer_callback` fires the head when its time has come. -/
lemma OnTime.head_due (h : OnTime s) (hl : Listed s l) {timer : ι} {reference : UInt32}
    (hphase : s.phase = some (.spin reference)) (hhead : s.list.head = some timer)
    (hleft : s.timeLeft timer reference = 0)
    (hread : reference ≤ s.xtimerNow ∨ s.wrapFlag = true ∧ s.longTarget timer = 0 ∧
      (s.setting timer).time / 2 ^ 32 < s.now / 2 ^ 32) :
    (s.setting timer).time + (s.setting timer).offset ≤ s.now + xtimerOverhead.toNat := by
  have hquiet : Quiet s.phase := by rw [hphase]; trivial
  obtain ⟨b, rfl, -⟩ := Path.tail hl.holds hhead
  have htimer : timer ∈ s.pending :=
    (hl.mem_pending (ne_wrapCalling_of_quiet hquiet) timer).mp List.mem_cons_self
  have hdue : Due s 0 timer := Ahead.of_quiet h.due hquiet htimer
  rcases hread with href | ⟨hflag, hlong, hbefore⟩
  · rcases timeLeft_eq_zero hleft with hlow | hval
    · rw [UInt32.lt_iff_toNat_lt] at hlow
      rw [UInt32.le_iff_toNat_le] at href
      omega
    · exact hdue.reached hval
  · exact hdue.passed hflag hlong hbefore

/-- So does `_timer_wrap`, with the decrement it has just made. -/
lemma OnTime.node_due (h : OnTime s) (hl : Listed s l) {timer : ι}
    (hphase : s.phase = some (.wrap (some timer) false)) (hlong : s.longTarget timer ≠ 0)
    (hzero : s.longTarget timer - 1 = 0) (htarget : s.target timer < s.xtimerNow) :
    (s.setting timer).time + (s.setting timer).offset ≤ s.now + xtimerOverhead.toNat := by
  set sys := s.toSys.setLongTarget timer (s.longTarget timer - 1) with hsys
  obtain ⟨a, b, rfl, -, -, -, hahead⟩ := Ahead.of_node h.due hl hphase
  have hdue : Due s 1 timer := hahead timer List.mem_cons_self
  have hdue' : Due { s with toSys := sys } 0 timer :=
    hdue.decrement hlong rfl rfl rfl (Sys.val64_decrement hlong)
  apply hdue'.reached
  rw [UInt32.lt_iff_toNat_lt] at htarget
  have hsame : sys.target timer = s.target timer := rfl
  have hnow : sys.xtimerNow = s.xtimerNow := rfl
  have hlong' : sys.longTarget timer = 0 := by simpa [hsys, Sys.setLongTarget] using hzero
  simp only [Sys.val64, hlong', hsame, hnow, UInt32.toNat_zero]
  omega

lemma OnTime.runHandler (h : OnTime s) (hl : Listed s l) {phase : Phase ι}
    (hphase : s.phase = some phase) (hreads : s.ReadsOn phase) :
    OnTime (s.runHandler isrBackoff phase) := by
  obtain ⟨hnow, hflag, htasks⟩ := runHandler_frame isrBackoff s phase
  refine ⟨?_, ?_, Ahead.runHandler due_tracked h.due hl hphase, ?_⟩
  · rw [hflag, hnow]
    exact h.wraps
  · rw [htasks, hnow]
    exact h.tasks
  · rcases runHandler_fired isrBackoff s phase with hsame | ⟨timer, hfired, hwhy⟩
    · unfold State.NoneEarly
      rw [hsame]
      exact h.fired
    · apply noneEarly_cons h.fired hfired
      rcases hwhy with ⟨reference, rfl, hhead, hleft⟩ | ⟨rfl, hlong, hzero, htarget⟩
      · exact h.head_due hl hphase hhead hleft (hreads timer hhead)
      · exact h.node_due hl hphase hlong hzero htarget

end Handler

section Run

variable [DecidableEq ι] {s : State ι} {l : List ι}

lemma OnTime.tick (h : OnTime s) (n : ℕ) : OnTime ({ s with toSys := s.toSys.tick n } : State ι) := by
  have hmono : s.now / 2 ^ 32 ≤ (s.now + n) / 2 ^ 32 := Nat.div_le_div_right (Nat.le_add_right _ _)
  refine ⟨fun hflag => ?_, fun c t ht => ?_, fun x hx w hw => ?_, h.fired⟩
  · simp only [Sys.tick, Bool.or_eq_true, decide_eq_true_eq] at hflag ⊢
    rcases hflag with hflag | hwrap
    · exact (h.wraps hflag).trans hmono
    · omega
  · have hok := h.tasks c t ht
    have hnow : s.now ≤ s.now + n := Nat.le_add_right _ _
    cases t with
    | store timer request time => exact hok.trans hnow
    | link timer setting => exact ⟨hok.1.trans hnow, hok.2⟩
    | _ => trivial
  · exact (h.due x hx w hw).tick n

lemma OnTime.enterIrq (h : OnTime s) (hphase : s.phase = none) : OnTime s.enterIrq := by
  have hquiet : Quiet s.phase := by rw [hphase]; trivial
  unfold State.enterIrq
  split_ifs with hflag hmatch
  · refine ⟨fun hflag' => by simp at hflag', h.tasks, fun x hx w hw => ?_, h.fired⟩
    obtain rfl : w = 1 := hw
    exact (Ahead.of_quiet h.due hquiet hx).wrap hflag (h.wraps hflag) rfl rfl rfl rfl rfl
  · refine ⟨h.wraps, h.tasks, Ahead.to_quiet trivial fun x hx => ?_, h.fired⟩
    exact (Ahead.of_quiet h.due hquiet hx).congr rfl rfl rfl rfl rfl
  · exact h

variable [Fintype ι] {isrBackoff : UInt64}

lemma onTime_step (h : OnTime s) (hl : Listed s l) {e : Event ι} (htimely : Timely s e) :
    OnTime (step isrBackoff s e) := by
  rcases step_cases isrBackoff s e with heq | ⟨n, rfl, heq⟩ | ⟨c, op, rfl, hc, heq⟩ |
    ⟨c, task, rfl, hcurrent, heq⟩ | ⟨rfl, hphase, heq⟩ | ⟨phase, rfl, hphase, heq⟩
  all_goals rw [heq]
  · exact h
  · exact h.tick n
  · refine h.goOn rfl rfl rfl (fun t ht => ?_) (Ahead.goOn due_tracked h.due c _) h.fired
    cases ht
    cases op <;> trivial
  · obtain ⟨hc, htask⟩ := of_current hcurrent
    obtain ⟨hclear, htimely⟩ := htimely task hcurrent
    exact h.runTask hl hc htask hclear htimely
  · exact h.enterIrq hphase
  · exact h.runHandler hl hphase (htimely phase hphase)

omit [Fintype ι] in
lemma Booted.onTime (h : Booted s) : OnTime s := by
  refine ⟨?_, ?_, ?_, ?_⟩
  · simp [h.wrapFlag]
  · simp [h.tasks]
  · simp [h.pending]
  · simp [State.NoneEarly, h.fired]

/-- In every run whose steps are timely, no callback comes before the time of its timer. -/
theorem no_timer_fires_early (isrBackoff : UInt64) (hs : Booted s) (es : List (Event ι))
    (h : Run.Meets (step isrBackoff) Timely s es) :
    Run.Throughout (step isrBackoff) State.NoneEarly s es := by
  have hinv := Run.throughout_of_meets Timely (fun s => (∃ l, Listed s l) ∧ OnTime s)
    (fun s e ⟨⟨l, hl⟩, hs⟩ htimely =>
      ⟨listed_step hl (clear_of_timely htimely), onTime_step hs hl htimely⟩)
    ⟨⟨[], hs.listed⟩, hs.onTime⟩ h
  exact hinv.mono fun s hs => hs.2.fired

end Run

theorem sample_timers_not_early :
    Run.Throughout (step 20) State.NoneEarly { sampleBoard with now := 4294965296 } sampleTimers :=
  no_timer_fires_early 20 (sampleBoard_booted _) sampleTimers (by decide +kernel)

/-- While the callback of the first timer runs, the counter wraps; the second timer, set for
10000 ticks at 2000 before the wrap, fires 700 after it. -/
def sampleWrap : List (Event Bool) :=
  callOf (.set true 1000) 5 ++ callOf (.set false 10000) 5 ++
    [.tick 700, .irq, .handler, .handler, .handler, .tick 2000, .handler, .handler, .handler]

theorem timer_fires_early_at_wrap :
    ¬∀ es, Run.Throughout (step 20) State.NoneEarly { sampleBoard with now := 4294965296 } es := by
  intro h
  have hlast := (h sampleWrap).last
  revert hlast
  decide +kernel

end Nais.Timer
