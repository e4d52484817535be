import Nais.Timer.Order

/-!
# Decrements to come

`_timer_wrap` takes one from the `long_target` of every timer in the list. While it runs, the
timers it has still to come to are one period behind the others. What is known of a timer
with so many decrements to come stays known, whatever the operations and the handler do.
-/

namespace Nais.Timer

open Nais.Lib Nais.Lib.Chain

variable {ι : Type}

/-- One while `_timer_wrap` runs a callback. -/
def State.wrapping (s : State ι) : ℕ := match s.phase with
  | some (.wrapCalling _) => 1
  | _ => 0

/-- How many decrements of the timer's `long_target` the running `_timer_wrap` has before it. -/
def AheadBy [DecidableEq ι] (s : State ι) (w : ℕ) (timer : ι) : Prop :=
  match s.phase with
  | some (.wrap _ false) => w = 1
  | some (.wrap listHead true) =>
    ∃ b, Path s.list.next listHead b none ∧ w = if timer ∈ b then 1 else 0
  | some (.wrapCalling _) => w = 1
  | some (.wrapArm first) => w = if timer = first then 0 else 1
  | _ => w = 0

/-- Of a timer with `w` decrements to come, `P` looks at the time, its setting and its fields,
and a decrement brings it from 1 to 0. -/
structure Tracked (P : State ι → ℕ → ι → Prop) : Prop where
  congr {s s' : State ι} {w : ℕ} {timer : ι} : P s w timer → s'.now = s.now →
    s'.wrapFlag = s.wrapFlag → s'.setting timer = s.setting timer →
    s'.longTarget timer = s.longTarget timer → s'.val64 timer = s.val64 timer → P s' w timer
  decrement {s s' : State ι} {timer : ι} : P s 1 timer → s.longTarget timer ≠ 0 →
    s'.now = s.now → s'.wrapFlag = s.wrapFlag → s'.setting timer = s.setting timer →
    s'.val64 timer + 2 ^ 32 = s.val64 timer → P s' 0 timer

def Ahead [DecidableEq ι] (P : State ι → ℕ → ι → Prop) (s : State ι) : Prop :=
  ∀ timer ∈ s.pending, ∀ w, AheadBy s w timer → P s w timer

variable [DecidableEq ι] {P : State ι → ℕ → ι → Prop} {s s' : State ι} {l : List ι} {c : Ctx}

lemma aheadBy_of_mayRun (hc : s.mayRun c = true) (w : ℕ) (timer : ι) :
    AheadBy s w timer ↔ w = s.wrapping := by
  unfold AheadBy State.wrapping
  rcases phase_of_mayRun hc with hnone | ⟨-, ⟨reference, hcalling⟩ | ⟨x, hcalling⟩⟩
  · simp [hnone]
  · simp [hcalling]
  · simp [hcalling]

lemma aheadBy_of_quiet (hquiet : Quiet s.phase) (w : ℕ) (timer : ι) : AheadBy s w timer ↔ w = 0 := by
  unfold AheadBy
  unfold Quiet at hquiet
  split at hquiet
  · exact hquiet.elim
  · exact hquiet.elim
  · exact hquiet.elim
  · split <;> simp_all

namespace Ahead

lemma of_quiet (h : Ahead P s) (hquiet : Quiet s.phase) {timer : ι} (htimer : timer ∈ s.pending) :
    P s 0 timer :=
  h timer htimer 0 ((aheadBy_of_quiet hquiet 0 timer).mpr rfl)

/-- Outside `_timer_wrap` no timer has a decrement before it. -/
lemma to_quiet (hquiet : Quiet s'.phase) (h : ∀ timer ∈ s'.pending, P s' 0 timer) : Ahead P s' := by
  intro timer htimer w hw
  rw [(aheadBy_of_quiet hquiet w timer).mp hw]
  exact h timer htimer

lemma of_mayRun (h : Ahead P s) (hc : s.mayRun c = true) {timer : ι} (htimer : timer ∈ s.pending) :
    P s s.wrapping timer :=
  h timer htimer _ ((aheadBy_of_mayRun hc _ timer).mpr rfl)

/-- An operation changes the list or the fields of a timer while no loop of the handler runs. -/
lemma to_mayRun (hc : s.mayRun c = true) (hphase : s'.phase = s.phase)
    (h : ∀ timer ∈ s'.pending, P s' s.wrapping timer) : Ahead P s' := by
  intro timer htimer w hw
  have hc' : s'.mayRun c = true := by
    unfold State.mayRun at hc ⊢
    rwa [hphase]
  have hwrapping : s'.wrapping = s.wrapping := by
    unfold State.wrapping
    rw [hphase]
  rw [(aheadBy_of_mayRun hc' w timer).mp hw, hwrapping]
  exact h timer htimer

section Task

lemma goOn (hP : Tracked P) (h : Ahead P s) (c : Ctx) (task : Option (Task ι)) :
    Ahead P (s.goOn c task) := fun timer htimer w hw =>
  hP.congr (h timer htimer w hw) rfl rfl rfl rfl rfl

/-- Fewer timers are pending, and nothing that `P` looks at changes. -/
lemma erase (hP : Tracked P) (h : Ahead P s) (hc : s.mayRun c = true) (hphase : s'.phase = s.phase)
    (hpending : s'.pending ⊆ s.pending) (hnow : s'.now = s.now) (hflag : s'.wrapFlag = s.wrapFlag)
    (hsetting : s'.setting = s.setting) (hlong : s'.longTarget = s.longTarget)
    (htarget : s'.target = s.target) : Ahead P s' := by
  refine to_mayRun hc hphase fun timer htimer => ?_
  refine hP.congr (h.of_mayRun hc (hpending htimer)) hnow hflag ?_ ?_ ?_
  · rw [hsetting]
  · rw [hlong]
  · rw [Sys.val64, Sys.val64, hlong, htarget]

/-- The fields of a timer that is not pending are written. -/
lemma write (hP : Tracked P) (h : Ahead P s) (hc : s.mayRun c = true) {timer : ι}
    (hclear : ¬s.Pending timer) (target longTarget : UInt32) (callback : ι → Bool) :
    Ahead P { s with
      target := Function.update s.target timer target
      longTarget := Function.update s.longTarget timer longTarget
      callback := callback } := by
  refine to_mayRun hc rfl fun x hx => ?_
  have hne : x ≠ timer := fun hxt => hclear (Or.inl (hxt ▸ hx))
  refine hP.congr (h.of_mayRun hc hx) rfl rfl rfl ?_ ?_
  · simp [hne]
  · simp [Sys.val64, hne]

variable [Fintype ι]

lemma store (hP : Tracked P) (h : Ahead P s) (hc : s.mayRun c = true) {timer : ι}
    {request : Request} {time : ℕ} (hclear : ¬s.Pending timer) :
    Ahead P (s.runTask c (.store timer request time)) := by
  obtain ⟨target, longTarget, callback, hstore⟩ := s.toSys.store_eq timer (.ofNat time) request
  simp only [State.runTask]
  apply goOn hP
  rw [hstore]
  exact h.write hP hc hclear target longTarget callback

lemma link (hP : Tracked P) (h : Ahead P s) (hl : Listed s l) (hc : s.mayRun c = true) {timer : ι}
    {setting : Setting} (hclear : ¬s.Pending timer)
    (hlink : ∀ s' : State ι, s'.now = s.now → s'.wrapFlag = s.wrapFlag → s'.setting timer = setting →
      s'.longTarget timer = s.longTarget timer → s'.val64 timer = s.val64 timer →
      P s' s.wrapping timer) : Ahead P (s.runTask c (.link timer setting)) := by
  have htimer : timer ∉ l := fun hmem => hclear ((hl.mem timer).mp hmem)
  obtain ⟨a, b, list, value, enabled, -, -, -, -, hadd⟩ :=
    Sys.addTimerToList_spec hl.holds hl.sorted htimer
  simp only [State.runTask, hadd]
  apply goOn hP
  refine to_mayRun hc rfl fun x hx => ?_
  by_cases hxt : x = timer
  · subst hxt
    exact hlink _ rfl rfl (Function.update_self ..) rfl rfl
  · refine hP.congr (h.of_mayRun hc (Finset.mem_of_mem_insert_of_ne hx hxt)) rfl rfl ?_ rfl rfl
    exact Function.update_of_ne hxt _ _

theorem runTask (hP : Tracked P) (h : Ahead P s) (hl : Listed s l) (hc : s.mayRun c = true)
    {task : Task ι} (hclear : s.Clear task)
    (hlink : ∀ timer setting, task = .link timer setting → ∀ s' : State ι, s'.now = s.now →
      s'.wrapFlag = s.wrapFlag → s'.setting timer = setting →
      s'.longTarget timer = s.longTarget timer → s'.val64 timer = s.val64 timer →
      P s' s.wrapping timer) : Ahead P (s.runTask c task) := by
  cases task with
  | set timer offset => exact h.goOn hP c _
  | remove timer rest =>
    simp only [State.runTask]
    split
    · exact h.goOn hP c _
    · apply goOn hP
      exact h.erase hP hc rfl (Finset.erase_subset _ _) rfl rfl rfl rfl rfl
  | unlink timer rest =>
    obtain ⟨list, value, enabled, hremove, -⟩ := Sys.remove_spec timer hl.holds
    simp only [State.runTask, hremove]
    apply goOn hP
    exact h.erase hP hc rfl (Finset.erase_subset _ _) rfl rfl rfl rfl rfl
  | spin timer offset => exact h.goOn hP c _
  | spinning timer offset start =>
    simp only [State.runTask]
    split
    · apply goOn hP
      exact h.erase hP hc rfl subset_rfl rfl rfl rfl rfl rfl
    · exact h
  | read timer request => exact h.goOn hP c _
  | store timer request time => exact h.store hP hc hclear
  | link timer setting => exact h.link hP hl hc hclear (hlink timer setting rfl)

end Task

section Handler

/-- The other timers when the handler takes one for fired. -/
lemma fire (hP : Tracked P) {timer x : ι} {w : ℕ} (hx : x ∈ (s.fire timer).pending)
    (h : x ∈ s.pending → x ≠ timer → P s w x) : P (s.fire timer) w x := by
  obtain ⟨hne, hx⟩ := Finset.mem_erase.mp hx
  exact hP.congr (h hx hne) rfl rfl rfl rfl (Sys.val64_setTarget_of_ne hne)

/-- The loop of `_timer_wrap` has the node it has come to and the later ones before it. -/
lemma of_node (h : Ahead P s) (hl : Listed s l) {timer : ι} {scheduled : Bool}
    (hphase : s.phase = some (.wrap (some timer) scheduled)) :
    ∃ a b, l = a ++ timer :: b ∧ (scheduled = false → a = []) ∧ Path s.list.next (s.list.next timer)
      b none ∧ (∀ x ∈ a, P s 0 x) ∧ ∀ x ∈ timer :: b, P s 1 x := by
  have hmem := hl.mem_pending fun x => by simp [hphase]
  obtain ⟨a, b, rfl, hscheduled, -⟩ := hl.at_node hphase
  obtain ⟨-, hb, hab⟩ := List.nodup_append.mp hl.holds.nodup
  obtain ⟨q, -, -, hnext⟩ := path_append.mp hl.holds
  refine ⟨a, b, rfl, hscheduled, hnext, fun x hx => ?_, fun x hx => ?_⟩
  · apply h x ((hmem x).mp (List.mem_append_left _ hx)) 0
    cases hs : scheduled with
    | false => simp [hscheduled hs] at hx
    | true =>
      unfold AheadBy
      rw [hphase, hs]
      exact ⟨timer :: b, ⟨rfl, hnext⟩, by rw [if_neg fun hxb => hab x hx x hxb rfl]⟩
  · apply h x ((hmem x).mp (List.mem_append_right a hx)) 1
    unfold AheadBy
    rw [hphase]
    cases scheduled with
    | false => rfl
    | true => exact ⟨timer :: b, ⟨rfl, hnext⟩, by rw [if_pos hx]⟩

/-- The loop of `_timer_wrap` has done with a timer once it has decremented it. -/
lemma wrapNode (hP : Tracked P) (h : Ahead P s) (hl : Listed s l) {timer : ι} {scheduled : Bool}
    (hphase : s.phase = some (.wrap (some timer) scheduled)) (hlong : s.longTarget timer ≠ 0) :
    Ahead P (s.wrapNode timer scheduled) := by
  have hmem := hl.mem_pending fun x => by simp [hphase]
  obtain ⟨a, b, rfl, hscheduled, hnext, hdone, hahead⟩ := h.of_node hl hphase
  obtain ⟨-, hb, hab⟩ := List.nodup_append.mp hl.holds.nodup
  obtain ⟨hnotb, -⟩ := List.nodup_cons.mp hb
  set sys := s.toSys.setLongTarget timer (s.longTarget timer - 1) with hsys
  have hval : sys.val64 timer + 2 ^ 32 = s.val64 timer := Sys.val64_decrement hlong
  have htimer : P { s with toSys := sys } 0 timer :=
    hP.decrement (hahead timer List.mem_cons_self) hlong rfl rfl rfl hval
  have hother : ∀ w x, x ≠ timer → P s w x → P { s with toSys := sys } w x := fun w x hx hw =>
    hP.congr hw rfl rfl rfl (Function.update_of_ne hx _ _) (Sys.val64_setLongTarget_of_ne hx)
  have hpassed : Ahead P { s with
      toSys := sys, phase := some (.wrap (s.list.next timer) true) } := by
    rintro x hx w ⟨b', hb', rfl⟩
    obtain rfl : b = b' := Path.unique hnext hb'
    refine hP.congr ?_ rfl rfl rfl rfl rfl (s := { s with toSys := sys })
    rcases List.mem_append.mp ((hmem x).mpr hx) with hxa | hxb
    · rw [if_neg fun hxb => hab x hxa x (List.mem_cons_of_mem timer hxb) rfl]
      exact hother 0 x (fun hxt => hab x hxa timer List.mem_cons_self hxt) (hdone x hxa)
    · rcases List.mem_cons.mp hxb with rfl | hxb
      · rw [if_neg hnotb]
        exact htimer
      · rw [if_pos hxb]
        exact hother 1 x (fun hxt => hnotb (hxt ▸ hxb)) (hahead x (List.mem_cons_of_mem timer hxb))
  unfold State.wrapNode
  rw [← hsys]
  dsimp only
  split_ifs with htrue hfire hnear
  · exact hpassed
  · obtain rfl := hscheduled (by simpa using htrue)
    intro x hx w hw
    obtain rfl : w = 1 := hw
    refine fire hP hx fun hx hne => ?_
    exact hP.congr (hother 1 x hne (hahead x ((hmem x).mpr hx))) rfl rfl rfl rfl rfl
  · obtain rfl := hscheduled (by simpa using htrue)
    rintro x hx w rfl
    refine hP.congr (s := { s with toSys := sys }) ?_ rfl rfl rfl rfl rfl
    split_ifs with hxt
    · exact hxt ▸ htimer
    · exact hother 1 x hxt (hahead x ((hmem x).mpr hx))
  · exact hpassed

/-- At the end of its loop `_timer_wrap` has passed the whole list. -/
lemma wrap_end (h : Ahead P s) (hl : Listed s l) {scheduled : Bool}
    (hphase : s.phase = some (.wrap none scheduled)) {timer : ι} (htimer : timer ∈ s.pending) :
    P s 0 timer := by
  apply h timer htimer 0
  have hok := hl.phase
  unfold PhaseOk at hok
  unfold AheadBy
  rw [hphase] at hok ⊢
  cases scheduled with
  | false =>
    have hempty : l = [] := by
      have hholds := hl.holds
      unfold Links.Holds at hholds
      rw [← hok] at hholds
      cases l with
      | nil => rfl
      | cons y l => exact absurd hholds.1 (by simp)
    have hmem := (hl.mem_pending (fun y => by simp [hphase]) timer).mpr htimer
    simp [hempty] at hmem
  | true => exact ⟨[], rfl, rfl⟩

lemma wrapArm (hP : Tracked P) (h : Ahead P s) (hl : Listed s l) {timer : ι}
    (hphase : s.phase = some (.wrapArm timer)) (target : UInt32) :
    Ahead P { s with
      toSys := s.toSys.lltimerSet target, phase := some (.wrap (s.list.next timer) true) } := by
  have hok := hl.phase
  rw [PhaseOk, hphase] at hok
  obtain ⟨b, rfl, -⟩ := hok
  obtain ⟨htimer, -⟩ := List.nodup_cons.mp hl.holds.nodup
  rintro x hx w ⟨b', hb', rfl⟩
  obtain rfl : b = b' := Path.unique hl.holds.2 hb'
  refine hP.congr (h x hx _ ?_) rfl rfl rfl rfl rfl
  have hxl := (hl.mem_pending (fun y => by simp [hphase]) x).mpr hx
  unfold AheadBy
  rw [hphase]
  rcases List.mem_cons.mp hxl with rfl | hxb
  · simp [htimer]
  · have hxt : x ≠ timer := fun hxt => htimer (hxt ▸ hxb)
    simp [hxb, hxt]

variable {isrBackoff : UInt64}

theorem runHandler (hP : Tracked P) (h : Ahead P s) (hl : Listed s l) {phase : Phase ι}
    (hphase : s.phase = some phase) : Ahead P (s.runHandler isrBackoff phase) := by
  -- the steps of `_timer_callback` that fire nothing
  have hstay : ∀ s' : State ι, Quiet (some phase) → Quiet s'.phase → s'.now = s.now →
      s'.wrapFlag = s.wrapFlag → s'.pending = s.pending → s'.setting = s.setting →
      s'.longTarget = s.longTarget → s'.target = s.target → Ahead P s' := by
    intro s' hq hq' hnow hflag hpending hsetting hlong htarget
    refine to_quiet hq' fun x hx => ?_
    refine hP.congr (h.of_quiet (hphase ▸ hq) (hpending ▸ hx)) hnow hflag ?_ ?_ ?_
    · rw [hsetting]
    · rw [hlong]
    · rw [Sys.val64, Sys.val64, hlong, htarget]
  cases phase with
  | entered => exact hstay _ trivial trivial rfl rfl rfl rfl rfl rfl
  | check reference =>
    simp only [State.runHandler]
    split
    · exact hstay _ trivial trivial rfl rfl rfl rfl rfl rfl
    · split <;> exact hstay _ trivial trivial rfl rfl rfl rfl rfl rfl
  | spin reference =>
    simp only [State.runHandler]
    split
    · exact hstay _ trivial (by rw [State.halt, hphase]; trivial) rfl rfl rfl rfl rfl rfl
    · rename_i timer hhead
      split
      · refine to_quiet trivial fun x hx => fire hP hx fun hx _ => ?_
        exact hP.congr (h.of_quiet (by rw [hphase]; trivial) hx) rfl rfl rfl rfl rfl
      · exact h
  | calling reference =>
    simp only [State.runHandler]
    split
    · exact hstay _ trivial trivial rfl rfl rfl rfl rfl rfl
    · exact h
  | rearm =>
    simp only [State.runHandler]
    split
    · exact hstay _ trivial trivial rfl rfl rfl rfl rfl rfl
    · split_ifs <;> exact hstay _ trivial trivial rfl rfl rfl rfl rfl rfl
  | arm nextTarget => exact hstay _ trivial trivial rfl rfl rfl rfl rfl rfl
  | wrap listHead scheduled =>
    cases listHead with
    | none =>
      exact to_quiet trivial fun x hx => hP.congr (h.wrap_end hl hphase hx) rfl rfl rfl rfl rfl
    | some timer =>
      simp only [State.runHandler]
      split
      · exact fun x hx w hw => hP.congr (h x hx w hw) rfl rfl rfl rfl rfl
      · rename_i hlong
        exact h.wrapNode hP hl hphase hlong
  | wrapCalling timer =>
    simp only [State.runHandler]
    split
    · refine fun x hx w hw => hP.congr (h x hx w ?_) rfl rfl rfl rfl rfl
      unfold AheadBy
      rw [hphase]
      exact hw
    · exact h
  | wrapArm timer => exact h.wrapArm hP hl hphase _

end Handler

end Ahead

end Nais.Timer
