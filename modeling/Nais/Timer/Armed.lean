import Nais.Timer.Reading

/-!
# The match of the head

The hardware has one compare register. It is written when a timer becomes the head, when the
head is removed, when `_timer_callback` returns and when `_timer_wrap` comes to the first timer
that stays. A value that the counter has reached already is missed for a whole period. Both
handlers read the counter before they write, and do not write a target that it has passed: what
is left is a target equal to the counter, or one that it comes to between the read and the write.
-/

namespace Nais.Timer

open Nais.Lib Nais.Lib.Chain

variable {ι : Type}

namespace State

variable (s : State ι)

/-- The counter has not reached the value in this period, or a match is pending anyway. -/
def InTime (value : UInt32) : Prop := s.xtimerNow < value ∨ s.matchFlag = true

def MatchToCome : Prop := ∀ timer ∈ s.list.head, s.longTarget timer = 0 →
  s.matchEnabled = true ∧ s.matchValue = s.target timer ∧ s.InTime (s.target timer)

/-- Between the operations, a head with a `long_target` of 0 has its match still to come. -/
def ArmedHead : Prop := s.phase = none → s.MatchToCome

/-- A timer of the current period that a thread links before the head has the target that the
operation wrote, and the counter is not yet where the timer is due, or a match is pending. -/
def LinksInTime : Task ι → Prop
  | .link timer setting => s.phase = none → s.longTarget timer = 0 →
      (∀ first ∈ s.list.head, s.val64 timer < s.val64 first) → s.target timer = setting.target ∧
        (s.now % 2 ^ 32 < setting.dueAt ∨ s.matchFlag = true)
  | _ => True

/-- When the handler reads the counter, it is not at the target of a timer of the current period
for which the match is to be set, or a match is pending. -/
def ReadsApart : Phase ι → Prop
  | .rearm => ∀ timer ∈ s.list.head, s.longTarget timer = 0 →
      s.xtimerNow ≠ s.target timer ∨ s.matchFlag = true
  | .wrap (some timer) false => s.longTarget timer = 1 →
      s.xtimerNow ≠ s.target timer ∨ s.matchFlag = true
  | _ => True

/-- Once the handler has read the counter to set the match, `n` ticks do not bring it to the
target, or a match comes in these ticks. -/
def StaysBefore (n : ℕ) : Phase ι → Prop
  | .arm nextTarget => n < (nextTarget - s.xtimerNow).toNat ∨ (s.toSys.tick n).matchFlag = true
  | .wrapArm timer => n < (s.target timer - s.xtimerNow).toNat ∨ (s.toSys.tick n).matchFlag = true
  | _ => True

/-- What the handler is about to set the match for is still to come. -/
def ArmsInTime : Phase ι → Prop
  | .arm nextTarget => s.InTime nextTarget
  | .wrapArm timer => s.InTime (s.target timer)
  | _ => True

instance (value : UInt32) : Decidable (s.InTime value) := inferInstanceAs (Decidable (_ ∨ _))

instance : Decidable s.MatchToCome := inferInstanceAs (Decidable (∀ timer ∈ s.list.head, _))

instance : Decidable s.ArmedHead :=
  inferInstanceAs (Decidable (s.phase = none → s.MatchToCome))

instance (task : Task ι) : Decidable (s.LinksInTime task) := match task with
  | .link timer setting => inferInstanceAs (Decidable (s.phase = none → s.longTarget timer = 0 →
      (∀ first ∈ s.list.head, s.val64 timer < s.val64 first) → s.target timer = setting.target ∧
        (s.now % 2 ^ 32 < setting.dueAt ∨ s.matchFlag = true)))
  | .set _ _ | .remove _ _ | .unlink _ _ | .spin _ _ | .spinning _ _ _ | .read _ _
  | .store _ _ _ => isTrue trivial

instance (phase : Phase ι) : Decidable (s.ReadsApart phase) := match phase with
  | .rearm => inferInstanceAs (Decidable (∀ timer ∈ s.list.head, s.longTarget timer = 0 →
      s.xtimerNow ≠ s.target timer ∨ s.matchFlag = true))
  | .wrap (some timer) false => inferInstanceAs (Decidable (s.longTarget timer = 1 →
      s.xtimerNow ≠ s.target timer ∨ s.matchFlag = true))
  | .wrap (some _) true | .wrap none _ | .entered | .check _ | .spin _ | .calling _ | .arm _
  | .wrapCalling _ | .wrapArm _ => isTrue trivial

instance (n : ℕ) (phase : Phase ι) : Decidable (s.StaysBefore n phase) := match phase with
  | .arm _ | .wrapArm _ => inferInstanceAs (Decidable (_ ∨ _))
  | .entered | .check _ | .spin _ | .calling _ | .rearm | .wrap _ _ | .wrapCalling _ => isTrue trivial

end State

namespace System

/-- Threads link their timers before they are due, and the handlers neither read the counter at
the target they set the match for nor come to write it after the counter. -/
def WritesInTime (s : System ι) : Turn ι → Prop
  | .timer (.tick n) => ∀ phase ∈ s.phase, s.StaysBefore n phase
  | .timer (.task c) => ∀ task ∈ s.toState.current c, s.toState.Clear task ∧ s.LinksInTime task
  | .timer .handler => ∀ phase ∈ s.phase, s.ReadsApart phase
  | turn => s.Clear turn

instance [DecidableEq ι] (s : System ι) (turn : Turn ι) : Decidable (s.WritesInTime turn) :=
  match turn with
  | .timer (.tick n) => inferInstanceAs (Decidable (∀ phase ∈ s.phase, s.StaysBefore n phase))
  | .timer (.task c) => inferInstanceAs (Decidable
      (∀ task ∈ s.toState.current c, s.toState.Clear task ∧ s.LinksInTime task))
  | .timer .handler => inferInstanceAs (Decidable (∀ phase ∈ s.phase, s.ReadsApart phase))
  | .resume k => inferInstanceAs (Decidable (s.Clear (.resume k)))
  | .timer (.call _ _) | .timer .irq | .wakeup _ _ _ _ => isTrue trivial

lemma clear_of_writesInTime {s : System ι} {turn : Turn ι} (h : s.WritesInTime turn) :
    s.Clear turn := by
  rcases turn with (_ | _ | c | _ | _) | _ | _
  case timer.task => exact fun task htask => (h task htask).1
  case resume => exact h
  all_goals trivial

end System

section Match

variable {s s' : State ι} {l : List ι}

lemma State.MatchToCome.congr (h : s.MatchToCome)
    (hhead : ∀ timer ∈ s'.list.head, s.list.head = some timer ∧
      s'.longTarget timer = s.longTarget timer ∧ s'.target timer = s.target timer)
    (henabled : s'.matchEnabled = s.matchEnabled) (hvalue : s'.matchValue = s.matchValue)
    (hflag : s'.matchFlag = s.matchFlag) (hnow : s'.now = s.now) : s'.MatchToCome := by
  intro timer htimer hlong
  obtain ⟨hsame, hlong', htarget⟩ := hhead timer htimer
  rw [henabled, hvalue, htarget, State.InTime, hflag, Sys.xtimerNow, hnow]
  exact h timer hsame (hlong'.symm.trans hlong)

/-- The counter stays before a value that it does not come to. -/
lemma State.InTime.tick {value : UInt32} (h : s.InTime value) {n : ℕ}
    (hstays : n < (value - s.xtimerNow).toNat ∨ (s.toSys.tick n).matchFlag = true) :
    State.InTime { s with toSys := s.toSys.tick n } value := by
  rcases hstays with hstays | hflag
  · refine h.imp (fun hbefore => ?_) fun hflag => by simp [Sys.tick, hflag]
    have hvalue := value.toNat_lt
    rw [UInt32.lt_iff_toNat_lt, Sys.toNat_xtimerNow] at hbefore ⊢
    simp only [UInt32.toNat_sub, Sys.toNat_xtimerNow] at hstays
    simp only [Sys.tick]
    omega
  · exact Or.inr hflag

/-- While the counter is before the match value, the match comes when it gets there. -/
lemma State.MatchToCome.tick (h : s.MatchToCome) (n : ℕ) :
    State.MatchToCome { s with toSys := s.toSys.tick n } := by
  intro timer htimer hlong
  obtain ⟨henabled, hvalue, htime⟩ := h timer htimer hlong
  refine ⟨henabled, hvalue, ?_⟩
  rcases htime with hbefore | hflag
  · by_cases hreached : (s.matchValue - s.xtimerNow - 1).toNat < n
    · exact Or.inr (by simp [Sys.tick, hreached])
    · apply Or.inl
      have htarget := (s.target timer).toNat_lt
      rw [hvalue] at hreached
      rw [UInt32.lt_iff_toNat_lt, Sys.toNat_xtimerNow] at hbefore ⊢
      simp only [UInt32.toNat_sub, Sys.toNat_xtimerNow, UInt32.toNat_one] at hreached
      simp only [Sys.tick]
      omega
  · exact Or.inr (by simp [Sys.tick, hflag])

variable [DecidableEq ι]

/-- The fields of the head are not written while it is pending. -/
lemma State.MatchToCome.write (h : s.MatchToCome) (hl : Listed s l) {timer : ι}
    (hclear : ¬s.Pending timer) (target longTarget : UInt32) (callback : ι → Bool) :
    State.MatchToCome { s with
      target := Function.update s.target timer target
      longTarget := Function.update s.longTarget timer longTarget
      callback := callback } := by
  refine h.congr (fun x hx => ?_) rfl rfl rfl rfl
  have hne : x ≠ timer := by
    rintro rfl
    obtain ⟨b, rfl, -⟩ := Path.tail hl.holds hx
    exact hclear ((hl.mem x).mp List.mem_cons_self)
  exact ⟨hx, Function.update_of_ne hne _ _, Function.update_of_ne hne _ _⟩

variable [Fintype ι]

/-- The match that `_remove` sets for the second timer is to come if that of the first was. -/
lemma State.MatchToCome.remove (h : s.MatchToCome) (hl : Listed s l)
    (hhandler : s.inHandler = false) {timer : ι} {sys : Sys ι}
    (hsys : s.toSys.remove timer = some sys) (pending : Finset ι) :
    State.MatchToCome { s with toSys := sys, pending := pending } := by
  by_cases hhead : s.list.head = some timer
  · obtain ⟨b, rfl, hb⟩ := Path.tail hl.holds hhead
    have hnext : (s.list.unlinkAt .head timer).head = s.list.next timer := rfl
    unfold Sys.remove at hsys
    rw [if_pos hhead] at hsys
    dsimp only at hsys
    rw [hnext] at hsys
    cases hsecond : s.list.next timer with
    | none =>
      rw [hsecond] at hsys
      obtain rfl := Option.some.inj hsys
      intro x hx
      simp [hnext, hsecond] at hx
    | some next =>
      rw [hsecond] at hsys
      obtain rfl := Option.some.inj hsys
      intro x hx hlong
      obtain rfl : next = x := by simpa [Sys.lltimerSet, hnext, hsecond] using hx
      obtain ⟨b, rfl, -⟩ := Path.tail hb hsecond
      have hle := Sys.ordered_iff.mp ((List.pairwise_cons.mp hl.sorted).1 next List.mem_cons_self)
      have hlong' : s.longTarget next = 0 := hlong
      have htarget := (s.target next).toNat_lt
      simp only [Sys.val64, hlong', UInt32.toNat_zero] at hle
      have hzero : s.longTarget timer = 0 := by
        rw [← UInt32.toNat_inj, UInt32.toNat_zero]
        omega
      obtain ⟨-, -, htime⟩ := h timer hhead hzero
      refine ⟨by simp [Sys.lltimerSet, hhandler], by simp [Sys.lltimerSet, hhandler], ?_⟩
      refine htime.imp_left fun hbefore => ?_
      rw [UInt32.lt_iff_toNat_lt] at hbefore ⊢
      have hnow : s.xtimerNow.toNat < (s.target next).toNat := by omega
      exact hnow
  · obtain ⟨list, hlist, hholds⟩ := Sys.removeTimerFromList_spec timer hl.holds
    rw [Sys.remove, if_neg hhead, hlist] at hsys
    obtain rfl := Option.some.inj hsys
    refine h.congr (fun x hx => ⟨?_, rfl, rfl⟩) rfl rfl rfl rfl
    have hfirst : list.head = s.list.head := by
      rw [Path.eq_head? hholds, Path.eq_head? hl.holds]
      cases l with
      | nil => rfl
      | cons y l =>
        have hne : y ≠ timer := fun hyt => hhead (hyt ▸ Path.eq_head? hl.holds)
        rw [List.erase_cons_tail (by simpa using hne)]
        rfl
    exact hfirst ▸ hx

/-- `_add_timer_to_list` sets the match when the timer has become the head and has no wrap to
wait for. -/
lemma addTimerToList_match {s sys : Sys ι} {timer : ι} (h : s.addTimerToList timer = some sys) :
    if sys.list.head = some timer ∧ s.longTarget timer = 0 then
      sys.matchValue = (s.lltimerSet (s.target timer)).matchValue ∧
        sys.matchEnabled = (s.lltimerSet (s.target timer)).matchEnabled
    else sys.matchValue = s.matchValue ∧ sys.matchEnabled = s.matchEnabled := by
  unfold Sys.addTimerToList at h
  split at h
  · simp at h
  · split at h
    · simp at h
    · rename_i slot hslot
      obtain rfl := Option.some.inj h
      dsimp only
      by_cases hfirst : (s.list.insertAt slot timer).head = some timer ∧ s.longTarget timer = 0
      · rw [if_pos hfirst]
        exact (if_pos hfirst).mpr ⟨rfl, rfl⟩
      · rw [if_neg hfirst]
        exact (if_neg hfirst).mpr ⟨rfl, rfl⟩

/-- The match of a new head is to come if it is linked in time. -/
lemma State.MatchToCome.link (h : s.MatchToCome) (hl : Listed s l) (hhandler : s.inHandler = false)
    {timer : ι} (hclear : ¬s.Pending timer) (htime : s.longTarget timer = 0 →
      (∀ first ∈ s.list.head, s.val64 timer < s.val64 first) → s.InTime (s.target timer))
    {sys : Sys ι} (hsys : s.toSys.addTimerToList timer = some sys) (pending : Finset ι)
    (setting : ι → Setting) :
    State.MatchToCome { s with toSys := sys, pending := pending, setting := setting } := by
  have htimer : timer ∉ l := fun hmem => hclear ((hl.mem timer).mp hmem)
  obtain ⟨a, b, list, value, enabled, rfl, -, hafter, hholds, hadd⟩ :=
    Sys.addTimerToList_spec hl.holds hl.sorted htimer
  have hmatch := addTimerToList_match hsys
  obtain rfl := Option.some.inj (hadd.symm.trans hsys)
  dsimp only at hmatch
  have hhead := Path.eq_head? hholds
  have hhead' := Path.eq_head? hl.holds
  cases a with
  | nil =>
    intro x hx hlong
    obtain rfl : timer = x := by simpa [hhead] using hx
    rw [if_pos ⟨hhead, hlong⟩] at hmatch
    obtain ⟨hvalue, henabled⟩ := hmatch
    refine ⟨?_, ?_, ?_⟩
    · simp [henabled, Sys.lltimerSet, hhandler]
    · simp [hvalue, Sys.lltimerSet, hhandler]
    · refine htime hlong fun first hfirst => hafter first ?_
      rw [hhead'] at hfirst
      exact List.mem_of_head? hfirst
  | cons y a =>
    have hne : y ≠ timer := by
      rintro rfl
      simp at htimer
    have hother : ¬(list.head = some timer ∧ s.longTarget timer = 0) := by
      rw [hhead]
      simp [hne]
    rw [if_neg hother] at hmatch
    refine h.congr (fun x hx => ⟨?_, rfl, rfl⟩) hmatch.2 hmatch.1 rfl rfl
    rw [hhead']
    simpa [hhead] using hx

end Match

/-- Whether the handler is in `_timer_callback`. -/
def inCallback : Option (Phase ι) → Bool
  | none => false
  | some (.wrap _ _) => false
  | some (.wrapCalling _) => false
  | some (.wrapArm _) => false
  | _ => true

/-- The match of the head is set between the operations, and once `_timer_wrap` has passed the
head; `_timer_callback` sets it when it returns. -/
structure Armed (s : State ι) : Prop where
  handler : s.inHandler = inCallback s.phase
  next : ∀ nextTarget, s.phase = some (.arm nextTarget) → ∀ timer ∈ s.list.head,
    nextTarget = s.target timer
  passed : ∀ node, s.phase = some (.wrap (some node) true) → s.list.head ≠ some node
  head : (s.phase = none ∨ ∃ node, s.phase = some (.wrap node true)) → s.MatchToCome
  ahead : ∀ phase ∈ s.phase, s.ArmsInTime phase

section Step

variable {s s' : State ι} {l : List ι} {c : Ctx}

lemma Booted.armed (h : Booted s) : Armed s := by
  refine ⟨?_, ?_, ?_, fun _ timer htimer => ?_, ?_⟩
  · simp [h.inHandler, h.phase, inCallback]
  · simp [h.phase]
  · simp [h.phase]
  · simp [h.head] at htimer
  · simp [h.phase]

lemma Armed.tick (h : Armed s) {n : ℕ} (hstays : ∀ phase ∈ s.phase, s.StaysBefore n phase) :
    Armed { s with toSys := s.toSys.tick n } := by
  refine ⟨h.handler, h.next, h.passed, fun hphase => (h.head hphase).tick n, fun phase hphase => ?_⟩
  have harms := h.ahead phase hphase
  have hstay := hstays phase hphase
  cases phase with
  | arm nextTarget => exact State.InTime.tick harms hstay
  | wrapArm timer => exact State.InTime.tick harms hstay
  | _ => trivial

/-- An operation has to see to the match only while the handler does not run. -/
lemma Armed.of_mayRun (h : Armed s) (hc : s.mayRun c = true) (hphase : s'.phase = s.phase)
    (hhandler : s'.inHandler = s.inHandler) (hhead : s.phase = none → s'.MatchToCome) :
    Armed s' := by
  refine ⟨?_, ?_, ?_, ?_, ?_⟩
  · rw [hhandler, hphase]
    exact h.handler
  all_goals
    rw [hphase]
    rcases phase_of_mayRun hc with hnone | ⟨-, ⟨reference, hcalling⟩ | ⟨timer, hcalling⟩⟩
  · simp [hnone]
  · simp [hcalling]
  · simp [hcalling]
  · simp [hnone]
  · simp [hcalling]
  · simp [hcalling]
  · exact fun _ => hhead hnone
  · simp [hcalling]
  · simp [hcalling]
  · simp [hnone]
  · simp [hcalling, State.ArmsInTime]
  · simp [hcalling, State.ArmsInTime]

lemma Armed.goOn (h : Armed s) (c : Ctx) (task : Option (Task ι)) : Armed (s.goOn c task) :=
  ⟨h.handler, h.next, h.passed, h.head, h.ahead⟩

lemma Armed.enterIrq (h : Armed s) (hphase : s.phase = none) : Armed s.enterIrq := by
  have hhandler : s.inHandler = false := by simpa [hphase, inCallback] using h.handler
  unfold State.enterIrq
  split_ifs
  · exact ⟨hhandler, by simp, by simp, by simp, by simp [State.ArmsInTime]⟩
  · exact ⟨rfl, by simp, by simp, by simp, by simp [State.ArmsInTime]⟩
  · exact h

variable [DecidableEq ι] [Fintype ι]

omit [DecidableEq ι] [Fintype ι] in
/-- A timer that is linked before it is due has a target that the counter has not come to. -/
lemma State.LinksInTime.inTime {timer : ι} {setting : Setting}
    (hwrote : setting.target.toNat = setting.dueAt) (htarget : s.target timer = setting.target)
    (hdue : s.now % 2 ^ 32 < setting.dueAt ∨ s.matchFlag = true) : s.InTime (s.target timer) := by
  refine hdue.imp_left fun hbefore => ?_
  rwa [htarget, UInt32.lt_iff_toNat_lt, Sys.toNat_xtimerNow, hwrote]

lemma Armed.runTask (h : Armed s) (hl : Listed s l) (hc : s.mayRun c = true) {task : Task ι}
    (hclear : s.Clear task) (hwrote : task.Wrote fun setting => setting.target.toNat = setting.dueAt)
    (htime : s.LinksInTime task) : Armed (s.runTask c task) := by
  have hhandler : s.phase = none → s.inHandler = false := fun hphase => by
    simpa [hphase, inCallback] using h.handler
  cases task with
  | set timer offset => exact h.goOn c _
  | remove timer rest =>
    simp only [State.runTask]
    split
    · exact h.goOn c _
    · apply Armed.goOn
      exact ⟨h.handler, h.next, h.passed, h.head, h.ahead⟩
  | unlink timer rest =>
    obtain ⟨list, value, enabled, hremove, -⟩ := Sys.remove_spec timer hl.holds
    simp only [State.runTask, hremove]
    apply Armed.goOn
    refine h.of_mayRun hc rfl rfl fun hphase => ?_
    exact (h.head (Or.inl hphase)).remove hl (hhandler hphase) hremove _
  | spin timer offset => exact h.goOn c _
  | spinning timer offset start =>
    simp only [State.runTask]
    split
    · apply Armed.goOn
      exact ⟨h.handler, h.next, h.passed, h.head, h.ahead⟩
    · exact h
  | read timer request => exact h.goOn c _
  | store timer request time =>
    obtain ⟨target, longTarget, callback, hstore⟩ := s.toSys.store_eq timer (.ofNat time) request
    simp only [State.runTask]
    apply Armed.goOn
    rw [hstore]
    refine h.of_mayRun hc rfl rfl fun hphase => ?_
    exact (h.head (Or.inl hphase)).write hl hclear target longTarget callback
  | link timer setting =>
    have htimer : timer ∉ l := fun hmem => hclear ((hl.mem timer).mp hmem)
    obtain ⟨a, b, list, value, enabled, -, -, -, -, hadd⟩ :=
      Sys.addTimerToList_spec hl.holds hl.sorted htimer
    simp only [State.runTask, hadd]
    apply Armed.goOn
    refine h.of_mayRun hc rfl rfl fun hphase => ?_
    refine (h.head (Or.inl hphase)).link hl (hhandler hphase) hclear (fun hlong hfirst => ?_) hadd _ _
    obtain ⟨htarget, hdue⟩ := htime hphase hlong hfirst
    exact State.LinksInTime.inTime hwrote htarget hdue

omit [Fintype ι] in
/-- The loop of `_timer_wrap` decrements the head before it looks at its target; when it has
passed a head, it does not come to it again. -/
lemma Armed.wrapNode (h : Armed s) (hl : Listed s l) {timer : ι} {scheduled : Bool}
    (hphase : s.phase = some (.wrap (some timer) scheduled)) (hlong : s.longTarget timer ≠ 0)
    (hapart : s.ReadsApart (.wrap (some timer) scheduled)) : Armed (s.wrapNode timer scheduled) := by
  have hhandler : s.inHandler = false := by simpa [hphase, inCallback] using h.handler
  obtain ⟨a, b, rfl, hscheduled, -⟩ := hl.at_node hphase
  have hpassed : s.list.head ≠ s.list.next timer := hl.holds.head_ne_next (by simp)
  unfold State.wrapNode
  dsimp only
  split_ifs with htrue hfire hnear
  · obtain rfl : scheduled = true := htrue
    have hne : s.list.head ≠ some timer := h.passed timer hphase
    refine ⟨hhandler, by simp, ?_, fun _ => ?_, by simp [State.ArmsInTime]⟩
    · rintro node hnode
      simp only [Option.some.injEq, Phase.wrap.injEq, and_true] at hnode
      rw [← hnode]
      exact hpassed
    · refine (h.head (Or.inr ⟨_, hphase⟩)).congr (fun x hx => ⟨hx, ?_, rfl⟩) rfl rfl rfl rfl
      have hxt : x ≠ timer := by
        rintro rfl
        exact hne hx
      exact Function.update_of_ne hxt _ _
  · exact ⟨hhandler, by simp [State.fire, State.shoot], by simp [State.fire, State.shoot],
      by simp [State.fire, State.shoot], by simp [State.fire, State.shoot, State.ArmsInTime]⟩
  · obtain rfl : scheduled = false := by simpa using htrue
    refine ⟨hhandler, by simp, by simp, by simp, ?_⟩
    rintro phase ⟨⟩
    have hzero : s.longTarget timer - 1 = 0 := by simpa [Sys.setLongTarget] using hnear
    have hone : s.longTarget timer = 1 := by grind
    refine (hapart hone).imp_left fun hne => ?_
    have hbehind : ¬s.target timer < s.xtimerNow := fun hlt => hfire ⟨hnear, hlt⟩
    exact UInt32.lt_of_le_of_ne (UInt32.not_lt.mp hbehind) hne
  · obtain rfl := hscheduled (by simpa using htrue)
    refine ⟨hhandler, by simp, ?_, fun _ x hx hzero => ?_, by simp [State.ArmsInTime]⟩
    · rintro node hnode
      simp only [Option.some.injEq, Phase.wrap.injEq, and_true] at hnode
      rw [← hnode]
      exact hpassed
    · have hhead : s.list.head = some timer := hl.holds.1
      obtain rfl : timer = x := Option.some.inj (hhead.symm.trans hx)
      exact absurd hzero hnear

variable {isrBackoff : UInt64}

omit [Fintype ι] in
/-- `_timer_callback` leaves, or it has read the target of the head to set the match for it. -/
lemma Armed.rearm (h : Armed s) (hphase : s.phase = some .rearm) (hapart : s.ReadsApart .rearm) :
    Armed (s.runHandler isrBackoff .rearm) := by
  have hhandler : s.inHandler = true := by simpa [hphase, inCallback] using h.handler
  simp only [State.runHandler]
  split
  · rename_i hhead
    exact ⟨rfl, by simp, by simp, fun _ x hx => by simp [hhead] at hx, by simp⟩
  · rename_i timer hhead
    split_ifs with hlong hbehind
    · exact ⟨hhandler, by simp, by simp, by simp, by simp [State.ArmsInTime]⟩
    · refine ⟨hhandler, ?_, by simp, by simp, ?_⟩
      · rintro nextTarget hnext x hx
        obtain rfl : s.target timer = nextTarget := by simpa using hnext
        obtain rfl : timer = x := by simpa [hhead] using hx
        rfl
      · rintro phase ⟨⟩
        refine (hapart timer hhead hlong).imp_left fun hne => ?_
        exact UInt32.lt_of_le_of_ne (UInt32.not_lt.mp hbehind) hne
    · refine ⟨rfl, by simp, by simp, fun _ x hx hzero => ?_, by simp⟩
      obtain rfl : timer = x := by simpa [hhead] using hx
      exact absurd hzero hlong

omit [Fintype ι] in
lemma Armed.arm (h : Armed s) {nextTarget : UInt32} (hphase : s.phase = some (.arm nextTarget)) :
    Armed (s.runHandler isrBackoff (.arm nextTarget)) := by
  have htime : s.InTime nextTarget := h.ahead _ hphase
  refine ⟨rfl, by simp [State.runHandler], by simp [State.runHandler], fun _ x hx _ => ?_,
    by simp [State.runHandler]⟩
  have hnext := h.next nextTarget hphase x hx
  refine ⟨by simp [State.runHandler, Sys.lltimerSet], ?_, ?_⟩
  · simpa [State.runHandler, Sys.lltimerSet] using hnext
  · rw [hnext] at htime
    exact htime

omit [Fintype ι] in
/-- The loop of `_timer_wrap` has come to the end: of the list, or of an empty one. -/
lemma Armed.wrapEnd (h : Armed s) (hl : Listed s l) {scheduled : Bool}
    (hphase : s.phase = some (.wrap none scheduled)) :
    Armed (s.runHandler isrBackoff (.wrap none scheduled)) := by
  have hhandler : s.inHandler = false := by simpa [hphase, inCallback] using h.handler
  refine ⟨hhandler, by simp [State.runHandler], by simp [State.runHandler], fun _ => ?_,
    by simp [State.runHandler]⟩
  cases scheduled with
  | false =>
    have hok := hl.phase
    rw [PhaseOk, hphase] at hok
    intro x hx
    simp [State.runHandler, ← hok] at hx
  | true =>
    exact (h.head (Or.inr ⟨_, hphase⟩)).congr (fun x hx => ⟨hx, rfl, rfl⟩) rfl rfl rfl rfl

omit [Fintype ι] in
lemma Armed.wrapArm (h : Armed s) (hl : Listed s l) {timer : ι}
    (hphase : s.phase = some (.wrapArm timer)) :
    Armed (s.runHandler isrBackoff (.wrapArm timer)) := by
  have htime : s.InTime (s.target timer) := h.ahead _ hphase
  have hhandler : s.inHandler = false := by simpa [hphase, inCallback] using h.handler
  have hok := hl.phase
  rw [PhaseOk, hphase] at hok
  obtain ⟨b, rfl, -⟩ := hok
  have hhead : s.list.head = some timer := hl.holds.1
  refine ⟨hhandler, by simp [State.runHandler], ?_, fun _ x hx _ => ?_,
    by simp [State.runHandler, State.ArmsInTime]⟩
  · intro node hnode
    simp only [State.runHandler, Option.some.injEq, Phase.wrap.injEq, and_true] at hnode
    rw [← hnode]
    exact hl.holds.head_ne_next List.mem_cons_self
  · obtain rfl : timer = x := Option.some.inj (hhead.symm.trans hx)
    refine ⟨?_, ?_, htime⟩
    · simp [State.runHandler, Sys.lltimerSet, hhandler]
    · simp [State.runHandler, Sys.lltimerSet, hhandler, hhead]

omit [Fintype ι] in
lemma Armed.runHandler (h : Armed s) (hl : Listed s l) {phase : Phase ι}
    (hphase : s.phase = some phase) (hapart : s.ReadsApart phase) :
    Armed (s.runHandler isrBackoff phase) := by
  have hhandler := h.handler
  rw [hphase] at hhandler
  cases phase with
  | entered => exact ⟨hhandler, by simp [State.runHandler], by simp [State.runHandler],
      by simp [State.runHandler], by simp [State.runHandler, State.ArmsInTime]⟩
  | check reference =>
    simp only [State.runHandler]
    split
    · exact ⟨hhandler, by simp, by simp, by simp, by simp [State.ArmsInTime]⟩
    · split <;> exact ⟨hhandler, by simp, by simp, by simp, by simp [State.ArmsInTime]⟩
  | spin reference =>
    simp only [State.runHandler]
    split
    · exact ⟨h.handler, h.next, h.passed, h.head, h.ahead⟩
    · split
      · exact ⟨hhandler, by simp [State.fire, State.shoot], by simp [State.fire, State.shoot],
          by simp [State.fire, State.shoot], by simp [State.fire, State.shoot, State.ArmsInTime]⟩
      · exact h
  | calling reference =>
    simp only [State.runHandler]
    split
    · exact ⟨hhandler, by simp, by simp, by simp, by simp [State.ArmsInTime]⟩
    · exact h
  | rearm => exact h.rearm hphase hapart
  | arm nextTarget => exact h.arm hphase
  | wrap listHead scheduled =>
    cases listHead with
    | none => exact h.wrapEnd hl hphase
    | some timer =>
      simp only [State.runHandler]
      split
      · exact ⟨h.handler, h.next, h.passed, h.head, h.ahead⟩
      · rename_i hlong
        exact h.wrapNode hl hphase hlong hapart
  | wrapCalling timer =>
    simp only [State.runHandler]
    split
    · exact ⟨hhandler, by simp, by simp, by simp, by simp [State.ArmsInTime]⟩
    · exact h
  | wrapArm timer => exact h.wrapArm hl hphase

lemma armed_step (h : Armed s) (hl : Listed s l) {e : Event ι} (hclear : Clear s e)
    (hwrote : ∀ c, ∀ task ∈ s.tasks c, task.Wrote fun setting =>
      setting.target.toNat = setting.dueAt)
    (htick : ∀ n, e = .tick n → ∀ phase ∈ s.phase, s.StaysBefore n phase)
    (htask : ∀ c, e = .task c → ∀ task ∈ s.current c, s.LinksInTime task)
    (hhandler : e = .handler → ∀ phase ∈ s.phase, s.ReadsApart phase) :
    Armed (step isrBackoff s e) := by
  rcases step_cases isrBackoff s e with heq | ⟨n, rfl, heq⟩ | ⟨c, op, rfl, hc, heq⟩ |
    ⟨c, task, rfl, hcurrent, heq⟩ | ⟨rfl, hphase, heq⟩ | ⟨phase, rfl, hphase, heq⟩
  all_goals rw [heq]
  · exact h
  · exact h.tick (htick n rfl)
  · exact h.goOn c _
  · obtain ⟨hc, htask'⟩ := of_current hcurrent
    exact h.runTask hl hc (hclear task hcurrent) (hwrote c task htask') (htask c rfl task hcurrent)
  · exact h.enterIrq hphase
  · exact h.runHandler hl hphase (hhandler rfl phase hphase)

end Step

section Run

variable [Fintype ι] [DecidableEq ι] {s : System ι} {l : List ι} {config : Config}

lemma Armed.system_step (h : Armed s.toState) (hl : Listed s.toState l)
    (hnoted : s.Noted fun setting => setting.target.toNat = setting.dueAt) {turn : Turn ι}
    (htime : s.WritesInTime turn) : Armed (s.step config turn).toState := by
  rcases s.step_cases config turn with
    ⟨e, rfl, heq⟩ | ⟨callback, heq⟩ | ⟨k, timer, target, offset, time, rfl, hcurrent, heq⟩
  · rw [heq]
    refine armed_step h hl (System.clear_of_writesInTime htime) hnoted.tasks ?_ ?_ ?_
    · rintro n rfl
      exact htime
    · rintro c rfl task htask
      exact (htime task htask).2
    · rintro rfl
      exact htime
  · rw [heq]
    exact ⟨h.handler, h.next, h.passed, h.head, h.ahead⟩
  · rw [heq]
    have hrun := System.mayRun_of_current hcurrent
    have hclear : ¬s.Pending timer := htime _ hcurrent
    apply Armed.goOn
    refine h.of_mayRun hrun rfl rfl fun hphase => ?_
    exact (h.head (Or.inl hphase)).write hl hclear _ _ s.callback

/-- In every run in which threads link their timers before they are due, and the counter is
neither at the target when a handler reads it nor comes to it before the handler writes, a head
without a wrap to wait for has its match still to come whenever no handler runs. -/
theorem armed_head (config : Config) (hs : s.Booted) (turns : List (Turn ι))
    (h : Run.Meets (System.step config) System.WritesInTime s turns) :
    Run.Throughout (System.step config) (fun s => s.ArmedHead) s turns := by
  have hinv := Run.throughout_of_meets System.WritesInTime
    (fun s => (∃ l, Listed s.toState l) ∧ Armed s.toState ∧
      s.Noted fun setting => setting.target.toNat = setting.dueAt)
    (fun s turn ⟨⟨l, hl⟩, hs, hnoted⟩ htime =>
      ⟨System.listed_step hl (System.clear_of_writesInTime htime), hs.system_step hl hnoted htime,
        hnoted.step fun setting hwrites => writes_target hnoted.wakeups hwrites⟩)
    ⟨⟨[], hs.listed⟩, hs.timer.armed, hs.noted⟩ h
  exact hinv.mono fun s hs hphase => hs.2.1.head (Or.inl hphase)

end Run

theorem sample_head_armed :
    Run.Throughout (System.step sampleConfig) (fun s => s.ArmedHead) (sampleSystem 4294965296)
      (sampleTimers.map .timer) :=
  armed_head sampleConfig (sampleSystem_booted _) (sampleTimers.map .timer) (by decide +kernel)

/-- `_xtimer_set64` links a timer for an offset below the overhead with a target that the
counter has passed. -/
theorem set64_misses_match :
    ¬∀ turns, Run.Throughout (System.step sampleConfig) (fun s => s.ArmedHead) (sampleSystem 1000)
      turns := by
  intro h
  have hlast := (h ((callOf (.set64 true 100 0) 3).map .timer)).last
  revert hlast
  decide +kernel

end Nais.Timer
