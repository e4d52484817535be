import Nais.Timer.Machine

/-!
# The timer list in every run

While no set operation writes to or links a timer that is still in the list, and no timer
that is to be removed counts as not set, the list holds the pending timers once each, in the
order of their fields.
-/

namespace Nais.Timer

open Nais.Lib Nais.Lib.Chain

variable {ι : Type}

namespace State

variable (s : State ι)

/-- A timer is pending until it has fired or is removed. `_timer_wrap` takes a timer from the
list after its callback only, so there it is pending until the callback has returned. -/
def Pending (timer : ι) : Prop := timer ∈ s.pending ∨ s.phase = some (.wrapCalling timer)

instance [DecidableEq ι] (timer : ι) : Decidable (s.Pending timer) :=
  inferInstanceAs (Decidable (_ ∨ _))

/-- The list ends, so that it has no cycle, and holds the pending timers once each in order. -/
def ListInOrder : Prop :=
  ∃ l, s.list.Holds l ∧ l.Nodup ∧ l.Pairwise s.Ordered ∧ ∀ timer, timer ∈ l ↔ s.Pending timer

/-- A set operation writes to and links timers that are not pending, and a pending timer that
is to be removed has a target, which is what `_is_set` looks at. -/
def Clear : Task ι → Prop
  | .remove timer _ => timer ∈ s.pending → s.isSet timer
  | .store timer _ _ => ¬s.Pending timer
  | .link timer _ => ¬s.Pending timer
  | _ => True

instance [DecidableEq ι] (task : Task ι) : Decidable (s.Clear task) := match task with
  | .remove timer _ => inferInstanceAs (Decidable (timer ∈ s.pending → s.isSet timer))
  | .store timer _ _ | .link timer _ => inferInstanceAs (Decidable ¬s.Pending timer)
  | .set _ _ | .unlink _ _ | .spin _ _ | .spinning _ _ _ | .read _ _ => isTrue trivial

end State

def Clear (s : State ι) : Event ι → Prop
  | .task c => ∀ task ∈ s.current c, s.Clear task
  | _ => True

instance [DecidableEq ι] (s : State ι) (e : Event ι) : Decidable (Clear s e) := match e with
  | .task c => inferInstanceAs (Decidable (∀ task ∈ s.current c, s.Clear task))
  | .tick _ | .call _ _ | .irq | .handler => isTrue trivial

/-- The timer that `_timer_wrap` fires is still the head, with its fields at 0, and the
callback is not about to unlink it. -/
def WrapFiring (s : State ι) (timer : ι) : Prop :=
  s.list.head = some timer ∧ s.val64 timer = 0 ∧ timer ∉ s.pending ∧
    ∀ rest, s.tasks .callback ≠ some (.unlink timer rest)

/-- What the handler relies on: nothing is decremented before the first timer that stays, and
from there on the timers it has passed are a whole period ahead of the others. -/
def PhaseOk (s : State ι) (l : List ι) : Prop :=
  match s.phase with
  | some (.wrap listHead false) => listHead = s.list.head
  | some (.wrap listHead true) => ∃ a b, l = a ++ b ∧ listHead = b.head? ∧
      ∀ x ∈ a, ∀ y ∈ b, s.val64 x + 2 ^ 32 ≤ s.val64 y
  | some (.wrapCalling timer) => WrapFiring s timer
  | some (.wrapArm timer) => ∃ b, l = timer :: b ∧ ∀ y ∈ b, s.val64 timer + 2 ^ 32 ≤ s.val64 y
  | _ => True

structure Listed (s : State ι) (l : List ι) : Prop where
  holds : s.list.Holds l
  sorted : l.Pairwise s.Ordered
  mem : ∀ timer, timer ∈ l ↔ s.Pending timer
  phase : PhaseOk s l
  idle : s.mayRun .callback = false → s.tasks .callback = none

lemma Listed.listInOrder {s : State ι} {l : List ι} (h : Listed s l) : s.ListInOrder :=
  ⟨l, h.holds, h.holds.nodup, h.sorted, h.mem⟩

section Task

variable {s : State ι} {l : List ι} {c : Ctx}

lemma of_current {task : Task ι} (h : s.current c = some task) :
    s.mayRun c = true ∧ s.tasks c = some task := by
  unfold State.current at h
  split at h
  · rename_i hc
    exact ⟨hc, h⟩
  · simp at h

lemma afterRemove_ne_unlink (timer x : ι) (rest rest' : Option UInt32) :
    afterRemove timer rest ≠ some (.unlink x rest') := by
  cases rest with
  | none => simp [afterRemove]
  | some offset =>
    simp only [afterRemove]
    split <;> simp

lemma phase_of_mayRun (hc : s.mayRun c = true) : s.phase = none ∨ c = .callback ∧
    ((∃ reference, s.phase = some (.calling reference)) ∨
      ∃ timer, s.phase = some (.wrapCalling timer)) := by
  cases c with
  | thread k => exact Or.inl (by simpa [State.mayRun] using hc)
  | callback =>
    refine Or.inr ⟨rfl, ?_⟩
    simp only [State.mayRun] at hc
    split at hc
    · exact Or.inl ⟨_, ‹_›⟩
    · exact Or.inr ⟨_, ‹_›⟩
    · simp at hc

/-- While an operation runs, only a callback of `_timer_wrap` has anything to keep. -/
lemma phaseOk_of_mayRun {s' : State ι} {l' : List ι} (hc : s.mayRun c = true)
    (hphase : s'.phase = s.phase)
    (h : ∀ timer, s.phase = some (.wrapCalling timer) → WrapFiring s' timer) : PhaseOk s' l' := by
  unfold PhaseOk
  rw [hphase]
  rcases phase_of_mayRun hc with hnone | ⟨-, ⟨reference, hcalling⟩ | ⟨timer, hcalling⟩⟩
  · simp [hnone]
  · simp [hcalling]
  · simpa [hcalling] using h timer hcalling

lemma Listed.wrapFiring (h : Listed s l) {timer : ι} (hphase : s.phase = some (.wrapCalling timer)) :
    WrapFiring s timer := by
  have hok := h.phase
  unfold PhaseOk at hok
  rwa [hphase] at hok

/-- An operation comes to its next step. -/
lemma Listed.goOn (h : Listed s l) (hc : s.mayRun c = true) {task : Option (Task ι)}
    (htask : ∀ timer rest, s.phase = some (.wrapCalling timer) → task ≠ some (.unlink timer rest)) :
    Listed (s.goOn c task) l := by
  refine ⟨h.holds, h.sorted, h.mem, phaseOk_of_mayRun hc rfl fun timer hphase => ?_, fun hidle => ?_⟩
  · obtain ⟨hhead, hzero, hfired, hkept⟩ := h.wrapFiring hphase
    refine ⟨hhead, hzero, hfired, fun rest => ?_⟩
    by_cases hcb : c = .callback
    · subst hcb
      simpa [State.goOn] using htask timer rest hphase
    · simpa [State.goOn, Ne.symm hcb] using hkept rest
  · have hcb : c ≠ .callback := fun hcb => by
      subst hcb
      exact absurd hc (by simpa [State.goOn, State.mayRun] using hidle)
    have hnone := h.idle hidle
    simpa [State.goOn, Ne.symm hcb] using hnone

variable [Fintype ι] [DecidableEq ι]

lemma Listed.unlink (h : Listed s l) (hc : s.mayRun c = true) {timer : ι} {rest : Option UInt32}
    (htask : s.tasks c = some (.unlink timer rest)) :
    Listed (s.runTask c (.unlink timer rest)) (l.erase timer) := by
  have hother : ∀ x, s.phase = some (.wrapCalling x) → x ≠ timer := by
    rintro x hx rfl
    rcases phase_of_mayRun hc with hnone | ⟨rfl, -⟩
    · exact absurd (hnone.symm.trans hx) (by simp)
    · exact (h.wrapFiring hx).2.2.2 rest htask
  obtain ⟨list, value, enabled, hremove, hholds⟩ := Sys.remove_spec timer h.holds
  simp only [State.runTask, hremove]
  refine Listed.goOn ?_ ?_ fun x rest' hx => afterRemove_ne_unlink timer x rest rest'
  · refine ⟨hholds, h.sorted.sublist List.erase_sublist, fun x => ?_, ?_, h.idle⟩
    · have hx := h.mem x
      simp only [State.Pending] at hx
      rw [h.holds.nodup.mem_erase_iff, hx]
      simp only [State.Pending, Finset.mem_erase]
      constructor
      · rintro ⟨hne, hmem | hphase⟩
        · exact Or.inl ⟨hne, hmem⟩
        · exact Or.inr hphase
      · rintro (⟨hne, hmem⟩ | hphase)
        · exact ⟨hne, Or.inl hmem⟩
        · exact ⟨hother x hphase, Or.inr hphase⟩
    · apply phaseOk_of_mayRun hc (by rfl)
      intro x hx
      obtain ⟨hhead, hzero, hfired, hkept⟩ := h.wrapFiring hx
      obtain ⟨b, rfl, -⟩ := Path.tail h.holds hhead
      refine ⟨?_, hzero, fun hmem => hfired (Finset.mem_of_mem_erase hmem), hkept⟩
      rw [List.erase_cons_tail (by simpa using hother x hx)] at hholds
      exact hholds.1
  · exact hc

lemma Listed.remove (h : Listed s l) (hc : s.mayRun c = true) {timer : ι} {rest : Option UInt32}
    (hclear : s.Clear (.remove timer rest)) : Listed (s.runTask c (.remove timer rest)) l := by
  simp only [State.runTask]
  split
  · rename_i hset
    apply h.goOn hc
    intro x rest' hx
    have hzero := (h.wrapFiring hx).2.1
    have hne : x ≠ timer := by
      rintro rfl
      have htarget : s.target x ≠ 0 := by simpa [Sys.isSet] using hset
      refine htarget (UInt32.toNat_inj.mp ?_)
      simp only [Sys.val64] at hzero
      rw [UInt32.toNat_zero]
      omega
    simp [Ne.symm hne]
  · rename_i hset
    have hmem : timer ∉ s.pending := fun hmem => hset (hclear hmem)
    rw [Finset.erase_eq_of_notMem hmem]
    exact h.goOn hc fun x rest' hx => afterRemove_ne_unlink timer x rest rest'

omit [Fintype ι] in
/-- The fields of a timer that is not pending are written. -/
lemma Listed.write (h : Listed s l) (hc : s.mayRun c = true) {timer : ι} (hclear : ¬s.Pending timer)
    (target longTarget : UInt32) (callback : ι → Bool) :
    Listed { s with
      target := Function.update s.target timer target
      longTarget := Function.update s.longTarget timer longTarget
      callback := callback } l := by
  set s' : State ι := { s with
    target := Function.update s.target timer target
    longTarget := Function.update s.longTarget timer longTarget
    callback := callback } with hs'
  have hval : ∀ x, x ≠ timer → s'.val64 x = s.val64 x := fun x hx => by simp [hs', Sys.val64, hx]
  have htimer : timer ∉ l := fun hmem => hclear ((h.mem timer).mp hmem)
  have hlist : ∀ x ∈ l, x ≠ timer := fun x hx hxt => htimer (hxt ▸ hx)
  refine ⟨h.holds, Sys.pairwise_ordered_congr h.sorted fun x hx => hval x (hlist x hx), h.mem, ?_,
    h.idle⟩
  apply phaseOk_of_mayRun hc (by rfl)
  intro x hx
  obtain ⟨hhead, hzero, hfired, hkept⟩ := h.wrapFiring hx
  have hne : x ≠ timer := fun hxt => hclear (hxt ▸ Or.inr hx)
  exact ⟨hhead, (hval x hne).trans hzero, hfired, hkept⟩

lemma Listed.store (h : Listed s l) (hc : s.mayRun c = true) {timer : ι} {request : Request}
    {time : ℕ} (hclear : ¬s.Pending timer) :
    Listed (s.runTask c (.store timer request time)) l := by
  obtain ⟨target, longTarget, callback, hstore⟩ := s.toSys.store_eq timer (.ofNat time) request
  simp only [State.runTask]
  refine Listed.goOn ?_ ?_ fun x rest hx => by simp
  · rw [hstore]
    exact h.write hc hclear target longTarget callback
  · exact hc

lemma Listed.link (h : Listed s l) (hc : s.mayRun c = true) {timer : ι} {setting : Setting}
    (hclear : ¬s.Pending timer) : ∃ l', Listed (s.runTask c (.link timer setting)) l' := by
  have htimer : timer ∉ l := fun hmem => hclear ((h.mem timer).mp hmem)
  obtain ⟨a, b, list, value, enabled, rfl, hbefore, hafter, hholds, hadd⟩ :=
    Sys.addTimerToList_spec h.holds h.sorted htimer
  refine ⟨a ++ timer :: b, ?_⟩
  simp only [State.runTask, hadd]
  refine Listed.goOn ?_ ?_ fun x rest hx => by simp
  swap
  · exact hc
  obtain ⟨hsorta, hsortb, hab⟩ := List.pairwise_append.mp h.sorted
  refine ⟨hholds, ?_, fun x => ?_, ?_, h.idle⟩
  · refine List.pairwise_append.mpr ⟨hsorta, List.pairwise_cons.mpr ⟨fun y hy => ?_, hsortb⟩, ?_⟩
    · exact Sys.ordered_iff.mpr (hafter y hy).le
    · intro x hx y hy
      rcases List.mem_cons.mp hy with rfl | hy
      · exact hbefore x hx
      · exact hab x hx y hy
  · have hx := h.mem x
    simp only [List.mem_append, State.Pending] at hx
    simp only [List.mem_append, List.mem_cons, State.Pending, Finset.mem_insert]
    tauto
  · apply phaseOk_of_mayRun hc (by rfl)
    intro x hx
    obtain ⟨hhead, hzero, hfired, hkept⟩ := h.wrapFiring hx
    have hne : x ≠ timer := fun hxt => hclear (hxt ▸ Or.inr hx)
    refine ⟨?_, hzero, by simpa [hne] using hfired, hkept⟩
    -- nothing goes in before a timer whose fields are 0
    obtain ⟨r, hr, -⟩ := Path.tail h.holds hhead
    cases a with
    | nil =>
      have hlt := hafter x (by rw [List.nil_append] at hr; simp [hr])
      omega
    | cons y a =>
      obtain rfl : y = x := by simpa using congrArg List.head? hr
      exact hholds.1

lemma Listed.runTask (h : Listed s l) (hc : s.mayRun c = true) {task : Task ι}
    (htask : s.tasks c = some task) (hclear : s.Clear task) :
    ∃ l', Listed (s.runTask c task) l' := by
  cases task with
  | set timer offset =>
    refine ⟨l, h.goOn hc fun x rest hx => ?_⟩
    split <;> simp
  | remove timer rest => exact ⟨l, h.remove hc hclear⟩
  | unlink timer rest => exact ⟨l.erase timer, h.unlink hc htask⟩
  | spin timer offset => exact ⟨l, h.goOn hc fun x rest hx => by simp⟩
  | spinning timer offset start =>
    refine ⟨l, ?_⟩
    simp only [State.runTask]
    split
    · exact Listed.goOn (s := s.shoot timer start offset.toNat)
        ⟨h.holds, h.sorted, h.mem, h.phase, h.idle⟩ hc fun x rest hx => by simp
    · exact h
  | read timer request => exact ⟨l, h.goOn hc fun x rest hx => by simp⟩
  | store timer request time => exact ⟨l, h.store hc hclear⟩
  | link timer setting => exact h.link hc hclear

end Task

section Handler

variable {s : State ι} {l : List ι}

/-- The handler is not in `_timer_wrap`. -/
def Quiet : Option (Phase ι) → Prop
  | some (.wrap _ _) => False
  | some (.wrapCalling _) => False
  | some (.wrapArm _) => False
  | _ => True

lemma Listed.of_quiet (hholds : s.list.Holds l) (hsorted : l.Pairwise s.Ordered)
    (hmem : ∀ timer, timer ∈ l ↔ timer ∈ s.pending) (hquiet : Quiet s.phase)
    (hidle : s.tasks .callback = none) : Listed s l := by
  refine ⟨hholds, hsorted, fun timer => ?_, ?_, fun _ => hidle⟩
  · have hphase : s.phase ≠ some (.wrapCalling timer) := fun hphase => by simp [hphase, Quiet] at hquiet
    simp [State.Pending, hphase, hmem timer]
  · unfold PhaseOk
    unfold Quiet at hquiet
    split at hquiet
    · exact hquiet.elim
    · exact hquiet.elim
    · exact hquiet.elim
    · split <;> simp_all

lemma Booted.listed (h : Booted s) : Listed s [] :=
  .of_quiet h.head List.Pairwise.nil (by simp [h.pending]) (by simp [h.phase, Quiet]) (h.tasks _)

lemma Listed.mem_pending (h : Listed s l) (hphase : ∀ timer, s.phase ≠ some (.wrapCalling timer))
    (timer : ι) : timer ∈ l ↔ timer ∈ s.pending := by
  simp [h.mem timer, State.Pending, hphase timer]

lemma ne_wrapCalling_of_quiet (hquiet : Quiet s.phase) (timer : ι) :
    s.phase ≠ some (.wrapCalling timer) := fun hphase => by simp [hphase, Quiet] at hquiet

/-- The node the loop of `_timer_wrap` has come to, with those it has passed. -/
lemma Listed.at_node (h : Listed s l) {timer : ι} {scheduled : Bool}
    (hphase : s.phase = some (.wrap (some timer) scheduled)) :
    ∃ a b, l = a ++ timer :: b ∧ (scheduled = false → a = []) ∧
      ∀ x ∈ a, ∀ y ∈ timer :: b, s.val64 x + 2 ^ 32 ≤ s.val64 y := by
  have hok := h.phase
  cases scheduled with
  | false =>
    rw [PhaseOk, hphase] at hok
    obtain ⟨b, rfl, -⟩ := Path.tail h.holds hok.symm
    exact ⟨[], b, rfl, fun _ => rfl, by simp⟩
  | true =>
    rw [PhaseOk, hphase] at hok
    obtain ⟨a, b, rfl, hhead, hahead⟩ := hok
    obtain ⟨b, rfl⟩ : ∃ b', b = timer :: b' := by
      cases b with
      | nil => simp at hhead
      | cons y b => exact ⟨b, by simpa using hhead.symm⟩
    exact ⟨a, b, rfl, by simp, hahead⟩

lemma Listed.enterIrq (h : Listed s l) (hphase : s.phase = none) : Listed s.enterIrq l := by
  have hidle := h.idle (by simp [State.mayRun, hphase])
  have hmem := h.mem_pending fun x => by simp [hphase]
  unfold State.enterIrq
  split_ifs
  · exact ⟨h.holds, h.sorted, fun x => by simpa [State.Pending] using hmem x, rfl, fun _ => hidle⟩
  · exact .of_quiet h.holds h.sorted hmem trivial hidle
  · exact h

variable [DecidableEq ι]

/-- The node at which the loop of `_timer_wrap` is goes over to those it has passed. -/
lemma Sys.ordered_decrement {s : Sys ι} {a b : List ι} {timer : ι}
    (hsorted : (a ++ timer :: b).Pairwise s.Ordered) (hnodup : (a ++ timer :: b).Nodup)
    (hahead : ∀ x ∈ a, ∀ y ∈ timer :: b, s.val64 x + 2 ^ 32 ≤ s.val64 y)
    (hlong : s.longTarget timer ≠ 0) {sys : Sys ι}
    (hsys : sys = s.setLongTarget timer (s.longTarget timer - 1)) :
    (a ++ timer :: b).Pairwise sys.Ordered ∧
      ∀ x ∈ a ++ [timer], ∀ y ∈ b, sys.val64 x + 2 ^ 32 ≤ sys.val64 y := by
  subst hsys
  obtain ⟨-, hb, hab⟩ := List.nodup_append.mp hnodup
  have htimera : ∀ x ∈ a, x ≠ timer := fun x hx => hab x hx timer List.mem_cons_self
  have htimerb : ∀ x ∈ b, x ≠ timer := fun x hx hxt => (List.nodup_cons.mp hb).1 (hxt ▸ hx)
  obtain ⟨hsorta, hsortb, -⟩ := List.pairwise_append.mp hsorted
  obtain ⟨hfirst, hsortb⟩ := List.pairwise_cons.mp hsortb
  set sys := s.setLongTarget timer (s.longTarget timer - 1)
  have hval : sys.val64 timer + 2 ^ 32 = s.val64 timer := Sys.val64_decrement hlong
  have hval' : ∀ x, x ≠ timer → sys.val64 x = s.val64 x := fun x hx =>
    Sys.val64_setLongTarget_of_ne hx
  have hpassed : ∀ x ∈ a ++ [timer], ∀ y ∈ b, sys.val64 x + 2 ^ 32 ≤ sys.val64 y := by
    intro x hx y hy
    rw [hval' y (htimerb y hy)]
    rcases List.mem_append.mp hx with hx | hx
    · rw [hval' x (htimera x hx)]
      exact hahead x hx y (List.mem_cons_of_mem timer hy)
    · obtain rfl := List.mem_singleton.mp hx
      rw [hval]
      exact Sys.ordered_iff.mp (hfirst y hy)
  refine ⟨List.pairwise_append.mpr ⟨?_, List.pairwise_cons.mpr ⟨?_, ?_⟩, ?_⟩, hpassed⟩
  · exact Sys.pairwise_ordered_congr hsorta fun x hx => hval' x (htimera x hx)
  · intro y hy
    have hty := hpassed timer (by simp) y hy
    exact Sys.ordered_iff.mpr (by omega)
  · exact Sys.pairwise_ordered_congr hsortb fun x hx => hval' x (htimerb x hx)
  · intro x hx y hy
    rw [Sys.ordered_iff]
    rcases List.mem_cons.mp hy with rfl | hy
    · have hxy := hahead x hx y List.mem_cons_self
      rw [hval' x (htimera x hx)]
      omega
    · have hxy := hpassed x (List.mem_append_left _ hx) y hy
      omega

/-- `_timer_wrap` fires the head, which stays on the list until its callback is done. -/
lemma Listed.wrapFire {timer : ι} {b : List ι} (h : Listed s (timer :: b))
    (hmem : ∀ x, x ∈ timer :: b ↔ x ∈ s.pending) (hidle : s.tasks .callback = none)
    (hlong : s.longTarget timer = 0) :
    Listed ({ s with phase := some (.wrapCalling timer) }.fire timer) (timer :: b) := by
  obtain ⟨htimer, -⟩ := List.nodup_cons.mp h.holds.nodup
  have hne : ∀ x ∈ b, x ≠ timer := fun x hx hxt => htimer (hxt ▸ hx)
  have hzero : (s.toSys.setTarget timer 0).val64 timer = 0 := by
    simp [Sys.val64, Sys.setTarget, hlong]
  refine ⟨h.holds, List.pairwise_cons.mpr ⟨fun y hy => ?_, ?_⟩, fun x => ?_, ?_, fun hidle' => ?_⟩
  · exact Sys.ordered_iff.mpr (hzero.trans_le (Nat.zero_le _))
  · apply Sys.pairwise_ordered_congr (List.pairwise_cons.mp h.sorted).2
    intro x hx
    exact Sys.val64_setTarget_of_ne (hne x hx)
  · have hx := hmem x
    simp only [List.mem_cons] at hx ⊢
    by_cases hxt : x = timer
    · simp [State.Pending, State.fire, State.shoot, hxt]
    · simpa [State.Pending, State.fire, State.shoot, hxt, Ne.symm hxt] using hx
  · refine ⟨h.holds.1, hzero, by simp [State.fire, State.shoot], fun rest => ?_⟩
    simp [State.fire, State.shoot, hidle]
  · simp [State.mayRun, State.fire, State.shoot] at hidle'

lemma Listed.wrapNode (h : Listed s l) {timer : ι} {scheduled : Bool}
    (hphase : s.phase = some (.wrap (some timer) scheduled)) (hlong : s.longTarget timer ≠ 0) :
    Listed (s.wrapNode timer scheduled) l := by
  have hmem := h.mem_pending fun x => by simp [hphase]
  have hidle : s.tasks .callback = none := h.idle (by simp [State.mayRun, hphase])
  obtain ⟨a, b, rfl, hscheduled, hahead⟩ := h.at_node hphase
  set sys := s.toSys.setLongTarget timer (s.longTarget timer - 1) with hsys
  obtain ⟨hsorted, hpassed⟩ := Sys.ordered_decrement h.sorted h.holds.nodup hahead hlong hsys
  obtain ⟨q, -, -, hnext⟩ := path_append.mp h.holds
  have hgoes : Listed { s with toSys := sys, phase := some (.wrap (s.list.next timer) true) }
      (a ++ timer :: b) := by
    refine ⟨h.holds, hsorted, fun x => ?_, ?_, fun _ => hidle⟩
    · simpa [State.Pending] using hmem x
    · exact ⟨a ++ [timer], b, by simp, hnext.eq_head?, hpassed⟩
  unfold State.wrapNode
  rw [← hsys]
  dsimp only
  split_ifs with htrue hfire hnear
  · exact hgoes
  · obtain rfl := hscheduled (by simpa using htrue)
    have hlisted : Listed { s with toSys := sys, phase := none } (timer :: b) :=
      .of_quiet h.holds hsorted hmem trivial hidle
    exact hlisted.wrapFire hmem hidle hfire.1
  · obtain rfl := hscheduled (by simpa using htrue)
    exact ⟨h.holds, hsorted, fun x => by simpa [State.Pending] using hmem x,
      ⟨b, rfl, hpassed timer (by simp)⟩, fun _ => hidle⟩
  · exact hgoes

/-- `_timer_callback` takes the head off the list before it fires it. -/
lemma Listed.fire_head {timer : ι} {b : List ι} (h : Listed s (timer :: b))
    (hmem : ∀ x, x ∈ timer :: b ↔ x ∈ s.pending) (hidle : s.tasks .callback = none)
    (reference : UInt32) :
    Listed ({ s with
      list := s.list.unlinkAt .head timer, phase := some (.calling reference) }.fire timer) b := by
  obtain ⟨htimer, -⟩ := List.nodup_cons.mp h.holds.nodup
  have hne : ∀ x ∈ b, x ≠ timer := fun x hx hxt => htimer (hxt ▸ hx)
  refine .of_quiet (Links.Holds.unlinkAt (a := []) h.holds) ?_ (fun x => ?_) trivial hidle
  · exact Sys.pairwise_ordered_congr (List.pairwise_cons.mp h.sorted).2 fun x hx =>
      Sys.val64_setTarget_of_ne (hne x hx)
  · have hx := hmem x
    by_cases hxt : x = timer
    · simpa [State.fire, State.shoot, hxt] using htimer
    · simpa [State.fire, State.shoot, hxt] using hx

/-- The wrap handler takes the timer it fired off the list and goes on with the next. -/
lemma Listed.wrap_return (h : Listed s l) {timer : ι} (hphase : s.phase = some (.wrapCalling timer))
    (hidle : s.tasks .callback = none) :
    ∃ l', Listed { s with
      list := s.list.unlinkAt .head timer
      phase := some (.wrap (s.list.next timer) false) } l' := by
  obtain ⟨hhead, -, hfired, -⟩ := h.wrapFiring hphase
  obtain ⟨b, rfl, -⟩ := Path.tail h.holds hhead
  obtain ⟨htimer, -⟩ := List.nodup_cons.mp h.holds.nodup
  refine ⟨b, Links.Holds.unlinkAt (a := []) h.holds, (List.pairwise_cons.mp h.sorted).2,
    fun x => ?_, rfl, fun _ => hidle⟩
  have hx := h.mem x
  by_cases hxt : x = timer
  · simp [State.Pending, hxt, htimer, hfired]
  · simpa [State.Pending, hphase, hxt, Ne.symm hxt] using hx

omit [DecidableEq ι] in
/-- The wrap handler has set the match for the first timer that stays. -/
lemma Listed.wrapArm (h : Listed s l) {timer : ι} (hphase : s.phase = some (.wrapArm timer)) :
    Listed { s with
      toSys := s.toSys.lltimerSet ((s.list.head.map s.target).getD 0)
      phase := some (.wrap (s.list.next timer) true) } l := by
  have hok := h.phase
  rw [PhaseOk, hphase] at hok
  obtain ⟨b, rfl, hlater⟩ := hok
  refine ⟨h.holds, h.sorted, fun x => ?_, ⟨[timer], b, rfl, Path.eq_head? h.holds.2, ?_⟩, fun _ => ?_⟩
  · simpa [State.Pending, hphase] using h.mem x
  · intro x hx y hy
    obtain rfl := List.mem_singleton.mp hx
    exact hlater y hy
  · exact h.idle (by simp [State.mayRun, hphase])

variable {isrBackoff : UInt64}

omit [DecidableEq ι] in
/-- The handler goes on and leaves the list, its timers and the callbacks as they are. -/
lemma Listed.moved (h : Listed s l) {phase : Phase ι} (hphase : s.phase = some phase)
    (hidle : s.tasks .callback = none) (hne : ∀ timer, phase ≠ .wrapCalling timer) {s' : State ι}
    (hlist : s'.list = s.list) (htarget : s'.target = s.target)
    (hlong : s'.longTarget = s.longTarget) (hpending : s'.pending = s.pending)
    (htasks : s'.tasks = s.tasks) (hquiet : Quiet s'.phase) : Listed s' l := by
  refine .of_quiet (hlist ▸ h.holds) ?_ ?_ hquiet (htasks ▸ hidle)
  · exact Sys.pairwise_ordered_congr h.sorted fun x _ => by simp only [Sys.val64, htarget, hlong]
  · rw [hpending]
    exact h.mem_pending fun timer => by simpa [hphase] using hne timer

lemma Listed.runHandler (h : Listed s l) {phase : Phase ι} (hphase : s.phase = some phase) :
    ∃ l', Listed (s.runHandler isrBackoff phase) l' := by
  cases phase with
  | entered =>
    have hidle := h.idle (by simp [State.mayRun, hphase])
    exact ⟨l, h.moved hphase hidle (by simp) rfl rfl rfl rfl rfl trivial⟩
  | check reference =>
    have hidle := h.idle (by simp [State.mayRun, hphase])
    refine ⟨l, ?_⟩
    simp only [State.runHandler]
    split
    · exact h.moved hphase hidle (by simp) rfl rfl rfl rfl rfl trivial
    · split <;> exact h.moved hphase hidle (by simp) rfl rfl rfl rfl rfl trivial
  | spin reference =>
    have hidle := h.idle (by simp [State.mayRun, hphase])
    simp only [State.runHandler]
    split
    · exact ⟨l, h.holds, h.sorted, h.mem, h.phase, h.idle⟩
    · rename_i timer hhead
      split
      · obtain ⟨b, rfl, -⟩ := Path.tail h.holds hhead
        exact ⟨b, h.fire_head (h.mem_pending fun x => by simp [hphase]) hidle reference⟩
      · exact ⟨l, h⟩
  | calling reference =>
    refine ⟨l, ?_⟩
    simp only [State.runHandler]
    split
    · rename_i hnone
      have hidle := Option.isNone_iff_eq_none.mp hnone
      exact h.moved hphase hidle (by simp) rfl rfl rfl rfl rfl trivial
    · exact h
  | rearm =>
    have hidle := h.idle (by simp [State.mayRun, hphase])
    refine ⟨l, ?_⟩
    simp only [State.runHandler]
    split
    · exact h.moved hphase hidle (by simp) rfl rfl rfl rfl rfl trivial
    · split_ifs <;> exact h.moved hphase hidle (by simp) rfl rfl rfl rfl rfl trivial
  | arm nextTarget =>
    have hidle := h.idle (by simp [State.mayRun, hphase])
    exact ⟨l, h.moved hphase hidle (by simp) rfl rfl rfl rfl rfl trivial⟩
  | wrap listHead scheduled =>
    cases listHead with
    | none =>
      have hidle := h.idle (by simp [State.mayRun, hphase])
      exact ⟨l, h.moved hphase hidle (by simp) rfl rfl rfl rfl rfl trivial⟩
    | some timer =>
      refine ⟨l, ?_⟩
      simp only [State.runHandler]
      split
      · exact ⟨h.holds, h.sorted, h.mem, h.phase, h.idle⟩
      · rename_i hlong
        exact h.wrapNode hphase hlong
  | wrapCalling timer =>
    simp only [State.runHandler]
    split
    · rename_i hnone
      exact h.wrap_return hphase (Option.isNone_iff_eq_none.mp hnone)
    · exact ⟨l, h⟩
  | wrapArm timer => exact ⟨l, h.wrapArm hphase⟩

end Handler

section Run

variable [Fintype ι] [DecidableEq ι] {s : State ι} {isrBackoff : UInt64}

lemma listed_step {l : List ι} (h : Listed s l) {e : Event ι} (hclear : Clear s e) :
    ∃ l', Listed (step isrBackoff s e) l' := by
  rcases step_cases isrBackoff s e with heq | ⟨n, rfl, heq⟩ | ⟨c, op, rfl, hc, heq⟩ |
    ⟨c, task, rfl, hcurrent, heq⟩ | ⟨rfl, hphase, heq⟩ | ⟨phase, rfl, hphase, heq⟩
  all_goals rw [heq]
  · exact ⟨l, h⟩
  · exact ⟨l, h.holds, h.sorted, h.mem, h.phase, h.idle⟩
  · refine ⟨l, h.goOn hc fun timer rest _ => ?_⟩
    cases op <;> simp [Op.start]
  · obtain ⟨hc, htask⟩ := of_current hcurrent
    exact h.runTask hc htask (hclear task hcurrent)
  · exact ⟨l, h.enterIrq hphase⟩
  · exact h.runHandler hphase

/-- In every run whose operations find their timer clear, the list is in order throughout. -/
theorem timer_list_in_order (isrBackoff : UInt64) (hs : Booted s) (es : List (Event ι))
    (h : Run.Meets (step isrBackoff) Clear s es) :
    Run.Throughout (step isrBackoff) State.ListInOrder s es := by
  have hinv := Run.throughout_of_meets Clear (fun s => ∃ l, Listed s l)
    (fun s e hs hclear => hs.elim fun l hl => listed_step hl hclear) ⟨[], hs.listed⟩ h
  exact hinv.mono fun s hs => hs.elim fun l hl => hl.listInOrder

end Run

/-- A timer that fires by its match sets itself again, and one that is overdue when the counter
wraps fires in `_timer_wrap`. -/
def sampleTimers : List (Event Bool) :=
  callOf (.set true 1000) 5 ++ callOf (.set64 false 10000 0) 3 ++
    [.tick 700, .irq, .handler, .handler, .handler] ++
    .call .callback (.set64 true 30000 0) :: List.replicate 3 (.task .callback) ++
    List.replicate 4 .handler ++ [.tick 12000, .irq] ++ List.replicate 5 .handler ++
    callOf (.remove true) 2

theorem sample_timers_in_order :
    Run.Throughout (step 20) State.ListInOrder { sampleBoard with now := 4294965296 } sampleTimers :=
  timer_list_in_order 20 (sampleBoard_booted _) sampleTimers (by decide +kernel)

/-- Setting a timer again while it is in the list links it to itself. -/
theorem set64_twice_links_timer_to_itself :
    ¬∀ es, Run.Throughout (step 20) State.ListInOrder sampleBoard es := by
  intro h
  obtain ⟨l, hl, -⟩ := (h (callOf (.set64 true 100000 0) 3 ++ callOf (.set64 true 200000 0) 3)).last
  have hloop : (Run.run (step 20) sampleBoard
      (callOf (.set64 true 100000 0) 3 ++ callOf (.set64 true 200000 0) 3)).list.next true =
      some true := by decide +kernel
  have hhead : (Run.run (step 20) sampleBoard
      (callOf (.set64 true 100000 0) 3 ++ callOf (.set64 true 200000 0) 3)).list.head =
      some true := by decide +kernel
  unfold Links.Holds at hl
  rw [hhead] at hl
  exact not_path_of_loop hloop hl

end Nais.Timer
