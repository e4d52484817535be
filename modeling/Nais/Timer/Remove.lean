import Nais.Timer.Machine

/-!
# Removing a timer

`xtimer_remove` looks at the `target` of a timer to see whether it is set. The target is the low
half of a 64-bit time, so a timer that is in the list may have the target 0 and is then left there.
-/

namespace Nais.Timer

open Nais.Lib Nais.Lib.Chain

variable {ι : Type}

namespace Sys

variable [Fintype ι] [DecidableEq ι]

def xtimerRemove (s : Sys ι) (timer : ι) : Option (Sys ι) :=
  if s.isSet timer then s.remove timer else some s

/-- What removing a timer from the list `l` is to leave: the other timers in their order with
their fields, and the match set for the head if that is another one of the current period. -/
structure Removed (s s' : Sys ι) (l : List ι) (timer : ι) : Prop where
  holds : s'.list.Holds (l.erase timer)
  fields : ∀ x, s'.target x = s.target x ∧ s'.longTarget x = s.longTarget x ∧
    s'.callback x = s.callback x
  armed : ∀ head ∈ (l.erase timer).head?, l.head? ≠ some head → s.longTarget head = 0 →
    s'.matchValue = s.target head ∧ s'.matchEnabled = true

/-- Setting the match has its effect: `_timer_callback` is not running, which sets it at its
end, or the match has this value already. -/
def CanArm (s : Sys ι) (target : UInt32) : Prop :=
  s.inHandler = false ∨ s.matchValue = target ∧ s.matchEnabled = true

variable {s s' : Sys ι} {l : List ι} {timer : ι}

omit [Fintype ι] [DecidableEq ι] in
lemma lltimerSet_armed_iff (target : UInt32) :
    ((s.lltimerSet target).matchValue = target ∧ (s.lltimerSet target).matchEnabled = true) ↔
      s.CanArm target := by
  cases hin : s.inHandler <;> simp [lltimerSet, CanArm, hin]

lemma xtimerRemove_of_zero (h : s.target timer = 0) : s.xtimerRemove timer = some s := by
  simp [xtimerRemove, isSet, h]

lemma xtimerRemove_of_ne_zero (h : s.target timer ≠ 0) :
    s.xtimerRemove timer = s.remove timer := by
  simp [xtimerRemove, isSet, h]

omit [Fintype ι] in
lemma head?_erase_of_ne {head : ι} (h : l.head? ≠ some timer) (hhead : head ∈ (l.erase timer).head?) :
    l.head? = some head := by
  cases l with
  | nil => simp at hhead
  | cons x l =>
    have hx : x ≠ timer := fun hx => h (by simp [hx])
    rw [List.erase_cons_tail (by simpa using hx)] at hhead
    exact hhead

lemma remove_head_spec {rest : List ι} (h : s.list.Holds (timer :: rest)) :
    ∃ list, list.Holds rest ∧ s.remove timer = some (match rest.head? with
      | none => { s with list := list }
      | some next => { s with list := list }.lltimerSet (s.target next)) := by
  have hrest : (s.list.unlinkAt .head timer).Holds rest := Links.Holds.unlinkAt (a := []) h
  refine ⟨s.list.unlinkAt .head timer, hrest, ?_⟩
  unfold remove
  rw [if_pos h.1]
  dsimp only
  have hnext := Path.eq_head? hrest
  generalize rest.head? = next at hnext ⊢
  subst hnext
  rfl

lemma remove_inner_spec (h : s.list.Holds l) (hhead : l.head? ≠ some timer) :
    ∃ list, list.Holds (l.erase timer) ∧ s.remove timer = some { s with list := list } := by
  obtain ⟨list, hlist, hholds⟩ := removeTimerFromList_spec timer h
  refine ⟨list, hholds, ?_⟩
  rw [remove, if_neg (by rwa [Path.eq_head? h]), hlist]

/-- `xtimer_remove` removes a timer exactly if the timer is not in the list or has a target, and
the match is not left to `_timer_callback`, if it has to be set. -/
theorem xtimer_remove_removes_iff (hholds : s.list.Holds l) (timer : ι) :
    ∃ s', s.xtimerRemove timer = some s' ∧ (Removed s s' l timer ↔
      (timer ∈ l → s.target timer ≠ 0) ∧ ∀ next rest, l = timer :: next :: rest →
        s.longTarget next = 0 → s.CanArm (s.target next)) := by
  have hnodup := hholds.nodup
  by_cases hzero : s.target timer = 0
  · refine ⟨s, xtimerRemove_of_zero hzero, fun hremoved => ?_, fun hout => ?_⟩
    · have hout : timer ∉ l := fun hmem => by
        have hsame := hholds.unique hremoved.holds
        exact ((List.Nodup.mem_erase_iff hnodup).mp (hsame ▸ hmem)).1 rfl
      refine ⟨fun hmem => absurd hmem hout, fun next rest hl => absurd ?_ hout⟩
      rw [hl]
      exact List.mem_cons_self
    · have herase : l.erase timer = l := List.erase_of_not_mem fun hmem => hout.1 hmem hzero
      refine ⟨by rwa [herase], fun x => ⟨rfl, rfl, rfl⟩, fun head hhead hne => absurd ?_ hne⟩
      rwa [herase] at hhead
  · rw [xtimerRemove_of_ne_zero hzero]
    have hset : timer ∈ l → s.target timer ≠ 0 := fun _ => hzero
    by_cases hhead : l.head? = some timer
    · obtain ⟨rest, rfl⟩ := List.head?_eq_some_iff.mp hhead
      obtain ⟨list, hlist, hremove⟩ := remove_head_spec hholds
      rw [← List.erase_cons_head (a := timer) (l := rest)] at hlist
      refine ⟨_, hremove, ?_⟩
      cases rest with
      | nil =>
        refine iff_of_true ⟨hlist, fun x => ⟨rfl, rfl, rfl⟩, fun head hmem => ?_⟩
          ⟨hset, fun next rest hl => ?_⟩
        · simp at hmem
        · simp at hl
      | cons next rest =>
        have hne : timer ≠ next := fun hne => (List.nodup_cons.mp hnodup).1 (by simp [hne])
        have harmed := lltimerSet_armed_iff (s := { s with list := list }) (s.target next)
        constructor
        · intro hremoved
          refine ⟨hset, fun next' rest' hl hlong => ?_⟩
          obtain ⟨rfl, rfl⟩ : next = next' ∧ rest = rest' := by simpa using hl
          exact harmed.mp (hremoved.armed next (by simp) (by simpa using hne) hlong)
        · rintro ⟨-, harm⟩
          refine ⟨hlist, fun x => ⟨rfl, rfl, rfl⟩, fun head hmem _ hlong => ?_⟩
          obtain rfl : next = head := by simpa using hmem
          exact harmed.mpr (harm next rest rfl hlong)
    · obtain ⟨list, hlist, hremove⟩ := remove_inner_spec hholds hhead
      refine ⟨_, hremove, iff_of_true ⟨hlist, fun x => ⟨rfl, rfl, rfl⟩, fun head hmem hne => ?_⟩
        ⟨hset, ?_⟩⟩
      · exact absurd (head?_erase_of_ne hhead hmem) hne
      · rintro next rest rfl
        simp at hhead

/-- The steps of a call that no interrupt cuts come to what `xtimer_remove` does. -/
lemma runTask_remove (s : State ι) (c : Ctx) {sys : Sys ι}
    (h : s.xtimerRemove timer = some sys) :
    (if s.isSet timer then (s.runTask c (.remove timer none)).runTask c (.unlink timer none)
      else s.runTask c (.remove timer none)).toSys = sys := by
  unfold xtimerRemove at h
  split_ifs at h ⊢ with hset
  · have hstep : s.runTask c (.remove timer none) = s.goOn c (some (.unlink timer none)) :=
      if_pos hset
    rw [hstep]
    simp only [State.runTask, State.goOn, h]
  · rw [State.runTask, if_neg hset]
    exact Option.some.inj h

end Sys

/-- Two timers have been set. -/
def sampleRemove : State Bool :=
  Run.run (step 20) sampleBoard (callOf (.set64 true 1320 0) 3 ++ callOf (.set64 false 5320 0) 3)

theorem sample_remove_removes : ∃ s', sampleRemove.xtimerRemove true = some s' ∧
    Sys.Removed sampleRemove.toSys s' [true, false] true := by
  have hlast : sampleRemove.list.next false = none := by decide +kernel
  have hholds : sampleRemove.list.Holds [true, false] :=
    ⟨by decide +kernel, by decide +kernel, hlast⟩
  obtain ⟨s', hs', hiff⟩ := Sys.xtimer_remove_removes_iff hholds true
  have hset : sampleRemove.target true ≠ 0 := by decide +kernel
  have hidle : sampleRemove.inHandler = false := by decide +kernel
  exact ⟨s', hs', hiff.mpr ⟨fun _ => hset, fun _ _ _ _ => Or.inl hidle⟩⟩

/-- A timer that is set for a whole period after the time 0 stays in the list. -/
theorem xtimer_remove_leaves_target_zero :
    ¬∀ (es : List (Event Bool)) (l : List Bool) (timer : Bool) (s' : Sys Bool),
      (Run.run (step 20) sampleBoard es).list.Holds l →
      (Run.run (step 20) sampleBoard es).xtimerRemove timer = some s' →
      Sys.Removed (Run.run (step 20) sampleBoard es).toSys s' l timer := by
  intro h
  set es := callOf (.set64 true 320 1) 3 with hes
  have hhead : (Run.run (step 20) sampleBoard es).list.head = some true := by decide +kernel
  have hnext : (Run.run (step 20) sampleBoard es).list.next true = none := by decide +kernel
  have hzero : (Run.run (step 20) sampleBoard es).target true = 0 := by decide +kernel
  have hremoved := h es [true] true _ ⟨hhead, hnext⟩ (Sys.xtimerRemove_of_zero hzero)
  exact absurd (hhead.symm.trans hremoved.holds) (by simp)

end Nais.Timer
