import Nais.Timer.Order

/-!
# What `_timer_wrap` does to the deadlines

The fields of a timer and the wrap counter give an absolute deadline. The pass of `_timer_wrap`
over the list takes one period from every timer while the wrap counter takes one more: it fires
the timers that are overdue in the new period and leaves the deadlines of the others alone.
-/

namespace Nais.Timer

open Nais.Lib Nais.Lib.Chain

variable {ι : Type}

/-- The absolute deadline of a timer, when `wraps` wraps have been counted. -/
def Sys.deadline (s : Sys ι) (wraps : ℕ) (timer : ι) : ℕ := wraps * 2 ^ 32 + s.val64 timer

/-- `_timer_wrap` fires such a timer when it comes to it as the head. -/
def Sys.overdue (s : Sys ι) (timer : ι) : Bool :=
  s.longTarget timer = 1 ∧ s.target timer < s.xtimerNow

lemma Sys.overdue_iff {s : Sys ι} {timer : ι} (wraps : ℕ) (hlong : 1 ≤ s.longTarget timer) :
    s.overdue timer = true ↔ s.deadline wraps timer < (wraps + 1) * 2 ^ 32 + s.now % 2 ^ 32 := by
  have htarget := (s.target timer).toNat_lt
  have hmod := Nat.mod_lt s.now (show 0 < 2 ^ 32 by decide)
  rw [UInt32.le_iff_toNat_le, UInt32.toNat_one] at hlong
  simp only [Sys.overdue, decide_eq_true_eq, ← UInt32.toNat_inj, UInt32.lt_iff_toNat_lt,
    Sys.toNat_xtimerNow, Sys.deadline, Sys.val64, UInt32.toNat_one]
  constructor
  · rintro ⟨hone, hlt⟩
    rw [hone]
    omega
  · intro hlt
    have hone : (s.longTarget timer).toNat = 1 := by omega
    refine ⟨hone, ?_⟩
    rw [hone] at hlt
    omega

lemma Sys.overdue_of_ordered {s : Sys ι} {x y : ι} (hxy : s.Ordered x y)
    (hx : 1 ≤ s.longTarget x) (hy : 1 ≤ s.longTarget y) (hdue : s.overdue y = true) :
    s.overdue x = true := by
  rw [overdue_iff 0 hy] at hdue
  rw [overdue_iff 0 hx]
  rw [ordered_iff] at hxy
  unfold deadline at hdue ⊢
  omega

/-- What one pass over the list `l` makes of the state `s`. -/
structure WrapPass (s s' : State ι) (l : List ι) : Prop where
  phase : s'.phase = none
  halted : s'.halted = s.halted
  now : s'.now = s.now
  wrapCounter : s'.wrapCounter = s.wrapCounter
  fired : s'.fired.map (·.timer) = (l.filter s.overdue).reverse ++ s.fired.map (·.timer)
  holds : s'.list.Holds (l.filter fun x => !s.overdue x)
  target : ∀ x, x ∉ l.filter s.overdue → s'.target x = s.target x
  decremented : ∀ x ∈ l, s'.longTarget x = s.longTarget x - 1
  other : ∀ x, x ∉ l → s'.longTarget x = s.longTarget x

section Pass

variable [Fintype ι] [DecidableEq ι] {isrBackoff : UInt64} {s : State ι} {l : List ι}

/-- The interrupt handler takes `n` steps while the counter stays where it is. -/
def serve (isrBackoff : UInt64) (s : State ι) (n : ℕ) : State ι :=
  Run.run (step isrBackoff) s (List.replicate n .handler)

lemma serve_succ {phase : Phase ι} (hhalted : s.halted = false) (hphase : s.phase = some phase)
    (n : ℕ) : serve isrBackoff s (n + 1) = serve isrBackoff (s.runHandler isrBackoff phase) n := by
  have hstep : step isrBackoff s .handler = s.runHandler isrBackoff phase := by
    unfold step
    rw [hhalted, hphase]
    rfl
  exact congrArg (fun s => serve isrBackoff s n) hstep

/-- Behind the first timer that stays, the loop only decrements. -/
lemma serve_scheduled (hphase : s.phase = some (.wrap l.head? true)) (hhalted : s.halted = false)
    (hpath : Path s.list.next l.head? l none) (hlong : ∀ x ∈ l, s.longTarget x ≠ 0) :
    serve isrBackoff s (l.length + 1) = { s with
      longTarget := fun x => if x ∈ l then s.longTarget x - 1 else s.longTarget x
      phase := none } := by
  induction l generalizing s with
  | nil =>
    rw [serve_succ hhalted hphase]
    simp [State.runHandler, serve, Run.run]
  | cons timer l ih =>
    have hne : ∀ x ∈ l, x ≠ timer := fun x hx hxt =>
      (List.nodup_cons.mp hpath.nodup).1 (hxt ▸ hx)
    have hrest : Path s.list.next l.head? l none := hpath.2.eq_head? ▸ hpath.2
    set next : State ι := { s with
      toSys := s.toSys.setLongTarget timer (s.longTarget timer - 1)
      phase := some (.wrap l.head? true) } with hnext
    have hstep : s.runHandler isrBackoff (.wrap (some timer) true) = next := by
      simp only [State.runHandler, hlong timer List.mem_cons_self, if_false, State.wrapNode, if_true,
        hpath.2.eq_head?, hnext]
    have hlong' : ∀ x ∈ l, next.longTarget x ≠ 0 := fun x hx => by
      have hx' : next.longTarget x = s.longTarget x := by simp [hnext, Sys.setLongTarget, hne x hx]
      rw [hx']
      exact hlong x (List.mem_cons_of_mem timer hx)
    rw [List.length_cons, serve_succ hhalted hphase, List.head?_cons, hstep,
      ih (s := next) rfl hhalted hrest hlong']
    simp only [hnext, Sys.setLongTarget, State.mk.injEq, Sys.mk.injEq, true_and, and_true]
    funext x
    by_cases hx : x = timer
    · subst hx
      have hxl : x ∉ l := fun hmem => hne x hmem rfl
      simp [hxl]
    · simp [hx]

/-- The loop has come by the first timer that stays. -/
def wrapStayed (s : State ι) (timer : ι) (value : UInt32) (enabled : Bool) : State ι :=
  { s with
    longTarget := Function.update s.longTarget timer (s.longTarget timer - 1)
    matchValue := value
    matchEnabled := enabled
    phase := some (.wrap (s.list.next timer) true) }

lemma WrapPass.of_stays {timer : ι} (value : UInt32) (enabled : Bool) (hhalted : s.halted = false)
    (hholds : s.list.Holds (timer :: l)) (hlong : ∀ x ∈ timer :: l, s.longTarget x ≠ 0)
    (hdue : ∀ x ∈ timer :: l, s.overdue x = false) :
    WrapPass s (serve isrBackoff (wrapStayed s timer value enabled) (l.length + 1))
      (timer :: l) := by
  have hne : ∀ x ∈ l, x ≠ timer := fun x hx hxt =>
    (List.nodup_cons.mp hholds.nodup).1 (hxt ▸ hx)
  have hpath : Path s.list.next l.head? l none := hholds.2.eq_head? ▸ hholds.2
  have hphase : (wrapStayed s timer value enabled).phase = some (.wrap l.head? true) :=
    congrArg (fun p => some (Phase.wrap p true)) hholds.2.eq_head?
  have hlong' : ∀ x ∈ l, (wrapStayed s timer value enabled).longTarget x ≠ 0 := fun x hx => by
    have hx' : (wrapStayed s timer value enabled).longTarget x = s.longTarget x :=
      Function.update_of_ne (hne x hx) _ _
    rw [hx']
    exact hlong x (List.mem_cons_of_mem timer hx)
  have hnone : (timer :: l).filter s.overdue = [] :=
    List.filter_eq_nil_iff.mpr fun x hx => by simp [hdue x hx]
  have hall : (timer :: l).filter (fun x => !s.overdue x) = timer :: l :=
    List.filter_eq_self.mpr fun x hx => by simp [hdue x hx]
  rw [serve_scheduled hphase hhalted hpath hlong']
  refine ⟨rfl, rfl, rfl, rfl, ?_, ?_, fun x _ => rfl, fun x hx => ?_, fun x hx => ?_⟩
  · rw [hnone]
    rfl
  · rw [hall]
    exact hholds
  · rcases List.mem_cons.mp hx with rfl | hx
    · have hxl : x ∉ l := fun hmem => hne x hmem rfl
      simp [wrapStayed, hxl]
    · simp [wrapStayed, hx, hne x hx]
  · rw [List.mem_cons, not_or] at hx
    simp [wrapStayed, hx.1, hx.2]

/-- The head is fired and its callback returns. -/
def wrapFired (s : State ι) (timer : ι) : State ι :=
  { { s with
      toSys := s.toSys.setLongTarget timer (s.longTarget timer - 1)
      phase := some (.wrapCalling timer) }.fire timer with
    list := s.list.unlinkAt .head timer
    phase := some (.wrap (s.list.next timer) false) }

omit [Fintype ι] in
lemma wrapFired_other {timer x : ι} (hx : x ≠ timer) :
    (wrapFired s timer).target x = s.target x ∧
      (wrapFired s timer).longTarget x = s.longTarget x := by
  simp [wrapFired, State.fire, State.shoot, Sys.setTarget, Sys.setLongTarget, hx]

omit [Fintype ι] in
lemma WrapPass.cons {timer : ι} {s' : State ι} (hholds : s.list.Holds (timer :: l))
    (hdue : s.overdue timer = true) (h : WrapPass (wrapFired s timer) s' l) :
    WrapPass s s' (timer :: l) := by
  obtain ⟨htimer, -⟩ := List.nodup_cons.mp hholds.nodup
  have hne : ∀ x ∈ l, x ≠ timer := fun x hx hxt => htimer (hxt ▸ hx)
  have htarget : ∀ x, x ≠ timer → (wrapFired s timer).target x = s.target x := fun x hx =>
    (wrapFired_other hx).1
  have hlong : ∀ x, x ≠ timer → (wrapFired s timer).longTarget x = s.longTarget x := fun x hx =>
    (wrapFired_other hx).2
  have hsame : ∀ x ∈ l, (wrapFired s timer).overdue x = s.overdue x := fun x hx => by
    unfold Sys.overdue
    rw [htarget x (hne x hx), hlong x (hne x hx)]
    rfl
  have hdues : (timer :: l).filter s.overdue = timer :: l.filter (wrapFired s timer).overdue := by
    rw [List.filter_cons_of_pos hdue, List.filter_congr hsame]
  have hstay : (timer :: l).filter (fun x => !s.overdue x) =
      l.filter fun x => !(wrapFired s timer).overdue x := by
    rw [List.filter_cons_of_neg (by simp [hdue])]
    exact List.filter_congr fun x hx => by rw [hsame x hx]
  refine ⟨h.phase, h.halted, h.now, h.wrapCounter, ?_, ?_, fun x hx => ?_, fun x hx => ?_,
    fun x hx => ?_⟩
  · rw [h.fired, hdues]
    simp [wrapFired, State.fire, State.shoot]
  · rw [hstay]
    exact h.holds
  · rw [hdues, List.mem_cons, not_or] at hx
    rw [h.target x hx.2, htarget x hx.1]
  · rcases List.mem_cons.mp hx with rfl | hx
    · rw [h.other x htimer]
      simp [wrapFired, State.fire, State.shoot, Sys.setTarget, Sys.setLongTarget]
    · rw [h.decremented x hx, hlong x (hne x hx)]
  · rw [List.mem_cons, not_or] at hx
    rw [h.other x hx.2, hlong x hx.1]

section Head

variable {timer : ι} (hphase : s.phase = some (.wrap (some timer) false))
  (hhalted : s.halted = false) (hlong : s.longTarget timer ≠ 0)

include hphase hhalted hlong

lemma serve_wrapNode (n : ℕ) :
    serve isrBackoff s (n + 1) = serve isrBackoff (s.wrapNode timer false) n := by
  rw [serve_succ hhalted hphase, State.runHandler, if_neg hlong]

omit [Fintype ι] hphase hhalted hlong in
lemma decremented_eq_zero :
    (s.toSys.setLongTarget timer (s.longTarget timer - 1)).longTarget timer = 0 ↔
      s.longTarget timer = 1 := by
  have htimer : (s.toSys.setLongTarget timer (s.longTarget timer - 1)).longTarget timer =
      s.longTarget timer - 1 := Function.update_self ..
  rw [htimer]
  exact sub_eq_zero

lemma serve_overdue (hidle : s.tasks .callback = none) (hdue : s.overdue timer = true) (n : ℕ) :
    serve isrBackoff s (n + 2) = serve isrBackoff (wrapFired s timer) n := by
  simp only [Sys.overdue, decide_eq_true_eq] at hdue
  set called := { s with
    toSys := s.toSys.setLongTarget timer (s.longTarget timer - 1)
    phase := some (.wrapCalling timer) }.fire timer with hcalled
  have hcall : s.wrapNode timer false = called := by
    simp only [State.wrapNode, Bool.false_eq_true, if_false]
    rw [if_pos ⟨decremented_eq_zero.mpr hdue.1, hdue.2⟩]
  have hreturn : called.runHandler isrBackoff (.wrapCalling timer) = wrapFired s timer :=
    if_pos (Option.isNone_iff_eq_none.mpr hidle)
  rw [serve_wrapNode hphase hhalted hlong, hcall, serve_succ (s := called) hhalted rfl, hreturn]

variable (isrBackoff) in
lemma serve_stays (hdue : s.overdue timer = false) :
    ∃ m value enabled, ∀ n,
      serve isrBackoff s (n + m) = serve isrBackoff (wrapStayed s timer value enabled) n := by
  have hlate : ¬((s.toSys.setLongTarget timer (s.longTarget timer - 1)).longTarget timer = 0 ∧
      s.target timer < s.xtimerNow) := by
    rw [decremented_eq_zero]
    simpa only [Sys.overdue, decide_eq_false_iff_not] using hdue
  by_cases hnear : (s.toSys.setLongTarget timer (s.longTarget timer - 1)).longTarget timer = 0
  · set armed : State ι := { s with
      toSys := s.toSys.setLongTarget timer (s.longTarget timer - 1)
      phase := some (.wrapArm timer) } with harmed
    have harm : s.wrapNode timer false = armed := by
      simp only [State.wrapNode, Bool.false_eq_true, if_false]
      rw [if_neg hlate, if_pos hnear]
    obtain ⟨value, enabled, hset⟩ : ∃ value enabled, armed.runHandler isrBackoff (.wrapArm timer) =
        wrapStayed s timer value enabled := ⟨_, _, rfl⟩
    refine ⟨2, value, enabled, fun n => ?_⟩
    rw [serve_wrapNode hphase hhalted hlong, harm, serve_succ (s := armed) hhalted rfl, hset]
  · have hgoes : s.wrapNode timer false = wrapStayed s timer s.matchValue s.matchEnabled := by
      simp only [State.wrapNode, Bool.false_eq_true, if_false]
      rw [if_neg hlate, if_neg hnear]
      rfl
    refine ⟨1, s.matchValue, s.matchEnabled, fun n => ?_⟩
    rw [serve_wrapNode hphase hhalted hlong, hgoes]

end Head

variable (isrBackoff) in
/-- The loop fires the overdue timers of a sorted list and leaves it. -/
lemma exists_wrapPass (hphase : s.phase = some (.wrap s.list.head false))
    (hhalted : s.halted = false) (hidle : s.tasks .callback = none) (hholds : s.list.Holds l)
    (hsorted : l.Pairwise s.Ordered) (hlong : ∀ x ∈ l, 1 ≤ s.longTarget x) :
    ∃ n, WrapPass s (serve isrBackoff s n) l := by
  induction l generalizing s with
  | nil =>
    have hhead : s.list.head = none := hholds
    rw [hhead] at hphase
    refine ⟨1, ?_⟩
    rw [serve_succ hhalted hphase]
    exact ⟨rfl, rfl, rfl, rfl, rfl, hholds, fun x _ => rfl, fun x hx => absurd hx (by simp),
      fun x _ => rfl⟩
  | cons timer l ih =>
    obtain ⟨hbefore, hsorted'⟩ := List.pairwise_cons.mp hsorted
    have hne : ∀ x ∈ l, x ≠ timer := fun x hx hxt =>
      (List.nodup_cons.mp hholds.nodup).1 (hxt ▸ hx)
    have hzero : ∀ x ∈ timer :: l, s.longTarget x ≠ 0 := fun x hx hzero =>
      absurd (hzero ▸ hlong x hx) (by decide)
    rw [hholds.1] at hphase
    cases hdue : s.overdue timer with
    | true =>
      have hfields : ∀ x ∈ l, (wrapFired s timer).val64 x = s.val64 x := fun x hx => by
        unfold Sys.val64
        rw [(wrapFired_other (hne x hx)).1, (wrapFired_other (hne x hx)).2]
      obtain ⟨n, hn⟩ := ih (s := wrapFired s timer) rfl hhalted hidle
        (Links.Holds.unlinkAt (a := []) hholds) (Sys.pairwise_ordered_congr hsorted' hfields)
        fun x hx => (wrapFired_other (hne x hx)).2.symm ▸ hlong x (List.mem_cons_of_mem timer hx)
      refine ⟨n + 2, ?_⟩
      rw [serve_overdue hphase hhalted (hzero timer List.mem_cons_self) hidle hdue]
      exact hn.cons hholds hdue
    | false =>
      have hstays : ∀ x ∈ timer :: l, s.overdue x = false := fun x hx => by
        rw [← Bool.not_eq_true]
        intro hx'
        rcases List.mem_cons.mp hx with rfl | hmem
        · simp [hdue] at hx'
        · have hfirst := Sys.overdue_of_ordered (hbefore x hmem) (hlong timer List.mem_cons_self)
            (hlong x hx) hx'
          simp [hdue] at hfirst
      obtain ⟨m, value, enabled, hm⟩ := serve_stays isrBackoff hphase hhalted
        (hzero timer List.mem_cons_self) hdue
      refine ⟨l.length + 1 + m, ?_⟩
      rw [hm]
      exact WrapPass.of_stays value enabled hhalted hholds hzero hstays

/-- `_timer_wrap` fires the timers whose deadline lies below the new time, in the order of the
list. The others keep their deadlines, counted from the new wrap counter, and their order. -/
theorem timer_wrap_preserves_deadlines (isrBackoff : UInt64) (hphase : s.phase = none)
    (hhalted : s.halted = false) (hflag : s.wrapFlag = true) (hidle : s.tasks .callback = none)
    (hholds : s.list.Holds l) (hsorted : l.Pairwise s.Ordered) (hlong : ∀ x ∈ l, 1 ≤ s.longTarget x) :
    let wraps := s.wrapCounter.toNat
    let due := fun x => decide (s.deadline wraps x < (wraps + 1) * 2 ^ 32 + s.xtimerNow.toNat)
    ∃ n, let s' := serve isrBackoff (step isrBackoff s .irq) n
      s'.phase = none ∧ s'.halted = false ∧ s'.wrapCounter = s.wrapCounter + 1 ∧
      s'.fired.map (·.timer) = (l.filter due).reverse ++ s.fired.map (·.timer) ∧
      s'.list.Holds (l.filter fun x => !due x) ∧
      (l.filter fun x => !due x).Pairwise s'.Ordered ∧
      ∀ x ∈ l.filter fun x => !due x, s'.deadline (wraps + 1) x = s.deadline wraps x := by
  intro wraps due
  set entered : State ι := { s with
    wrapFlag := false
    wrapCounter := s.wrapCounter + 1
    phase := some (.wrap s.list.head false) } with hentered
  have hirq : step isrBackoff s .irq = entered := by
    unfold step
    rw [hhalted, hphase]
    simp only [Bool.false_eq_true, if_false, Option.isNone_none, if_true]
    unfold State.enterIrq
    rw [if_pos hflag]
  obtain ⟨n, hn⟩ := exists_wrapPass isrBackoff (s := entered) rfl hhalted hidle
    hholds hsorted hlong
  have hdue : ∀ x ∈ l, entered.overdue x = due x := fun x hx => by
    have hiff := Sys.overdue_iff (s := entered.toSys) wraps (hlong x hx)
    rw [← s.toNat_xtimerNow] at hiff
    exact Bool.eq_iff_iff.mpr (hiff.trans decide_eq_true_iff.symm)
  have hdues : l.filter entered.overdue = l.filter due := List.filter_congr hdue
  have hrest : (l.filter fun x => !entered.overdue x) = l.filter fun x => !due x :=
    List.filter_congr fun x hx => by rw [hdue x hx]
  have hkeeps : ∀ x ∈ l.filter fun x => !due x,
      (serve isrBackoff entered n).val64 x + 2 ^ 32 = s.val64 x := fun x hx => by
    rw [← hrest, List.mem_filter] at hx
    have hstays : x ∉ l.filter entered.overdue := fun hmem => by
      simp [(List.mem_filter.mp hmem).2] at hx
    have hx1 := hlong x hx.1
    have hsub : (s.longTarget x - 1).toNat = (s.longTarget x).toNat - 1 := UInt32.toNat_sub_of_le _ _ hx1
    rw [UInt32.le_iff_toNat_le, UInt32.toNat_one] at hx1
    unfold Sys.val64
    rw [hn.target x hstays, hn.decremented x hx.1]
    change (s.longTarget x - 1).toNat * 2 ^ 32 + (s.target x).toNat + 2 ^ 32 = _
    omega
  refine ⟨n, ?_⟩
  dsimp only
  rw [hirq]
  refine ⟨hn.phase, hn.halted.trans hhalted, hn.wrapCounter, ?_, ?_, ?_, fun x hx => ?_⟩
  · rw [hn.fired, hdues]
  · rw [← hrest]
    exact hn.holds
  · refine (hsorted.filter _).imp_of_mem fun {x y} hx hy hxy => ?_
    have hx' := hkeeps x hx
    have hy' := hkeeps y hy
    rw [Sys.ordered_iff] at hxy ⊢
    omega
  · have hx' := hkeeps x hx
    unfold Sys.deadline
    omega

end Pass

/-- Two timers of the next periods, when the counter has wrapped. -/
def sampleAtWrap : State Bool :=
  { sampleBoard with
    list := ⟨some true, fun timer => if timer then some false else none⟩
    target := fun timer => if timer then 100 else 5
    longTarget := fun timer => if timer then 1 else 2
    wrapFlag := true
    now := 2 ^ 32 + 200 }

theorem sample_wrap_fires_first : ∃ n,
    (serve 20 (step 20 sampleAtWrap .irq) n).fired.map (·.timer) = [true] ∧
      (serve 20 (step 20 sampleAtWrap .irq) n).list.Holds [false] ∧
      (serve 20 (step 20 sampleAtWrap .irq) n).deadline 1 false = 2 ^ 33 + 5 := by
  obtain ⟨n, -, -, -, hfired, hholds, -, hdeadline⟩ := timer_wrap_preserves_deadlines 20
    (s := sampleAtWrap) (l := [true, false]) rfl rfl rfl rfl ⟨rfl, rfl, rfl⟩
      (by simp [Sys.ordered_iff, Sys.val64, sampleAtWrap]) (by decide)
  have hdue : ∀ x, decide (sampleAtWrap.deadline sampleAtWrap.wrapCounter.toNat x <
      (sampleAtWrap.wrapCounter.toNat + 1) * 2 ^ 32 + sampleAtWrap.xtimerNow.toNat) = x := by
    decide +kernel
  simp only [hdue] at hfired hholds hdeadline
  exact ⟨n, hfired, hholds, hdeadline false (by decide)⟩

end Nais.Timer
