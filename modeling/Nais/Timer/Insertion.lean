import Nais.Timer.Xtimer

/-!
# Insertion into a list of timers

`_add_timer_to_list` gets the address of the variable that heads the list. Its callers pass
that of `timer_list_head`, which the function also reads to see whether the timer became the
next one to fire.
-/

namespace Nais.Timer

open Nais.Lib.Chain

/-- The variable whose address a caller passes. -/
inductive ListHead where
  | timerListHead
  | other (name : ℕ)

/-- The timer module with the heads of other lists, which go through the same `next` fields. -/
structure Heads (ι : Type) extends Sys ι where
  others : ℕ → Option ι

variable {ι : Type}

namespace Heads

def links (s : Heads ι) : ListHead → Links ι
  | .timerListHead => s.list
  | .other name => ⟨s.others name, s.list.next⟩

def store (s : Heads ι) (listHead : ListHead) (links : Links ι) : Heads ι :=
  match listHead with
  | .timerListHead => { s with list := links }
  | .other name =>
    { s with
      list := ⟨s.list.head, links.next⟩
      others := Function.update s.others name links.head }

variable [Fintype ι] [DecidableEq ι]

def addTimerToList (s : Heads ι) (listHead : ListHead) (timer : ι) : Option (Heads ι) :=
  match (s.links listHead).seek (fun y => s.longTarget y < s.longTarget timer) (Sys.walk ι) .head with
  | none => none
  | some slot =>
    match (s.links listHead).seek
      (fun y => s.target y ≤ s.target timer ∧ s.longTarget y ≤ s.longTarget timer)
      (Sys.walk ι) slot with
    | none => none
    | some slot =>
      let s := s.store listHead ((s.links listHead).insertAt slot timer)
      some <| if s.list.head = some timer ∧ s.longTarget timer = 0 then
        { s with toSys := s.lltimerSet (s.target timer) } else s

/-- For the callers in `xtimer.c` it is the function of the timer module. -/
theorem addTimerToList_timerListHead (s : Heads ι) (timer : ι) :
    s.addTimerToList .timerListHead timer =
      (s.toSys.addTimerToList timer).map fun sys => { s with toSys := sys } := by
  unfold addTimerToList Sys.addTimerToList
  dsimp only [links]
  cases s.list.seek (fun y => s.longTarget y < s.longTarget timer) (Sys.walk ι) .head with
  | none => rfl
  | some first =>
    dsimp only
    cases s.list.seek
      (fun y => s.target y ≤ s.target timer ∧ s.longTarget y ≤ s.longTarget timer)
      (Sys.walk ι) first with
    | none => rfl
    | some slot =>
      exact congrArg some (apply_ite (fun sys => ({ s with toSys := sys } : Heads ι)) _ _ _).symm

omit [Fintype ι] [DecidableEq ι] in
lemma links_store (s : Heads ι) (listHead : ListHead) (links : Links ι) :
    (s.store listHead links).links listHead = links := by
  cases listHead with
  | timerListHead => rfl
  | other name =>
    have hhead : Function.update s.others name links.head name = links.head :=
      Function.update_self ..
    simp only [store, Heads.links, hhead]

/-- The list `a ++ b` has become `a ++ timer :: b`, and the match is set if that made the timer
the head of `timer_list_head`. -/
structure Inserted (s s' : Heads ι) (listHead : ListHead) (timer : ι) (a b : List ι) : Prop where
  target : s'.target = s.target
  longTarget : s'.longTarget = s.longTarget
  holds : (s'.links listHead).Holds (a ++ timer :: b)
  ordered : (a ++ timer :: b).Pairwise s'.Ordered
  stable : ∀ y ∈ a ++ b, s.longTarget y = s.longTarget timer → s.target y = s.target timer → y ∈ a
  hardware : (s'.matchValue, s'.matchEnabled) =
    if s'.list.head = some timer ∧ s.longTarget timer = 0 ∧ s.inHandler = false then
      (s.target timer, true) else (s.matchValue, s.matchEnabled)

variable {s : Heads ι} {listHead : ListHead} {timer : ι} {a b l : List ι}

omit [Fintype ι] in
lemma Inserted.of_store (hordered : (a ++ timer :: b).Pairwise s.Ordered)
    (hafter : ∀ y ∈ b, s.val64 timer < s.val64 y) {links : Links ι}
    (hholds : links.Holds (a ++ timer :: b)) :
    let s' := s.store listHead links
    s.Inserted (if s'.list.head = some timer ∧ s'.longTarget timer = 0 then
      { s' with toSys := s'.lltimerSet (s'.target timer) } else s') listHead timer a b := by
  intro s'
  obtain ⟨list, hsys⟩ : ∃ list, s'.toSys = { s.toSys with list := list } := by
    cases listHead with
    | timerListHead => exact ⟨_, rfl⟩
    | other name => exact ⟨_, rfl⟩
  have hlinks : (s'.links listHead).Holds (a ++ timer :: b) := by
    rw [links_store]
    exact hholds
  have htarget : s'.target = s.target := by rw [hsys]
  have hlongTarget : s'.longTarget = s.longTarget := by rw [hsys]
  have hordered' : (a ++ timer :: b).Pairwise s'.Ordered := by
    rw [hsys]
    exact hordered
  have hstable : ∀ y ∈ a ++ b, s.longTarget y = s.longTarget timer →
      s.target y = s.target timer → y ∈ a := by
    intro y hy hlong htarg
    refine (List.mem_append.mp hy).resolve_right fun hyb => ?_
    have hlt := hafter y hyb
    simp only [Sys.val64, hlong, htarg, lt_irrefl] at hlt
  split_ifs with hhead
  · refine ⟨htarget, hlongTarget, ?_, hordered', hstable, ?_⟩
    · cases listHead with
      | timerListHead => exact hlinks
      | other name => exact hlinks
    · rw [hlongTarget] at hhead
      have hcalled : s'.list.head = some timer ∧ s.longTarget timer = 0 ∧ s.inHandler = false ↔
          s.inHandler = false := by
        rw [← and_assoc, and_iff_right hhead]
      refine Eq.trans ?_ (if_congr hcalled rfl rfl).symm
      simp only [Sys.lltimerSet, hsys]
      cases s.inHandler with
      | false => simp
      | true => simp
  · refine ⟨htarget, hlongTarget, hlinks, hordered', hstable, ?_⟩
    rw [hlongTarget] at hhead
    rw [if_neg fun h => hhead ⟨h.1, h.2.1⟩, hsys]

/-- An insertion ends, and goes in behind the timers that are not after the new one. -/
theorem addTimerToList_inserts (h : (s.links listHead).Holds l) (hl : l.Pairwise s.Ordered)
    (htimer : timer ∉ l) :
    ∃ s' a b, l = a ++ b ∧ s.addTimerToList listHead timer = some s' ∧
      s.Inserted s' listHead timer a b := by
  obtain ⟨first, a, b, rfl, hbefore, hafter, hfirst, hsecond, hholds⟩ :=
    Sys.seek_slot h hl htimer
  have hordered : (a ++ timer :: b).Pairwise s.Ordered := by
    obtain ⟨ha, hb, hab⟩ := List.pairwise_append.mp hl
    refine List.pairwise_append.mpr ⟨ha, List.pairwise_cons.mpr ⟨?_, hb⟩, ?_⟩
    · intro y hy
      exact Sys.ordered_iff.mpr (hafter y hy).le
    · intro x hx y hy
      rcases List.mem_cons.mp hy with rfl | hy
      · exact hbefore x hx
      · exact hab x hx y hy
  refine ⟨_, a, b, rfl, ?_, .of_store hordered hafter hholds⟩
  unfold Sys.waitsLess at hfirst
  unfold Sys.notAfter at hsecond
  rw [addTimerToList, hfirst]
  dsimp only
  rw [hsecond]

/-- A timer that fires next, and one in the period after the next. The third has the deadline of the
first. -/
def sampleHeads : Heads (Fin 3) where
  list := ⟨some 0, fun x => if x = 0 then some 1 else none⟩
  target x := if x = 1 then 500 else 1000
  longTarget x := if x = 1 then 2 else 0
  callback _ := true
  inHandler := false
  wrapCounter := 0
  matchValue := 1000
  matchEnabled := true
  matchFlag := false
  wrapFlag := false
  now := 0
  others _ := none

theorem addTimerToList_inserts_sample : ∃ s',
    sampleHeads.addTimerToList .timerListHead 2 = some s' ∧
    sampleHeads.Inserted s' .timerListHead 2 [0] [1] := by
  have hholds : (sampleHeads.links .timerListHead).Holds [0, 1] := ⟨rfl, rfl, rfl⟩
  have hordered : [0, 1].Pairwise sampleHeads.Ordered :=
    List.pairwise_pair.mpr (Sys.ordered_iff.mpr (by decide))
  obtain ⟨s', a, b, hsplit, hadd, hinserted⟩ := addTimerToList_inserts hholds hordered
    (by decide : (2 : Fin 3) ∉ [0, 1])
  -- of the same deadline as the first timer and before the second one
  have hfirst : 0 ∈ a := hinserted.stable 0 (by rw [← hsplit]; decide) rfl rfl
  have hsecond : 1 ∉ a := by
    intro hmem
    have hbefore := (List.pairwise_append.mp hinserted.ordered).2.2 1 hmem 2 List.mem_cons_self
    rw [Sys.ordered_iff, Sys.val64, Sys.val64, hinserted.target, hinserted.longTarget] at hbefore
    exact absurd hbefore (by decide)
  obtain _ | ⟨x, _ | ⟨y, a⟩⟩ := a
  · cases hfirst
  · obtain ⟨rfl, rfl⟩ := List.cons.inj hsplit
    exact ⟨s', hadd, hinserted⟩
  · obtain ⟨rfl, hrest⟩ := List.cons.inj hsplit
    obtain ⟨rfl, -⟩ := List.cons.inj hrest
    exact absurd (by simp) hsecond

end Heads

end Nais.Timer
