import Mathlib.Data.List.TakeWhile
import Mathlib.Data.Prod.Lex
import Mathlib.Data.UInt
import Nais.Lib.Chain

/-!
# The timer list of xtimer

The globals of the timer module, the timer structs and the hardware timer, with the
functions of `xtimer.c` that run with interrupts off or between two reads of the counter.
A function that goes on for ever returns `none`.
-/

namespace Nais.Timer

open Nais.Lib.Chain

def xtimerBackoff : UInt32 := 720

def xtimerOverhead : UInt64 := 320

/-- What the timer module keeps in memory, with its hardware timer. The structs are kept as
one map for each field; `now` counts ticks and its low 32 bits are the counter. -/
structure Sys (ι : Type) where
  /-- `timer_list_head` and the `next` fields -/
  list : Links ι
  target : ι → UInt32
  longTarget : ι → UInt32
  /-- whether the `callback` field is set -/
  callback : ι → Bool
  inHandler : Bool
  wrapCounter : UInt32
  matchValue : UInt32
  matchEnabled : Bool
  /-- the raw match and timeout interrupts -/
  matchFlag : Bool
  wrapFlag : Bool
  now : ℕ

variable {ι : Type}

namespace Sys

def xtimerNow (s : Sys ι) : UInt32 := .ofNat s.now

/-- The hardware counts `n` ticks. -/
def tick (s : Sys ι) (n : ℕ) : Sys ι :=
  { s with
    now := s.now + n
    wrapFlag := s.wrapFlag || decide (s.now / 2 ^ 32 < (s.now + n) / 2 ^ 32)
    matchFlag := s.matchFlag || decide ((s.matchValue - s.xtimerNow - 1).toNat < n) }

def isSet (s : Sys ι) (timer : ι) : Bool := s.target timer != 0

def timeLeft (s : Sys ι) (timer : ι) (reference : UInt32) : UInt64 :=
  if s.xtimerNow < reference then 0
  else
    let timerVal := ((s.longTarget timer).toUInt64 <<< 32) + (s.target timer).toUInt64
    if s.xtimerNow.toUInt64 < timerVal then timerVal - s.xtimerNow.toUInt64 else 0

def lltimerSet (s : Sys ι) (target : UInt32) : Sys ι :=
  { s with
    matchValue := if s.inHandler then s.matchValue else target
    matchEnabled := s.matchEnabled || !s.inHandler }

section Store

variable [DecidableEq ι] (s : Sys ι) (timer : ι)

def setTarget (target : UInt32) : Sys ι :=
  { s with target := Function.update s.target timer target }

def setLongTarget (longTarget : UInt32) : Sys ι :=
  { s with longTarget := Function.update s.longTarget timer longTarget }

/-- `_xtimer_set_absolute64` before it adds the timer to the list. -/
def setAbsolute64 (ticksOffset : UInt64) : Sys ι :=
  let corrTicks := ticksOffset - xtimerOverhead
  (s.setTarget timer corrTicks.toUInt32).setLongTarget timer (corrTicks >>> 32).toUInt32

/-- `_xtimer_set64` before it adds the timer to the list, with the counter it read. -/
def set64 (now offset longOffset : UInt32) : Sys ι :=
  let val64 := now.toUInt64 + offset.toUInt64 - xtimerOverhead
  (s.setTarget timer val64.toUInt32).setLongTarget timer ((val64 >>> 32).toUInt32 + longOffset)

/-- `_xtimer_set_msg64` before it adds the timer to the list, with the counter it read. -/
def setMsg64 (now : UInt32) (offset : UInt64) : Sys ι :=
  let offset := now.toUInt64 + offset - xtimerOverhead
  let s := s.setTarget timer offset.toUInt32
  let s := if (s.target timer).toUInt64 < offset then s.setLongTarget timer 1 else s
  { s with callback := Function.update s.callback timer true }

end Store

section List

variable [Fintype ι] [DecidableEq ι] (s : Sys ι) (timer : ι)

/-- One node more than there are timers: a loop that passes as many goes round for ever. -/
def walk (ι : Type) [Fintype ι] : ℕ := Fintype.card ι + 1

def addTimerToList : Option (Sys ι) :=
  match s.list.seek (fun y => s.longTarget y < s.longTarget timer) (walk ι) .head with
  | none => none
  | some slot =>
    match s.list.seek (fun y => s.target y ≤ s.target timer ∧ s.longTarget y ≤ s.longTarget timer)
      (walk ι) slot with
    | none => none
    | some slot =>
      let s := { s with list := s.list.insertAt slot timer }
      some <| if s.list.head = some timer ∧ s.longTarget timer = 0 then
        s.lltimerSet (s.target timer) else s

def removeTimerFromList : Option (Sys ι) :=
  match s.list.seek (· ≠ timer) (walk ι) .head with
  | none => none
  | some slot =>
    some <| if s.list.get slot = some timer then
      { s with list := s.list.unlinkAt slot timer } else s

/-- `_remove`: the head is taken off by itself and the match set for its successor. -/
def remove : Option (Sys ι) :=
  if s.list.head = some timer then
    let s := { s with list := s.list.unlinkAt .head timer }
    some <| match s.list.head with
      | none => s
      | some next => s.lltimerSet (s.target next)
  else s.removeTimerFromList timer

end List

/-- The 64-bit value of a timer's two fields. -/
def val64 (s : Sys ι) (timer : ι) : ℕ :=
  (s.longTarget timer).toNat * 2 ^ 32 + (s.target timer).toNat

/-- The order of the list: by `long_target`, then by `target`. -/
def Ordered (s : Sys ι) (x y : ι) : Prop :=
  toLex (s.longTarget x, s.target x) ≤ toLex (s.longTarget y, s.target y)

lemma ordered_iff {s : Sys ι} {x y : ι} : s.Ordered x y ↔ s.val64 x ≤ s.val64 y := by
  have hx := (s.target x).toNat_lt
  have hy := (s.target y).toNat_lt
  simp only [Ordered, Prod.Lex.le_iff, ofLex_toLex, UInt32.lt_iff_toNat_lt,
    UInt32.le_iff_toNat_le, ← UInt32.toNat_inj, val64]
  omega

section Fields

variable [DecidableEq ι] {s : Sys ι} {timer x y : ι}

/-- A sum that fits in 32 bits leaves the old `long_target`. -/
lemma setMsg64_eq (now : UInt32) (offset : UInt64) :
    let sum := now.toUInt64 + offset - xtimerOverhead
    s.setMsg64 timer now offset =
      { (s.setTarget timer sum.toUInt32).setLongTarget timer
          (if sum.toUInt32.toUInt64 < sum then 1 else s.longTarget timer) with
        callback := Function.update s.callback timer true } := by
  have htarget : ∀ target, (s.setTarget timer target).target timer = target := fun target =>
    Function.update_self ..
  unfold setMsg64
  dsimp only
  rw [htarget]
  split
  · rfl
  · simp [setLongTarget, setTarget]

lemma val64_setLongTarget_of_ne {longTarget : UInt32} (h : x ≠ timer) :
    (s.setLongTarget timer longTarget).val64 x = s.val64 x := by
  simp [val64, setLongTarget, h]

lemma val64_setTarget_of_ne {target : UInt32} (h : x ≠ timer) :
    (s.setTarget timer target).val64 x = s.val64 x := by
  simp [val64, setTarget, h]

/-- One wrap less to wait for. -/
lemma val64_decrement (h : s.longTarget timer ≠ 0) :
    (s.setLongTarget timer (s.longTarget timer - 1)).val64 timer + 2 ^ 32 = s.val64 timer := by
  have hpos : 1 ≤ (s.longTarget timer).toNat := by
    rw [Nat.one_le_iff_ne_zero]
    exact fun hzero => h (UInt32.toNat_inj.mp hzero)
  have hsub : (s.longTarget timer - 1).toNat = (s.longTarget timer).toNat - 1 :=
    UInt32.toNat_sub_of_le _ _ (by rw [UInt32.le_iff_toNat_le]; exact hpos)
  simp only [val64, setLongTarget, Function.update_self, hsub]
  omega

end Fields

/-- A list stays in order when the fields of its timers keep their values. -/
lemma pairwise_ordered_congr {s s' : Sys ι} {l : List ι} (h : l.Pairwise s.Ordered)
    (hl : ∀ x ∈ l, s'.val64 x = s.val64 x) : l.Pairwise s'.Ordered := by
  refine h.imp_of_mem fun {x y} hx hy hxy => ?_
  rw [ordered_iff] at hxy ⊢
  rwa [hl x hx, hl y hy]

lemma toNat_xtimerNow (s : Sys ι) : s.xtimerNow.toNat = s.now % 2 ^ 32 := by
  simp [xtimerNow]

section Insert

variable (s : Sys ι) (timer : ι)

/-- The first loop of `_add_timer_to_list` passes such timers. -/
def waitsLess (y : ι) : Bool := s.longTarget y < s.longTarget timer

/-- The second loop of `_add_timer_to_list` passes such timers. -/
def notAfter (y : ι) : Bool := s.target y ≤ s.target timer ∧ s.longTarget y ≤ s.longTarget timer

variable {s timer} {l : List ι}

/-- The loops pass timers that are not after the new one. -/
lemma ordered_of_passed {y : ι} (hy : y ∈ l.takeWhile (s.waitsLess timer) ++
    (l.dropWhile (s.waitsLess timer)).takeWhile (s.notAfter timer)) : s.Ordered y timer := by
  have hty := (s.target y).toNat_lt
  rw [ordered_iff]
  rcases List.mem_append.mp hy with hy | hy
  · have hless := List.mem_takeWhile_imp hy
    simp only [waitsLess, decide_eq_true_eq, UInt32.lt_iff_toNat_lt] at hless
    simp only [val64]
    omega
  · have hnot := List.mem_takeWhile_imp hy
    simp only [notAfter, decide_eq_true_eq, UInt32.le_iff_toNat_le] at hnot
    simp only [val64]
    omega

/-- No timer behind the first loop waits for fewer wraps than the new one. -/
lemma longTarget_le_of_mem_dropWhile (hl : l.Pairwise s.Ordered) {y : ι}
    (hy : y ∈ l.dropWhile (s.waitsLess timer)) : s.longTarget timer ≤ s.longTarget y := by
  obtain ⟨z, -, hz, hzy⟩ := exists_stop_of_mem_dropWhile hl hy
  have hz : s.longTarget timer ≤ s.longTarget z := by simpa [waitsLess] using hz
  rcases hzy with rfl | hzy
  · exact hz
  · have hty := (s.target y).toNat_lt
    rw [ordered_iff] at hzy
    simp only [val64, UInt32.le_iff_toNat_le] at hzy hz ⊢
    omega

/-- Where the second loop stops, the timers are after the new one. -/
lemma val64_lt_of_not_passed (hl : l.Pairwise s.Ordered) {y : ι}
    (hy : y ∈ (l.dropWhile (s.waitsLess timer)).dropWhile (s.notAfter timer)) :
    s.val64 timer < s.val64 y := by
  obtain ⟨z, hz, hznot, hzy⟩ :=
    exists_stop_of_mem_dropWhile (hl.sublist (List.dropWhile_sublist _)) hy
  have hzlate := longTarget_le_of_mem_dropWhile hl ((List.dropWhile_sublist _).subset hz)
  have hz : s.val64 timer < s.val64 z := by
    have htimer := (s.target timer).toNat_lt
    simp only [notAfter, decide_eq_false_iff_not, UInt32.le_iff_toNat_le] at hznot hzlate
    simp only [val64]
    omega
  rcases hzy with rfl | hzy
  · exact hz
  · exact hz.trans_le (ordered_iff.mp hzy)

end Insert

section Links

variable [Fintype ι] [DecidableEq ι] {s : Sys ι} {timer : ι} {l : List ι}

/-- The two loops over a sorted list, whatever its head, come to the slot behind the timers that
are not after the new one. -/
lemma seek_slot {links : Links ι} (h : links.Holds l) (hl : l.Pairwise s.Ordered)
    (htimer : timer ∉ l) :
    ∃ first a b, l = a ++ b ∧ (∀ y ∈ a, s.Ordered y timer) ∧ (∀ y ∈ b, s.val64 timer < s.val64 y) ∧
      links.seek (s.waitsLess timer) (walk ι) .head = some first ∧
      links.seek (s.notAfter timer) (walk ι) first = some (behind .head a) ∧
      (links.insertAt (behind .head a) timer).Holds (a ++ timer :: b) := by
  set a := l.takeWhile (s.waitsLess timer) ++
    (l.dropWhile (s.waitsLess timer)).takeWhile (s.notAfter timer) with ha
  set b := (l.dropWhile (s.waitsLess timer)).dropWhile (s.notAfter timer) with hb
  have hcut : l = a ++ b := by
    rw [ha, hb, List.append_assoc, List.takeWhile_append_dropWhile, List.takeWhile_append_dropWhile]
  have hlen : l.length < walk ι := Nat.lt_succ_of_le h.length_le
  refine ⟨behind .head (l.takeWhile (s.waitsLess timer)), a, b, hcut,
    fun y hy => ordered_of_passed hy, fun y hy => val64_lt_of_not_passed hl hy,
    seek_eq .head h hlen, seek_seek h hlen, ?_⟩
  apply Links.Holds.insertAt
  · rw [← hcut]
    exact h
  · rw [← hcut]
    exact htimer

/-- A timer goes in behind those that are not after it, whatever the two loops pass. -/
theorem addTimerToList_spec (h : s.list.Holds l) (hl : l.Pairwise s.Ordered)
    (htimer : timer ∉ l) :
    ∃ a b list value enabled, l = a ++ b ∧ (∀ y ∈ a, s.Ordered y timer) ∧
      (∀ y ∈ b, s.val64 timer < s.val64 y) ∧ list.Holds (a ++ timer :: b) ∧
      s.addTimerToList timer = some { s with
        list := list, matchValue := value, matchEnabled := enabled } := by
  obtain ⟨first, a, b, hcut, hbefore, hafter, hfirst, hsecond, hholds⟩ := seek_slot h hl htimer
  obtain ⟨value, enabled, hadd⟩ : ∃ value enabled, s.addTimerToList timer = some { s with
      list := s.list.insertAt (behind .head a) timer
      matchValue := value, matchEnabled := enabled } := by
    unfold addTimerToList
    unfold waitsLess at hfirst
    unfold notAfter at hsecond
    rw [hfirst]
    dsimp only
    rw [hsecond]
    dsimp only
    split
    · exact ⟨_, _, rfl⟩
    · exact ⟨_, _, rfl⟩
  exact ⟨a, b, _, value, enabled, hcut, hbefore, hafter, hholds, hadd⟩

lemma removeTimerFromList_spec (timer : ι) (h : s.list.Holds l) :
    ∃ list, s.removeTimerFromList timer = some { s with list := list } ∧
      list.Holds (l.erase timer) := by
  have hlen : l.length < walk ι := Nat.lt_succ_of_le h.length_le
  have hseek := seek_eq .head (p := fun y => decide (y ≠ timer)) h hlen
  by_cases hmem : timer ∈ l
  · obtain ⟨a, b, htimer, rfl, herase⟩ := List.exists_erase_eq hmem
    have ha : (a ++ timer :: b).takeWhile (fun y => decide (y ≠ timer)) = a := by
      rw [List.takeWhile_append_of_pos]
      · simp
      · intro y hy
        simpa using fun hyt : y = timer => htimer (hyt ▸ hy)
    rw [ha] at hseek
    obtain ⟨r, hr, hrest⟩ := path_append.mp h
    have hget : s.list.get (behind .head a) = some timer := by
      rw [Path.get_behind hr]
      exact hrest.1
    refine ⟨s.list.unlinkAt (behind .head a) timer, ?_, ?_⟩
    · simp only [removeTimerFromList, hseek, hget, if_true]
    · rw [herase]
      exact Links.Holds.unlinkAt h
  · have hall : l.takeWhile (fun y => decide (y ≠ timer)) = l := by
      rw [List.takeWhile_eq_self_iff]
      intro y hy
      simpa using fun hyt : y = timer => hmem (hyt ▸ hy)
    rw [hall] at hseek
    have hget : s.list.get (behind .head l) = none := Path.get_behind h
    refine ⟨s.list, ?_, ?_⟩
    · simp only [removeTimerFromList, hseek, hget, reduceCtorEq, if_false]
    · rwa [List.erase_of_not_mem hmem]

theorem remove_spec (timer : ι) (h : s.list.Holds l) :
    ∃ list value enabled, s.remove timer = some { s with
        list := list, matchValue := value, matchEnabled := enabled } ∧
      list.Holds (l.erase timer) := by
  by_cases hhead : s.list.head = some timer
  · obtain ⟨b, rfl, -⟩ := Path.tail h hhead
    have hb : (s.list.unlinkAt .head timer).Holds b := Links.Holds.unlinkAt (a := []) h
    unfold remove
    rw [if_pos hhead, List.erase_cons_head]
    dsimp only
    split
    · exact ⟨_, _, _, rfl, hb⟩
    · exact ⟨_, _, _, rfl, hb⟩
  · obtain ⟨list, hlist, hholds⟩ := removeTimerFromList_spec timer h
    refine ⟨list, s.matchValue, s.matchEnabled, ?_, hholds⟩
    rw [remove, if_neg hhead, hlist]

end Links

end Sys

end Nais.Timer
