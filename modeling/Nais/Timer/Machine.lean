import Nais.Lib.Run
import Nais.Timer.Xtimer

/-!
# Threads, callbacks and the timer interrupt

Threads and callbacks call the operations of xtimer, which go on one access at a time, so
that an interrupt may come between a read of the counter, the writes to the timer struct and
the insertion in the list. `irq_timer0_handler` serves the wrap before the match and is not
interrupted itself; while it runs a callback, the callback may call any operation.
-/

namespace Nais.Timer

open Nais.Lib.Chain

/-- Who calls an operation: a thread, or the callback that the interrupt handler runs. -/
inductive Ctx where
  | thread (k : ℕ)
  | callback
  deriving DecidableEq

/-- What `_xtimer_set`, `_xtimer_set64` or `_xtimer_set_msg64` was asked for. -/
inductive Request where
  | set (offset : UInt32)
  | set64 (offset longOffset : UInt32)
  | setMsg64 (offset : UInt64)

def Request.ticks : Request → ℕ
  | .set offset => offset.toNat
  | .set64 offset longOffset => longOffset.toNat * 2 ^ 32 + offset.toNat
  | .setMsg64 offset => offset.toNat

/-- The request a set operation served, when it read the counter, and the fields it wrote. -/
structure Setting where
  time : ℕ
  offset : ℕ
  target : UInt32
  longTarget : UInt32

variable {ι : Type}

inductive Op (ι : Type) where
  | set (timer : ι) (offset : UInt32)
  | set64 (timer : ι) (offset longOffset : UInt32)
  | setMsg64 (timer : ι) (offset : UInt64)
  | remove (timer : ι)

/-- How far an operation has come. `rest` is the offset with which `_xtimer_set` goes on once
it has removed the timer; `xtimer_remove` has none. -/
inductive Task (ι : Type) where
  | set (timer : ι) (offset : UInt32)
  | remove (timer : ι) (rest : Option UInt32)
  | unlink (timer : ι) (rest : Option UInt32)
  | spin (timer : ι) (offset : UInt32)
  | spinning (timer : ι) (offset : UInt32) (start : ℕ)
  | read (timer : ι) (request : Request)
  | store (timer : ι) (request : Request) (time : ℕ)
  | link (timer : ι) (setting : Setting)

def Op.start : Op ι → Task ι
  | .set timer offset => .set timer offset
  | .set64 timer offset longOffset => .read timer (.set64 offset longOffset)
  | .setMsg64 timer offset => .read timer (.setMsg64 offset)
  | .remove timer => .remove timer none

def afterRemove (timer : ι) : Option UInt32 → Option (Task ι)
  | none => none
  | some offset =>
    if offset < xtimerBackoff then some (.spin timer offset)
    else some (.read timer (.set offset))

/-- How far the interrupt handler has come: in `_timer_callback` up to `arm`, then in
`_timer_wrap`. -/
inductive Phase (ι : Type) where
  | entered
  | check (reference : UInt32)
  | spin (reference : UInt32)
  | calling (reference : UInt32)
  | rearm
  | arm (nextTarget : UInt32)
  | wrap (listHead : Option ι) (scheduled : Bool)
  | wrapCalling (timer : ι)
  | wrapArm (timer : ι)
  deriving DecidableEq

/-- One invocation of a callback. -/
structure Firing (ι : Type) where
  timer : ι
  setAt : ℕ
  offset : ℕ
  firedAt : ℕ

/-- The timer module with those who use it. `pending` holds the timers that were set and have
neither fired nor been removed since, `setting` what each timer was last set to. -/
structure State (ι : Type) extends Sys ι where
  tasks : Ctx → Option (Task ι)
  phase : Option (Phase ι)
  halted : Bool
  pending : Finset ι
  setting : ι → Setting
  fired : List (Firing ι)

section

variable [DecidableEq ι]

def Sys.store (s : Sys ι) (timer : ι) (now : UInt32) : Request → Sys ι
  | .set offset => s.setAbsolute64 timer (now.toUInt64 + offset.toUInt64)
  | .set64 offset longOffset => s.set64 timer now offset longOffset
  | .setMsg64 offset => s.setMsg64 timer now offset

/-- A set operation writes to the fields of its own timer. -/
lemma Sys.store_eq (s : Sys ι) (timer : ι) (now : UInt32) (request : Request) :
    ∃ target longTarget callback, s.store timer now request = { s with
      target := Function.update s.target timer target
      longTarget := Function.update s.longTarget timer longTarget
      callback := callback } := by
  cases request with
  | set offset => exact ⟨_, _, s.callback, rfl⟩
  | set64 offset longOffset => exact ⟨_, _, s.callback, rfl⟩
  | setMsg64 offset => exact ⟨_, _, _, Sys.setMsg64_eq now offset⟩

namespace State

def goOn (s : State ι) (c : Ctx) (task : Option (Task ι)) : State ι :=
  { s with tasks := Function.update s.tasks c task }

def halt (s : State ι) : State ι := { s with halted := true }

/-- `_shoot`. -/
def shoot (s : State ι) (timer : ι) (setAt offset : ℕ) : State ι :=
  { s with fired := ⟨timer, setAt, offset, s.now⟩ :: s.fired }

/-- The handler takes a timer for fired and calls its callback. -/
def fire (s : State ι) (timer : ι) : State ι :=
  let s := { s with toSys := s.toSys.setTarget timer 0, pending := s.pending.erase timer }
  s.shoot timer (s.setting timer).time (s.setting timer).offset

variable [Fintype ι]

/-- The next step of an operation. -/
def runTask (s : State ι) (c : Ctx) : Task ι → State ι
  | .set timer offset =>
    s.goOn c (if s.callback timer then some (.remove timer (some offset)) else none)
  | .remove timer rest =>
    if s.isSet timer then s.goOn c (some (.unlink timer rest))
    else { s with pending := s.pending.erase timer }.goOn c (afterRemove timer rest)
  | .unlink timer rest =>
    match s.toSys.remove timer with
    | none => s.halt
    | some sys =>
      { s with toSys := sys, pending := s.pending.erase timer }.goOn c (afterRemove timer rest)
  | .spin timer offset => s.goOn c (some (.spinning timer offset s.now))
  | .spinning timer offset start =>
    if start + offset.toNat ≤ s.now then (s.shoot timer start offset.toNat).goOn c none else s
  | .read timer request => s.goOn c (some (.store timer request s.now))
  | .store timer request time =>
    let sys := s.toSys.store timer (.ofNat time) request
    let setting := ⟨time, request.ticks, sys.target timer, sys.longTarget timer⟩
    { s with toSys := sys }.goOn c (some (.link timer setting))
  | .link timer setting =>
    match s.toSys.addTimerToList timer with
    | none => s.halt
    | some sys =>
      { s with
        toSys := sys
        pending := insert timer s.pending
        setting := Function.update s.setting timer setting }.goOn c none

def enterIrq (s : State ι) : State ι :=
  if s.wrapFlag then
    { s with
      wrapFlag := false
      wrapCounter := s.wrapCounter + 1
      phase := some (.wrap s.list.head false) }
  else if s.matchFlag && s.matchEnabled then
    { s with
      matchFlag := false
      matchEnabled := false
      inHandler := true
      phase := some .entered }
  else s

/-- The next step of the loop in `_timer_wrap`, at the node `timer`. -/
def wrapNode (s : State ι) (timer : ι) (scheduled : Bool) : State ι :=
  let sys := s.toSys.setLongTarget timer (s.longTarget timer - 1)
  let next := { s with toSys := sys, phase := some (.wrap (s.list.next timer) true) }
  if scheduled then next
  else if sys.longTarget timer = 0 ∧ s.target timer < s.xtimerNow then
    { s with toSys := sys, phase := some (.wrapCalling timer) }.fire timer
  else if sys.longTarget timer = 0 then
    { s with toSys := sys, phase := some (.wrapArm timer) }
  else next

/-- The next step of the interrupt handler. A callback returns when it has no operation under
way; `isrBackoff` is `XTIMER_ISR_BACKOFF`. -/
def runHandler (isrBackoff : UInt64) (s : State ι) : Phase ι → State ι
  | .entered => { s with phase := some (.check s.xtimerNow) }
  | .check reference =>
    match s.list.head with
    | none => { s with phase := some .rearm }
    | some timer =>
      if s.timeLeft timer reference < isrBackoff then { s with phase := some (.spin reference) }
      else { s with phase := some .rearm }
  | .spin reference =>
    match s.list.head with
    | none => s.halt
    | some timer =>
      if s.timeLeft timer reference = 0 then
        { s with
          list := s.list.unlinkAt .head timer
          phase := some (.calling reference) }.fire timer
      else s
  | .calling reference =>
    if (s.tasks .callback).isNone then { s with phase := some (.check reference) } else s
  | .rearm =>
    match s.list.head with
    | none => { s with inHandler := false, phase := none }
    | some timer =>
      if s.longTarget timer = 0 then
        if s.target timer < s.xtimerNow then { s with phase := some (.check s.xtimerNow) }
        else { s with phase := some (.arm (s.target timer)) }
      else { s with inHandler := false, phase := none }
  | .arm nextTarget =>
    { s with
      toSys := { s.toSys with inHandler := false }.lltimerSet nextTarget
      phase := none }
  | .wrap none _ => { s with phase := none }
  | .wrap (some timer) scheduled =>
    if s.longTarget timer = 0 then s.halt else s.wrapNode timer scheduled
  | .wrapCalling timer =>
    if (s.tasks .callback).isNone then
      { s with
        list := s.list.unlinkAt .head timer
        phase := some (.wrap (s.list.next timer) false) }
    else s
  | .wrapArm timer =>
    { s with
      toSys := s.toSys.lltimerSet ((s.list.head.map s.target).getD 0)
      phase := some (.wrap (s.list.next timer) true) }

/-- Threads run while no interrupt is served, callbacks while the handler waits for them. -/
def mayRun (s : State ι) : Ctx → Bool
  | .thread _ => s.phase.isNone
  | .callback => match s.phase with
    | some (.calling _) | some (.wrapCalling _) => true
    | _ => false

/-- The operation that takes a step when it is the turn of `c`. -/
def current (s : State ι) (c : Ctx) : Option (Task ι) := if s.mayRun c then s.tasks c else none

end State

inductive Event (ι : Type) where
  | tick (n : ℕ)
  | call (c : Ctx) (op : Op ι)
  | task (c : Ctx)
  | irq
  | handler

variable [Fintype ι]

def step (isrBackoff : UInt64) (s : State ι) (e : Event ι) : State ι :=
  if s.halted then s
  else match e with
    | .tick n => { s with toSys := s.toSys.tick n }
    | .call c op =>
      if s.mayRun c ∧ (s.tasks c).isNone then s.goOn c (some op.start) else s
    | .task c => match s.current c with
      | none => s
      | some task => s.runTask c task
    | .irq => if s.phase.isNone then s.enterIrq else s
    | .handler => match s.phase with
      | none => s
      | some phase => s.runHandler isrBackoff phase

/-- A step whose turn does not come changes nothing. -/
theorem step_cases (isrBackoff : UInt64) (s : State ι) (e : Event ι) :
    step isrBackoff s e = s ∨
    (∃ n, e = .tick n ∧ step isrBackoff s e = { s with toSys := s.toSys.tick n }) ∨
    (∃ c op, e = .call c op ∧ s.mayRun c = true ∧
      step isrBackoff s e = s.goOn c (some op.start)) ∨
    (∃ c task, e = .task c ∧ s.current c = some task ∧
      step isrBackoff s e = s.runTask c task) ∨
    (e = .irq ∧ s.phase = none ∧ step isrBackoff s e = s.enterIrq) ∨
    ∃ phase, e = .handler ∧ s.phase = some phase ∧
      step isrBackoff s e = s.runHandler isrBackoff phase := by
  unfold step
  split
  · exact .inl rfl
  · cases e with
    | tick n => exact .inr (.inl ⟨n, rfl, rfl⟩)
    | call c op =>
      by_cases hcall : s.mayRun c ∧ (s.tasks c).isNone
      · exact .inr (.inr (.inl ⟨c, op, rfl, hcall.1, if_pos hcall⟩))
      · exact .inl (if_neg hcall)
    | task c =>
      dsimp only
      cases hcurrent : s.current c with
      | none => exact .inl rfl
      | some task => exact .inr (.inr (.inr (.inl ⟨c, task, rfl, hcurrent, rfl⟩)))
    | irq =>
      cases hphase : s.phase with
      | none => exact .inr (.inr (.inr (.inr (.inl ⟨rfl, rfl, rfl⟩))))
      | some phase => exact .inl rfl
    | handler =>
      cases hphase : s.phase with
      | none => exact .inl rfl
      | some phase => exact .inr (.inr (.inr (.inr (.inr ⟨phase, rfl, rfl, rfl⟩))))

/-- The state of a board that has started: no timer is set and nothing runs. -/
structure Booted (s : State ι) : Prop where
  head : s.list.head = none
  wrapFlag : s.wrapFlag = false
  inHandler : s.inHandler = false
  tasks : ∀ c, s.tasks c = none
  phase : s.phase = none
  halted : s.halted = false
  pending : s.pending = ∅
  fired : s.fired = []

end

/-- A board with two timers that has just started. -/
def sampleBoard : State Bool where
  list := ⟨none, fun _ => none⟩
  target _ := 0
  longTarget _ := 0
  callback _ := true
  inHandler := false
  wrapCounter := 0
  matchValue := 0
  matchEnabled := false
  matchFlag := false
  wrapFlag := false
  now := 0
  tasks _ := none
  phase := none
  halted := false
  pending := ∅
  setting _ := ⟨0, 0, 0, 0⟩
  fired := []

lemma sampleBoard_booted (now : ℕ) : Booted { sampleBoard with now := now } :=
  ⟨rfl, rfl, rfl, fun _ => rfl, rfl, rfl, rfl, rfl⟩

/-- Thread 0 calls an operation and has `n` steps of it. -/
def callOf (op : Op Bool) (n : ℕ) : List (Event Bool) :=
  .call (.thread 0) op :: List.replicate n (.task (.thread 0))

end Nais.Timer
