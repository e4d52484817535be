import Nais.Lib.Run
import Nais.Board.Channels

/-!
# The select loop and its callers

`sys/bocia/eventloop.c`: `bocia_loop_run` in its own thread, and any number of calls of
`bocia_register_handlers`, `bocia_close_soon` and `bocia_mqtt_init` in others. Every access
to a slot or to the mutex is a step of its own.
-/

namespace Nais.Board.EventLoop

open Nais.Lib.Run

/-- A mutex of RIOT that one thread locks and others unlock. While `waiting`, that thread
sleeps in `mutex_lock`; an unlock hands the mutex over to it. -/
structure Mutex where
  T : Type
  init : T
  lock : T → T
  unlock : T → T
  locked : T → Bool
  waiting : T → Bool
  locked_init : locked init = false
  locked_of_waiting : ∀ m, waiting m = true → locked m = true
  locked_lock : ∀ m, locked (lock m) = true
  waiting_lock : ∀ m, waiting (lock m) = locked m
  locked_unlock : ∀ m, locked (unlock m) = waiting m
  waiting_unlock : ∀ m, waiting (unlock m) = false

/-- How far a call of `bocia_register_handlers` has come: `rest` are the slots that it has
not looked at yet. -/
inductive Registering where
  | find (rest : List Slot)
  | writeFd (i : Slot)
  | writeTargetPid (i : Slot)
  | writeHandler (i : Slot)
  | writeSend (i : Slot)
  | unlock (i : Slot)
  | returned (i : Option Slot)
  deriving DecidableEq

/-- How far a call has come. `bocia_mqtt_init` goes on after its `bocia_close_soon`, and with
the result of its `bocia_register_handlers`. -/
inductive Call where
  | idle
  | mqttInit
  | closeSoon (channel : Slot) (mqttInit : Bool)
  | mqttConnect
  | register (r : Registration) (mqttInit : Bool) (at_ : Registering)
  | done
  deriving DecidableEq

/-- The call has got back from `bocia_register_handlers`. -/
def Call.Registered : Call → Prop
  | .register _ _ (.returned _) => True
  | .done => True
  | _ => False

/-- How far `bocia_loop_run` has come. `scan` looks for channels to listen to, `sweep` goes
through the table when `sl_Select` has returned; a handler that has closed the descriptor
still has to zero it. -/
inductive Loop where
  | scan (rest : List Slot) (rc : Bool)
  | lock
  | locking
  | select
  | sweep (rest : List Slot)
  | close (i : Slot) (rest : List Slot)
  | zero (i : Slot) (rest : List Slot)
  | clear (i : Slot) (rest : List Slot)
  | dispatch (i : Slot) (rest : List Slot)
  | handler (i : Slot) (rest : List Slot) (closed : Bool)
  deriving DecidableEq

def Loop.start : Loop := .scan (List.finRange 8) false

/-- The loop works on the result of `sl_Select`. -/
def Loop.Handling : Loop → Prop
  | .scan _ _ | .lock | .locking | .select => False
  | _ => True

instance (l : Loop) : Decidable l.Handling :=
  match l with
  | .scan _ _ | .lock | .locking | .select => isFalse id
  | .sweep _ | .close _ _ | .zero _ _ | .clear _ _ | .dispatch _ _ | .handler _ _ _ => isTrue trivial

/-- What the run did. A connection is named by the call that registered it, `conn` is the one
in a slot. `swept` are the connections that the loop closed for their `close_pending`, `due`
those that were requested and not closed when `sl_Select` last returned. -/
structure History where
  conn : Slot → Option ℕ
  requested : List ℕ
  closed : List ℕ
  swept : List ℕ
  due : List ℕ

structure State (mx : Mutex) where
  fdMap : FdMap
  mutex : mx.T
  mqttHandler : Option Slot
  calls : ℕ → Call
  loop : Loop
  history : History

variable {mx : Mutex}

def State.initial (mx : Mutex) : State mx :=
  ⟨.empty, mx.init, none, fun _ => .idle, .start, ⟨fun _ => none, [], [], [], []⟩⟩

inductive Event where
  | loop
  | selected (rc : ℤ)
  | dispatched (isSet : Bool)
  | handlerClosed
  | handlerDropped
  | handlerReturned
  | registerHandlers (c : ℕ) (r : Registration)
  | closeSoon (c : ℕ) (channel : Slot)
  | mqttInit (c : ℕ)
  | connected (c : ℕ) (sock : ℤ) (pid : ℕ)
  | call (c : ℕ)

namespace State

def goOn (s : State mx) (c : ℕ) (call : Call) : State mx :=
  { s with calls := Function.update s.calls c call }

def goto (s : State mx) (l : Loop) : State mx := { s with loop := l }

def write (s : State mx) (i : Slot) (f : BociaChannel → BociaChannel) : State mx :=
  { s with fdMap := Function.update s.fdMap i (f (s.fdMap i)) }

/-- A write to `fd`, which a call that registers makes, or the loop with zero. -/
def writeFd (s : State mx) (i : Slot) (fd : ℤ) (conn : Option ℕ) : State mx :=
  { s.write i fun ch => { ch with fd := fd } with
    history := { s.history with conn := Function.update s.history.conn i conn } }

/-- `channel->close_pending = 1`. -/
def requestClose (s : State mx) (i : Slot) : State mx :=
  { s.write i fun ch => { ch with closePending := true } with
    history := { s.history with requested := (s.history.conn i).toList ++ s.history.requested } }

/-- `sl_Close` of the descriptor in a slot. -/
def slClose (s : State mx) (i : Slot) : State mx :=
  { s with history := { s.history with closed := (s.history.conn i).toList ++ s.history.closed } }

def stepRegister (s : State mx) (c : ℕ) (r : Registration) (mqttInit : Bool) :
    Registering → State mx
  | .find [] => s.goOn c (.register r mqttInit (.returned none))
  | .find (i :: rest) =>
    if (s.fdMap i).fd = 0 then s.goOn c (.register r mqttInit (.writeFd i))
    else s.goOn c (.register r mqttInit (.find rest))
  | .writeFd i =>
    (s.writeFd i r.sock (if r.sock = 0 then none else some c)).goOn c
      (.register r mqttInit (.writeTargetPid i))
  | .writeTargetPid i =>
    (s.write i fun ch => { ch with targetPid := r.threadId }).goOn c
      (.register r mqttInit (.writeHandler i))
  | .writeHandler i =>
    (s.write i fun ch => { ch with handler := some r.handler }).goOn c
      (.register r mqttInit (.writeSend i))
  | .writeSend i =>
    (s.write i fun ch => { ch with send := r.txHandler }).goOn c (.register r mqttInit (.unlock i))
  | .unlock i =>
    { s with mutex := mx.unlock s.mutex }.goOn c (.register r mqttInit (.returned (some i)))
  | .returned i =>
    { s with mqttHandler := if mqttInit then i else s.mqttHandler }.goOn c .done

def stepCall (s : State mx) (c : ℕ) : Call → State mx
  | .mqttInit =>
    match s.mqttHandler with
    | some i =>
      if 0 < (s.fdMap i).fd then s.goOn c (.closeSoon i true) else s.goOn c .mqttConnect
    | none => s.goOn c .mqttConnect
  | .closeSoon i mqttInit =>
    (s.requestClose i).goOn c (if mqttInit then .mqttConnect else .done)
  | .register r mqttInit at_ => s.stepRegister c r mqttInit at_
  | _ => s

/-- The steps of the loop that depend on nothing but the state. -/
def stepLoop (s : State mx) : Loop → State mx
  | .scan [] rc => s.goto (if rc then .select else .lock)
  | .scan (i :: rest) rc => s.goto (.scan rest (rc || decide ((s.fdMap i).fd ≠ 0)))
  | .lock => { s with mutex := mx.lock s.mutex, loop := .locking }
  | .locking => if mx.waiting s.mutex then s else s.goto .start
  | .sweep [] => s.goto .start
  | .sweep (i :: rest) =>
    s.goto (if (s.fdMap i).closePending then .close i rest else .dispatch i rest)
  | .close i rest =>
    { s.slClose i with
      loop := .zero i rest
      history := { (s.slClose i).history with
        swept := (s.history.conn i).toList ++ s.history.swept } }
  | .zero i rest => (s.writeFd i 0 none).goto (.clear i rest)
  | .clear i rest =>
    (s.write i fun ch => { ch with closePending := false }).goto (.dispatch i rest)
  | .handler i rest true => (s.writeFd i 0 none).goto (.sweep rest)
  | _ => s

end State

/-- A call takes the number of one that was not made yet. What `sl_Select` and the handlers
find is up to the event; the calls that the accept handler makes are among the others. -/
def step (s : State mx) : Event → State mx
  | .loop => s.stepLoop s.loop
  | .selected rc =>
    if s.loop = .select then
      { s with
        loop := if rc ≤ 0 then .start else .sweep (List.finRange 8)
        history := { s.history with
          due := s.history.requested.filter fun c => c ∉ s.history.closed } }
    else s
  | .dispatched isSet =>
    match s.loop with
    | .dispatch i rest =>
      s.goto (if (s.fdMap i).fd ≠ 0 ∧ isSet then .handler i rest false else .sweep rest)
    | _ => s
  | .handlerClosed =>
    match s.loop with
    | .handler i rest false => (s.slClose i).goto (.handler i rest true)
    | _ => s
  | .handlerDropped =>
    match s.loop with
    | .handler i rest false => (s.writeFd i 0 none).goto (.sweep rest)
    | _ => s
  | .handlerReturned =>
    match s.loop with
    | .handler _ rest _ => s.goto (.sweep rest)
    | _ => s
  | .registerHandlers c r =>
    if s.calls c = .idle then s.goOn c (.register r false (.find (List.finRange 8))) else s
  | .closeSoon c i => if s.calls c = .idle then s.goOn c (.closeSoon i false) else s
  | .mqttInit c => if s.calls c = .idle then s.goOn c .mqttInit else s
  | .connected c sock pid =>
    if s.calls c = .mqttConnect then
      if 0 < sock then
        s.goOn c (.register ⟨sock, pid, .mqttReceiverHandler, some .mqttTransmitterHandler⟩ true
          (.find (List.finRange 8)))
      else { s with mqttHandler := none }.goOn c .done
    else s
  | .call c => s.stepCall c (s.calls c)

/-- A mutex for concrete runs. -/
inductive RiotMutex where
  | unlocked
  | locked
  | queued
  deriving DecidableEq

def riotMutex : Mutex where
  T := RiotMutex
  init := .unlocked
  lock m := if m = .unlocked then .locked else .queued
  unlock m := if m = .queued then .locked else .unlocked
  locked m := m ≠ .unlocked
  waiting m := m = .queued
  locked_init := rfl
  locked_of_waiting m h := by cases m <;> simp_all
  locked_lock m := by cases m <;> rfl
  waiting_lock m := by cases m <;> rfl
  locked_unlock m := by cases m <;> rfl
  waiting_unlock m := by cases m <;> rfl

section Uninterrupted

variable {s : State mx} {c : ℕ} {r : Registration} {mqttInit : Bool}

lemma register_slot {i : Slot} {rest : List Slot} (hfree : (s.fdMap i).fd = 0)
    (h : s.calls c = .register r mqttInit (.find (i :: rest))) :
    (run step s (List.replicate 6 (.call c))).calls c =
        .register r mqttInit (.returned (some i)) ∧
      (run step s (List.replicate 6 (.call c))).fdMap =
        Function.update s.fdMap i ((s.fdMap i).register r) := by
  simp [run, List.replicate, step, State.stepCall, State.stepRegister, State.goOn, State.writeFd,
    State.write, BociaChannel.register, h, hfree]

/-- A call of `bocia_register_handlers` that nothing comes between is the operation on the
table. -/
theorem register_uninterrupted
    (h : s.calls c = .register r mqttInit (.find (List.finRange 8))) :
    ∃ n, (run step s (List.replicate n (.call c))).calls c =
        .register r mqttInit (.returned (bociaRegisterHandlers s.fdMap r).1) ∧
      (run step s (List.replicate n (.call c))).fdMap = (bociaRegisterHandlers s.fdMap r).2 := by
  rw [bociaRegisterHandlers, availableSlot]
  generalize List.finRange 8 = slots at h
  induction slots generalizing s with
  | nil =>
    refine ⟨1, ?_⟩
    simp [run, step, State.stepCall, State.stepRegister, State.goOn, h]
  | cons i rest ih =>
    by_cases hfree : (s.fdMap i).fd = 0
    · obtain ⟨hcall, hmap⟩ := register_slot hfree h
      refine ⟨6, ?_⟩
      rw [List.find?_cons_of_pos (by simpa using hfree)]
      exact ⟨hcall, hmap⟩
    · have hstep : step s (.call c) = s.goOn c (.register r mqttInit (.find rest)) := by
        simp [step, State.stepCall, State.stepRegister, h, hfree]
      have hnext : (step s (.call c)).calls c = .register r mqttInit (.find rest) := by
        rw [hstep]
        exact Function.update_self ..
      obtain ⟨n, hn⟩ := ih hnext
      refine ⟨n + 1, ?_⟩
      rw [List.find?_cons_of_neg (by simpa using hfree)]
      rw [hstep] at hn
      rw [List.replicate_succ, run, List.foldl_cons, hstep]
      exact hn

end Uninterrupted

end Nais.Board.EventLoop
