import Nais.Host.Dispatch
import Nais.Lib.Run

/-!
# A line and its clients

`Line.line_handler`, `Line.dispatch` and `WSLine.dispatch` of `pynais/junction.py`, one step
for each piece of code that runs without giving way to another task. A dispatcher is started
when a client connects to a line without writers, and none is ever cancelled by a client
that leaves, so a line can have several, or one with nobody to write to.
-/

namespace Nais.Host
open Nais.Lib

inductive LineKind where
  | stream
  | websocket
  deriving DecidableEq

/-- `toJson` is `Packet.to_json`, over the library that unmarshalls a frame. -/
structure LineConfig where
  kind : LineKind
  toJson : Packet → Except PyErr (Option (List UInt8))

/-- For whom a message was queued: for the clients that were connected, or, on an idle line,
for the next one that connects. The code keeps no such record. -/
inductive Heir where
  | connected
  | pending
  | next (client : Nat)
  deriving DecidableEq

structure Queued where
  packet : Packet
  heir : Heir

/-- A message that left the queue, the writers at that moment, and what was written to them
before the dispatcher first gave way. -/
structure Taken where
  packet : Packet
  heir : Heir
  writers : List Nat
  writes : List Write

/-- `waiting` dispatchers are in `msg_queue.get()`. Those in `sending` hold a json message
and the index of the next writer. -/
structure LineState where
  writers : List Nat
  queue : List Queued
  waiting : Nat
  sending : List (List UInt8 × Nat)
  taken : List Taken
  continued : List Write

def LineState.init : LineState := ⟨[], [], 0, [], [], []⟩

def Heir.settle (client : Nat) : Heir → Heir
  | .pending => .next client
  | heir => heir

lemma Heir.settle_eq_next {heir : Heir} {client c : Nat} :
    heir.settle client = .next c ↔ heir = .pending ∧ client = c ∨ heir = .next c := by
  cases heir with
  | connected => simp [Heir.settle]
  | pending => simp [Heir.settle]
  | next c' => simp [Heir.settle]

namespace LineState

/-- `line_handler` up to its first suspension. -/
def connect (s : LineState) (client : Nat) : LineState :=
  { s with
    waiting := if s.writers = [] then s.waiting + 1 else s.waiting
    writers := s.writers ++ [client]
    queue := s.queue.map fun q => { q with heir := q.heir.settle client } }

/-- `line_handler` from the end of its reader on. -/
def disconnect (s : LineState) (client : Nat) : LineState :=
  { s with writers := s.writers.erase client }

/-- `msg_queue.put`. -/
def put (s : LineState) (packet : Packet) : LineState :=
  { s with queue := s.queue ++ [⟨packet, if s.writers = [] then .pending else .connected⟩] }

/-- What a dispatcher does after it took a message, until it waits again, gives way in a send,
or is stopped by an exception. -/
inductive Progress where
  | waits (writes : List Write)
  | sends (writes : List Write) (jmsg : List UInt8)
  | stops (writes : List Write)

def Progress.writes : Progress → List Write
  | .waits writes => writes
  | .sends writes _ => writes
  | .stops writes => writes

def handle (cfg : LineConfig) (writers : List Nat) (packet : Packet) : Progress :=
  match cfg.kind with
  | .stream =>
    match deliver packet writers with
    | (writes, none) => .waits writes
    | (writes, some _) => .stops writes
  | .websocket =>
    match cfg.toJson packet with
    | .error _ => .stops []
    | .ok none => .waits []
    | .ok (some jmsg) =>
      if jmsg = [] then .waits []
      else match writers with
        | [] => .waits []
        | client :: _ => .sends [(client, jmsg)] jmsg

/-- A waiting dispatcher gets the first message of the queue. -/
def take (cfg : LineConfig) (s : LineState) : LineState :=
  match s.queue with
  | [] => s
  | q :: queue =>
    if s.waiting = 0 then s
    else
      let progress := handle cfg s.writers q.packet
      let s := { s with
        queue := queue
        taken := s.taken ++ [⟨q.packet, q.heir, s.writers, progress.writes⟩] }
      match progress with
      | .waits _ => s
      | .sends _ jmsg => { s with waiting := s.waiting - 1, sending := s.sending ++ [(jmsg, 1)] }
      | .stops _ => { s with waiting := s.waiting - 1 }

/-- A websocket dispatcher goes on with its loop over the writers after a send. -/
def resume (s : LineState) (i : Nat) : LineState :=
  match s.sending[i]? with
  | none => s
  | some (jmsg, k) =>
    match s.writers[k]? with
    | some client =>
      { s with
        continued := s.continued ++ [(client, jmsg)]
        sending := s.sending.set i (jmsg, k + 1) }
    | none => { s with sending := s.sending.eraseIdx i, waiting := s.waiting + 1 }

/-- A send raises: nothing catches it. -/
def sendFailed (s : LineState) (i : Nat) : LineState := { s with sending := s.sending.eraseIdx i }

end LineState

/-- `alloc` is a line id that a client of another line gets. -/
inductive LineEvent where
  | alloc
  | connect
  | disconnect (client : Nat)
  | put (packet : Packet)
  | take
  | resume (i : Nat)
  | sendFailed (i : Nat)

/-- A line, and the counter of line ids that all lines share. -/
structure HostedLine where
  line : LineState
  sid : Nat

def HostedLine.init : HostedLine := ⟨.init, 0⟩

def lineStep (cfg : LineConfig) (s : HostedLine) : LineEvent → HostedLine
  | .alloc => { s with sid := s.sid + 1 }
  | .connect => ⟨s.line.connect (s.sid + 1), s.sid + 1⟩
  | .disconnect client => { s with line := s.line.disconnect client }
  | .put packet => { s with line := s.line.put packet }
  | .take => { s with line := s.line.take cfg }
  | .resume i => { s with line := s.line.resume i }
  | .sendFailed i => { s with line := s.line.sendFailed i }

/-! Only a take shortens the queue, and only where a dispatcher waits. -/

section Take

variable (cfg : LineConfig) (s : LineState)

lemma take_writers : (s.take cfg).writers = s.writers := by
  unfold LineState.take
  split
  · rfl
  · dsimp only
    split_ifs
    · rfl
    · split <;> rfl

lemma take_blocked (h : s.waiting = 0 ∨ s.queue = []) : s.take cfg = s := by
  unfold LineState.take
  split
  · rfl
  · next hq =>
    rw [hq] at h
    simp only [reduceCtorEq, or_false] at h
    rw [if_pos h]

lemma take_cons {q : Queued} {queue : List Queued} (hq : s.queue = q :: queue) (hw : 0 < s.waiting) :
    (s.take cfg).queue = queue ∧ (s.take cfg).taken = s.taken ++
      [⟨q.packet, q.heir, s.writers, (LineState.handle cfg s.writers q.packet).writes⟩] := by
  unfold LineState.take
  rw [hq]
  dsimp only
  rw [if_neg (by omega)]
  split <;> exact ⟨rfl, rfl⟩

end Take

/-- What left the queue and what is still in it. -/
def LineState.messages (s : LineState) : List Packet :=
  s.taken.map Taken.packet ++ s.queue.map Queued.packet

lemma resume_eq (s : LineState) (i : Nat) :
    (s.resume i).writers = s.writers ∧ (s.resume i).queue = s.queue ∧
      (s.resume i).taken = s.taken := by
  unfold LineState.resume
  split
  · exact ⟨rfl, rfl, rfl⟩
  · split <;> exact ⟨rfl, rfl, rfl⟩

lemma nodup_connect {s : LineState} {client : Nat} (h : s.writers.Nodup) (hclient : client ∉ s.writers) :
    (s.connect client).writers.Nodup := by
  rw [LineState.connect, ← List.concat_eq_append]
  exact List.Nodup.concat hclient h

section Messages

variable (s : LineState)

lemma messages_connect (client : Nat) : (s.connect client).messages = s.messages := by
  simp [LineState.messages, LineState.connect, Function.comp_def]

lemma messages_disconnect (client : Nat) : (s.disconnect client).messages = s.messages := rfl

lemma messages_put (packet : Packet) : (s.put packet).messages = s.messages ++ [packet] := by
  simp [LineState.messages, LineState.put]

lemma messages_take (cfg : LineConfig) : (s.take cfg).messages = s.messages := by
  by_cases hw : s.waiting = 0 ∨ s.queue = []
  · rw [take_blocked cfg s hw]
  · rw [not_or] at hw
    cases hqueue : s.queue with
    | nil => exact absurd hqueue hw.2
    | cons q queue =>
      obtain ⟨hq, ht⟩ := take_cons cfg s hqueue (by omega)
      simp [LineState.messages, hq, ht, hqueue]

lemma messages_resume (i : Nat) : (s.resume i).messages = s.messages := by
  obtain ⟨-, hqueue, htaken⟩ := resume_eq s i
  rw [LineState.messages, hqueue, htaken, LineState.messages]

lemma messages_sendFailed (i : Nat) : (s.sendFailed i).messages = s.messages := rfl

end Messages

def LineEvent.message? : LineEvent → Option Packet
  | .put packet => some packet
  | _ => none

lemma messages_step (cfg : LineConfig) (s : HostedLine) (e : LineEvent) :
    (lineStep cfg s e).line.messages = s.line.messages ++ e.message?.toList := by
  cases e with
  | connect => simpa [LineEvent.message?, lineStep] using messages_connect s.line (s.sid + 1)
  | put packet => exact messages_put s.line packet
  | take => simpa [LineEvent.message?, lineStep] using messages_take s.line cfg
  | resume i => simpa [LineEvent.message?, lineStep] using messages_resume s.line i
  | _ => simp [lineStep, LineEvent.message?, messages_disconnect, messages_sendFailed]

end Nais.Host
