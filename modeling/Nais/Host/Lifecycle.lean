import Nais.Lib.Run

/-!
# Opening and closing a line

The coroutines of one line of `pynais/junction.py` between two suspensions: `open` of each
kind of line, `line_handler`, the retries and the error reader of a serial line. `close`
closes the writers and the server, but it neither cancels a coroutine nor tells one that the
line was closed.
-/

namespace Nais.Host
open Nais.Lib

inductive Endpoint where
  | tcp (remoteIsServer : Bool)
  | ws (remoteIsServer : Bool)
  | serial
  | mqtt
  deriving DecidableEq

def Endpoint.remoteIsServer : Endpoint → Bool
  | .tcp remoteIsServer | .ws remoteIsServer => remoteIsServer
  | .serial | .mqtt => false

/-- What a coroutine of a line is suspended in. -/
inductive LineTask where
  /-- scheduled, at the start of `open` -/
  | opening
  /-- in `open_connection`, `websockets.connect` or the connect of the MQTT client -/
  | connecting
  /-- in the delay before `open` is called again -/
  | sleeping
  /-- in `start_server` or `serve` -/
  | starting
  /-- no coroutine: the server that accepts clients -/
  | listening
  /-- in `create_subprocess_exec` -/
  | spawning
  /-- `errors_from_serial`, in `readline` -/
  | reading
  /-- `errors_from_serial`, in its delay -/
  | delaying
  /-- `errors_from_serial`, in `open_serial_client` -/
  | reconnecting
  /-- `line_handler` of an open connection -/
  | serving
  /-- `WSLine.close`, in the closing handshake of a client -/
  | closing
  deriving DecidableEq, Repr

/-- How a suspension ends: as awaited, by an exception that the code may catch, by any other
exception, or by a cancellation. A `line_handler` goes on when its reader has returned. -/
inductive Outcome where
  | goes
  | refused
  | unresolved
  | fails
  | cancelled
  deriving DecidableEq, Repr

/-- What becomes of a coroutine: the coroutines in its place, the connections it opened, the
writers that are left on the list for good, and whether it closed the server. -/
structure Continued where
  tasks : List LineTask
  opened : Nat
  stale : Nat
  closesServer : Bool

def LineTask.next (line : Endpoint) : LineTask → Outcome → Continued
  | .opening, .cancelled => ⟨[], 0, 0, false⟩
  | .opening, _ =>
    match line with
    | .tcp true | .ws true | .mqtt => ⟨[.connecting], 0, 0, false⟩
    | .tcp false | .ws false => ⟨[.starting], 0, 0, false⟩
    | .serial => ⟨[.spawning], 0, 0, false⟩
  | .connecting, .goes =>
    match line with
    | .mqtt => ⟨[], 1, 0, false⟩
    | _ => ⟨[.serving], 1, 0, false⟩
  | .connecting, .refused => ⟨if line.remoteIsServer then [.sleeping] else [], 0, 0, false⟩
  | .connecting, .unresolved =>
    -- only a TCP line catches it apart from the other errors
    ⟨if line = .ws true then [.sleeping] else [], 0, 0, false⟩
  | .sleeping, .goes => ⟨[.connecting], 0, 0, false⟩
  | .starting, .goes => ⟨[.listening], 0, 0, false⟩
  | .listening, .goes => ⟨[.listening, .serving], 1, 0, false⟩
  | .listening, _ => ⟨[.listening], 0, 0, false⟩
  | .spawning, .goes => ⟨[.connecting, .reading], 0, 0, false⟩
  | .reading, .goes => ⟨[.delaying], 0, 0, false⟩
  | .delaying, .goes => ⟨[.reconnecting], 0, 0, false⟩
  | .reconnecting, .goes => ⟨[.reading, .serving], 1, 0, false⟩
  | .serving, .goes => ⟨if line.remoteIsServer then [.opening] else [], 0, 0, false⟩
  | .serving, .cancelled => ⟨[], 0, 0, false⟩
  | .serving, _ => ⟨[], 0, 1, false⟩
  | .closing, .goes => ⟨[], 0, 0, true⟩
  | _, _ => ⟨[], 0, 0, false⟩

/-- `opened` counts the connections that the line opened or accepted so far. -/
structure LineTasks where
  tasks : List LineTask
  stale : Nat
  opened : Nat

/-- `Junction.init` has scheduled the `open` of the line. -/
def LineTasks.scheduled : LineTasks := ⟨[.opening], 0, 0⟩

namespace LineTasks

/-- The list of writers is not empty. -/
def HasWriter (s : LineTasks) : Prop := .serving ∈ s.tasks ∨ 0 < s.stale

instance (s : LineTasks) : Decidable s.HasWriter := inferInstanceAs (Decidable (_ ∨ _))

def stopServer (s : LineTasks) : LineTasks := { s with tasks := s.tasks.filter (· ≠ .listening) }

/-- `close` up to its first suspension. The closed writers end the readers of their
connections later, and so does the end of the process of a serial line. -/
def close (line : Endpoint) (s : LineTasks) : LineTasks :=
  match line with
  | .tcp _ => s.stopServer
  | .ws _ => if s.HasWriter then { s with tasks := s.tasks ++ [.closing] } else s.stopServer
  | .serial | .mqtt => s

def replace (s : LineTasks) (i : Nat) (c : Continued) : LineTasks :=
  ⟨s.tasks.take i ++ c.tasks ++ s.tasks.drop (i + 1), s.stale + c.stale, s.opened + c.opened⟩

/-- The coroutine at position `i` goes on. -/
def resume (line : Endpoint) (s : LineTasks) (i : Nat) (o : Outcome) : LineTasks :=
  match s.tasks[i]? with
  | none => s
  | some t =>
    let c := t.next line o
    if c.closesServer then (s.replace i c).stopServer else s.replace i c

end LineTasks

/-- `close` is the call by `Junction.detach` or `Junction.shutdown`. -/
inductive LifeEvent where
  | task (i : Nat) (o : Outcome)
  | close
  deriving DecidableEq

def lifeStep (line : Endpoint) (s : LineTasks) : LifeEvent → LineTasks
  | .task i o => s.resume line i o
  | .close => s.close line

/-- Nothing that the line does from here on opens a connection. -/
def StaysClosed (line : Endpoint) (s : LineTasks) : Prop :=
  ∀ es, (Run.run (lifeStep line) s es).opened = s.opened

/-- No coroutine is on its way to a connection when `close` is called. Connections that are
open do no harm if the line does not connect again, and a server if `close` gets to it at
once. -/
def Quiet (line : Endpoint) (s : LineTasks) : Prop :=
  ∀ t ∈ s.tasks, t = .closing ∨ t = .serving ∧ line.remoteIsServer = false ∨
    t = .listening ∧
      match line with
      | .tcp _ => True
      | .ws _ => ¬s.HasWriter
      | .serial | .mqtt => False

/-- A coroutine that never opens a connection again. -/
def LineTask.Silent (line : Endpoint) (t : LineTask) : Prop :=
  t = .closing ∨ t = .serving ∧ line.remoteIsServer = false

section Silent

variable {line : Endpoint} {s : LineTasks}

lemma lifeStep_task {i : Nat} {t : LineTask} (hi : s.tasks[i]? = some t) (o : Outcome) :
    lifeStep line s (.task i o) = if (t.next line o).closesServer = true
      then (s.replace i (t.next line o)).stopServer else s.replace i (t.next line o) := by
  rw [lifeStep, LineTasks.resume, hi]

lemma lifeStep_none {i : Nat} (hi : s.tasks[i]? = none) (o : Outcome) :
    lifeStep line s (.task i o) = s := by
  rw [lifeStep, LineTasks.resume, hi]

lemma mem_stopServer {t : LineTask} : t ∈ s.stopServer.tasks ↔ t ∈ s.tasks ∧ t ≠ .listening := by
  simp [LineTasks.stopServer]

lemma close_opened : (s.close line).opened = s.opened := by
  unfold LineTasks.close
  split
  · rfl
  · split_ifs <;> rfl
  all_goals rfl

/-- A line that is quiet when it is closed has silent coroutines only. -/
lemma silent_close_iff : (∀ t ∈ (s.close line).tasks, t.Silent line) ↔ Quiet line s := by
  unfold Quiet LineTask.Silent
  have hstop : (∀ t ∈ s.stopServer.tasks, t = .closing ∨ t = .serving ∧ line.remoteIsServer = false) ↔
      ∀ t ∈ s.tasks, t = .closing ∨ t = .serving ∧ line.remoteIsServer = false ∨ t = .listening := by
    simp only [mem_stopServer, and_imp]
    refine forall₂_congr fun t _ => ?_
    by_cases ht : t = .listening
    · simp [ht]
    · simp [ht]
  cases line with
  | tcp b => simpa [LineTasks.close] using hstop
  | ws b =>
    by_cases hw : s.HasWriter
    · simp [LineTasks.close, hw, or_imp, forall_and]
    · simpa [LineTasks.close, hw] using hstop
  | serial => simp [LineTasks.close]
  | mqtt => simp [LineTasks.close]

lemma silent_next {t : LineTask} (h : t.Silent line) (o : Outcome) :
    (t.next line o).tasks = [] ∧ (t.next line o).opened = 0 := by
  obtain rfl | ⟨rfl, hline⟩ := h
  · cases o <;> exact ⟨rfl, rfl⟩
  · cases o <;> simp [LineTask.next, hline]

/-- Silent coroutines open nothing, and leave silent ones. -/
lemma silent_step (h : ∀ t ∈ s.tasks, t.Silent line) (e : LifeEvent) :
    (∀ t ∈ (lifeStep line s e).tasks, t.Silent line) ∧ (lifeStep line s e).opened = s.opened := by
  cases e with
  | close =>
    refine ⟨fun t ht => ?_, close_opened⟩
    refine silent_close_iff.mpr (fun t ht => ?_) t ht
    obtain hclosing | hserving := h t ht
    · exact Or.inl hclosing
    · exact Or.inr (Or.inl hserving)
  | task i o =>
    cases hi : s.tasks[i]? with
    | none =>
      rw [lifeStep_none hi]
      exact ⟨h, rfl⟩
    | some t =>
      obtain ⟨htasks, hopened⟩ := silent_next (h t (List.mem_of_getElem? hi)) o
      have hrest : ∀ u ∈ (s.replace i (t.next line o)).tasks, u.Silent line := by
        intro u hu
        rw [LineTasks.replace, htasks, List.append_nil, List.mem_append] at hu
        obtain hu | hu := hu
        · exact h u (List.mem_of_mem_take hu)
        · exact h u (List.mem_of_mem_drop hu)
      have hsame : (s.replace i (t.next line o)).opened = s.opened := by
        simp [LineTasks.replace, hopened]
      rw [lifeStep_task hi]
      split_ifs
      · exact ⟨fun u hu => hrest u (mem_stopServer.mp hu).1, hsame⟩
      · exact ⟨hrest, hsame⟩

lemma staysClosed_of_silent (h : ∀ t ∈ s.tasks, t.Silent line) : StaysClosed line s := by
  intro es
  induction es generalizing s with
  | nil => rfl
  | cons e es ih =>
    obtain ⟨hnext, hopened⟩ := silent_step h e
    exact (ih hnext).trans hopened

end Silent

section Opens

variable {line : Endpoint} {s : LineTasks} {i : Nat}

lemma opened_step_le (line : Endpoint) (s : LineTasks) (e : LifeEvent) : s.opened ≤ (lifeStep line s e).opened := by
  cases e with
  | close => exact close_opened.ge
  | task i o =>
    cases hi : s.tasks[i]? with
    | none => rw [lifeStep_none hi]
    | some t =>
      rw [lifeStep_task hi]
      split_ifs <;> exact Nat.le_add_right _ _

lemma opened_run_le (line : Endpoint) (s : LineTasks) (es : List LifeEvent) :
    s.opened ≤ (Run.run (lifeStep line) s es).opened := by
  induction es generalizing s with
  | nil => exact le_rfl
  | cons e es ih => exact (opened_step_le line s e).trans (ih _)

/-- A step to a line that does not stay closed. -/
lemma not_staysClosed_of_step (e : LifeEvent) (h : ¬StaysClosed line (lifeStep line s e)) :
    ¬StaysClosed line s := by
  unfold StaysClosed at h
  rw [not_forall] at h
  obtain ⟨es, hes⟩ := h
  intro hs
  have hle := opened_step_le line s e
  have hle' := opened_run_le line (lifeStep line s e) es
  have heq := hs (e :: es)
  rw [Run.run, List.foldl_cons, ← Run.run] at heq
  omega

/-- What the coroutine at position `i` becomes when it goes on. -/
lemma resume_goes {t u : LineTask} {rest : List LineTask} (hi : s.tasks[i]? = some t)
    (hnext : t.next line .goes = ⟨u :: rest, 0, 0, false⟩) :
    (lifeStep line s (.task i .goes)).tasks[i]? = some u := by
  obtain ⟨hlt, -⟩ := List.getElem?_eq_some_iff.mp hi
  rw [lifeStep_task hi, hnext]
  simp [LineTasks.replace, hlt.le]

lemma not_staysClosed_of_opens {t : LineTask} {n : Nat} (hi : s.tasks[i]? = some t)
    (hnext : (t.next line .goes).opened = n + 1) : ¬StaysClosed line s := by
  intro h
  have heq := h [.task i .goes]
  have hopened : (lifeStep line s (.task i .goes)).opened = s.opened + (n + 1) := by
    rw [lifeStep_task hi, ← hnext]
    split_ifs <;> rfl
  rw [Run.run, List.foldl_cons, List.foldl_nil, hopened] at heq
  omega

lemma not_staysClosed_of_next {t u : LineTask} {rest : List LineTask} (hi : s.tasks[i]? = some t)
    (hnext : t.next line .goes = ⟨u :: rest, 0, 0, false⟩)
    (h : ∀ s' : LineTasks, s'.tasks[i]? = some u → ¬StaysClosed line s') : ¬StaysClosed line s :=
  not_staysClosed_of_step (.task i .goes) (h _ (resume_goes hi hnext))

lemma connecting_opens (hi : s.tasks[i]? = some .connecting) : ¬StaysClosed line s := by
  apply not_staysClosed_of_opens (n := 0) hi
  cases line <;> rfl

lemma starting_opens (hi : s.tasks[i]? = some .starting) : ¬StaysClosed line s :=
  not_staysClosed_of_next hi rfl fun _ hi' => not_staysClosed_of_opens hi' rfl

lemma spawning_opens (hi : s.tasks[i]? = some .spawning) : ¬StaysClosed line s :=
  not_staysClosed_of_next hi rfl fun _ hi' => connecting_opens hi'

lemma opening_opens (hi : s.tasks[i]? = some .opening) : ¬StaysClosed line s := by
  cases line with
  | tcp remoteIsServer =>
    cases remoteIsServer with
    | true => exact not_staysClosed_of_next hi rfl fun _ hi' => connecting_opens hi'
    | false => exact not_staysClosed_of_next hi rfl fun _ hi' => starting_opens hi'
  | ws remoteIsServer =>
    cases remoteIsServer with
    | true => exact not_staysClosed_of_next hi rfl fun _ hi' => connecting_opens hi'
    | false => exact not_staysClosed_of_next hi rfl fun _ hi' => starting_opens hi'
  | serial => exact not_staysClosed_of_next hi rfl fun _ hi' => spawning_opens hi'
  | mqtt => exact not_staysClosed_of_next hi rfl fun _ hi' => connecting_opens hi'

lemma delaying_opens (hi : s.tasks[i]? = some .delaying) : ¬StaysClosed line s :=
  not_staysClosed_of_next hi rfl fun _ hi' => not_staysClosed_of_opens hi' rfl

/-- Each coroutine that is not silent can get to a connection. -/
lemma not_silent_opens {t : LineTask} (hi : s.tasks[i]? = some t) (ht : ¬t.Silent line) :
    ¬StaysClosed line s := by
  cases t with
  | opening => exact opening_opens hi
  | connecting => exact connecting_opens hi
  | sleeping => exact not_staysClosed_of_next hi rfl fun _ hi' => connecting_opens hi'
  | starting => exact starting_opens hi
  | listening => exact not_staysClosed_of_opens hi rfl
  | spawning => exact spawning_opens hi
  | reading => exact not_staysClosed_of_next hi rfl fun _ hi' => delaying_opens hi'
  | delaying => exact delaying_opens hi
  | reconnecting => exact not_staysClosed_of_opens hi rfl
  | serving =>
    have hremote : line.remoteIsServer = true := by
      by_contra h
      exact ht (Or.inr ⟨rfl, by simpa using h⟩)
    have hnext : LineTask.serving.next line .goes = ⟨[.opening], 0, 0, false⟩ := by
      simp [LineTask.next, hremote]
    exact not_staysClosed_of_next hi hnext fun _ hi' => opening_opens hi'
  | closing => exact absurd (Or.inl rfl) ht

end Opens

lemma staysClosed_iff_silent {line : Endpoint} {s : LineTasks} :
    StaysClosed line s ↔ ∀ t ∈ s.tasks, t.Silent line := by
  constructor
  · intro h t ht
    by_contra hsilent
    obtain ⟨i, hi⟩ := List.getElem?_of_mem ht
    exact not_silent_opens hi hsilent h
  · exact staysClosed_of_silent

/-- After every history of a line, nothing that can follow its `close` opens a connection
exactly when the line is quiet at that moment. -/
theorem closed_line_stays_closed_iff (line : Endpoint) (es : List LifeEvent) :
    StaysClosed line ((Run.run (lifeStep line) .scheduled es).close line) ↔
      Quiet line (Run.run (lifeStep line) .scheduled es) := by
  rw [staysClosed_iff_silent, silent_close_iff]

/-- The closed writer ends the reader of a line that connects to a server, and the handler
connects again. -/
theorem closed_line_reconnects :
    ¬∀ line es, StaysClosed line ((Run.run (lifeStep line) .scheduled es).close line) := by
  intro h
  have hopened := h (.tcp true) [.task 0 .goes, .task 0 .goes]
    [.task 0 .goes, .task 0 .goes, .task 0 .goes]
  revert hopened
  decide

end Nais.Host
