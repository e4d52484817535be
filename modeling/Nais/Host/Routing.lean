import Nais.Lib.Run
import Nais.Host.Cleanup
import Nais.Host.Emission

/-!
# The way into the queues

`Line.reader_handler` and `Line.deliver_to_peers` of `pynais/junction.py` for all connections
of all lines at once. Each `put` is a step, and other coroutines may run between two of them,
which is more than the event loop does: the `put` of an unbounded queue does not suspend, and
so no cancellation arrives in it either.
-/

namespace Nais.Host.Routing

open Nais.Lib.Run

variable {ι : Type}

/-- Where a reader is: it waits for a message, goes through the peers, or has returned. -/
inductive Progress (ι : Type) where
  | reading
  | delivering (message : PyValue) (peers : List ι)
  | ended

/-- A connection, with the messages read from it. -/
structure Reader (ι : Type) where
  line : ι
  messages : List PyValue
  progress : Progress ι

/-- A reader is known by the line id of its connection. `puts` and `taken` are all that went
into a queue and came out of it. -/
structure State (ι : Type) where
  sid : ℕ
  readers : ℕ → Option (Reader ι)
  msgQueue : ι → List Packet
  puts : ι → List Packet
  taken : ι → List Packet

def State.initial : State ι := ⟨0, fun _ => none, fun _ => [], fun _ => [], fun _ => []⟩

inductive Event (ι : Type) where
  | connect (l : ι)
  | read (client : ℕ) (message : PyValue)
  | put (client : ℕ)
  | stop (client : ℕ)
  | get (l : ι)

/-- A null message tells `Line.reader_handler` that the connection was closed. The reader of
an MQTT line does not look for one. -/
def endsAtNull : LineType → Bool
  | .mqtt _ => false
  | _ => true

section Step

variable [DecidableEq ι] (kind : ι → LineType) (r : Routes ι)

def State.setReader (s : State ι) (client : ℕ) (reader : Reader ι) : State ι :=
  { s with readers := Function.update s.readers client (some reader) }

def State.putInto (s : State ι) (target : ι) (m : Packet) : State ι :=
  { s with
    msgQueue := Function.update s.msgQueue target (s.msgQueue target ++ [m])
    puts := Function.update s.puts target (s.puts target ++ [m]) }

/-- The reader has got a message, and begins `deliver_to_peers`. -/
def Reader.received (reader : Reader ι) (message : PyValue) : Reader ι :=
  if message.isNull ∧ endsAtNull (kind reader.line) then { reader with progress := .ended }
  else
    { reader with
      messages := reader.messages ++ [message]
      progress :=
        match readDline message with
        | .ok _ => .delivering message (r.peers reader.line)
        | .error _ => .ended }

/-- One round of the loop over the peers. -/
def State.deliver (s : State ι) (client : ℕ) (reader : Reader ι) (message : PyValue) :
    List ι → State ι
  | [] => s.setReader client { reader with progress := .reading }
  | target :: peers =>
    match Packet.new message client (r.transform reader.line target) with
    | .ok m =>
      (s.putInto target m).setReader client { reader with progress := .delivering message peers }
    | .error _ => s.setReader client { reader with progress := .ended }

/-- `stop` is the end of the connection, a cancellation or an exception of `read_msg`, which all
find the reader waiting for a message. -/
def step (s : State ι) : Event ι → State ι
  | .connect l =>
    { s.setReader (s.sid + 1) ⟨l, [], .reading⟩ with sid := s.sid + 1 }
  | .read client message =>
    match s.readers client with
    | some ⟨l, messages, .reading⟩ =>
      s.setReader client (Reader.received kind r ⟨l, messages, .reading⟩ message)
    | _ => s
  | .put client =>
    match s.readers client with
    | some ⟨l, messages, .delivering message peers⟩ =>
      s.deliver r client ⟨l, messages, .delivering message peers⟩ message peers
    | _ => s
  | .stop client =>
    match s.readers client with
    | some ⟨l, messages, .reading⟩ => s.setReader client ⟨l, messages, .ended⟩
    | _ => s
  | .get l =>
    match s.msgQueue l with
    | m :: rest =>
      { s with
        msgQueue := Function.update s.msgQueue l rest
        taken := Function.update s.taken l (s.taken l ++ [m]) }
    | [] => s

end Step

/-- A frame that ends before its DLINE byte. -/
def Truncated (message : PyValue) : Prop := ShortFrame (message.bytes?.getD [])

instance (message : PyValue) : Decidable (Truncated message) := inferInstanceAs (Decidable (_ ∧ _))

/-- The DLINE byte of a frame. -/
def dline (message : PyValue) : ℕ :=
  match readDline message with
  | .ok b => b.toNat
  | .error _ => 0

section Copies

variable [DecidableEq ι] (r : Routes ι)

/-- A copy carries the message, the line id of its connection, and the transform between the
two lines. -/
def packetFor (l target : ι) (client : ℕ) (message : PyValue) : Packet :=
  ⟨message, client, r.transform l target, dline message⟩

/-- The copies of some messages that are due in the queue of a line. -/
def due (l target : ι) (client : ℕ) (messages : List PyValue) : List Packet :=
  messages.flatMap fun message =>
    if Truncated message then []
    else List.replicate ((r.peers l).count target) (packetFor r l target client message)

def fromClient (client : ℕ) (ms : List Packet) : List Packet := ms.filter fun m => m.srcLine = client

/-- `sent` are the packets of the connection that were put into each queue: what is due of its
messages. In the loop over the peers the last message is on its way, to each peer that the
loop has been at. -/
def Reader.Accounted (reader : Reader ι) (client : ℕ) (sent : ι → List Packet) : Prop :=
  match reader.progress with
  | .delivering message peers =>
    ∃ earlier gone, reader.messages = earlier ++ [message] ∧ r.peers reader.line = gone ++ peers ∧
      ¬Truncated message ∧ ∀ target, sent target = due r reader.line target client earlier ++
        List.replicate (gone.count target) (packetFor r reader.line target client message)
  | _ => ∀ target, sent target = due r reader.line target client reader.messages

/-- Every packet in a queue is of a connection, those of each connection are the copies due of
its messages, in the order in which they were read, and they leave the queue in this order. -/
structure Conserved (s : State ι) : Prop where
  accounted : ∀ client reader, s.readers client = some reader →
    reader.Accounted r client fun target => fromClient client (s.puts target)
  known : ∀ target, ∀ m ∈ s.puts target, (s.readers m.srcLine).isSome
  fifo : ∀ target, s.taken target ++ s.msgQueue target = s.puts target

end Copies

section Packets

variable {message : PyValue}

lemma truncated_iff : Truncated message ↔ ∃ e, readDline message = .error e := by
  cases message with
  | pyNone =>
    apply iff_of_false (fun h => nomatch h.1)
    rintro ⟨e, he⟩
    exact nomatch he
  | bytearray bs => exact (readDline_error_iff rfl).symm
  | bytes bs => exact (readDline_error_iff rfl).symm

/-- The constructor of a packet looks at the byte that the reader has looked at. -/
lemma new_eq (h : ¬Truncated message) (client : ℕ) (transformer : Option Transform) :
    Packet.new message client transformer = .ok ⟨message, client, transformer, dline message⟩ := by
  rw [truncated_iff] at h
  rw [Packet.new, dline]
  unfold readDline at h ⊢
  split_ifs at h ⊢ with hproto
  · cases hbyte : getByte message DLINE with
    | error e => exact absurd ⟨e, hbyte⟩ h
    | ok b => rfl
  · rfl

lemma new_error (h : Truncated message) (client : ℕ) (transformer : Option Transform) :
    ∃ e, Packet.new message client transformer = .error e := by
  obtain ⟨e, he⟩ := truncated_iff.mp h
  rw [Packet.new]
  unfold readDline at he
  split_ifs at he ⊢
  exact ⟨e, by rw [he]; rfl⟩

end Packets

section Links

variable [DecidableEq ι]

/-- The peers of a line are the other ends of its calls of `Junction.route`. -/
theorem routed_peers (calls : List (RouteCall ι)) (l : ι) :
    (routed calls).peers l = calls.flatMap fun c =>
      (if c.src = l then [c.dst] else []) ++ if c.dst = l then [c.src] else [] := by
  induction calls using List.reverseRecOn with
  | nil => rfl
  | append_singleton calls c ih =>
    have hlast : routed (calls ++ [c]) = (routed calls).route c := by
      rw [routed, List.foldl_append, List.foldl_cons, List.foldl_nil, ← routed]
    have hadd : ∀ (r : Routes ι) (from_ peer : ι) (t : Option Transform),
        (r.addPeer from_ peer t).peers l = r.peers l ++ if from_ = l then [peer] else [] := by
      intro r from_ peer t
      change Function.update r.peers from_ (r.peers from_ ++ [peer]) l = _
      rw [Function.update_apply]
      by_cases hl : l = from_
      · rw [if_pos hl, if_pos hl.symm, hl]
      · rw [if_neg hl, if_neg (Ne.symm hl), List.append_nil]
    rw [hlast, Routes.route, hadd, hadd, ih, List.flatMap_append, List.flatMap_singleton,
      List.append_assoc]

/-- What is due of one message is what `deliver_to_peers` makes of it. -/
theorem delivered_due (r : Routes ι) (l target : ι) (client : ℕ) (message : PyValue) :
    ((r.delivered l message client).filter fun d => d.1 = target).map Prod.snd =
      due r l target client [message] := by
  rw [due, List.flatMap_singleton, Routes.delivered]
  by_cases hshort : Truncated message
  · rw [if_pos hshort]
    induction r.peers l with
    | nil => rfl
    | cons peer peers ih =>
      obtain ⟨e, he⟩ := new_error hshort client (r.transform l peer)
      rw [List.filterMap_cons, he]
      exact ih
  · rw [if_neg hshort]
    induction r.peers l with
    | nil => rfl
    | cons peer peers ih =>
      rw [List.filterMap_cons, new_eq hshort]
      dsimp only
      rw [List.filter_cons, List.count_cons]
      by_cases hpeer : peer = target
      · subst hpeer
        simp only [decide_true, if_true, List.map_cons, ih, beq_self_eq_true, List.replicate_succ]
        rfl
      · simp only [hpeer, decide_false, Bool.false_eq_true, if_false, ih, beq_iff_eq, Nat.add_zero]

end Links

section Invariant

variable [DecidableEq ι] {kind : ι → LineType} {r : Routes ι} {s : State ι} {client : ℕ}

/-- No connection has an id that was not allocated. -/
structure Inv (r : Routes ι) (s : State ι) : Prop where
  conserved : Conserved r s
  bounded : ∀ client, s.sid < client → s.readers client = none

lemma due_append_singleton (l target : ι) (client : ℕ) (messages : List PyValue)
    (message : PyValue) : due r l target client (messages ++ [message]) =
      due r l target client messages ++
        if Truncated message then []
        else List.replicate ((r.peers l).count target) (packetFor r l target client message) := by
  rw [due, List.flatMap_append, List.flatMap_singleton, due]

lemma fromClient_append_singleton (ms : List Packet) (m : Packet) :
    fromClient client (ms ++ [m]) =
      if m.srcLine = client then fromClient client ms ++ [m] else fromClient client ms := by
  rw [fromClient, List.filter_append, List.filter_singleton]
  split_ifs with h <;> simp [fromClient, h]

/-- A new state of one reader leaves the others alone. -/
lemma Conserved.setReader (h : Conserved r s) {reader : Reader ι}
    (hreader : reader.Accounted r client fun target => fromClient client (s.puts target)) :
    Conserved r (s.setReader client reader) := by
  refine ⟨?_, ?_, h.fifo⟩
  · intro c rd hrd
    rw [State.setReader] at hrd
    dsimp only at hrd
    rw [Function.update_apply] at hrd
    split_ifs at hrd with hc
    · obtain rfl := Option.some.inj hrd
      rw [hc]
      exact hreader
    · exact h.accounted c rd hrd
  · intro target m hm
    rw [State.setReader]
    dsimp only
    rw [Function.update_apply]
    split_ifs
    · rfl
    · exact h.known target m hm

lemma Inv.setReader (h : Inv r s) {reader : Reader ι} (hclient : client ≤ s.sid)
    (hreader : reader.Accounted r client fun target => fromClient client (s.puts target)) :
    Inv r (s.setReader client reader) := by
  refine ⟨h.conserved.setReader hreader, ?_⟩
  intro c hc
  rw [State.setReader]
  dsimp only
  rw [Function.update_of_ne (by rintro rfl; exact absurd hclient (not_le.mpr hc))]
  exact h.bounded c hc

lemma Inv.le_sid (h : Inv r s) {reader : Reader ι} (hreader : s.readers client = some reader) :
    client ≤ s.sid := by
  by_contra hlt
  rw [h.bounded client (not_le.mp hlt)] at hreader
  exact nomatch hreader

/-- A new connection has sent nothing. -/
lemma Inv.connect (h : Inv r s) (l : ι) :
    Inv r { s.setReader (s.sid + 1) ⟨l, [], .reading⟩ with sid := s.sid + 1 } := by
  have hfree := h.bounded (s.sid + 1) (Nat.lt_succ_self _)
  have hnone : ∀ target, fromClient (s.sid + 1) (s.puts target) = [] := by
    intro target
    rw [fromClient, List.filter_eq_nil_iff]
    intro m hm hsrc
    have hknown := h.conserved.known target m hm
    rw [of_decide_eq_true hsrc, hfree] at hknown
    exact nomatch hknown
  have hconserved : Conserved r (s.setReader (s.sid + 1) ⟨l, [], .reading⟩) :=
    h.conserved.setReader hnone
  refine ⟨⟨hconserved.accounted, hconserved.known, hconserved.fifo⟩, ?_⟩
  intro c hc
  dsimp only [State.setReader] at hc ⊢
  rw [Function.update_of_ne (by omega)]
  exact h.bounded c (by omega)

/-- A message is due in the queues from when the loop over the peers begins. -/
lemma received_accounted {l : ι} {messages : List PyValue} {sent : ι → List Packet}
    (h : (⟨l, messages, .reading⟩ : Reader ι).Accounted r client sent) (message : PyValue) :
    (Reader.received kind r ⟨l, messages, .reading⟩ message).Accounted r client sent := by
  rw [Reader.received]
  split_ifs with hnull
  · exact h
  · cases hdline : readDline message with
    | ok b =>
      have hwhole : ¬Truncated message := by
        rw [truncated_iff, hdline]
        rintro ⟨e, he⟩
        exact nomatch he
      refine ⟨messages, [], rfl, rfl, hwhole, ?_⟩
      intro target
      rw [List.count_nil, List.replicate_zero, List.append_nil]
      exact h target
    | error e =>
      intro target
      dsimp only
      rw [due_append_singleton, if_pos (truncated_iff.mpr ⟨e, hdline⟩), List.append_nil]
      exact h target

/-- A put of another connection changes nothing for a reader. -/
lemma fromClient_putInto {target : ι} {m : Packet} (t : ι) :
    fromClient client ((s.putInto target m).puts t) =
      if t = target ∧ m.srcLine = client then fromClient client (s.puts t) ++ [m]
      else fromClient client (s.puts t) := by
  rw [State.putInto]
  dsimp only
  rw [Function.update_apply]
  by_cases ht : t = target
  · rw [if_pos ht, fromClient_append_singleton, ht]
    simp
  · rw [if_neg ht, if_neg (fun h => ht h.1)]

/-- The copy that one round of the loop puts is the next one due. -/
lemma put_accounted {l target : ι} {messages : List PyValue} {message : PyValue} {peers : List ι}
    (h : (⟨l, messages, .delivering message (target :: peers)⟩ : Reader ι).Accounted r client
      fun t => fromClient client (s.puts t)) :
    (⟨l, messages, .delivering message peers⟩ : Reader ι).Accounted r client
      fun t => fromClient client ((s.putInto target (packetFor r l target client message)).puts t) := by
  obtain ⟨earlier, gone, hmessages, hpeers, hwhole, hsent⟩ := h
  refine ⟨earlier, gone ++ [target], hmessages, ?_, hwhole, ?_⟩
  · rw [hpeers, List.append_assoc]
    rfl
  · intro t
    dsimp only at hsent ⊢
    rw [fromClient_putInto, hsent, List.count_append, List.count_singleton]
    by_cases ht : t = target
    · subst ht
      rw [if_pos ⟨rfl, rfl⟩, beq_self_eq_true, if_pos rfl, List.replicate_succ', List.append_assoc]
    · rw [if_neg (fun h => ht h.1), beq_eq_false_iff_ne.mpr (Ne.symm ht), if_neg Bool.false_ne_true,
        Nat.add_zero]

/-- A reader that has been at all peers has put what is due. -/
lemma delivered_accounted {l : ι} {messages : List PyValue} {message : PyValue}
    {sent : ι → List Packet}
    (h : (⟨l, messages, .delivering message []⟩ : Reader ι).Accounted r client sent) :
    (⟨l, messages, .reading⟩ : Reader ι).Accounted r client sent := by
  obtain ⟨earlier, gone, hmessages, hpeers, hwhole, hsent⟩ := h
  intro target
  dsimp only at hmessages hpeers hsent ⊢
  rw [hsent, hmessages, due_append_singleton, if_neg hwhole, hpeers, List.append_nil]

lemma Inv.put (h : Inv r s) {reader reader' : Reader ι} {target : ι} {m : Packet}
    (hreader : s.readers client = some reader) (hm : m.srcLine = client)
    (haccounted : reader'.Accounted r client
      fun t => fromClient client ((s.putInto target m).puts t)) :
    Inv r ((s.putInto target m).setReader client reader') := by
  have hother : ∀ c, c ≠ client → ∀ t,
      fromClient c ((s.putInto target m).puts t) = fromClient c (s.puts t) := by
    intro c hc t
    rw [fromClient_putInto, if_neg]
    rintro ⟨-, rfl⟩
    exact hc hm
  refine ⟨⟨?_, ?_, ?_⟩, ?_⟩
  · intro c rd hrd
    dsimp only [State.setReader] at hrd ⊢
    rw [Function.update_apply] at hrd
    split_ifs at hrd with hc
    · obtain rfl := Option.some.inj hrd
      rw [hc]
      exact haccounted
    · simp only [hother c hc]
      exact h.conserved.accounted c rd hrd
  · intro t m' hm'
    dsimp only [State.setReader, State.putInto] at hm' ⊢
    rw [Function.update_apply]
    split_ifs with hc
    · rfl
    · apply h.conserved.known t m'
      rw [Function.update_apply] at hm'
      split_ifs at hm' with ht
      · obtain hold | hnew := List.mem_append.mp hm'
        · rwa [ht]
        · rw [List.mem_singleton.mp hnew] at hc
          exact absurd hm hc
      · exact hm'
  · intro t
    dsimp only [State.setReader, State.putInto]
    rw [Function.update_apply, Function.update_apply]
    split_ifs with ht
    · rw [ht, ← List.append_assoc, h.conserved.fifo]
    · exact h.conserved.fifo t
  · intro c hc
    dsimp only [State.setReader, State.putInto] at hc ⊢
    have hle := h.le_sid hreader
    rw [Function.update_of_ne (by rintro rfl; exact absurd hle (not_le.mpr hc))]
    exact h.bounded c hc

lemma Inv.deliver (h : Inv r s) {l : ι} {messages : List PyValue} {message : PyValue}
    {peers : List ι} (hreader : s.readers client = some ⟨l, messages, .delivering message peers⟩) :
    Inv r (s.deliver r client ⟨l, messages, .delivering message peers⟩ message peers) := by
  have haccounted := h.conserved.accounted client _ hreader
  cases peers with
  | nil => exact h.setReader (h.le_sid hreader) (delivered_accounted haccounted)
  | cons target peers =>
    have hwhole : ¬Truncated message := by
      obtain ⟨-, -, -, -, hwhole, -⟩ := haccounted
      exact hwhole
    rw [State.deliver, new_eq hwhole]
    exact h.put hreader rfl (put_accounted haccounted)

lemma Inv.get (h : Inv r s) {l : ι} {m : Packet} {rest : List Packet} (hqueue : s.msgQueue l = m :: rest) :
    Inv r { s with
      msgQueue := Function.update s.msgQueue l rest
      taken := Function.update s.taken l (s.taken l ++ [m]) } := by
  refine ⟨⟨h.conserved.accounted, h.conserved.known, ?_⟩, h.bounded⟩
  intro t
  dsimp only
  rw [Function.update_apply, Function.update_apply]
  split_ifs with ht
  · rw [List.append_assoc, ht, ← h.conserved.fifo, hqueue]
    rfl
  · exact h.conserved.fifo t

/-- Each step of a reader or of a dispatcher keeps the messages. -/
lemma Inv.step (h : Inv r s) (e : Event ι) : Inv r (step kind r s e) := by
  cases e with
  | connect l => exact h.connect l
  | read client message =>
    rw [Routing.step]
    split
    · rename_i l messages hreader
      exact h.setReader (h.le_sid hreader)
        (received_accounted (h.conserved.accounted client _ hreader) message)
    · exact h
  | put client =>
    rw [Routing.step]
    split
    · rename_i l messages message peers hreader
      exact h.deliver hreader
    · exact h
  | stop client =>
    rw [Routing.step]
    split
    · rename_i l messages hreader
      have haccounted := h.conserved.accounted client _ hreader
      exact h.setReader (h.le_sid hreader) haccounted
    · exact h
  | get l =>
    rw [Routing.step]
    split
    · rename_i m rest hqueue
      exact h.get hqueue
    · exact h

end Invariant

end Nais.Host.Routing
