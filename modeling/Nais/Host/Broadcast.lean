import Nais.Host.Heirs
import Nais.Lib.Cursor

/-!
# Broadcasts to the clients of a websocket line

`WSLine.dispatch` and `WSLine.close` of `pynais/junction.py` walk the live list of writers
and give way to other coroutines in every round. The steps of the line are those of
`lineStep`, together with a record of the loops, of what each has sent and to whom.
-/

namespace Nais.Host
open Nais.Lib

/-- A dispatcher in its loop over the writers: the number of its message in the order of the
queue, its text, and the walk. -/
structure Loop where
  number : Nat
  jmsg : List UInt8
  cursor : Cursor Nat

/-- The loop sends to the next client. -/
def Loop.sendTo (l : Loop) (client : Nat) : Loop :=
  { l with cursor := ⟨l.cursor.start, l.cursor.index + 1, l.cursor.seen ++ [client]⟩ }

/-- A call of `w.send`. -/
structure Sent where
  client : Nat
  number : Nat
  jmsg : List UInt8

/-- A line with the loops that run and those that got to the end of the list of writers, each
with the writers at that moment. `closing` and `closed` are the loops of `close`. -/
structure Broadcast where
  hosted : HostedLine
  loops : List Loop
  sends : List Sent
  ended : List (Loop × List Nat)
  closing : List (Cursor Nat)
  closed : List (Cursor Nat × List Nat)

inductive BroadcastEvent where
  | line (e : LineEvent)
  | close
  | closeResume (i : Nat)
  | closeFailed (i : Nat)

namespace Broadcast

def init : Broadcast := ⟨.init, [], [], [], [], []⟩

def writers (s : Broadcast) : List Nat := s.hosted.line.writers

/-- The loop that a dispatcher enters when it takes the next message of the queue. -/
def dequeued (cfg : LineConfig) (s : LineState) : Option Loop :=
  match s.queue with
  | [] => none
  | q :: _ =>
    if s.waiting = 0 then none
    else match LineState.handle cfg s.writers q.packet with
      | .sends _ jmsg =>
        ((Cursor.begin s.writers).next s.writers).map fun c => ⟨s.taken.length, jmsg, c⟩
      | _ => none

/-- What a step of the line adds to the record. -/
def observe (cfg : LineConfig) (s : Broadcast) : LineEvent → Broadcast
  | .take =>
    match dequeued cfg s.hosted.line with
    | none => s
    | some l =>
      { s with
        loops := s.loops ++ [l]
        sends := s.sends ++ l.cursor.seen.map fun client => ⟨client, l.number, l.jmsg⟩ }
  | .resume i =>
    match s.loops[i]? with
    | none => s
    | some l =>
      match s.writers[l.cursor.index]? with
      | some client =>
        { s with
          loops := s.loops.set i (l.sendTo client)
          sends := s.sends ++ [⟨client, l.number, l.jmsg⟩] }
      | none =>
        { s with
          loops := s.loops.eraseIdx i
          ended := s.ended ++ [(l, s.writers)] }
  | .sendFailed i => { s with loops := s.loops.eraseIdx i }
  | _ => s

/-- `WSLine.close` up to its first suspension. -/
def close (s : Broadcast) : Broadcast :=
  match (Cursor.begin s.writers).next s.writers with
  | some c => { s with closing := s.closing ++ [c] }
  | none => { s with closed := s.closed ++ [(Cursor.begin s.writers, s.writers)] }

/-- The closing handshake of a client is over. -/
def closeResume (s : Broadcast) (i : Nat) : Broadcast :=
  match s.closing[i]? with
  | none => s
  | some c =>
    match c.next s.writers with
    | some c' => { s with closing := s.closing.set i c' }
    | none => { s with closing := s.closing.eraseIdx i, closed := s.closed ++ [(c, s.writers)] }

end Broadcast

def broadcastStep (cfg : LineConfig) (s : Broadcast) : BroadcastEvent → Broadcast
  | .line e => { s.observe cfg e with hosted := lineStep cfg s.hosted e }
  | .close => s.close
  | .closeResume i => s.closeResume i
  | .closeFailed i => { s with closing := s.closing.eraseIdx i }

/-- The clients that a message was sent to. -/
def sentTo (sends : List Sent) (number : Nat) : List Nat :=
  (sends.filter fun x => x.number = number).map Sent.client

/-- The text of a message, where there is one to send. -/
def Text (cfg : LineConfig) (t : Taken) (jmsg : List UInt8) : Prop :=
  cfg.toJson t.packet = .ok (some jmsg) ∧ jmsg ≠ []

/-! What a take and a resume do. -/

section Steps

variable {cfg : LineConfig}

lemma handle_sends {writers : List Nat} {packet : Packet} {writes : List Write} {jmsg : List UInt8}
    (h : LineState.handle cfg writers packet = .sends writes jmsg) :
    (cfg.toJson packet = .ok (some jmsg) ∧ jmsg ≠ []) ∧ ∃ client rest, writers = client :: rest := by
  unfold LineState.handle at h
  split at h
  · split at h <;> cases h
  · split at h
    · cases h
    · cases h
    · next j hjson =>
      split_ifs at h with hnil
      cases writers with
      | nil => cases h
      | cons client rest =>
        cases h
        exact ⟨⟨hjson, hnil⟩, client, rest, rfl⟩

/-- On a websocket line, only a text that has clients makes a loop. -/
lemma writers_nil_of_not_sends {writers : List Nat} {packet : Packet} {jmsg : List UInt8}
    (hkind : cfg.kind = .websocket)
    (hh : ∀ writes jmsg, LineState.handle cfg writers packet ≠ .sends writes jmsg)
    (hjson : cfg.toJson packet = .ok (some jmsg)) (hne : jmsg ≠ []) : writers = [] := by
  cases writers with
  | nil => rfl
  | cons client rest =>
    exfalso
    apply hh [(client, jmsg)] jmsg
    simp [LineState.handle, hkind, hjson, hne]

/-- On a websocket line, only a message whose text raises stops the dispatcher. -/
lemma toJson_error_of_stops {writers : List Nat} {packet : Packet} {writes : List Write}
    (hkind : cfg.kind = .websocket) (h : LineState.handle cfg writers packet = .stops writes) :
    ∃ e, cfg.toJson packet = .error e := by
  unfold LineState.handle at h
  rw [hkind] at h
  dsimp only at h
  split at h
  · next e hjson => exact ⟨e, hjson⟩
  · cases h
  · split_ifs at h
    split at h <;> cases h

lemma dequeued_of_sends {s : LineState} {q : Queued} {queue : List Queued} {writes : List Write}
    {jmsg : List UInt8} {client : Nat} {rest : List Nat} (hq : s.queue = q :: queue)
    (hw : 0 < s.waiting) (hh : LineState.handle cfg s.writers q.packet = .sends writes jmsg)
    (hwriters : s.writers = client :: rest) :
    Broadcast.dequeued cfg s = some ⟨s.taken.length, jmsg, ⟨s.writers, 1, [client]⟩⟩ := by
  unfold Broadcast.dequeued
  rw [hq]
  dsimp only
  rw [if_neg (by omega), hh, hwriters]
  rfl

lemma dequeued_of_not_sends {s : LineState}
    (hh : ∀ q ∈ s.queue.head?, 0 < s.waiting →
      ∀ writes jmsg, LineState.handle cfg s.writers q.packet ≠ .sends writes jmsg) :
    Broadcast.dequeued cfg s = none := by
  unfold Broadcast.dequeued
  split
  · rfl
  · next q queue hq =>
    split_ifs with hw
    · rfl
    · split
      · next writes jmsg hsends =>
        exact absurd hsends (hh q (by rw [hq]; rfl) (Nat.pos_of_ne_zero hw) writes jmsg)
      · rfl

lemma take_of_handle (cfg : LineConfig) {s : LineState} {q : Queued} {queue : List Queued} (hq : s.queue = q :: queue)
    (hw : 0 < s.waiting) :
    match LineState.handle cfg s.writers q.packet with
    | .waits _ => (s.take cfg).waiting = s.waiting ∧ (s.take cfg).sending = s.sending
    | .sends _ jmsg => (s.take cfg).waiting = s.waiting - 1 ∧
        (s.take cfg).sending = s.sending ++ [(jmsg, 1)]
    | .stops _ => (s.take cfg).waiting = s.waiting - 1 ∧ (s.take cfg).sending = s.sending := by
  unfold LineState.take
  rw [hq]
  dsimp only
  rw [if_neg (by omega)]
  cases LineState.handle cfg s.writers q.packet <;> exact ⟨rfl, rfl⟩

/-- A take that makes a loop. -/
structure TakesLoop (cfg : LineConfig) (s : Broadcast) (t : Taken) (jmsg : List UInt8)
    (client : Nat) : Prop where
  text : Text cfg t jmsg
  writers : s.writers.head? = some client
  next : broadcastStep cfg s (.line .take) = { s with
    hosted := lineStep cfg s.hosted .take
    loops := s.loops ++ [⟨s.hosted.line.taken.length, jmsg, ⟨s.writers, 1, [client]⟩⟩]
    sends := s.sends ++ [⟨client, s.hosted.line.taken.length, jmsg⟩] }
  waiting : (s.hosted.line.take cfg).waiting = s.hosted.line.waiting - 1
  sending : (s.hosted.line.take cfg).sending = s.hosted.line.sending ++ [(jmsg, 1)]

/-- A take of a message that is sent to nobody, or that stops the dispatcher. -/
structure TakesPlain (cfg : LineConfig) (s : Broadcast) (t : Taken) : Prop where
  text : cfg.kind = .websocket → ∀ jmsg, Text cfg t jmsg → s.writers = []
  next : broadcastStep cfg s (.line .take) = { s with hosted := lineStep cfg s.hosted .take }
  waiting : (s.hosted.line.take cfg).waiting = s.hosted.line.waiting ∨
    (s.hosted.line.take cfg).waiting = s.hosted.line.waiting - 1 ∧
      ∃ writes, LineState.handle cfg s.writers t.packet = .stops writes
  sending : (s.hosted.line.take cfg).sending = s.hosted.line.sending

section Take

variable {s : Broadcast} {q : Queued} {queue : List Queued} {t : Taken}

lemma takesLoop_of_sends (hq : s.hosted.line.queue = q :: queue) (hw : 0 < s.hosted.line.waiting)
    (hpacket : t.packet = q.packet) {writes : List Write} {jmsg : List UInt8}
    (hh : LineState.handle cfg s.writers q.packet = .sends writes jmsg) :
    ∃ client, TakesLoop cfg s t jmsg client := by
  have hof := take_of_handle cfg hq hw
  rw [← Broadcast.writers, hh] at hof
  obtain ⟨htext, client, rest, hwriters⟩ := handle_sends hh
  have hsome := dequeued_of_sends hq hw hh hwriters
  refine ⟨client, ?_, by rw [hwriters]; rfl, ?_, hof.1, hof.2⟩
  · rw [Text, hpacket]
    exact htext
  · simp [broadcastStep, Broadcast.observe, hsome, Broadcast.writers]

lemma takesPlain_of_not_sends (hq : s.hosted.line.queue = q :: queue)
    (hw : 0 < s.hosted.line.waiting) (hpacket : t.packet = q.packet)
    (hnot : ∀ writes jmsg, LineState.handle cfg s.writers q.packet ≠ .sends writes jmsg) :
    TakesPlain cfg s t := by
  have hnone : Broadcast.dequeued cfg s.hosted.line = none := by
    apply dequeued_of_not_sends
    intro q' hq' _
    rw [hq] at hq'
    cases hq'
    exact hnot
  have hnext : broadcastStep cfg s (.line .take) =
      { s with hosted := lineStep cfg s.hosted .take } := by
    simp [broadcastStep, Broadcast.observe, hnone]
  have htext : cfg.kind = .websocket → ∀ jmsg, Text cfg t jmsg → s.writers = [] := by
    intro hkind jmsg htext
    rw [Text, hpacket] at htext
    exact writers_nil_of_not_sends hkind hnot htext.1 htext.2
  have hof := take_of_handle cfg hq hw
  rw [← Broadcast.writers] at hof
  cases hh : LineState.handle cfg s.writers q.packet with
  | sends writes jmsg => exact absurd hh (hnot writes jmsg)
  | waits writes =>
    rw [hh] at hof
    exact ⟨htext, hnext, Or.inl hof.1, hof.2⟩
  | stops writes =>
    rw [hh] at hof
    exact ⟨htext, hnext, Or.inr ⟨hof.1, writes, hpacket ▸ hh⟩, hof.2⟩

end Take

/-- A take is blocked, or moves the first message of the queue, with or without a loop. -/
lemma take_cases (cfg : LineConfig) (s : Broadcast) :
    broadcastStep cfg s (.line .take) = s ∨ ∃ q queue t, s.hosted.line.queue = q :: queue ∧
      0 < s.hosted.line.waiting ∧ t.packet = q.packet ∧ t.writers = s.writers ∧
      (s.hosted.line.take cfg).taken = s.hosted.line.taken ++ [t] ∧
      ((∃ jmsg client, TakesLoop cfg s t jmsg client) ∨ TakesPlain cfg s t) := by
  by_cases hblocked : s.hosted.line.waiting = 0 ∨ s.hosted.line.queue = []
  · left
    have htake := take_blocked cfg s.hosted.line hblocked
    have hnone : Broadcast.dequeued cfg s.hosted.line = none := by
      apply dequeued_of_not_sends
      intro q hq hw
      obtain hzero | hnil := hblocked
      · omega
      · rw [hnil] at hq
        cases hq
    simp [broadcastStep, Broadcast.observe, hnone, lineStep, htake]
  · rw [not_or] at hblocked
    right
    cases hq : s.hosted.line.queue with
    | nil => exact absurd hq hblocked.2
    | cons q queue =>
      have hw : 0 < s.hosted.line.waiting := Nat.pos_of_ne_zero hblocked.1
      refine ⟨q, queue, _, rfl, hw, rfl, rfl, (take_cons cfg s.hosted.line hq hw).2, ?_⟩
      by_cases hsends : ∃ writes jmsg, LineState.handle cfg s.writers q.packet = .sends writes jmsg
      · obtain ⟨writes, jmsg, hh⟩ := hsends
        exact Or.inl ⟨jmsg, takesLoop_of_sends hq hw rfl hh⟩
      · exact Or.inr (takesPlain_of_not_sends hq hw rfl fun writes jmsg hh => hsends ⟨writes, jmsg, hh⟩)

/-- The dispatchers in `sending` are the loops. -/
def Aligned (s : Broadcast) : Prop :=
  s.hosted.line.sending = s.loops.map fun l => (l.jmsg, l.cursor.index)

/-- A round of a loop: one more client, or the end of the list. -/
lemma resume_cases (cfg : LineConfig) {s : Broadcast} (h : Aligned s) (i : Nat) :
    broadcastStep cfg s (.line (.resume i)) = s ∨ ∃ l, s.loops[i]? = some l ∧
      ((∃ client, s.writers[l.cursor.index]? = some client ∧
        broadcastStep cfg s (.line (.resume i)) = { s with
          hosted := lineStep cfg s.hosted (.resume i)
          loops := s.loops.set i (l.sendTo client)
          sends := s.sends ++ [⟨client, l.number, l.jmsg⟩] } ∧
        (s.hosted.line.resume i).waiting = s.hosted.line.waiting ∧
        (s.hosted.line.resume i).sending = s.hosted.line.sending.set i (l.jmsg, l.cursor.index + 1)) ∨
      (s.writers[l.cursor.index]? = none ∧
        broadcastStep cfg s (.line (.resume i)) = { s with
          hosted := lineStep cfg s.hosted (.resume i)
          loops := s.loops.eraseIdx i
          ended := s.ended ++ [(l, s.writers)] } ∧
        (s.hosted.line.resume i).waiting = s.hosted.line.waiting + 1 ∧
        (s.hosted.line.resume i).sending = s.hosted.line.sending.eraseIdx i)) := by
  cases hi : s.loops[i]? with
  | none =>
    left
    have hnone : s.hosted.line.sending[i]? = none := by
      rw [h, List.getElem?_map, hi]
      rfl
    have hresume : s.hosted.line.resume i = s.hosted.line := by
      simp [LineState.resume, hnone]
    simp [broadcastStep, Broadcast.observe, hi, lineStep, hresume]
  | some l =>
    right
    have hsome : s.hosted.line.sending[i]? = some (l.jmsg, l.cursor.index) := by
      rw [h, List.getElem?_map, hi]
      rfl
    refine ⟨l, rfl, ?_⟩
    cases hw : s.writers[l.cursor.index]? with
    | some client =>
      have hline : s.hosted.line.writers[l.cursor.index]? = some client := hw
      refine Or.inl ⟨client, rfl, ?_, ?_, ?_⟩
      · simp [broadcastStep, Broadcast.observe, hi, hw]
      · simp [LineState.resume, hsome, hline]
      · simp [LineState.resume, hsome, hline]
    | none =>
      have hline : s.hosted.line.writers[l.cursor.index]? = none := hw
      refine Or.inr ⟨rfl, ?_, ?_, ?_⟩
      · simp [broadcastStep, Broadcast.observe, hi, hw]
      · simp [LineState.resume, hsome, hline]
      · simp [LineState.resume, hsome, hline]

end Steps

/-! The record: every loop sends the text of its own message, and the numbers of the loops
are all different. -/

section Log

/-- `n` is the number of messages that left the queue. -/
structure LogInv (cfg : LineConfig) (taken : List Taken) (loops : List Loop) (sends : List Sent)
    (ended : List (Loop × List Nat)) : Prop where
  numbers : (loops.map Loop.number ++ ended.map fun p => p.1.number).Nodup
  texts : ∀ x ∈ sends, ∃ t, taken[x.number]? = some t ∧ Text cfg t x.jmsg
  loopTexts : ∀ l ∈ loops ++ ended.map Prod.fst, ∃ t, taken[l.number]? = some t ∧
    Text cfg t l.jmsg ∧ t.writers = l.cursor.start
  logged : ∀ l ∈ loops ++ ended.map Prod.fst, sentTo sends l.number = l.cursor.seen

variable {cfg : LineConfig} {taken : List Taken} {loops : List Loop} {sends : List Sent}
  {ended : List (Loop × List Nat)}

lemma sentTo_append (sends sends' : List Sent) (n : Nat) :
    sentTo (sends ++ sends') n = sentTo sends n ++ sentTo sends' n := by
  simp [sentTo]

lemma sentTo_singleton (x : Sent) (n : Nat) :
    sentTo [x] n = if x.number = n then [x.client] else [] := by
  by_cases h : x.number = n <;> simp [sentTo, h]

lemma getElem?_taken_append {t : Taken} {n : Nat} {u : Taken} (h : taken[n]? = some u) :
    (taken ++ [t])[n]? = some u := by
  obtain ⟨hlt, -⟩ := List.getElem?_eq_some_iff.mp h
  rw [List.getElem?_append_left hlt, h]

lemma getElem?_of_taken_append {t u : Taken} {n : Nat} (h : (taken ++ [t])[n]? = some u) :
    taken[n]? = some u ∨ n = taken.length ∧ u = t := by
  by_cases hn : n < taken.length
  · rw [List.getElem?_append_left hn] at h
    exact Or.inl h
  · have hlen := (List.getElem?_eq_some_iff.mp h).1
    rw [List.length_append, List.length_singleton] at hlen
    obtain rfl : n = taken.length := by omega
    rw [List.getElem?_concat_length, Option.some.injEq] at h
    exact Or.inr ⟨rfl, h.symm⟩

lemma LogInv.take_plain (h : LogInv cfg taken loops sends ended) (t : Taken) :
    LogInv cfg (taken ++ [t]) loops sends ended := by
  refine ⟨h.numbers, fun x hx => ?_, fun l hl => ?_, h.logged⟩
  · obtain ⟨u, hu, htext⟩ := h.texts x hx
    exact ⟨u, getElem?_taken_append hu, htext⟩
  · obtain ⟨u, hu, htext⟩ := h.loopTexts l hl
    exact ⟨u, getElem?_taken_append hu, htext⟩

lemma LogInv.take_loop (h : LogInv cfg taken loops sends ended) {t : Taken} {jmsg : List UInt8}
    (htext : Text cfg t jmsg) (client : Nat) :
    LogInv cfg (taken ++ [t]) (loops ++ [⟨taken.length, jmsg, ⟨t.writers, 1, [client]⟩⟩])
      (sends ++ [⟨client, taken.length, jmsg⟩]) ended := by
  have hplain := h.take_plain t
  have hbelow : ∀ l ∈ loops ++ ended.map Prod.fst, l.number ≠ taken.length := by
    intro l hl
    obtain ⟨u, hu, -⟩ := h.loopTexts l hl
    obtain ⟨hlt, -⟩ := List.getElem?_eq_some_iff.mp hu
    omega
  have hsends : sentTo sends taken.length = [] := by
    unfold sentTo
    rw [List.map_eq_nil_iff, List.filter_eq_nil_iff]
    intro x hx
    obtain ⟨u, hu, -⟩ := h.texts x hx
    obtain ⟨hlt, -⟩ := List.getElem?_eq_some_iff.mp hu
    simp only [decide_eq_true_eq]
    omega
  have hlast : (taken ++ [t])[taken.length]? = some t := by simp
  have hmem : ∀ l ∈ loops ++ [⟨taken.length, jmsg, ⟨t.writers, 1, [client]⟩⟩] ++ ended.map Prod.fst,
      l = ⟨taken.length, jmsg, ⟨t.writers, 1, [client]⟩⟩ ∨ l ∈ loops ++ ended.map Prod.fst := by
    intro l hl
    simp only [List.mem_append, List.mem_singleton] at hl ⊢
    tauto
  refine ⟨?_, fun x hx => ?_, fun l hl => ?_, fun l hl => ?_⟩
  · have hnew : taken.length ∉ loops.map Loop.number ++ ended.map fun p => p.1.number := by
      rw [List.mem_append, List.mem_map, List.mem_map]
      rintro (⟨l, hl, hn⟩ | ⟨p, hp, hn⟩)
      · exact hbelow l (List.mem_append_left _ hl) hn
      · exact hbelow p.1 (List.mem_append_right _ (List.mem_map_of_mem hp)) hn
    rw [List.map_append, List.append_assoc]
    exact List.perm_middle.nodup_iff.mpr (List.nodup_cons.mpr ⟨hnew, h.numbers⟩)
  · rw [List.mem_append, List.mem_singleton] at hx
    obtain hx | rfl := hx
    · exact hplain.texts x hx
    · exact ⟨t, hlast, htext⟩
  · obtain rfl | hold := hmem l hl
    · exact ⟨t, hlast, htext, rfl⟩
    · exact hplain.loopTexts l hold
  · rw [sentTo_append, sentTo_singleton]
    obtain rfl | hold := hmem l hl
    · simp [hsends]
    · rw [if_neg (hbelow l hold).symm, List.append_nil]
      exact h.logged l hold

/-- The loop at a position, and the others. -/
lemma loops_perm {i : Nat} {l : Loop} (hi : loops[i]? = some l) (l' : Loop) :
    loops.Perm (l :: loops.eraseIdx i) ∧ (loops.set i l').Perm (l' :: loops.eraseIdx i) := by
  obtain ⟨hlt, rfl⟩ := List.getElem?_eq_some_iff.mp hi
  exact ⟨(List.getElem_cons_eraseIdx_perm hlt).symm, List.set_perm_cons_eraseIdx hlt l'⟩

lemma LogInv.advance (h : LogInv cfg taken loops sends ended) {i : Nat} {l : Loop}
    (hi : loops[i]? = some l) (client : Nat) :
    LogInv cfg taken (loops.set i (l.sendTo client)) (sends ++ [⟨client, l.number, l.jmsg⟩]) ended := by
  obtain ⟨hperm, hperm'⟩ := loops_perm hi (l.sendTo client)
  have hl : l ∈ loops ++ ended.map Prod.fst := List.mem_append_left _ (List.mem_of_getElem? hi)
  have hnumbers : (l.number :: ((loops.eraseIdx i).map Loop.number ++
      ended.map fun p => p.1.number)).Nodup := by
    have hall := (hperm.map Loop.number).append_right (ended.map fun p => p.1.number)
    exact hall.nodup_iff.mp h.numbers
  have hmem : ∀ m ∈ loops.set i (l.sendTo client) ++ ended.map Prod.fst,
      m = l.sendTo client ∨ m.number ≠ l.number ∧ m ∈ loops ++ ended.map Prod.fst := by
    intro m hm
    rw [List.mem_append, hperm'.mem_iff, List.mem_cons, or_assoc] at hm
    refine hm.imp_right fun hrest => ⟨?_, ?_⟩
    · intro heq
      rw [List.nodup_cons] at hnumbers
      apply hnumbers.1
      rw [← heq, List.mem_append]
      refine hrest.imp (fun hr => List.mem_map_of_mem hr) fun hr => ?_
      obtain ⟨p, hp, rfl⟩ := List.mem_map.mp hr
      exact List.mem_map_of_mem hp
    · rw [List.mem_append]
      exact hrest.imp_left List.mem_of_mem_eraseIdx
  refine ⟨?_, fun x hx => ?_, fun m hm => ?_, fun m hm => ?_⟩
  · have hall := (hperm'.map Loop.number).append_right (ended.map fun p => p.1.number)
    exact hall.nodup_iff.mpr hnumbers
  · rw [List.mem_append, List.mem_singleton] at hx
    obtain hx | rfl := hx
    · exact h.texts x hx
    · obtain ⟨t, ht, htext, -⟩ := h.loopTexts l hl
      exact ⟨t, ht, htext⟩
  · obtain rfl | ⟨-, hold⟩ := hmem m hm
    · exact h.loopTexts l hl
    · exact h.loopTexts m hold
  · rw [sentTo_append, sentTo_singleton]
    obtain rfl | ⟨hne, hold⟩ := hmem m hm
    · have hlogged := h.logged l hl
      simp [Loop.sendTo, hlogged]
    · rw [if_neg hne.symm, List.append_nil]
      exact h.logged m hold

/-- Fewer loops, with or without a record of one that ended. -/
lemma LogInv.drop (h : LogInv cfg taken loops sends ended) (i : Nat) :
    LogInv cfg taken (loops.eraseIdx i) sends ended := by
  have hmem : ∀ l ∈ loops.eraseIdx i ++ ended.map Prod.fst, l ∈ loops ++ ended.map Prod.fst := by
    intro l hl
    rw [List.mem_append] at hl ⊢
    exact hl.imp_left List.mem_of_mem_eraseIdx
  refine ⟨?_, h.texts, fun l hl => h.loopTexts l (hmem l hl), fun l hl => h.logged l (hmem l hl)⟩
  exact h.numbers.sublist (((List.eraseIdx_sublist _ _).map _).append_right _)

lemma LogInv.finish (h : LogInv cfg taken loops sends ended) {i : Nat} {l : Loop}
    (hi : loops[i]? = some l) (writers : List Nat) :
    LogInv cfg taken (loops.eraseIdx i) sends (ended ++ [(l, writers)]) := by
  obtain ⟨hperm, -⟩ := loops_perm hi l
  have hmem : ∀ m ∈ loops.eraseIdx i ++ (ended ++ [(l, writers)]).map Prod.fst,
      m ∈ loops ++ ended.map Prod.fst := by
    intro m hm
    simp only [List.map_append, List.mem_append, List.map_cons, List.map_nil,
      List.mem_singleton] at hm ⊢
    obtain hm | hm | rfl := hm
    · exact Or.inl (List.mem_of_mem_eraseIdx hm)
    · exact Or.inr hm
    · exact Or.inl (List.mem_of_getElem? hi)
  refine ⟨?_, h.texts, fun m hm => h.loopTexts m (hmem m hm), fun m hm => h.logged m (hmem m hm)⟩
  have hnumbers := ((hperm.map Loop.number).append_right (ended.map fun p => p.1.number)).nodup_iff.mp
    h.numbers
  rw [List.map_append, ← List.append_assoc]
  exact (List.perm_append_singleton l.number _).nodup_iff.mpr hnumbers

end Log

/-! The walks: no loop meets a client twice, whatever the clients do. -/

section Walks

structure Walks (writers : List Nat) (sid : Nat) (c : Cursor Nat) : Prop where
  sound : c.Sound writers
  seen : ∀ client ∈ c.seen, client ≤ sid
  start : ∀ client ∈ c.start, client ≤ sid

variable {writers : List Nat} {sid : Nat} {c c' : Cursor Nat}

lemma Walks.mono (h : Walks writers sid c) : Walks writers (sid + 1) c :=
  ⟨h.sound, fun a ha => (h.seen a ha).trans (Nat.le_succ _),
    fun a ha => (h.start a ha).trans (Nat.le_succ _)⟩

lemma Walks.connect (h : Walks writers sid c) : Walks (writers ++ [sid + 1]) (sid + 1) c := by
  refine ⟨h.sound.append fun hmem => ?_, h.mono.seen, h.mono.start⟩
  have hle := h.seen _ hmem
  omega

lemma Walks.disconnect (h : Walks writers sid c) (client : Nat) : Walks (writers.erase client) sid c :=
  ⟨h.sound.erase client, h.seen, h.start⟩

lemma walks_begin (hbound : ∀ client ∈ writers, client ≤ sid) :
    Walks writers sid (Cursor.begin writers) :=
  ⟨Cursor.sound_begin writers, fun _ ha => absurd ha List.not_mem_nil, hbound⟩

lemma Walks.next (h : Walks writers sid c) (hnodup : writers.Nodup)
    (hbound : ∀ client ∈ writers, client ≤ sid) (hnext : c.next writers = some c') :
    Walks writers sid c' := by
  refine ⟨h.sound.next hnodup hnext, ?_, ?_⟩
  all_goals obtain ⟨a, ha, rfl⟩ := Cursor.next_eq_some_iff.mp hnext
  · intro b hb
    rw [List.mem_append, List.mem_singleton] at hb
    obtain hb | rfl := hb
    · exact h.seen b hb
    · exact hbound b (List.mem_of_getElem? ha)
  · exact h.start

/-- The invariant of all runs. -/
structure BroadcastInv (cfg : LineConfig) (s : Broadcast) : Prop where
  heirs : HeirInv s.hosted
  aligned : Aligned s
  log : LogInv cfg s.hosted.line.taken s.loops s.sends s.ended
  loops : ∀ l ∈ s.loops, Walks s.writers s.hosted.sid l.cursor
  closing : ∀ c ∈ s.closing, Walks s.writers s.hosted.sid c
  ended : ∀ p ∈ s.ended, p.1.cursor.seen.Nodup

variable {cfg : LineConfig} {s : Broadcast}

lemma sendTo_next {l : Loop} {client : Nat} (hi : writers[l.cursor.index]? = some client) :
    l.cursor.next writers = some (l.sendTo client).cursor := by
  rw [Cursor.next_eq_some_iff]
  exact ⟨client, hi, rfl⟩

lemma begin_next {client : Nat} (hhead : writers.head? = some client) :
    (Cursor.begin writers).next writers = some ⟨writers, 1, [client]⟩ := by
  rw [Cursor.next_eq_some_iff]
  refine ⟨client, ?_, rfl⟩
  rwa [Cursor.begin, ← List.head?_eq_getElem?]

lemma broadcastInv_init : BroadcastInv cfg .init :=
  ⟨heirInv_init, rfl, ⟨List.nodup_nil, by simp [Broadcast.init], by simp [Broadcast.init],
    by simp [Broadcast.init]⟩, by simp [Broadcast.init], by simp [Broadcast.init],
    by simp [Broadcast.init]⟩

lemma broadcastInv_take (h : BroadcastInv cfg s) : BroadcastInv cfg (broadcastStep cfg s (.line .take)) := by
  have hheirs : HeirInv (lineStep cfg s.hosted .take) := heirInv_step h.heirs .take
  have hwriters : (s.hosted.line.take cfg).writers = s.hosted.line.writers :=
    take_writers cfg s.hosted.line
  obtain hsame | ⟨q, queue, t, -, -, -, ht, htaken, ⟨jmsg, client, hloop⟩ | hplain⟩ := take_cases cfg s
  · rw [hsame]
    exact h
  · rw [hloop.next]
    have hwalk := (walks_begin h.heirs.bounded).next h.heirs.nodup h.heirs.bounded
      (begin_next hloop.writers)
    refine ⟨hheirs, ?_, ?_, fun l hl => ?_, fun c hc => ?_, h.ended⟩
    · simp only [Aligned, lineStep, hloop.sending, List.map_append, List.map_cons, List.map_nil]
      rw [← h.aligned]
    · dsimp only [lineStep]
      rw [htaken, ← ht]
      exact h.log.take_loop hloop.text client
    · dsimp only [Broadcast.writers, lineStep]
      rw [hwriters]
      rw [List.mem_append, List.mem_singleton] at hl
      obtain hl | rfl := hl
      · exact h.loops l hl
      · exact hwalk
    · dsimp only [Broadcast.writers, lineStep]
      rw [hwriters]
      exact h.closing c hc
  · rw [hplain.next]
    refine ⟨hheirs, ?_, ?_, fun l hl => ?_, fun c hc => ?_, h.ended⟩
    · simp only [Aligned, lineStep, hplain.sending]
      exact h.aligned
    · dsimp only [lineStep]
      rw [htaken]
      exact h.log.take_plain t
    · dsimp only [Broadcast.writers, lineStep]
      rw [hwriters]
      exact h.loops l hl
    · dsimp only [Broadcast.writers, lineStep]
      rw [hwriters]
      exact h.closing c hc

lemma broadcastInv_resume (h : BroadcastInv cfg s) (i : Nat) :
    BroadcastInv cfg (broadcastStep cfg s (.line (.resume i))) := by
  have hheirs : HeirInv (lineStep cfg s.hosted (.resume i)) := heirInv_step h.heirs (.resume i)
  obtain ⟨hwriters, -, htaken⟩ := resume_eq s.hosted.line i
  obtain hsame | ⟨l, hi, ⟨client, hc, hnext, -, hsending⟩ | ⟨-, hnext, -, hsending⟩⟩ :=
    resume_cases cfg h.aligned i
  · rw [hsame]
    exact h
  · rw [hnext]
    have hl := h.loops l (List.mem_of_getElem? hi)
    refine ⟨hheirs, ?_, ?_, fun m hm => ?_, fun c hc => ?_, h.ended⟩
    · simp only [Aligned, lineStep, hsending, List.map_set]
      rw [← h.aligned]
      rfl
    · dsimp only [lineStep]
      rw [htaken]
      exact h.log.advance hi client
    · dsimp only [Broadcast.writers, lineStep]
      rw [hwriters]
      obtain hm | rfl := List.mem_or_eq_of_mem_set hm
      · exact h.loops m hm
      · exact hl.next h.heirs.nodup h.heirs.bounded (sendTo_next hc)
    · dsimp only [Broadcast.writers, lineStep]
      rw [hwriters]
      exact h.closing c hc
  · rw [hnext]
    refine ⟨hheirs, ?_, ?_, fun m hm => ?_, fun c hc => ?_, fun p hp => ?_⟩
    · simp only [Aligned, lineStep, hsending]
      rw [h.aligned, List.eraseIdx_map]
    · dsimp only [lineStep]
      rw [htaken]
      exact h.log.finish hi s.writers
    · dsimp only [Broadcast.writers, lineStep]
      rw [hwriters]
      exact h.loops m (List.mem_of_mem_eraseIdx hm)
    · dsimp only [Broadcast.writers, lineStep]
      rw [hwriters]
      exact h.closing c hc
    · rw [List.mem_append, List.mem_singleton] at hp
      obtain hp | rfl := hp
      · exact h.ended p hp
      · exact (h.loops l (List.mem_of_getElem? hi)).sound.nodup

lemma broadcastInv_line (h : BroadcastInv cfg s) (e : LineEvent) :
    BroadcastInv cfg (broadcastStep cfg s (.line e)) := by
  have hheirs : HeirInv (lineStep cfg s.hosted e) := heirInv_step h.heirs e
  cases e with
  | alloc =>
    exact ⟨hheirs, h.aligned, h.log, fun l hl => (h.loops l hl).mono,
      fun c hc => (h.closing c hc).mono, h.ended⟩
  | connect =>
    exact ⟨hheirs, h.aligned, h.log, fun l hl => (h.loops l hl).connect,
      fun c hc => (h.closing c hc).connect, h.ended⟩
  | disconnect client =>
    exact ⟨hheirs, h.aligned, h.log, fun l hl => (h.loops l hl).disconnect client,
      fun c hc => (h.closing c hc).disconnect client, h.ended⟩
  | put packet => exact ⟨hheirs, h.aligned, h.log, h.loops, h.closing, h.ended⟩
  | take => exact broadcastInv_take h
  | resume i => exact broadcastInv_resume h i
  | sendFailed i =>
    refine ⟨hheirs, ?_, h.log.drop i, fun l hl => h.loops l (List.mem_of_mem_eraseIdx hl),
      h.closing, h.ended⟩
    simp only [Aligned, broadcastStep, Broadcast.observe, lineStep, LineState.sendFailed]
    rw [h.aligned, List.eraseIdx_map]

lemma broadcastInv_step (h : BroadcastInv cfg s) (e : BroadcastEvent) :
    BroadcastInv cfg (broadcastStep cfg s e) := by
  cases e with
  | line e => exact broadcastInv_line h e
  | close =>
    dsimp only [broadcastStep, Broadcast.close]
    cases hnext : (Cursor.begin s.writers).next s.writers with
    | none => exact ⟨h.heirs, h.aligned, h.log, h.loops, h.closing, h.ended⟩
    | some c =>
      refine ⟨h.heirs, h.aligned, h.log, h.loops, fun c' hc' => ?_, h.ended⟩
      rw [List.mem_append, List.mem_singleton] at hc'
      obtain hc' | rfl := hc'
      · exact h.closing c' hc'
      · exact (walks_begin h.heirs.bounded).next h.heirs.nodup h.heirs.bounded hnext
  | closeResume i =>
    dsimp only [broadcastStep, Broadcast.closeResume]
    cases hi : s.closing[i]? with
    | none => exact h
    | some c =>
      dsimp only
      cases hnext : c.next s.writers with
      | none =>
        exact ⟨h.heirs, h.aligned, h.log, h.loops,
          fun c' hc' => h.closing c' (List.mem_of_mem_eraseIdx hc'), h.ended⟩
      | some c' =>
        refine ⟨h.heirs, h.aligned, h.log, h.loops, fun d hd => ?_, h.ended⟩
        obtain hd | rfl := List.mem_or_eq_of_mem_set hd
        · exact h.closing d hd
        · exact (h.closing c (List.mem_of_getElem? hi)).next h.heirs.nodup h.heirs.bounded hnext
  | closeFailed i =>
    exact ⟨h.heirs, h.aligned, h.log, h.loops,
      fun c hc => h.closing c (List.mem_of_mem_eraseIdx hc), h.ended⟩

end Walks

end Nais.Host
