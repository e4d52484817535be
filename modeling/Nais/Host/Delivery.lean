import Nais.Host.Broadcast

/-!
# What the clients of a websocket line receive

A broadcast reaches every client that stays, unless a client that got it leaves in the middle
of it. Messages come in the order of the queue, unless a client connects to an idle line
whose dispatcher is still there.
-/

namespace Nais.Host
open Nais.Lib

/-- Every message with a text was sent exactly once to each client that was connected when it
left the queue and still is at the end of the loop. A line with clients has a dispatcher.
The server of a line closes its clients itself, which a loop of `close` may have missed. -/
structure BroadcastComplete (cfg : LineConfig) (server : Bool) (s : Broadcast) : Prop where
  texts : ∀ x ∈ s.sends, ∃ t, s.hosted.line.taken[x.number]? = some t ∧ Text cfg t x.jmsg
  sent : ∀ n t jmsg, s.hosted.line.taken[n]? = some t → Text cfg t jmsg → t.writers ≠ [] →
    (∃ l ∈ s.loops, l.number = n) ∨ ∃ p ∈ s.ended, p.1.number = n ∧
      ∀ client ∈ t.writers, client ∈ p.2 → (sentTo s.sends n).count client = 1
  closed : ∀ p ∈ s.closed, ∀ client ∈ p.1.start, client ∈ p.2 → client ∈ p.1.seen ∨ server = true
  alive : s.writers ≠ [] → 0 < s.hosted.line.waiting + s.hosted.line.sending.length

/-- No client that a loop has passed leaves while another one, connected since the loop
began, stands at its position; nothing raises in a loop. -/
def PassesOverNobody (cfg : LineConfig) (server : Bool) (s : Broadcast) : BroadcastEvent → Prop
  | .line (.disconnect client) => (∀ l ∈ s.loops, l.cursor.Spares s.writers client) ∧
      (server = false → ∀ c ∈ s.closing, c.Spares s.writers client)
  | .line .take => ∀ q ∈ s.hosted.line.queue.head?, 0 < s.hosted.line.waiting →
      ∀ e, cfg.toJson q.packet ≠ .error e
  | .line (.sendFailed i) => s.loops.length ≤ i
  | .closeFailed i => s.closing.length ≤ i
  | _ => True

/-- At most one coroutine of the line is in `dispatch`. -/
def OneDispatcher (s : Broadcast) : Prop :=
  s.hosted.line.waiting + s.hosted.line.sending.length ≤ 1

/-- A client that connects to a line without writers finds no dispatcher. -/
def StartsAlone (s : Broadcast) : BroadcastEvent → Prop
  | .line .connect => s.writers = [] → s.hosted.line.waiting + s.hosted.line.sending.length = 0
  | _ => True

/-- The numbers of messages are their positions in the order in which they were queued, and
each client receives messages in this order, none of them twice. -/
structure InOrder (cfg : LineConfig) (s : Broadcast) : Prop where
  texts : ∀ x ∈ s.sends, ∃ packet, s.hosted.line.messages[x.number]? = some packet ∧
    cfg.toJson packet = .ok (some x.jmsg)
  increasing : ∀ client,
    ((s.sends.filter fun x => x.client = client).map Sent.number).Pairwise (· < ·)

def BroadcastEvent.message? : BroadcastEvent → Option Packet
  | .line e => e.message?
  | _ => none

section Complete

/-- What the runs that pass over nobody preserve. -/
structure Unskipped (cfg : LineConfig) (server : Bool) (s : Broadcast) : Prop where
  fair : ∀ l ∈ s.loops, l.cursor.Fair s.writers
  closingFair : server = false → ∀ c ∈ s.closing, c.Fair s.writers
  covered : ∀ n t jmsg, s.hosted.line.taken[n]? = some t → Text cfg t jmsg → t.writers ≠ [] →
    ∃ l ∈ s.loops ++ s.ended.map Prod.fst, l.number = n
  ended : ∀ p ∈ s.ended, ∀ client ∈ p.1.cursor.start, client ∈ p.2 → client ∈ p.1.cursor.seen
  closed : ∀ p ∈ s.closed, ∀ client ∈ p.1.start, client ∈ p.2 → client ∈ p.1.seen ∨ server = true
  alive : s.writers ≠ [] → 0 < s.hosted.line.waiting + s.hosted.line.sending.length

variable {cfg : LineConfig} {server : Bool} {s : Broadcast}

lemma unskipped_init : Unskipped cfg server .init := by
  constructor <;> simp [Broadcast.init, Broadcast.writers, HostedLine.init, LineState.init]

/-- A message that was sent to each client on its way is complete. -/
lemma Unskipped.complete (h : Unskipped cfg server s) (hinv : BroadcastInv cfg s) :
    BroadcastComplete cfg server s := by
  refine ⟨hinv.log.texts, fun n t jmsg ht htext hne => ?_, h.closed, h.alive⟩
  obtain ⟨l, hl, rfl⟩ := h.covered n t jmsg ht htext hne
  obtain ⟨t', ht', -, hstart⟩ := hinv.log.loopTexts l hl
  have hlogged := hinv.log.logged l hl
  rw [ht', Option.some.injEq] at ht
  subst ht
  rw [List.mem_append] at hl
  refine hl.imp (fun hrun => ⟨l, hrun, rfl⟩) fun hend => ?_
  obtain ⟨p, hp, rfl⟩ := List.mem_map.mp hend
  refine ⟨p, hp, rfl, fun client hclient hstays => ?_⟩
  rw [hlogged]
  rw [hstart] at hclient
  exact List.count_eq_one_of_mem (hinv.ended p hp) (h.ended p hp client hclient hstays)

lemma unskipped_take (h : Unskipped cfg server s)
    (hkind : cfg.kind = .websocket) (hok : PassesOverNobody cfg server s (.line .take)) :
    Unskipped cfg server (broadcastStep cfg s (.line .take)) := by
  have hwriters : (s.hosted.line.take cfg).writers = s.hosted.line.writers :=
    take_writers cfg s.hosted.line
  obtain hsame | ⟨q, queue, t, hq, hw, hpacket, ht, htaken, ⟨jmsg, client, hloop⟩ | hplain⟩ :=
    take_cases cfg s
  · rw [hsame]
    exact h
  · rw [hloop.next]
    refine ⟨fun l hl => ?_, ?_, fun n u j hu hj hne => ?_, h.ended, h.closed, fun _ => ?_⟩
    · dsimp only [Broadcast.writers, lineStep]
      rw [hwriters]
      rw [List.mem_append, List.mem_singleton] at hl
      obtain hl | rfl := hl
      · exact h.fair l hl
      · exact (Cursor.fair_begin s.writers).next (begin_next hloop.writers)
    · dsimp only [Broadcast.writers, lineStep]
      rw [hwriters]
      exact h.closingFair
    · dsimp only [lineStep] at hu
      rw [htaken] at hu
      obtain hold | ⟨rfl, -⟩ := getElem?_of_taken_append hu
      · obtain ⟨l, hl, rfl⟩ := h.covered n u j hold hj hne
        refine ⟨l, ?_, rfl⟩
        simp only [List.mem_append] at hl ⊢
        exact hl.imp_left Or.inl
      · exact ⟨⟨s.hosted.line.taken.length, jmsg, ⟨s.writers, 1, [client]⟩⟩, by simp, rfl⟩
    · dsimp only [lineStep]
      rw [hloop.sending, List.length_append, List.length_singleton]
      omega
  · rw [hplain.next]
    refine ⟨?_, ?_, fun n u j hu hj hne => ?_, h.ended, h.closed, fun hne => ?_⟩
    · dsimp only [Broadcast.writers, lineStep]
      rw [hwriters]
      exact h.fair
    · dsimp only [Broadcast.writers, lineStep]
      rw [hwriters]
      exact h.closingFair
    · dsimp only [lineStep] at hu
      rw [htaken] at hu
      obtain hold | ⟨-, rfl⟩ := getElem?_of_taken_append hu
      · exact h.covered n u j hold hj hne
      · exact absurd (ht.trans (hplain.text hkind j hj)) hne
    · dsimp only [Broadcast.writers, lineStep] at hne ⊢
      rw [hwriters] at hne
      have halive := h.alive hne
      rw [hplain.sending]
      obtain hwait | ⟨-, writes, hstops⟩ := hplain.waiting
      · rw [hwait]
        exact halive
      · exfalso
        obtain ⟨e, hjson⟩ := toJson_error_of_stops hkind hstops
        rw [hpacket] at hjson
        exact hok q (by rw [hq]; rfl) hw e hjson

lemma unskipped_resume (h : Unskipped cfg server s) (hinv : BroadcastInv cfg s) (i : Nat) :
    Unskipped cfg server (broadcastStep cfg s (.line (.resume i))) := by
  obtain ⟨hwriters, -, htaken⟩ := resume_eq s.hosted.line i
  obtain hsame | ⟨l, hi, ⟨client, hc, hnext, hwait, hsending⟩ | ⟨hend, hnext, hwait, hsending⟩⟩ :=
    resume_cases cfg hinv.aligned i
  · rw [hsame]
    exact h
  · rw [hnext]
    have hmem := List.mem_of_getElem? hi
    refine ⟨fun m hm => ?_, ?_, fun n u j hu hj hne => ?_, h.ended, h.closed, fun hne => ?_⟩
    · dsimp only [Broadcast.writers, lineStep]
      rw [hwriters]
      obtain hm | rfl := List.mem_or_eq_of_mem_set hm
      · exact h.fair m hm
      · exact (h.fair l hmem).next (sendTo_next hc)
    · dsimp only [Broadcast.writers, lineStep]
      rw [hwriters]
      exact h.closingFair
    · dsimp only [lineStep] at hu
      rw [htaken] at hu
      obtain ⟨m, hm, rfl⟩ := h.covered n u j hu hj hne
      obtain ⟨hperm, hperm'⟩ := loops_perm hi (l.sendTo client)
      rw [List.mem_append, hperm.mem_iff, List.mem_cons] at hm
      obtain (rfl | hrest) | hended := hm
      · exact ⟨m.sendTo client, List.mem_append_left _ (hperm'.mem_iff.mpr List.mem_cons_self), rfl⟩
      · exact ⟨m, List.mem_append_left _ (hperm'.mem_iff.mpr (List.mem_cons_of_mem _ hrest)), rfl⟩
      · exact ⟨m, List.mem_append_right _ hended, rfl⟩
    · dsimp only [Broadcast.writers, lineStep] at hne ⊢
      rw [hwriters] at hne
      rw [hwait, hsending, List.length_set]
      exact h.alive hne
  · rw [hnext]
    have hmem := List.mem_of_getElem? hi
    refine ⟨fun m hm => ?_, ?_, fun n u j hu hj hne => ?_, fun p hp => ?_, h.closed, fun _ => ?_⟩
    · dsimp only [Broadcast.writers, lineStep]
      rw [hwriters]
      exact h.fair m (List.mem_of_mem_eraseIdx hm)
    · dsimp only [Broadcast.writers, lineStep]
      rw [hwriters]
      exact h.closingFair
    · dsimp only [lineStep] at hu
      rw [htaken] at hu
      obtain ⟨m, hm, rfl⟩ := h.covered n u j hu hj hne
      obtain ⟨hperm, -⟩ := loops_perm hi l
      rw [List.mem_append, hperm.mem_iff, List.mem_cons] at hm
      refine ⟨m, ?_, rfl⟩
      simp only [List.map_append, List.mem_append, List.map_cons, List.map_nil, List.mem_singleton]
      tauto
    · rw [List.mem_append, List.mem_singleton] at hp
      obtain hp | rfl := hp
      · exact h.ended p hp
      · apply (h.fair l hmem).at_end
        rw [Cursor.next, hend]
        rfl
    · dsimp only [lineStep]
      rw [hwait]
      omega

lemma unskipped_line (h : Unskipped cfg server s) (hinv : BroadcastInv cfg s)
    (hkind : cfg.kind = .websocket) (e : LineEvent) (hok : PassesOverNobody cfg server s (.line e)) :
    Unskipped cfg server (broadcastStep cfg s (.line e)) := by
  cases e with
  | alloc => exact ⟨h.fair, h.closingFair, h.covered, h.ended, h.closed, h.alive⟩
  | connect =>
    have hfresh : ∀ {c : Cursor Nat}, Walks s.writers s.hosted.sid c → s.hosted.sid + 1 ∉ c.start := by
      intro c hc hmem
      have hle := hc.start _ hmem
      omega
    refine ⟨fun l hl => (h.fair l hl).append (hfresh (hinv.loops l hl)),
      fun hserver c hc => (h.closingFair hserver c hc).append (hfresh (hinv.closing c hc)),
      h.covered, h.ended, h.closed, fun _ => ?_⟩
    have halive := h.alive
    dsimp only [broadcastStep, lineStep, LineState.connect, Broadcast.writers] at halive ⊢
    split_ifs with hnil
    · omega
    · exact halive hnil
  | disconnect client =>
    refine ⟨fun l hl => (h.fair l hl).erase hinv.heirs.nodup (hok.1 l hl),
      fun hserver c hc => (h.closingFair hserver c hc).erase hinv.heirs.nodup (hok.2 hserver c hc),
      h.covered, h.ended, h.closed, fun hne => h.alive fun hnil => hne ?_⟩
    dsimp only [broadcastStep, lineStep, LineState.disconnect, Broadcast.writers, Broadcast.observe]
      at hnil ⊢
    rw [hnil]
    rfl
  | put packet => exact ⟨h.fair, h.closingFair, h.covered, h.ended, h.closed, h.alive⟩
  | take => exact unskipped_take h hkind hok
  | resume i => exact unskipped_resume h hinv i
  | sendFailed i =>
    have hlen : s.loops.length ≤ i := hok
    have hlen' : s.hosted.line.sending.length ≤ i := by
      rw [hinv.aligned, List.length_map]
      exact hlen
    have hsame : broadcastStep cfg s (.line (.sendFailed i)) = s := by
      simp [broadcastStep, Broadcast.observe, lineStep, LineState.sendFailed,
        List.eraseIdx_of_length_le hlen, List.eraseIdx_of_length_le hlen']
    rw [hsame]
    exact h

lemma unskipped_step (h : Unskipped cfg server s) (hinv : BroadcastInv cfg s)
    (hkind : cfg.kind = .websocket) (e : BroadcastEvent) (hok : PassesOverNobody cfg server s e) :
    Unskipped cfg server (broadcastStep cfg s e) := by
  cases e with
  | line e => exact unskipped_line h hinv hkind e hok
  | close =>
    dsimp only [broadcastStep, Broadcast.close]
    cases hnext : (Cursor.begin s.writers).next s.writers with
    | none =>
      refine ⟨h.fair, h.closingFair, h.covered, h.ended, fun p hp => ?_, h.alive⟩
      rw [List.mem_append, List.mem_singleton] at hp
      obtain hp | rfl := hp
      · exact h.closed p hp
      · intro client hclient hstays
        exact Or.inl ((Cursor.fair_begin s.writers).at_end hnext client hclient hstays)
    | some c =>
      refine ⟨h.fair, fun hserver c' hc' => ?_, h.covered, h.ended, h.closed, h.alive⟩
      rw [List.mem_append, List.mem_singleton] at hc'
      obtain hc' | rfl := hc'
      · exact h.closingFair hserver c' hc'
      · exact (Cursor.fair_begin s.writers).next hnext
  | closeResume i =>
    dsimp only [broadcastStep, Broadcast.closeResume]
    cases hi : s.closing[i]? with
    | none => exact h
    | some c =>
      have hmem := List.mem_of_getElem? hi
      dsimp only
      cases hnext : c.next s.writers with
      | none =>
        refine ⟨h.fair, fun hserver c' hc' => h.closingFair hserver c' (List.mem_of_mem_eraseIdx hc'),
          h.covered, h.ended, fun p hp => ?_, h.alive⟩
        rw [List.mem_append, List.mem_singleton] at hp
        obtain hp | rfl := hp
        · exact h.closed p hp
        · intro client hclient hstays
          cases server with
          | true => exact Or.inr rfl
          | false => exact Or.inl ((h.closingFair rfl c hmem).at_end hnext client hclient hstays)
      | some c' =>
        refine ⟨h.fair, fun hserver d hd => ?_, h.covered, h.ended, h.closed, h.alive⟩
        obtain hd | rfl := List.mem_or_eq_of_mem_set hd
        · exact h.closingFair hserver d hd
        · exact (h.closingFair hserver c hmem).next hnext
  | closeFailed i =>
    have hlen : s.closing.length ≤ i := hok
    have hsame : broadcastStep cfg s (.closeFailed i) = s := by
      simp [broadcastStep, List.eraseIdx_of_length_le hlen]
    rw [hsame]
    exact h

/-- In every run that passes over nobody, what is broadcast is complete in every state. -/
theorem ws_broadcast_complete (toJson : Packet → Except PyErr (Option (List UInt8))) (server : Bool)
    (es : List BroadcastEvent)
    (h : Run.Meets (broadcastStep ⟨.websocket, toJson⟩)
      (PassesOverNobody ⟨.websocket, toJson⟩ server) .init es) :
    Run.Throughout (broadcastStep ⟨.websocket, toJson⟩)
      (BroadcastComplete ⟨.websocket, toJson⟩ server) .init es := by
  have hall := Run.throughout_of_meets (PassesOverNobody ⟨.websocket, toJson⟩ server)
    (fun s => BroadcastInv ⟨.websocket, toJson⟩ s ∧ Unskipped ⟨.websocket, toJson⟩ server s)
    (fun s e hs hok => ⟨broadcastInv_step hs.1 e, unskipped_step hs.2 hs.1 rfl e hok⟩)
    ⟨broadcastInv_init, unskipped_init⟩ h
  exact hall.mono fun s hs => hs.2.complete hs.1

/-- Every message is its own text. -/
def sampleJson (packet : Packet) : Except PyErr (Option (List UInt8)) := .ok packet.data.bytes?

def sampleMessage : Packet := ⟨.bytes [0x61], 9, none, 0⟩

/-- The second client leaves once it got the message. -/
theorem ws_broadcast_complete_two_clients :
    Run.Throughout (broadcastStep ⟨.websocket, sampleJson⟩)
      (BroadcastComplete ⟨.websocket, sampleJson⟩ true) .init
      [.line .connect, .line .connect, .line (.put sampleMessage), .line .take, .line (.resume 0),
        .line (.disconnect 2), .line (.resume 0)] := by
  apply ws_broadcast_complete sampleJson true
  refine ⟨trivial, trivial, trivial, ?_, trivial, ⟨?_, nofun⟩, trivial, trivial⟩
  · intro q hq hw e
    cases hq
    exact nofun
  · intro l hl hmem b hb
    cases hl with
    | head => cases hb
    | tail _ hl => cases hl

/-- The client that got the message first leaves during the broadcast. -/
theorem ws_broadcast_skips_client :
    ¬∀ toJson server es, Run.Throughout (broadcastStep ⟨.websocket, toJson⟩)
      (BroadcastComplete ⟨.websocket, toJson⟩ server) .init es := by
  intro h
  have hlast := (h sampleJson true [.line .connect, .line .connect, .line .connect,
    .line (.put sampleMessage), .line .take, .line (.disconnect 1), .line (.resume 0),
    .line (.resume 0)]).last
  have hsent := hlast.sent 0 _ [0x61] rfl ⟨rfl, by decide⟩ (by decide)
  obtain ⟨l, hl, -⟩ | ⟨p, hp, -, hcount⟩ := hsent
  · cases hl
  · cases hp with
    | head =>
      have htwo := hcount 2 (by decide) (by decide)
      revert htwo
      decide
    | tail _ hp => cases hp

end Complete

section Order

variable {cfg : LineConfig} {s : Broadcast}

/-- Only a connect makes a dispatcher. -/
lemma oneDispatcher_step_iff (hinv : BroadcastInv cfg s) (h : OneDispatcher s) (e : BroadcastEvent) :
    OneDispatcher (broadcastStep cfg s e) ↔ StartsAlone s e := by
  unfold OneDispatcher at h ⊢
  cases e with
  | line e =>
    cases e with
    | alloc => exact iff_of_true h trivial
    | connect =>
      dsimp only [broadcastStep, lineStep, LineState.connect, StartsAlone, Broadcast.writers]
      split_ifs with hnil
      · simp only [hnil, forall_const]
        omega
      · simpa [hnil] using h
    | disconnect client => exact iff_of_true h trivial
    | put packet => exact iff_of_true h trivial
    | take =>
      refine iff_of_true ?_ trivial
      obtain hsame | ⟨q, queue, t, -, hw, -, -, -, ⟨jmsg, client, hloop⟩ | hplain⟩ := take_cases cfg s
      · rw [hsame]
        exact h
      · rw [hloop.next]
        dsimp only [lineStep]
        rw [hloop.waiting, hloop.sending, List.length_append, List.length_singleton]
        omega
      · rw [hplain.next]
        dsimp only [lineStep]
        rw [hplain.sending]
        obtain hwait | ⟨hwait, -⟩ := hplain.waiting <;> omega
    | resume i =>
      refine iff_of_true ?_ trivial
      obtain hsame | ⟨l, hi, ⟨client, -, hnext, hwait, hsending⟩ | ⟨-, hnext, hwait, hsending⟩⟩ :=
        resume_cases cfg hinv.aligned i
      · rw [hsame]
        exact h
      · rw [hnext]
        dsimp only [lineStep]
        rw [hwait, hsending, List.length_set]
        exact h
      · rw [hnext]
        have hlt : i < s.hosted.line.sending.length := by
          rw [hinv.aligned, List.length_map]
          exact (List.getElem?_eq_some_iff.mp hi).1
        dsimp only [lineStep]
        rw [hwait, hsending, List.length_eraseIdx_of_lt hlt]
        omega
    | sendFailed i =>
      refine iff_of_true ?_ trivial
      have hle := List.length_eraseIdx_le s.hosted.line.sending i
      dsimp only [broadcastStep, lineStep, LineState.sendFailed]
      omega
  | close =>
    refine iff_of_true ?_ trivial
    dsimp only [broadcastStep, Broadcast.close]
    split <;> exact h
  | closeResume i =>
    refine iff_of_true ?_ trivial
    dsimp only [broadcastStep, Broadcast.closeResume]
    split
    · exact h
    · split <;> exact h
  | closeFailed i => exact iff_of_true h trivial

/-- Sends in the order of the queue, the running loop being the last. -/
structure OrderInv (s : Broadcast) : Prop where
  increasing : ∀ client,
    ((s.sends.filter fun x => x.client = client).map Sent.number).Pairwise (· < ·)
  last : ∀ l ∈ s.loops, ∀ x ∈ s.sends, x.number ≤ l.number

lemma inOrder_append {sends : List Sent} {y : Sent}
    (h : ∀ client, ((sends.filter fun x => x.client = client).map Sent.number).Pairwise (· < ·))
    (hy : ∀ x ∈ sends, x.client = y.client → x.number < y.number) (client : Nat) :
    (((sends ++ [y]).filter fun x => x.client = client).map Sent.number).Pairwise (· < ·) := by
  rw [List.filter_append, List.map_append, List.pairwise_append]
  refine ⟨h client, ?_, ?_⟩
  · by_cases hc : y.client = client <;> simp [hc]
  · intro n hn m hm
    simp only [List.mem_map, List.mem_filter, decide_eq_true_eq, List.mem_singleton] at hn hm
    obtain ⟨x, ⟨hx, hxc⟩, rfl⟩ := hn
    obtain ⟨z, ⟨rfl, hzc⟩, rfl⟩ := hm
    exact hy x hx (hxc.trans hzc.symm)

/-- With one dispatcher, a message is taken when no loop runs. -/
lemma loops_nil_of_waiting (hinv : BroadcastInv cfg s) (h : OneDispatcher s)
    (hw : 0 < s.hosted.line.waiting) : s.loops = [] := by
  have hlen : s.hosted.line.sending.length = s.loops.length := by
    rw [hinv.aligned, List.length_map]
  unfold OneDispatcher at h
  rw [← List.length_eq_zero_iff]
  omega

lemma orderInv_take (h : OrderInv s) (hinv : BroadcastInv cfg s) (hone : OneDispatcher s) :
    OrderInv (broadcastStep cfg s (.line .take)) := by
  obtain hsame | ⟨q, queue, t, -, hw, -, -, -, ⟨jmsg, client, hloop⟩ | hplain⟩ := take_cases cfg s
  · rw [hsame]
    exact h
  · rw [hloop.next]
    have hbelow : ∀ x ∈ s.sends, x.number < s.hosted.line.taken.length := by
      intro x hx
      obtain ⟨u, hu, -⟩ := hinv.log.texts x hx
      exact (List.getElem?_eq_some_iff.mp hu).1
    constructor
    · exact inOrder_append h.increasing fun x hx _ => hbelow x hx
    · intro l hl x hx
      simp only [loops_nil_of_waiting hinv hone hw, List.nil_append, List.mem_singleton] at hl
      rw [List.mem_append, List.mem_singleton] at hx
      subst hl
      obtain hx | rfl := hx
      · exact (hbelow x hx).le
      · exact le_rfl
  · rw [hplain.next]
    exact ⟨h.increasing, h.last⟩

lemma loop_unique (hinv : BroadcastInv cfg s) (h : OneDispatcher s) {l m : Loop}
    (hl : l ∈ s.loops) (hm : m ∈ s.loops) : m = l := by
  have hlen : s.hosted.line.sending.length = s.loops.length := by
    rw [hinv.aligned, List.length_map]
  unfold OneDispatcher at h
  have hone : s.loops.length = 1 := by
    have hpos := List.length_pos_of_mem hl
    omega
  obtain ⟨k, hk⟩ := List.length_eq_one_iff.mp hone
  rw [hk, List.mem_singleton] at hl hm
  rw [hl, hm]

lemma orderInv_resume (h : OrderInv s) (hinv : BroadcastInv cfg s) (hone : OneDispatcher s) (i : Nat) :
    OrderInv (broadcastStep cfg s (.line (.resume i))) := by
  obtain hsame | ⟨l, hi, ⟨client, hc, hnext, -, -⟩ | ⟨-, hnext, -, -⟩⟩ :=
    resume_cases cfg hinv.aligned i
  · rw [hsame]
    exact h
  · rw [hnext]
    have hmem := List.mem_of_getElem? hi
    constructor
    · refine inOrder_append h.increasing fun x hx hclient => ?_
      refine lt_of_le_of_ne (h.last l hmem x hx) fun hnumber => ?_
      -- a second send of the same loop to the client
      have hlogged := hinv.log.logged l (List.mem_append_left _ hmem)
      have hseen : client ∈ l.cursor.seen := by
        rw [← hlogged, sentTo, List.mem_map]
        exact ⟨x, List.mem_filter.mpr ⟨hx, by simpa using hnumber⟩, hclient⟩
      apply (hinv.loops l hmem).sound.apart client hseen
      rw [Cursor.drop_of_getElem? hc]
      exact List.mem_cons_self
    · intro m hm x hx
      rw [List.mem_append, List.mem_singleton] at hx
      obtain hm | rfl := List.mem_or_eq_of_mem_set hm
      · obtain hx | rfl := hx
        · exact h.last m hm x hx
        · rw [loop_unique hinv hone hmem hm]
      · obtain hx | rfl := hx
        · exact h.last l hmem x hx
        · exact le_rfl
  · rw [hnext]
    exact ⟨h.increasing, fun m hm => h.last m (List.mem_of_mem_eraseIdx hm)⟩

lemma orderInv_step (h : OrderInv s) (hinv : BroadcastInv cfg s) (hone : OneDispatcher s)
    (e : BroadcastEvent) : OrderInv (broadcastStep cfg s e) := by
  cases e with
  | line e =>
    cases e with
    | take => exact orderInv_take h hinv hone
    | resume i => exact orderInv_resume h hinv hone i
    | sendFailed i => exact ⟨h.increasing, fun l hl => h.last l (List.mem_of_mem_eraseIdx hl)⟩
    | _ => exact ⟨h.increasing, h.last⟩
  | close =>
    dsimp only [broadcastStep, Broadcast.close]
    split <;> exact ⟨h.increasing, h.last⟩
  | closeResume i =>
    dsimp only [broadcastStep, Broadcast.closeResume]
    split
    · exact h
    · split <;> exact ⟨h.increasing, h.last⟩
  | closeFailed i => exact ⟨h.increasing, h.last⟩

lemma orderInv_init : OrderInv .init := by
  constructor
  · intro client
    exact List.Pairwise.nil
  · simp [Broadcast.init]

lemma inOrder_of_inv (h : OrderInv s) (hinv : BroadcastInv cfg s) : InOrder cfg s := by
  refine ⟨fun x hx => ?_, h.increasing⟩
  obtain ⟨t, ht, htext⟩ := hinv.log.texts x hx
  refine ⟨t.packet, ?_, htext.1⟩
  obtain ⟨hlt, -⟩ := List.getElem?_eq_some_iff.mp ht
  rw [LineState.messages, List.getElem?_append_left (by rwa [List.length_map]), List.getElem?_map, ht]
  rfl

/-- The messages that left the queue or are in it, in the order in which they were put there. -/
lemma broadcast_messages_run (s : Broadcast) (es : List BroadcastEvent) :
    (Run.run (broadcastStep cfg) s es).hosted.line.messages =
      s.hosted.line.messages ++ es.filterMap BroadcastEvent.message? := by
  induction es generalizing s with
  | nil => simp [Run.run]
  | cons e es ih =>
    have hstep : (broadcastStep cfg s e).hosted.line.messages =
        s.hosted.line.messages ++ e.message?.toList := by
      cases e with
      | line e => exact messages_step cfg s.hosted e
      | close =>
        dsimp only [broadcastStep, Broadcast.close]
        split <;> simp [BroadcastEvent.message?]
      | closeResume i =>
        dsimp only [broadcastStep, Broadcast.closeResume]
        split
        · simp [BroadcastEvent.message?]
        · split <;> simp [BroadcastEvent.message?]
      | closeFailed i => simp [broadcastStep, BroadcastEvent.message?]
    rw [Run.run, List.foldl_cons, ← Run.run, ih, hstep]
    cases he : e.message? <;> simp [he]

/-- A line never has two dispatchers exactly when no client connects to it while it has a
dispatcher and no writers. Then each client gets messages in the order in which they were
queued. -/
theorem one_dispatcher_iff (cfg : LineConfig) (es : List BroadcastEvent) :
    (Run.Throughout (broadcastStep cfg) OneDispatcher .init es ↔
      Run.Meets (broadcastStep cfg) StartsAlone .init es) ∧
    (Run.Meets (broadcastStep cfg) StartsAlone .init es →
      Run.Throughout (broadcastStep cfg) (InOrder cfg) .init es ∧
        (Run.run (broadcastStep cfg) .init es).hosted.line.messages =
          es.filterMap BroadcastEvent.message?) := by
  have hinit : OneDispatcher .init := by
    simp [OneDispatcher, Broadcast.init, HostedLine.init, LineState.init]
  constructor
  · exact Run.throughout_iff_meets StartsAlone (BroadcastInv cfg) OneDispatcher
      (fun s e h => broadcastInv_step h e) (fun s e hinv h => oneDispatcher_step_iff hinv h e)
      broadcastInv_init hinit
  · intro h
    have hall := Run.throughout_of_meets StartsAlone
      (fun s => BroadcastInv cfg s ∧ OneDispatcher s ∧ OrderInv s)
      (fun s e hs hok => ⟨broadcastInv_step hs.1 e,
        (oneDispatcher_step_iff hs.1 hs.2.1 e).mpr hok, orderInv_step hs.2.2 hs.1 hs.2.1 e⟩)
      ⟨broadcastInv_init, hinit, orderInv_init⟩ h
    refine ⟨hall.mono fun s hs => inOrder_of_inv hs.2.2 hs.1, ?_⟩
    rw [broadcast_messages_run]
    rfl

def laterMessage : Packet := ⟨.bytes [0x62], 9, none, 0⟩

/-- Two clients get two messages. -/
def twoMessages : List BroadcastEvent :=
  [.line .connect, .line .connect, .line (.put sampleMessage), .line (.put laterMessage), .line .take,
    .line (.resume 0), .line (.resume 0), .line .take, .line (.resume 0), .line (.resume 0)]

theorem one_dispatcher_in_order :
    Run.Throughout (broadcastStep ⟨.websocket, sampleJson⟩) (InOrder ⟨.websocket, sampleJson⟩) .init
        twoMessages ∧
      ((Run.run (broadcastStep ⟨.websocket, sampleJson⟩) .init twoMessages).sends.map fun x =>
        (x.client, x.number, x.jmsg)) = [(1, 0, [0x61]), (2, 0, [0x61]), (1, 1, [0x62]), (2, 1, [0x62])] := by
  have hstarts : Run.Meets (broadcastStep ⟨.websocket, sampleJson⟩) StartsAlone .init twoMessages :=
    ⟨fun _ => rfl, fun hnone => absurd hnone (by decide), trivial, trivial, trivial, trivial, trivial, trivial,
      trivial, trivial, trivial⟩
  exact ⟨((one_dispatcher_iff ⟨.websocket, sampleJson⟩ twoMessages).2 hstarts).1, by decide⟩

/-- The dispatcher outlives the first client, and the second one starts another. -/
theorem one_dispatcher_fails :
    ¬∀ cfg es, Run.Throughout (broadcastStep cfg) OneDispatcher .init es := by
  intro h
  have hlast := (h ⟨.websocket, sampleJson⟩
    [.line .connect, .line (.disconnect 1), .line .connect]).last
  revert hlast
  unfold OneDispatcher
  decide

end Order

end Nais.Host
