import Nais.Board.ConfigPath
import Nais.Board.TcpServer

/-!
# Setting up an MQTT session

`bocia_mqtt_init` of `sys/bocia/bocia_mqtt.c` as a whole: the configuration, the topic, the
connection with its first packet, and the subscription. A packet is taken for an answer to the
CONNECT packet whatever its type is, as long as it is no CONNACK that refuses.
-/

namespace Nais.Board.Connections.MqttInit

open Nais.Lib Nais.Lib.Memory Mqtt ConfigPath

/-- The results of `sl_Socket` and `sl_Connect`, the answers to the reads, and what
`connack_rc` holds before it is set. -/
structure Call where
  pid : ℕ
  sock : ℤ
  sts : ℤ
  answers : List Recv
  stale : UInt8

/-- `subscriptions` are the descriptors and the topics of the calls of `mqtt_subscribe`. -/
structure Outcome where
  state : State
  subscriptions : List (ℤ × List UInt8)
  result : Option Slot

/-- `bocia_get_config` finds `stored`. -/
def bociaMqttInit (s : State) (cfg stored : Option Config) (topicBuff : Buffer 64) (c : Call) :
    Except Fault Outcome := do
  match cfg <|> stored with
  | none => .ok ⟨s, [], none⟩
  | some cfg =>
    let topicBuff ← mqttTopic cfg topicBuff
    let sock := (mqttConnect s.disconnect.sockets c.sock c.sts c.answers c.stale).1
    let s := s.bociaMqttInit c.pid c.sock c.sts c.answers c.stale
    let topic := cString (topicBuff.bytes.drop TOPIC_PREFIX.length)
    .ok ⟨s, if 0 < sock then [(sock, topic)] else [], s.mqttHandler⟩

/-- The first packet is a CONNACK with the return code 0. -/
def ConnackZero (answers : List Recv) : Prop :=
  ∃ header flags rest, wholePacket answers = some (packet header (flags :: 0 :: rest)) ∧
    header.toNat >>> 4 = CONNACK

/-- The first packet is no CONNACK, or one without a return code where that happens to be 0. -/
def Stray (answers : List Recv) (stale : UInt8) : Prop :=
  ∃ header body, wholePacket answers = some (packet header body) ∧
    (header.toNat >>> 4 ≠ CONNACK ∨ body.length < 2 ∧ stale = 0)

/-- A slot that was free has a descriptor. -/
def Registers (fdMap : FdMap) (o : Outcome) : Prop :=
  ∃ i, (fdMap i).fd = 0 ∧ (o.state.fdMap i).fd ≠ 0

/-- No slot has the descriptor. A slot with a 0 is free. -/
def Unheld (fdMap : FdMap) (fd : ℤ) : Prop := ∀ i, (fdMap i).fd = fd → fd = 0

/-- In a ledger that was empty, the descriptor was closed, and none was closed again. -/
def ClosedOnce (l : Sockets) (fd : ℤ) : Prop := fd ∉ l.live ∧ fd ∈ l.released ∧ l.twice = false

def Established (c : Call) : Prop := 0 ≤ c.sock ∧ 0 ≤ c.sts ∧ ConnackZero c.answers

/-- What is to hold of a call that starts with the table and an empty ledger. -/
structure SetUp (fdMap : FdMap) (c : Call) (o : Outcome) : Prop where
  accepted : Registers fdMap o ∨ o.subscriptions ≠ [] → Established c
  otherwise : ¬(Registers fdMap o ∧ o.subscriptions ≠ []) → o.result = none ∧
    ∀ fd, fd ∈ o.state.sockets.live ∨ fd ∈ o.state.sockets.released →
      ClosedOnce o.state.sockets fd ∧ Unheld o.state.fdMap fd

/-- The call returns, and sets up a session as it should. -/
def SetsUp (s : State) (cfg stored : Option Config) (topicBuff : Buffer 64) (c : Call) : Prop :=
  ∃ o, bociaMqttInit { s with sockets := .empty } cfg stored topicBuff c = .ok o ∧
    SetUp s.fdMap c o

/-- What the table, the socket calls and the first packet must be like. -/
structure Proper (fdMap : FdMap) (c : Call) : Prop where
  unconnected : c.sts < 0 → Unheld fdMap c.sock
  connack : 0 ≤ c.sts → ConnackZero c.answers →
    (0 < c.sock ∧ ∃ i, (fdMap i).fd = 0) ∨ packetEnds c.answers = 1 ∧ Unheld fdMap c.sock
  stray : 0 ≤ c.sts → Stray c.answers c.stale → c.sock = 0 ∧ packetEnds c.answers = 1
  refused : 0 ≤ c.sts → ¬ConnackZero c.answers → ¬Stray c.answers c.stale →
    packetEnds c.answers = 0 ∧ Unheld fdMap c.sock

section FirstPacket

variable {answers : List Recv} {stale : UInt8}

lemma accepted_iff : Accepted answers stale ↔ ConnackZero answers ∨ Stray answers stale := by
  constructor
  · rintro ⟨buf, hbuf, haccepts⟩
    obtain ⟨⟨header, body, rfl⟩, -⟩ := exists_packet hbuf
    rw [packetType_packet] at haccepts
    by_cases htype : header.toNat >>> 4 = CONNACK
    · have hrefused := connackRefused_packet hbuf htype stale
      have hcode : (if body.length < 2 then stale else body.getD 1 0) = 0 := by
        by_contra hne
        exact haccepts ⟨htype, by rw [hrefused]; exact decide_eq_true hne⟩
      match body with
      | [] => exact Or.inr ⟨header, _, hbuf, Or.inr ⟨by simp, by simpa using hcode⟩⟩
      | [flags] => exact Or.inr ⟨header, _, hbuf, Or.inr ⟨by simp, by simpa using hcode⟩⟩
      | flags :: code :: rest =>
        have hzero : code = 0 := by simpa using hcode
        rw [hzero] at hbuf
        exact Or.inl ⟨header, flags, rest, hbuf, htype⟩
    · exact Or.inr ⟨header, body, hbuf, Or.inl htype⟩
  · rintro (⟨header, flags, rest, hbuf, htype⟩ | ⟨header, body, hbuf, hother | ⟨hshort, hstale⟩⟩)
    · refine ⟨_, hbuf, fun hrefused => ?_⟩
      have h := hrefused.2
      rw [connackRefused_packet hbuf htype] at h
      simp at h
    · exact ⟨_, hbuf, fun hrefused => hother hrefused.1⟩
    · refine ⟨_, hbuf, fun hrefused => ?_⟩
      have h := hrefused.2
      rw [connackRefused_packet hbuf hrefused.1, if_pos hshort, hstale] at h
      simp at h

lemma not_stray_of_connackZero (h : ConnackZero answers) : ¬Stray answers stale := by
  obtain ⟨header, flags, rest, hbuf, htype⟩ := h
  rintro ⟨header', body, hbuf', hstray⟩
  have hsame := Option.some.inj (hbuf.symm.trans hbuf')
  have htype' : header'.toNat >>> 4 = CONNACK := by
    have htypes := congrArg packetType hsame
    rw [packetType_packet, packetType_packet, htype] at htypes
    exact htypes.symm
  obtain hother | ⟨hshort, -⟩ := hstray
  · exact hother htype'
  · have hdecode := mqttDeserializeConnack_packet htype' (length_body_lt hbuf')
    rw [← hsame, mqttDeserializeConnack_packet htype (length_body_lt hbuf), if_pos hshort] at hdecode
    simp at hdecode

end FirstPacket

section Ledger

variable {fd x : ℤ} {n : ℕ}

lemma mem_releases_iff : x ∈ ((Ledger.empty.handOut fd).releases fd n).live ∨
    x ∈ ((Ledger.empty.handOut fd).releases fd n).released ↔ x = fd := by
  rw [Ledger.mem_live_releases, Ledger.mem_released_releases (by simp), Ledger.mem_live_handOut]
  simp only [Ledger.empty, Ledger.released_handOut, Finset.notMem_empty, or_false, false_or]
  tauto

lemma closedOnce_releases_iff :
    ClosedOnce ((Ledger.empty.handOut fd).releases fd n) fd ↔ n = 1 := by
  rw [ClosedOnce, Ledger.mem_live_releases, Ledger.mem_released_releases (by simp),
    ← Bool.not_eq_true, Ledger.twice_releases (by simp), Ledger.mem_live_handOut]
  simp only [Ledger.empty, Ledger.released_handOut, Ledger.twice_handOut, Finset.notMem_empty,
    or_false, false_or, true_and, forall_const, Bool.false_eq_true]
  omega

end Ledger

section Outcomes

variable {fdMap : FdMap} {c : Call} {o : Outcome} {n : ℕ}

lemma unheld_congr {fdMap' : FdMap} (h : ∀ i, (fdMap' i).fd = (fdMap i).fd) (fd : ℤ) :
    Unheld fdMap' fd ↔ Unheld fdMap fd := forall_congr' fun i => by rw [h i]

lemma not_registers (h : ∀ i, (o.state.fdMap i).fd = (fdMap i).fd) : ¬Registers fdMap o := by
  rintro ⟨i, hfree, hused⟩
  exact hused (by rw [h i, hfree])

lemma setUp_of_no_socket (hfds : ∀ i, (o.state.fdMap i).fd = (fdMap i).fd)
    (hsubscriptions : o.subscriptions = []) (hresult : o.result = none)
    (hsockets : o.state.sockets = .empty) : SetUp fdMap c o := by
  refine ⟨?_, fun _ => ⟨hresult, fun fd hfd => ?_⟩⟩
  · rintro (h | h)
    · exact absurd h (not_registers hfds)
    · exact absurd hsubscriptions h
  · rw [hsockets] at hfd
    simp [Ledger.empty] at hfd

/-- A call that registers nothing is judged by how often it closes its socket. -/
lemma setUp_unregistered_iff (hfds : ∀ i, (o.state.fdMap i).fd = (fdMap i).fd)
    (hresult : o.result = none)
    (hsockets : o.state.sockets = (Ledger.empty.handOut c.sock).releases c.sock n) :
    SetUp fdMap c o ↔ (o.subscriptions ≠ [] → Established c) ∧ n = 1 ∧ Unheld fdMap c.sock := by
  have hnot := not_registers hfds
  have hdropped : (∀ fd, fd ∈ o.state.sockets.live ∨ fd ∈ o.state.sockets.released →
      ClosedOnce o.state.sockets fd ∧ Unheld o.state.fdMap fd) ↔ n = 1 ∧ Unheld fdMap c.sock := by
    rw [hsockets]
    simp only [mem_releases_iff, forall_eq, closedOnce_releases_iff, unheld_congr hfds]
  constructor
  · intro h
    exact ⟨fun hne => h.accepted (Or.inr hne),
      hdropped.mp (h.otherwise fun hboth => hnot hboth.1).2⟩
  · rintro ⟨haccepted, h⟩
    refine ⟨?_, fun _ => ⟨hresult, hdropped.mpr h⟩⟩
    rintro (hregisters | hne)
    · exact absurd hregisters hnot
    · exact haccepted hne

lemma setUp_registered_iff (hregisters : Registers fdMap o) (hne : o.subscriptions ≠ []) :
    SetUp fdMap c o ↔ Established c :=
  ⟨fun h => h.accepted (Or.inl hregisters),
    fun h => ⟨fun _ => h, fun hnot => absurd ⟨hregisters, hne⟩ hnot⟩⟩

end Outcomes

section Connect

variable {s : State} {c : Call}

/-- The old connection is marked, and keeps its descriptor until the loop closes it. -/
lemma disconnect_eq (s : State) : s.disconnect.sockets = s.sockets ∧
    ∀ i, (s.disconnect.fdMap i).fd = (s.fdMap i).fd := by
  unfold State.disconnect
  cases s.mqttHandler with
  | none => exact ⟨rfl, fun _ => rfl⟩
  | some k =>
    dsimp only
    split_ifs
    · refine ⟨rfl, fun i => ?_⟩
      by_cases hi : i = k
      · simp [State.bociaCloseSoon, State.modify, hi]
      · simp [State.bociaCloseSoon, State.modify, hi]
    · exact ⟨rfl, fun _ => rfl⟩

/-- What is left of a call that connects: the outcome with the topic of the subscription. -/
def connected (s : State) (c : Call) (topic : List UInt8) : Outcome :=
  ⟨s.bociaMqttInit c.pid c.sock c.sts c.answers c.stale,
    if 0 < (mqttConnect s.disconnect.sockets c.sock c.sts c.answers c.stale).1 then
      [((mqttConnect s.disconnect.sockets c.sock c.sts c.answers c.stale).1, topic)] else [],
    (s.bociaMqttInit c.pid c.sock c.sts c.answers c.stale).mqttHandler⟩

lemma bociaMqttInit_eq (s : State) {cfg stored : Option Config} {used : Config}
    (hused : (cfg <|> stored) = some used) (topicBuff : Buffer 64) (c : Call) :
    bociaMqttInit s cfg stored topicBuff c = (mqttTopic used topicBuff).map fun topicBuff =>
      connected s c (cString (topicBuff.bytes.drop TOPIC_PREFIX.length)) := by
  rw [bociaMqttInit, hused]
  dsimp only
  cases mqttTopic used topicBuff <;> rfl

lemma connected_of_nonpos {fd : ℤ} {sockets : Sockets}
    (hconnect : mqttConnect s.sockets c.sock c.sts c.answers c.stale = (fd, sockets)) (hfd : ¬0 < fd)
    (topic : List UInt8) : connected s c topic =
      ⟨{ s.disconnect with sockets := sockets, mqttHandler := none }, [], none⟩ := by
  rw [← (disconnect_eq s).1] at hconnect
  rw [connected, State.bociaMqttInit, hconnect]
  dsimp only
  rw [if_neg hfd, if_neg hfd]

lemma connected_of_pos {fd : ℤ} {sockets : Sockets}
    (hconnect : mqttConnect s.sockets c.sock c.sts c.answers c.stale = (fd, sockets)) (hfd : 0 < fd)
    (topic : List UInt8) : connected s c topic =
      ⟨{ s.disconnect with
          sockets := sockets
          fdMap := (bociaRegisterHandlers s.disconnect.fdMap
            ⟨fd, c.pid, .mqttReceiverHandler, some .mqttTransmitterHandler⟩).2
          mqttHandler := (bociaRegisterHandlers s.disconnect.fdMap
            ⟨fd, c.pid, .mqttReceiverHandler, some .mqttTransmitterHandler⟩).1 }, [(fd, topic)],
        (bociaRegisterHandlers s.disconnect.fdMap
          ⟨fd, c.pid, .mqttReceiverHandler, some .mqttTransmitterHandler⟩).1⟩ := by
  rw [← (disconnect_eq s).1] at hconnect
  rw [connected, State.bociaMqttInit, hconnect]
  dsimp only
  rw [if_pos hfd, if_pos hfd]

end Connect

section Proper

variable {fdMap : FdMap} {c : Call}

lemma proper_of_unconnected (h : c.sts < 0) : Proper fdMap c ↔ Unheld fdMap c.sock := by
  refine ⟨fun hp => hp.unconnected h, fun hheld => ⟨fun _ => hheld, ?_, ?_, ?_⟩⟩
  all_goals exact fun hsts => absurd h (not_lt.mpr hsts)

lemma proper_of_connack (h : 0 ≤ c.sts) (hzero : ConnackZero c.answers) : Proper fdMap c ↔
    (0 < c.sock ∧ ∃ i, (fdMap i).fd = 0) ∨ packetEnds c.answers = 1 ∧ Unheld fdMap c.sock := by
  refine ⟨fun hp => hp.connack h hzero, fun hkeeps => ⟨?_, fun _ _ => hkeeps, ?_, ?_⟩⟩
  · exact fun hsts => absurd hsts (not_lt.mpr h)
  · exact fun _ hstray => absurd hstray (not_stray_of_connackZero hzero)
  · exact fun _ hnot => absurd hzero hnot

lemma proper_of_stray (h : 0 ≤ c.sts) (hstray : Stray c.answers c.stale) :
    Proper fdMap c ↔ c.sock = 0 ∧ packetEnds c.answers = 1 := by
  refine ⟨fun hp => hp.stray h hstray, fun hkeeps => ⟨?_, ?_, fun _ _ => hkeeps, ?_⟩⟩
  · exact fun hsts => absurd hsts (not_lt.mpr h)
  · exact fun _ hzero => absurd hstray (not_stray_of_connackZero hzero)
  · exact fun _ _ hnot => absurd hstray hnot

lemma proper_of_refused (h : 0 ≤ c.sts) (hrefused : ¬Accepted c.answers c.stale) :
    Proper fdMap c ↔ packetEnds c.answers = 0 ∧ Unheld fdMap c.sock := by
  rw [accepted_iff, not_or] at hrefused
  refine ⟨fun hp => hp.refused h hrefused.1 hrefused.2, fun hkeeps => ⟨?_, ?_, ?_, fun _ _ _ => hkeeps⟩⟩
  · exact fun hsts => absurd hsts (not_lt.mpr h)
  · exact fun _ hzero => absurd hzero hrefused.1
  · exact fun _ hstray => absurd hstray hrefused.2

lemma proper_of_accepted (hsock : 0 ≤ c.sock) (hsts : 0 ≤ c.sts)
    (hacc : Accepted c.answers c.stale) : Proper fdMap c ↔ (0 < c.sock → ConnackZero c.answers) ∧
      ((0 < c.sock ∧ ∃ i, (fdMap i).fd = 0) ∨ packetEnds c.answers = 1 ∧ Unheld fdMap c.sock) := by
  rcases accepted_iff.mp hacc with hzero | hstray
  · rw [proper_of_connack hsts hzero]
    exact ⟨fun h => ⟨fun _ => hzero, h⟩, fun h => h.2⟩
  · have hnot : ¬ConnackZero c.answers := fun hzero => not_stray_of_connackZero hzero hstray
    rw [proper_of_stray hsts hstray]
    constructor
    · rintro ⟨hsock0, hends⟩
      exact ⟨fun hpos => absurd hsock0 hpos.ne', Or.inr ⟨hends, fun _ _ => hsock0⟩⟩
    · rintro ⟨honly, hrest⟩
      have hnonpos : ¬0 < c.sock := fun hpos => hnot (honly hpos)
      rcases hrest with hpos | ⟨hends, -⟩
      · exact absurd hpos.1 hnonpos
      · exact ⟨le_antisymm (not_lt.mp hnonpos) hsock, hends⟩

end Proper

section Main

variable {s : State} {c : Call}

lemma established_iff (hsock : 0 ≤ c.sock) (hsts : 0 ≤ c.sts) :
    Established c ↔ ConnackZero c.answers := by
  rw [Established]
  exact ⟨fun h => h.2.2, fun h => ⟨hsock, hsts, h⟩⟩

lemma setUp_accepted_iff (hs : s.sockets = .empty) (hsock : 0 ≤ c.sock) (hsts : 0 ≤ c.sts)
    (hacc : Accepted c.answers c.stale) (topic : List UInt8) :
    SetUp s.fdMap c (connected s c topic) ↔ Proper s.fdMap c := by
  have hconnect := @mqttConnect_eq s.sockets c.sock c.sts c.answers c.stale hsock
  rw [if_neg (not_lt.mpr hsts), if_pos hacc] at hconnect
  rw [proper_of_accepted hsock hsts hacc]
  have hfds := (disconnect_eq s).2
  by_cases hpos : 0 < c.sock
  · rw [connected_of_pos hconnect hpos topic, hs]
    cases hslot : availableSlot s.disconnect.fdMap with
    | none =>
      have hfull : ¬∃ i, (s.fdMap i).fd = 0 := by
        rintro ⟨i, hi⟩
        exact availableSlot_eq_none_iff.mp hslot i ((hfds i).trans hi)
      rw [bociaRegisterHandlers, hslot, setUp_unregistered_iff hfds rfl rfl, established_iff hsock hsts]
      simp [hfull, hpos]
    | some i =>
      have hfree := (hfds i).symm.trans (availableSlot_eq_some_iff.mp hslot).1
      rw [setUp_registered_iff ?_ (List.cons_ne_nil _ _), established_iff hsock hsts]
      · exact ⟨fun h => ⟨fun _ => h, Or.inl ⟨hpos, i, hfree⟩⟩, fun h => h.1 hpos⟩
      · refine ⟨i, hfree, ?_⟩
        simp [bociaRegisterHandlers, hslot, BociaChannel.register, hpos.ne']
  · rw [connected_of_nonpos hconnect hpos topic, hs, setUp_unregistered_iff hfds rfl rfl]
    simp [hpos]

lemma setUp_connected_iff (hs : s.sockets = .empty) (c : Call) (topic : List UInt8) :
    SetUp s.fdMap c (connected s c topic) ↔ (0 ≤ c.sock → Proper s.fdMap c) := by
  have hfds := (disconnect_eq s).2
  by_cases hsock : 0 ≤ c.sock
  · rw [forall_prop_of_true hsock]
    by_cases hsts : c.sts < 0
    · have hconnect := @mqttConnect_eq s.sockets c.sock c.sts c.answers c.stale hsock
      rw [if_pos hsts] at hconnect
      rw [connected_of_nonpos hconnect (lt_irrefl 0) topic, hs,
        setUp_unregistered_iff hfds rfl rfl, proper_of_unconnected hsts]
      simp
    · by_cases hacc : Accepted c.answers c.stale
      · exact setUp_accepted_iff hs hsock (not_lt.mp hsts) hacc topic
      · have hconnect := @mqttConnect_eq s.sockets c.sock c.sts c.answers c.stale hsock
        rw [if_neg hsts, if_neg hacc] at hconnect
        rw [connected_of_nonpos hconnect (lt_irrefl 0) topic, hs,
          setUp_unregistered_iff hfds rfl rfl, proper_of_refused (not_lt.mp hsts) hacc]
        simp
  · have hconnect : mqttConnect s.sockets c.sock c.sts c.answers c.stale = (c.sock, s.sockets) := by
      rw [mqttConnect, if_pos (not_le.mp hsock)]
    rw [connected_of_nonpos hconnect (fun hpos => hsock hpos.le) topic]
    exact iff_of_true (setUp_of_no_socket hfds rfl rfl hs) (fun h => absurd h hsock)

end Main

/-- A call sets up a session as it should exactly if there is no configuration, or its topic
fits `topic_buff` and the table, the socket calls and the first packet are as described. -/
theorem bocia_mqtt_init_sets_up_iff (s : State) (cfg stored : Option Config)
    (topicBuff : Buffer 64) (c : Call) : SetsUp s cfg stored topicBuff c ↔
      ∀ used, (cfg <|> stored) = some used →
        (topic used).length < 64 ∧ (0 ≤ c.sock → Proper s.fdMap c) := by
  rw [SetsUp]
  cases hused : (cfg <|> stored) with
  | none =>
    refine iff_of_true ⟨⟨{ s with sockets := .empty }, [], none⟩, ?_, ?_⟩ (fun used h => by cases h)
    · rw [bociaMqttInit, hused]
    · exact setUp_of_no_socket (fun _ => rfl) rfl rfl rfl
  | some used =>
    simp only [Option.some.injEq, forall_eq']
    have hlen : (topic used ++ [0]).length = (topic used).length + 1 := List.length_append
    rw [bociaMqttInit_eq _ hused, mqttTopic_eq]
    cases hstore : store topicBuff 0 (topic used ++ [0]) with
    | error e =>
      refine iff_of_false (fun h => ?_) (fun h => ?_)
      · obtain ⟨o, ho, -⟩ := h
        cases ho
      · have hroom : 0 + (topic used ++ [0]).length ≤ 64 := by omega
        obtain ⟨b, hb⟩ := topicBuff.exists_write hroom
        rw [store_eq_ok_iff.mpr hb] at hstore
        cases hstore
    | ok b =>
      have hfit := ((topicBuff.write_eq_some_iff b 0 _).mp (store_eq_ok_iff.mp hstore)).1
      rw [← setUp_connected_iff (s := { s with sockets := .empty }) rfl c
        (cString (b.bytes.drop TOPIC_PREFIX.length))]
      constructor
      · rintro ⟨o, ho, hset⟩
        obtain rfl := Except.ok.inj ho
        exact ⟨by omega, hset⟩
      · rintro ⟨-, hset⟩
        exact ⟨_, rfl, hset⟩

/-- The broker answers the CONNECT packet with a PUBACK. -/
def pubackCall : Call := ⟨1, 5, 0, [.data [0x40], .data [0x02], .data [0x00, 0x01]], 0⟩

/-- The session is set up all the same. -/
theorem bocia_mqtt_init_takes_puback : ¬∀ (s : State) (cfg stored : Option Config)
    (topicBuff : Buffer 64) (c : Call), SetsUp s cfg stored topicBuff c := by
  intro h
  obtain ⟨o, hrun, hset⟩ := h State.initial (some sampleConfig) none (Buffer.fill 64 0) pubackCall
  have hused : (some sampleConfig <|> none) = some sampleConfig := rfl
  have hroom : 0 + (topic sampleConfig ++ [0]).length ≤ 64 := by decide
  obtain ⟨b, hwrite⟩ := (Buffer.fill 64 0).exists_write hroom
  rw [bociaMqttInit_eq _ hused, mqttTopic_eq] at hrun
  rw [store_eq_ok_iff.mpr hwrite] at hrun
  obtain rfl := Except.ok.inj hrun
  have hproper := (setUp_connected_iff (s := State.initial) rfl pubackCall _).mp hset (by decide)
  have hstray : Stray pubackCall.answers pubackCall.stale :=
    ⟨0x40, [0x00, 0x01], by decide +kernel, Or.inl (by decide)⟩
  exact absurd (hproper.stray (by decide) hstray).1 (by decide)

end Nais.Board.Connections.MqttInit
