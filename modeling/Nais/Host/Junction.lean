import Nais.Host.Line

/-!
# Routing between lines

`Junction.route` and `Line.deliver_to_peers` of `pynais/junction.py` over any number of
lines. A line id that fits the one-byte SLINE field brings a reply back to the client that
asked, and to nobody else. The counter of line ids only grows, and the first id that does
not fit stops the dispatcher of the line that would stamp it.
-/

namespace Nais.Host
open Nais.Lib

variable {ι : Type}

/-- `expectJson` lines read raw bytes, and so do websocket lines. -/
structure JunctionConfig (ι : Type) where
  line : ι → LineConfig
  expectJson : ι → Bool
  peers : ι → List ι
  transform : ι → ι → Option Transform

/-- A message as the line's reader returns it. -/
def JunctionConfig.read (cfg : JunctionConfig ι) (l : ι) (bs : List UInt8) : PyValue :=
  if (cfg.line l).kind = .websocket ∨ cfg.expectJson l then .bytes bs else .bytearray bs

structure JunctionState (ι : Type) where
  lines : ι → LineState
  sid : Nat

def JunctionState.init : JunctionState ι := ⟨fun _ => .init, 0⟩

/-- `alloc` is a line id that is not given to a client of a line: an MQTT line takes one. -/
inductive JunctionEvent (ι : Type) where
  | alloc
  | connect (l : ι)
  | disconnect (l : ι) (client : Nat)
  | receive (l : ι) (client : Nat) (bs : List UInt8)
  | take (l : ι)
  | resume (l : ι) (i : Nat)
  | sendFailed (l : ι) (i : Nat)

/-- The packet of a message for one peer. A frame that ends before its DLINE byte raises
before anything is queued. -/
def JunctionConfig.packetFor (cfg : JunctionConfig ι) (l target : ι) (client : Nat)
    (bs : List UInt8) : Except PyErr Packet :=
  Packet.new (cfg.read l bs) client (cfg.transform l target)

def JunctionConfig.deliverToPeers [DecidableEq ι] (cfg : JunctionConfig ι) (l : ι) (client : Nat) (bs : List UInt8)
    (lines : ι → LineState) : List ι → ι → LineState
  | [] => lines
  | target :: targets =>
    match cfg.packetFor l target client bs with
    | .error _ => lines
    | .ok packet => cfg.deliverToPeers l client bs
        (Function.update lines target ((lines target).put packet)) targets

def JunctionState.onLine [DecidableEq ι] (s : JunctionState ι) (l : ι) (f : LineState → LineState) :
    JunctionState ι :=
  { s with lines := Function.update s.lines l (f (s.lines l)) }

def junctionStep [DecidableEq ι] (cfg : JunctionConfig ι) (s : JunctionState ι) :
    JunctionEvent ι → JunctionState ι
  | .alloc => { s with sid := s.sid + 1 }
  | .connect l => { s.onLine l (·.connect (s.sid + 1)) with sid := s.sid + 1 }
  | .disconnect l client => s.onLine l (·.disconnect client)
  | .receive l client bs =>
    if client ∈ (s.lines l).writers then
      { s with lines := cfg.deliverToPeers l client bs s.lines (cfg.peers l) }
    else s
  | .take l => s.onLine l (·.take (cfg.line l))
  | .resume l i => s.onLine l (·.resume i)
  | .sendFailed l i => s.onLine l (·.sendFailed i)

/-- What a client sends can be rendered by each stream line it is routed to: it is no frame,
or one that was read as a bytearray from a client with an id below 256, and so is what a
transform makes of it. -/
def TakesStamp (cfg : JunctionConfig ι) (_ : JunctionState ι) : JunctionEvent ι → Prop
  | .receive l client bs => ∀ target ∈ cfg.peers l, (cfg.line target).kind = .stream →
      ∀ packet, cfg.packetFor l target client bs = .ok packet → packet.Renders
  | _ => True

/-- A frame that a stream line took from its queue as it was sent. -/
structure Frame (t : Taken) (bs : List UInt8) : Prop where
  untransformed : t.packet.transformer = none
  data : t.packet.data = .bytearray bs ∨ t.packet.data = .bytes bs
  start : bs.head? = some SYNC_START

/-- Requests carry the id of their client in SLINE, and a reply with that byte in DLINE goes to
this client alone. A stream line with clients has a dispatcher that waits for messages. -/
structure RoutesBack (cfg : JunctionConfig ι) (s : JunctionState ι) : Prop where
  alive : ∀ l, (cfg.line l).kind = .stream → (s.lines l).writers ≠ [] → 0 < (s.lines l).waiting
  request : ∀ l, (cfg.line l).kind = .stream → ∀ t ∈ (s.lines l).taken, ∀ bs, Frame t bs →
    ∃ sline : UInt8, sline.toNat = t.packet.srcLine ∧ (bs.set SLINE sline)[SLINE]? = some sline ∧
      t.writes = (t.writers.filter t.packet.selects).map fun line => (line, bs.set SLINE sline)
  reply : ∀ l l', (cfg.line l).kind = .stream → (cfg.line l').kind = .stream →
    ∀ t ∈ (s.lines l).taken, ∀ bs, Frame t bs → ∀ r ∈ (s.lines l').taken, ∀ bs', Frame r bs' →
      bs'[DLINE]? = some (UInt8.ofNat t.packet.srcLine) →
      (∀ w ∈ r.writes, w.1 = t.packet.srcLine) ∧ (t.packet.srcLine ∈ r.writers →
        r.writes = [(t.packet.srcLine, bs'.set SLINE (UInt8.ofNat r.packet.srcLine))])

section Invariant

/-- The packet renders, its destination is the DLINE byte of its data, and its source is the
id of a client. -/
structure Good (p : Packet) : Prop where
  renders : p.Renders
  dst : ∀ bs, p.data = .bytearray bs ∨ p.data = .bytes bs → bs.head? = some SYNC_START →
    ∃ b, bs[DLINE]? = some b ∧ p.dstLine = b.toNat
  src : 0 < p.srcLine

structure LineInv (cfg : LineConfig) (sid : Nat) (s : LineState) : Prop where
  nodup : s.writers.Nodup
  bounded : ∀ client ∈ s.writers, 0 < client ∧ client ≤ sid
  alive : cfg.kind = .stream → s.writers ≠ [] → 0 < s.waiting
  queued : cfg.kind = .stream → ∀ q ∈ s.queue, Good q.packet
  sending : cfg.kind = .stream → s.sending = []
  taken : cfg.kind = .stream → ∀ t ∈ s.taken, Good t.packet ∧ t.writers.Nodup ∧
    t.writes = deliverable t.writers t.packet

variable {cfg : LineConfig} {sid : Nat} {s : LineState}

lemma lineInv_init : LineInv cfg sid .init :=
  ⟨List.nodup_nil, by simp [LineState.init], by simp [LineState.init], by simp [LineState.init],
    fun _ => rfl, by simp [LineState.init]⟩

lemma LineInv.mono (h : LineInv cfg sid s) : LineInv cfg (sid + 1) s :=
  { h with bounded := fun c hc => ⟨(h.bounded c hc).1, (h.bounded c hc).2.trans (Nat.le_succ _)⟩ }

/-- Of a line that is no stream only the clients are kept track of. -/
lemma LineInv.of_not_stream (h : LineInv cfg sid s) (hkind : cfg.kind ≠ .stream) {s' : LineState}
    (hwriters : s'.writers = s.writers) : LineInv cfg sid s' := by
  refine ⟨?_, ?_, fun hk => absurd hk hkind, fun hk => absurd hk hkind,
    fun hk => absurd hk hkind, fun hk => absurd hk hkind⟩
  · rw [hwriters]
    exact h.nodup
  · rw [hwriters]
    exact h.bounded

lemma LineInv.connect (h : LineInv cfg sid s) : LineInv cfg (sid + 1) (s.connect (sid + 1)) := by
  have hfresh : sid + 1 ∉ s.writers := fun hmem => absurd (h.bounded _ hmem).2 (by omega)
  refine ⟨nodup_connect h.nodup hfresh, ?_, ?_, ?_, h.sending, h.taken⟩
  · intro client hmem
    simp only [LineState.connect, List.mem_append, List.mem_singleton] at hmem
    obtain hmem | rfl := hmem
    · exact (h.mono).bounded client hmem
    · omega
  · intro hkind _
    simp only [LineState.connect]
    split_ifs with hw
    · omega
    · exact h.alive hkind hw
  · intro hkind q hq
    simp only [LineState.connect, List.mem_map] at hq
    obtain ⟨q', hq', rfl⟩ := hq
    exact h.queued hkind q' hq'

lemma LineInv.disconnect (h : LineInv cfg sid s) (client : Nat) :
    LineInv cfg sid (s.disconnect client) := by
  refine ⟨h.nodup.erase client, fun c hc => h.bounded c (List.mem_of_mem_erase hc), ?_, h.queued,
    h.sending, h.taken⟩
  intro hkind hne
  refine h.alive hkind fun hw => hne ?_
  simp [LineState.disconnect, hw]

lemma LineInv.put (h : LineInv cfg sid s) {p : Packet} (hp : cfg.kind = .stream → Good p) :
    LineInv cfg sid (s.put p) := by
  refine ⟨h.nodup, h.bounded, h.alive, ?_, h.sending, h.taken⟩
  intro hkind q hq
  simp only [LineState.put, List.mem_append, List.mem_singleton] at hq
  obtain hq | rfl := hq
  · exact h.queued hkind q hq
  · exact hp hkind

/-- A message that renders leaves its dispatcher waiting. -/
lemma take_of_renders {q : Queued} {queue : List Queued} (hkind : cfg.kind = .stream)
    (hq : s.queue = q :: queue) (hw : 0 < s.waiting) (hr : q.packet.Renders) :
    s.take cfg = { s with
      queue := queue
      taken := s.taken ++ [⟨q.packet, q.heir, s.writers, deliverable s.writers q.packet⟩] } := by
  have hhandle : LineState.handle cfg s.writers q.packet =
      .waits (deliverable s.writers q.packet) := by
    rw [LineState.handle, hkind, deliver_of_renders hr]
  unfold LineState.take
  rw [hq]
  dsimp only
  rw [if_neg (by omega), hhandle]
  rfl

lemma LineInv.take (h : LineInv cfg sid s) : LineInv cfg sid (s.take cfg) := by
  by_cases hw : s.waiting = 0 ∨ s.queue = []
  · rw [take_blocked cfg s hw]
    exact h
  rw [not_or] at hw
  cases hqueue : s.queue with
  | nil => exact absurd hqueue hw.2
  | cons q queue =>
    by_cases hkind : cfg.kind = .stream
    · have hall := h.queued hkind
      rw [hqueue, List.forall_mem_cons] at hall
      rw [take_of_renders hkind hqueue (by omega) hall.1.renders]
      refine ⟨h.nodup, h.bounded, h.alive, fun _ => hall.2, h.sending, ?_⟩
      intro _ t ht
      rw [List.mem_append, List.mem_singleton] at ht
      obtain ht | rfl := ht
      · exact h.taken hkind t ht
      · exact ⟨hall.1, h.nodup, rfl⟩
    · exact h.of_not_stream hkind (take_writers cfg s)

lemma LineInv.resume (h : LineInv cfg sid s) (i : Nat) : LineInv cfg sid (s.resume i) := by
  by_cases hkind : cfg.kind = .stream
  · have hnone : s.resume i = s := by
      rw [LineState.resume, h.sending hkind]
      rfl
    rw [hnone]
    exact h
  · exact h.of_not_stream hkind (resume_eq s i).1

lemma LineInv.sendFailed (h : LineInv cfg sid s) (i : Nat) : LineInv cfg sid (s.sendFailed i) := by
  refine ⟨h.nodup, h.bounded, h.alive, h.queued, ?_, h.taken⟩
  intro hkind
  simp [LineState.sendFailed, h.sending hkind]

end Invariant

section Step

variable {cfg : JunctionConfig ι}

def JunctionInv (cfg : JunctionConfig ι) (s : JunctionState ι) : Prop :=
  ∀ l, LineInv (cfg.line l) s.sid (s.lines l)

lemma junctionInv_init : JunctionInv cfg .init := fun _ => lineInv_init

lemma junctionInv_onLine [DecidableEq ι] {s : JunctionState ι} (h : JunctionInv cfg s) (l : ι)
    {f : LineState → LineState} (hf : LineInv (cfg.line l) s.sid (f (s.lines l))) :
    JunctionInv cfg (s.onLine l f) := by
  intro l'
  by_cases hl : l' = l
  · subst hl
    simpa [JunctionState.onLine] using hf
  · simpa [JunctionState.onLine, hl] using h l'

lemma packetFor_fields {l target : ι} {client : Nat} {bs : List UInt8} {p : Packet}
    (hp : cfg.packetFor l target client bs = .ok p) :
    p.data = cfg.read l bs ∧ p.srcLine = client ∧ p.transformer = cfg.transform l target := by
  unfold JunctionConfig.packetFor Packet.new at hp
  split_ifs at hp
  · cases hb : getByte (cfg.read l bs) DLINE with
    | error e => simp [hb, Bind.bind, Except.bind] at hp
    | ok b =>
      simp only [hb, Bind.bind, Except.bind, Except.ok.injEq] at hp
      exact ⟨hp ▸ rfl, hp ▸ rfl, hp ▸ rfl⟩
  · cases hp
    exact ⟨rfl, rfl, rfl⟩

/-- A record that was read as a bytearray takes the stamp of an id below 256. -/
lemma renders_of_packetFor {l target : ι} {client : Nat} {bs : List UInt8} {p : Packet}
    (hp : cfg.packetFor l target client bs = .ok p) (hread : cfg.read l bs = .bytearray bs)
    (htransform : cfg.transform l target = none) (hlen : SLINE < bs.length) (hid : client < 256) :
    p.Renders := by
  obtain ⟨hdata, hsrc, htrans⟩ := packetFor_fields hp
  have hres : p.transformed = .ok (.bytearray bs) := by
    rw [Packet.transformed, htrans, htransform, hdata, hread]
  rw [Packet.Renders, hres, hsrc]
  exact fun _ => ⟨hlen, hid⟩

lemma good_packetFor {l target : ι} {client : Nat} {bs : List UInt8} {p : Packet}
    (hp : cfg.packetFor l target client bs = .ok p) (hclient : 0 < client) (hr : p.Renders) :
    Good p := by
  obtain ⟨hdata, hsrc, -⟩ := packetFor_fields hp
  refine ⟨hr, ?_, hsrc ▸ hclient⟩
  intro bs' hbs hstart
  have hproto : isProtobuf p.data = true := by
    obtain h | h := hbs <;> simp [h, isProtobuf, hstart]
  have hbyte : getByte p.data DLINE = .ok (UInt8.ofNat p.dstLine) ∧ p.dstLine < 256 := by
    unfold JunctionConfig.packetFor Packet.new at hp
    rw [← hdata, if_pos hproto] at hp
    cases hb : getByte p.data DLINE with
    | error e => simp [hb, Bind.bind, Except.bind] at hp
    | ok b =>
      simp only [hb, Bind.bind, Except.bind, Except.ok.injEq] at hp
      have hd : p.dstLine = b.toNat := hp ▸ rfl
      rw [hd, UInt8.ofNat_toNat]
      exact ⟨rfl, b.toNat_lt⟩
  refine ⟨UInt8.ofNat p.dstLine, ?_, ?_⟩
  · exact (getByte_eq_ok_iff hbs).mp hbyte.1
  · rw [UInt8.toNat_ofNat', Nat.mod_eq_of_lt hbyte.2]

lemma lineInv_deliverToPeers [DecidableEq ι] {sid l client bs} (hclient : 0 < client) (targets : List ι)
    (hstamp : ∀ target ∈ targets, (cfg.line target).kind = .stream →
      ∀ packet, cfg.packetFor l target client bs = .ok packet → packet.Renders)
    {lines : ι → LineState} (h : ∀ l', LineInv (cfg.line l') sid (lines l')) :
    ∀ l', LineInv (cfg.line l') sid (cfg.deliverToPeers l client bs lines targets l') := by
  induction targets generalizing lines with
  | nil => exact h
  | cons target targets ih =>
    rw [List.forall_mem_cons] at hstamp
    rw [JunctionConfig.deliverToPeers]
    cases hp : cfg.packetFor l target client bs with
    | error e => exact h
    | ok packet =>
      apply ih hstamp.2
      intro l'
      by_cases hl : l' = target
      · subst hl
        rw [Function.update_self]
        exact (h l').put fun hkind => good_packetFor hp hclient (hstamp.1 hkind packet hp)
      · rw [Function.update_of_ne hl]
        exact h l'

lemma junctionInv_step [DecidableEq ι] {s : JunctionState ι} {e : JunctionEvent ι} (h : JunctionInv cfg s)
    (hok : TakesStamp cfg s e) : JunctionInv cfg (junctionStep cfg s e) := by
  cases e with
  | alloc => exact fun l => (h l).mono
  | connect l =>
    intro l'
    by_cases hl : l' = l
    · subst hl
      simpa [junctionStep, JunctionState.onLine] using (h l').connect
    · simpa [junctionStep, JunctionState.onLine, hl] using (h l').mono
  | disconnect l client => exact junctionInv_onLine h l ((h l).disconnect client)
  | receive l client bs =>
    rw [junctionStep]
    split_ifs with hmem
    · exact lineInv_deliverToPeers ((h l).bounded client hmem).1 (cfg.peers l) hok h
    · exact h
  | take l => exact junctionInv_onLine h l (h l).take
  | resume l i => exact junctionInv_onLine h l ((h l).resume i)
  | sendFailed l i => exact junctionInv_onLine h l ((h l).sendFailed i)

/-- A frame that was taken was stamped with the id of its client and written as it is. -/
lemma frame_writes {t : Taken} {bs : List UInt8} (hgood : Good t.packet)
    (hw : t.writes = deliverable t.writers t.packet) (hf : Frame t bs) :
    SLINE < bs.length ∧ t.packet.srcLine < 256 ∧
      t.writes = (t.writers.filter t.packet.selects).map
        fun line => (line, bs.set SLINE (UInt8.ofNat t.packet.srcLine)) := by
  have hr := hgood.renders
  have htrans : t.packet.transformed = .ok t.packet.data := by
    rw [Packet.transformed, hf.untransformed]
  rw [Packet.Renders, htrans] at hr
  obtain hdata | hdata := hf.data
  · rw [hdata] at hr
    obtain ⟨hlen, hsrc⟩ := hr hf.start
    refine ⟨hlen, hsrc, ?_⟩
    have hres : t.packet.result? = some bs := by
      rw [Packet.result?, htrans, hdata]
    rw [hw, deliverable, hres]
    simp only [stamped, if_pos hf.start]
  · rw [hdata] at hr
    exact absurd hf.start hr

lemma routesBack_of_inv {s : JunctionState ι} (h : JunctionInv cfg s) : RoutesBack cfg s := by
  refine ⟨fun l hkind => (h l).alive hkind, ?_, ?_⟩
  · intro l hkind t ht bs hf
    obtain ⟨hgood, -, hw⟩ := (h l).taken hkind t ht
    obtain ⟨hlen, hsrc, hwrites⟩ := frame_writes hgood hw hf
    refine ⟨UInt8.ofNat t.packet.srcLine, ?_, ?_, hwrites⟩
    · rw [UInt8.toNat_ofNat', Nat.mod_eq_of_lt hsrc]
    · rw [List.getElem?_set_self hlen]
  · intro l l' hkind hkind' t ht bs hf r hr bs' hf' hdline
    obtain ⟨hgood, -, hw⟩ := (h l).taken hkind t ht
    obtain ⟨hgood', hnodup, hw'⟩ := (h l').taken hkind' r hr
    obtain ⟨-, hsrc, -⟩ := frame_writes hgood hw hf
    obtain ⟨-, -, hwrites⟩ := frame_writes hgood' hw' hf'
    have hdst : r.packet.dstLine = t.packet.srcLine := by
      obtain ⟨b, hb, hd⟩ := hgood'.dst bs' hf'.data hf'.start
      rw [hdline, Option.some.injEq] at hb
      rw [hd, ← hb, UInt8.toNat_ofNat', Nat.mod_eq_of_lt hsrc]
    -- a non-zero destination selects the writer with this id only
    have hselects : ∀ line, r.packet.selects line = decide (line = t.packet.srcLine) := by
      intro line
      have hpos := hgood.src
      rw [Packet.selects, hdst]
      simp [Nat.pos_iff_ne_zero.mp hpos]
    have hfilter : r.writers.filter r.packet.selects =
        r.writers.filter fun line => decide (line = t.packet.srcLine) :=
      List.filter_congr fun line _ => hselects line
    rw [hwrites, hfilter]
    refine ⟨?_, fun hmem => ?_⟩
    · intro w hwmem
      obtain ⟨line, hline, rfl⟩ := List.mem_map.mp hwmem
      simpa using (List.mem_filter.mp hline).2
    · have hone : (r.writers.filter fun line => decide (line = t.packet.srcLine)) =
          [t.packet.srcLine] := by
        rw [List.filter_eq, hnodup.count, if_pos hmem]
        rfl
      rw [hone]
      rfl

end Step

section Arrivals

variable {cfg : JunctionConfig ι}

end Arrivals

/-- Two stream lines that are routed to each other without transforms. -/
def sampleJunction : JunctionConfig Bool where
  line _ := ⟨.stream, fun _ => .ok none⟩
  expectJson _ := false
  peers l := [!l]
  transform _ _ := none

end Nais.Host
