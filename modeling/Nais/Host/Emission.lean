import Nais.Host.Dispatch
import Nais.Host.Unmarshall

/-!
# What a line of each kind emits

`Junction.route`, `Line.deliver_to_peers` and the three `dispatch` loops of
`pynais/junction.py`, for one message that leaves the queue. Stream lines write
`message.packet` and websocket lines send `message.to_json()`, which both go through the
transform of the route and the stamp. `MqttLine.dispatch` publishes `message.data`.
-/

namespace Nais.Host

/-- The lines that a junction links. `topic` is the topic of an MQTT line. -/
inductive LineType where
  | tcp
  | serial
  | ws
  | mqtt (topic : String)
  deriving DecidableEq

def LineType.IsMqtt : LineType → Prop
  | .mqtt _ => True
  | _ => False

section Routes

variable {ι : Type} [DecidableEq ι]

/-- The `peers` list and the `transform` dictionary of every line. -/
structure Routes (ι : Type) where
  peers : ι → List ι
  transform : ι → ι → Option Transform

def Routes.empty : Routes ι := ⟨fun _ => [], fun _ _ => none⟩

def Routes.addPeer (r : Routes ι) (l peer : ι) (transform : Option Transform) : Routes ι where
  peers := Function.update r.peers l (r.peers l ++ [peer])
  transform :=
    match transform with
    | none => r.transform
    | some t => Function.update r.transform l (Function.update (r.transform l) peer (some t))

/-- The arguments of a call of `Junction.route`. -/
structure RouteCall (ι : Type) where
  src : ι
  dst : ι
  srcToDst : Option Transform
  dstToSrc : Option Transform

def Routes.route (r : Routes ι) (c : RouteCall ι) : Routes ι :=
  (r.addPeer c.src c.dst c.srcToDst).addPeer c.dst c.src c.dstToSrc

/-- The links after a series of calls. -/
def routed (calls : List (RouteCall ι)) : Routes ι := calls.foldl Routes.route Routes.empty

/-- `deliver_to_peers`: the packets of a message, each with the line it is queued for. -/
def Routes.delivered (r : Routes ι) (src : ι) (message : PyValue) (srcLine : Nat) :
    List (ι × Packet) :=
  (r.peers src).filterMap fun target =>
    match Packet.new message srcLine (r.transform src target) with
    | .ok m => some (target, m)
    | .error _ => none

end Routes

/-- The packets of one message share its bytearray, and the dispatcher of another line may
have stamped it already. -/
def Packet.restamped (m : Packet) : Packet :=
  if isProtobuf m.data then
    match stampSline m.data m.srcLine with
    | .ok data => { m with data := data }
    | .error _ => m
  else m

section Emit

variable {C P M O : Type}

/-- What `to_json` needs. `dumps` is `json.dumps(obj.__dict__)` of an unmarshalled object;
a text is given by its UTF-8 bytes. -/
structure TextLib (C P M O : Type) where
  models : ModelLib C P M O
  reg : Registry C P
  dumps : O → Except PyErr (List UInt8)

/-- `obj.decode()`. -/
def decode (bs : List UInt8) : Except PyErr (List UInt8) :=
  if (ByteArray.mk bs.toArray).validateUTF8 then .ok bs else .error .valueError

/-- The text of a message that has been transformed and stamped. -/
def TextLib.text (lib : TextLib C P M O) (obj : List UInt8) : Except PyErr (List UInt8) :=
  if obj.head? = some SYNC_START then do
    let o ← unmarshall lib.models lib.reg obj
    lib.dumps o
  else decode obj

/-- `Packet.to_json`. -/
def Packet.toJson (lib : TextLib C P M O) (m : Packet) : Except PyErr (Option (List UInt8)) := do
  let obj ← m.packet
  match obj with
  | .pyNone => .ok none
  | .bytearray bs | .bytes bs => (lib.text bs).map some

inductive Emission where
  | written (line : Nat) (pkt : List UInt8)
  | sent (line : Nat) (jmsg : List UInt8)
  | published (topic : String) (message : PyValue)
  deriving DecidableEq

/-- `dispatch` of a line with these writers for one message: what it emits, and the exception
that stopped it. -/
def dispatchOne (lib : TextLib C P M O) (writers : List Nat) (m : Packet) :
    LineType → List Emission × Option PyErr
  | .tcp | .serial => ((deliver m writers).1.map fun w => .written w.1 w.2, (deliver m writers).2)
  | .ws =>
    match m.toJson lib with
    | .error e => ([], some e)
    | .ok none => ([], none)
    | .ok (some jmsg) => if jmsg = [] then ([], none) else (writers.map fun w => .sent w jmsg, none)
  | .mqtt topic => ([.published ("hb/" ++ topic) m.data], none)

end Emit

/-- The bytes that are due for a transform result: a frame gets the source line id. -/
def Due (srcLine : Nat) (result out : List UInt8) : Prop :=
  if result.head? = some SYNC_START then
    ∃ sline : UInt8, sline.toNat = srcLine ∧ SLINE < result.length ∧ out = result.set SLINE sline
  else out = result

/-- The emission is computed from the transform result. -/
def Emission.From {C P M O : Type} (lib : TextLib C P M O) (srcLine : Nat) (result : List UInt8) :
    Emission → Prop
  | .written _ pkt => Due srcLine result pkt
  | .sent _ jmsg => ∃ out, Due srcLine result out ∧ lib.text out = .ok jmsg
  | .published _ message => ∃ out, message.bytes? = some out ∧ Due srcLine result out

/-- The message reads already what the route makes of it: the transform result, with the id
of the source line in SLINE where that is a frame. -/
def Packet.Unchanged (m : Packet) (result : List UInt8) : Prop :=
  m.data.bytes? = some (stamped m.srcLine result) ∧
    (result.head? = some SYNC_START → SLINE < result.length ∧ m.srcLine < 256)

lemma due_iff (srcLine : Nat) (result out : List UInt8) :
    Due srcLine result out ↔ out = stamped srcLine result ∧
      (result.head? = some SYNC_START → SLINE < result.length ∧ srcLine < 256) := by
  unfold Due stamped
  by_cases hf : result.head? = some SYNC_START
  · rw [if_pos hf, if_pos hf]
    constructor
    · rintro ⟨sline, rfl, hlen, hout⟩
      rw [UInt8.ofNat_toNat]
      exact ⟨hout, fun _ => ⟨hlen, sline.toNat_lt⟩⟩
    · rintro ⟨hout, hfit⟩
      obtain ⟨hlen, hsmall⟩ := hfit hf
      refine ⟨UInt8.ofNat srcLine, ?_, hlen, hout⟩
      rw [UInt8.toNat_ofNat']
      exact Nat.mod_eq_of_lt hsmall
  · rw [if_neg hf, if_neg hf]
    exact ⟨fun h => ⟨h, fun h' => absurd h' hf⟩, And.left⟩

/-- What the `packet` property returns is due, whenever the transform returned bytes. -/
lemma Packet.packet_due {m : Packet} {result : List UInt8} {pkt : PyValue}
    (hresult : m.result? = some result) (h : m.packet = .ok pkt) :
    ∃ out, pkt.bytes? = some out ∧ Due m.srcLine result out := by
  unfold result? at hresult
  unfold packet at h
  cases ht : m.transformed with
  | error e => simp [ht] at hresult
  | ok obj =>
    rw [ht] at h hresult
    simp only [Bind.bind, Except.bind] at h
    cases obj with
    | pyNone => simp at hresult
    | bytes bs =>
      simp only [Option.some.injEq] at hresult
      subst hresult
      by_cases hf : bs.head? = some SYNC_START
      · simp [isProtobuf, hf, stampSline] at h
      · simp only [isProtobuf, hf, decide_false, Bool.false_eq_true, if_false, Except.ok.injEq] at h
        subst h
        exact ⟨bs, rfl, by rw [Due, if_neg hf]⟩
    | bytearray bs =>
      simp only [Option.some.injEq] at hresult
      subst hresult
      by_cases hf : bs.head? = some SYNC_START
      · simp only [isProtobuf, hf, decide_true, if_true, stampSline] at h
        split_ifs at h with hshort hbig
        simp only [Except.ok.injEq] at h
        subst h
        refine ⟨_, rfl, ?_⟩
        rw [due_iff, stamped, if_pos hf]
        exact ⟨rfl, fun _ => ⟨not_le.mp hshort, not_le.mp hbig⟩⟩
      · simp only [isProtobuf, hf, decide_false, Bool.false_eq_true, if_false, Except.ok.injEq] at h
        subst h
        exact ⟨bs, rfl, by rw [Due, if_neg hf]⟩

lemma written_eq_ok {pkt : PyValue} {bs : List UInt8} (h : written pkt = .ok bs) :
    pkt.bytes? = some bs := by
  cases pkt with
  | pyNone => cases h
  | _ =>
    cases h
    rfl

lemma deliver_output {m : Packet} {writers : List Nat} :
    ∀ w ∈ (deliver m writers).1, m.output = .ok w.2 := by
  induction writers with
  | nil =>
    intro w hw
    cases hw
  | cons line writers ih =>
    rw [deliver]
    split_ifs
    · cases hout : m.output with
      | error e =>
        intro w hw
        cases hw
      | ok pkt =>
        dsimp only
        intro w hw
        rw [List.mem_cons] at hw
        obtain rfl | hw := hw
        · rfl
        · rw [← hout]
          exact ih w hw
    · exact ih

/-- A stream line writes what is due. -/
lemma deliver_due {m : Packet} {result : List UInt8} (hresult : m.result? = some result)
    (writers : List Nat) : ∀ w ∈ (deliver m writers).1, Due m.srcLine result w.2 := by
  intro w hw
  have hout := deliver_output w hw
  unfold Packet.output at hout
  cases hp : m.packet with
  | error e =>
    rw [hp] at hout
    cases hout
  | ok pkt =>
    rw [hp] at hout
    obtain ⟨out, hbytes, hdue⟩ := Packet.packet_due hresult hp
    rw [written_eq_ok hout, Option.some.injEq] at hbytes
    rwa [hbytes]

section Routes

variable {ι : Type}

/-- A delivered packet carries the transform of its route and the id of the source line. -/
lemma mem_delivered {r : Routes ι} {src dst : ι} {message : PyValue} {srcLine : Nat} {m : Packet}
    (h : (dst, m) ∈ r.delivered src message srcLine) :
    dst ∈ r.peers src ∧ m.data = message ∧ m.srcLine = srcLine ∧
      m.transformer = r.transform src dst := by
  unfold Routes.delivered at h
  rw [List.mem_filterMap] at h
  obtain ⟨target, hmem, hnew⟩ := h
  unfold Packet.new at hnew
  split_ifs at hnew with hp
  · cases hb : getByte message DLINE with
    | error e => simp [hb, Bind.bind, Except.bind] at hnew
    | ok b =>
      simp only [hb, Bind.bind, Except.bind, Option.some.injEq, Prod.mk.injEq] at hnew
      obtain ⟨rfl, rfl⟩ := hnew
      exact ⟨hmem, rfl, rfl, rfl⟩
  · simp only [Option.some.injEq, Prod.mk.injEq] at hnew
    obtain ⟨rfl, rfl⟩ := hnew
    exact ⟨hmem, rfl, rfl, rfl⟩

variable [DecidableEq ι]

/-- A call of `route` links the lines, with its transform. -/
lemma route_links (r : Routes ι) {src dst : ι} (hne : src ≠ dst) (t : Transform)
    (dstToSrc : Option Transform) :
    dst ∈ (r.route ⟨src, dst, some t, dstToSrc⟩).peers src ∧
      (r.route ⟨src, dst, some t, dstToSrc⟩).transform src dst = some t := by
  constructor
  · simp [Routes.route, Routes.addPeer, Function.update_of_ne hne]
  · cases dstToSrc <;> simp [Routes.route, Routes.addPeer, Function.update_of_ne hne]

end Routes

section Emit

variable {C P M O : Type} (lib : TextLib C P M O)

/-- A websocket line sends the text of what is due. -/
lemma toJson_due {m : Packet} {result : List UInt8} (hresult : m.result? = some result)
    {jmsg : List UInt8} (h : m.toJson lib = .ok (some jmsg)) :
    ∃ out, Due m.srcLine result out ∧ lib.text out = .ok jmsg := by
  unfold Packet.toJson at h
  cases hp : m.packet with
  | error e => simp [hp, Bind.bind, Except.bind] at h
  | ok pkt =>
    obtain ⟨out, hbytes, hdue⟩ := Packet.packet_due hresult hp
    refine ⟨out, hdue, ?_⟩
    rw [hp] at h
    cases pkt with
    | pyNone => cases hbytes
    | _ =>
      cases hbytes
      simp only [Bind.bind, Except.bind] at h
      cases htext : lib.text out with
      | error e => simp [htext, Except.map] at h
      | ok j => simpa [htext, Except.map] using h

/-- Only an MQTT line can emit anything else than what is due. -/
lemma dispatchOne_from_iff {m : Packet} {result : List UInt8} (hresult : m.result? = some result)
    (writers : List Nat) (dst : LineType) :
    (∀ e ∈ (dispatchOne lib writers m dst).1, e.From lib m.srcLine result) ↔
      ¬dst.IsMqtt ∨ m.Unchanged result := by
  have hstream : ∀ e ∈ (deliver m writers).1.map (fun w => Emission.written w.1 w.2),
      e.From lib m.srcLine result := by
    intro e he
    rw [List.mem_map] at he
    obtain ⟨w, hw, rfl⟩ := he
    exact deliver_due hresult writers w hw
  cases dst with
  | tcp => exact iff_of_true hstream (Or.inl id)
  | serial => exact iff_of_true hstream (Or.inl id)
  | ws =>
    refine iff_of_true ?_ (Or.inl id)
    intro e he
    unfold dispatchOne at he
    cases hj : m.toJson lib with
    | error err => simp [hj] at he
    | ok j =>
      cases j with
      | none => simp [hj] at he
      | some jmsg =>
        rw [hj] at he
        dsimp only at he
        split_ifs at he
        · cases he
        · rw [List.mem_map] at he
          obtain ⟨w, -, rfl⟩ := he
          exact toJson_due lib hresult hj
  | mqtt topic =>
    have hmqtt : ¬(LineType.mqtt topic).IsMqtt ↔ False := iff_of_false (fun h => h trivial) id
    rw [hmqtt, false_or]
    unfold dispatchOne Packet.Unchanged
    simp only [List.mem_singleton, forall_eq, Emission.From, due_iff]
    constructor
    · rintro ⟨out, hbytes, rfl, hfit⟩
      exact ⟨hbytes, hfit⟩
    · rintro ⟨hbytes, hfit⟩
      exact ⟨_, hbytes, rfl, hfit⟩

lemma restamped_srcLine (m : Packet) : m.restamped.srcLine = m.srcLine := by
  unfold Packet.restamped
  split_ifs
  · split <;> rfl
  · rfl

variable {ι : Type} [DecidableEq ι]

/-- Whatever lines are linked and whatever the transform of the route is, a line emits what
was computed from the transform result exactly when it is no MQTT line, or the message
reads already what the route makes of it. -/
theorem dispatch_emits_result_iff (kind : ι → LineType) (calls : List (RouteCall ι)) {src dst : ι}
    {message : PyValue} {srcLine : Nat} {m m' : Packet}
    (hm : (dst, m) ∈ (routed calls).delivered src message srcLine)
    (hm' : m' = m ∨ m' = m.restamped) {result : List UInt8} (hresult : m'.result? = some result)
    (writers : List Nat) :
    (∀ e ∈ (dispatchOne lib writers m' (kind dst)).1, e.From lib srcLine result) ↔
      ¬(kind dst).IsMqtt ∨ m'.Unchanged result := by
  have hsrc : m'.srcLine = srcLine := by
    obtain ⟨-, -, hline, -⟩ := mem_delivered hm
    obtain rfl | rfl := hm'
    · exact hline
    · rw [restamped_srcLine, hline]
  rw [← hsrc]
  exact dispatchOne_from_iff lib hresult writers (kind dst)

end Emit

section Sample

def sampleTexts : TextLib Unit Unit (List UInt8) (List UInt8) :=
  ⟨sampleModels, sampleRegistry, fun o => .ok o⟩

/-- Line `false` is a TCP line, line `true` an MQTT line. -/
def sampleKind (l : Bool) : LineType := if l then .mqtt "t" else .tcp

/-- The transform of the route replaces every message. -/
def sampleReplace : Transform := fun _ => .ok (.bytes [0x62, 0x0A])

/-- The broker never sees the result of a transform. -/
theorem mqtt_publishes_untransformed :
    ¬∀ (kind : Bool → LineType) (calls : List (RouteCall Bool)) (src dst : Bool) (message : PyValue)
      (srcLine : Nat) (m : Packet) (result : List UInt8) (writers : List Nat),
      (dst, m) ∈ (routed calls).delivered src message srcLine → m.result? = some result →
      ∀ e ∈ (dispatchOne sampleTexts writers m (kind dst)).1, e.From sampleTexts srcLine result := by
  intro h
  have hm : (true, ⟨.bytearray [0x61, 0x0A], 7, some sampleReplace, 0⟩) ∈
      (routed [⟨false, true, some sampleReplace, none⟩]).delivered false
        (.bytearray [0x61, 0x0A]) 7 := List.mem_cons_self
  have hfrom := h sampleKind _ _ _ _ _ _ [0x62, 0x0A] [] hm rfl
    (.published "hb/t" (.bytearray [0x61, 0x0A])) List.mem_cons_self
  obtain ⟨out, hout, hdue⟩ := hfrom
  cases hout
  rw [due_iff] at hdue
  revert hdue
  decide

/-- Without a transform, an ASCII line is published as it should be. -/
theorem mqtt_publishes_ascii_line :
    let emitted := (dispatchOne sampleTexts [] ⟨.bytearray [0x61, 0x0A], 7, none, 0⟩
      (sampleKind true)).1
    emitted ≠ [] ∧ ∀ e ∈ emitted, e.From sampleTexts 7 [0x61, 0x0A] := by
  have hm : (true, ⟨.bytearray [0x61, 0x0A], 7, none, 0⟩) ∈
      (routed [⟨false, true, none, none⟩]).delivered false (.bytearray [0x61, 0x0A]) 7 :=
    List.mem_cons_self
  have hunchanged : Packet.Unchanged ⟨.bytearray [0x61, 0x0A], 7, none, 0⟩ [0x61, 0x0A] :=
    ⟨rfl, fun h => absurd h (by decide)⟩
  refine ⟨List.cons_ne_nil _ _, ?_⟩
  exact (dispatch_emits_result_iff sampleTexts sampleKind _ hm (Or.inl rfl) rfl []).mpr
    (Or.inr hunchanged)

end Sample

end Nais.Host
