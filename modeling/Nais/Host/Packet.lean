import Nais.Host.Marshall

/-!
# Packets

`pynais/packet.py`: a message on its way to another line. Rendering it applies the transform
of the route, and stamps the sender's line id into the SLINE byte of a frame. Values are
passed by value: every packet of one message is stamped with the same id.
-/

namespace Nais.Host

/-- What a transform can return and a stream writer can be given. -/
inductive PyValue where
  | bytearray (bs : List UInt8)
  | bytes (bs : List UInt8)
  | pyNone
  deriving DecidableEq

def PyValue.bytes? : PyValue → Option (List UInt8)
  | .bytearray bs => some bs
  | .bytes bs => some bs
  | .pyNone => none

def isProtobuf : PyValue → Bool
  | .bytearray bs => bs.head? = some SYNC_START
  | .bytes bs => bs.head? = some SYNC_START
  | .pyNone => false

abbrev Transform := PyValue → Except PyErr PyValue

structure Packet where
  data : PyValue
  srcLine : Nat
  transformer : Option Transform
  dstLine : Nat

/-- `data[i]`. -/
def getByte (data : PyValue) (i : Nat) : Except PyErr UInt8 :=
  match data with
  | .bytearray bs | .bytes bs =>
    match bs[i]? with
    | some b => .ok b
    | none => .error .indexError
  | .pyNone => .error .typeError

lemma getByte_eq_ok_iff {data : PyValue} {bs : List UInt8}
    (h : data = .bytearray bs ∨ data = .bytes bs) {i : Nat} {b : UInt8} :
    getByte data i = .ok b ↔ bs[i]? = some b := by
  have hget : getByte data i = (bs[i]?).elim (.error .indexError) .ok := by
    obtain rfl | rfl := h <;> cases hb : bs[i]? <;> simp [getByte, hb]
  rw [hget]
  cases bs[i]? <;> simp

/-- `pkt[SLINE] = src_line`. -/
def stampSline (pkt : PyValue) (srcLine : Nat) : Except PyErr PyValue :=
  match pkt with
  | .bytearray bs =>
    if bs.length ≤ SLINE then .error .indexError
    else if 256 ≤ srcLine then .error .valueError
    else .ok (.bytearray (bs.set SLINE (UInt8.ofNat srcLine)))
  | _ => .error .typeError

namespace Packet

/-- `Packet(data, src_line, transformer)`. -/
def new (data : PyValue) (srcLine : Nat) (transformer : Option Transform) : Except PyErr Packet :=
  if isProtobuf data then do
    let dstLine ← getByte data DLINE
    .ok ⟨data, srcLine, transformer, dstLine.toNat⟩
  else .ok ⟨data, srcLine, transformer, 0⟩

/-- What the transform makes of the data. -/
def transformed (m : Packet) : Except PyErr PyValue :=
  match m.transformer with
  | some transformer => transformer m.data
  | none => .ok m.data

/-- The `packet` property. -/
def packet (m : Packet) : Except PyErr PyValue := do
  let pkt ← m.transformed
  if isProtobuf pkt then stampSline pkt m.srcLine else .ok pkt

end Packet

/-- `w.write(pkt)`: the bytes on the wire. -/
def written (pkt : PyValue) : Except PyErr (List UInt8) :=
  match pkt with
  | .bytearray bs => .ok bs
  | .bytes bs => .ok bs
  | .pyNone => .error .typeError

/-- The bytes that a stream writer is made to send of a message. -/
def Packet.output (m : Packet) : Except PyErr (List UInt8) := m.packet.bind written

/-- The bytes that a transform returned, if it returned bytes. -/
def Packet.result? (m : Packet) : Option (List UInt8) :=
  match m.transformed with
  | .ok (.bytearray bs) => some bs
  | .ok (.bytes bs) => some bs
  | _ => none

/-- A frame with the id of the sender in SLINE, other bytes as they are. -/
def stamped (srcLine : Nat) (bs : List UInt8) : List UInt8 :=
  if bs.head? = some SYNC_START then bs.set SLINE (UInt8.ofNat srcLine) else bs

/-- The transform returns bytes that need no stamp, or a frame that takes it. -/
def Packet.Renders (m : Packet) : Prop :=
  match m.transformed with
  | .ok (.bytearray bs) => bs.head? = some SYNC_START → SLINE < bs.length ∧ m.srcLine < 256
  | .ok (.bytes bs) => bs.head? ≠ some SYNC_START
  | _ => False

lemma Packet.output_of_renders {m : Packet} (h : m.Renders) :
    ∃ bs, m.result? = some bs ∧ m.output = .ok (stamped m.srcLine bs) := by
  unfold Renders at h
  unfold output packet result? stamped
  cases ht : m.transformed with
  | error e => simp [ht] at h
  | ok pkt =>
    rw [ht] at h
    cases pkt with
    | pyNone => exact absurd h id
    | bytes bs => exact ⟨bs, rfl, by simp [Bind.bind, Except.bind, isProtobuf, h, written]⟩
    | bytearray bs =>
      refine ⟨bs, rfl, ?_⟩
      by_cases hf : bs.head? = some SYNC_START
      · have hfit := h hf
        simp [Bind.bind, Except.bind, isProtobuf, hf, stampSline, not_le.mpr hfit.1,
          not_le.mpr hfit.2, written]
      · simp [Bind.bind, Except.bind, isProtobuf, hf, written]

end Nais.Host
