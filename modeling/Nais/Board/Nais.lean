import Nais.Lib.Base128
import Nais.Lib.Memory

/-!
# Frames on the board

`sys/bocia/nais.c`: the header encoder, the marshaller with its static buffer, and the
unmarshaller, which works on a pointer. Memory seen through a pointer is the list of bytes
from it to the end of the object it points into, and a load beyond that list is a `Fault`.
The protobuf-c library is a `Protobufc`.
-/

namespace Nais.Board
open Nais.Lib Nais.Lib.Memory

/-- What C leaves undefined in the modelled functions. -/
inductive Fault where
  | outOfBounds
  | tableIndex
  | nullPointer
  | typeConfusion
  deriving DecidableEq, Repr

def RECORD_START : UInt8 := 0x1E
def RECORD_END : UInt8 := 0x17

def PROFILE_TYPE : UInt8 := 1
def CONFIG_TYPE : UInt8 := 2
def ACK_TYPE : UInt8 := 3
def SECRET_TYPE : UInt8 := 4
def COMMAND_TYPE : UInt8 := 5
def EVENT_TYPE : UInt8 := 6

structure ProtoMsg where
  type : UInt8
  dline : UInt8
  flags : UInt8
  deriving DecidableEq, Repr

structure Profile where
  uid : List UInt8
  pwd : List UInt8
  deriving DecidableEq

structure Config where
  network : List UInt8
  board : List UInt8
  host : List UInt8
  port : Option Int32
  alivePeriod : Option Int32
  secure : Option Bool
  deriving DecidableEq

structure Ack where
  id : Int32
  seq : Option Int32
  status : Option Int32
  deriving DecidableEq

structure Secret where
  key : List UInt8
  deriving DecidableEq

structure Command where
  id : Int32
  seq : Option Int32
  svals : List (List UInt8)
  ivals : List Int32
  deriving DecidableEq

/-- A value of `fvals` is the bits of a float. -/
structure Event where
  id : Int32
  svals : List (List UInt8)
  fvals : List UInt32
  ivals : List Int32
  deriving DecidableEq

inductive MsgKind where
  | profile | config | ack | secret | command | event
  deriving DecidableEq, Repr

/-- An unpacked message: its constructor is the descriptor it was unpacked with. -/
inductive Message where
  | profile (m : Profile)
  | config (m : Config)
  | ack (m : Ack)
  | secret (m : Secret)
  | command (m : Command)
  | event (m : Event)
  deriving DecidableEq

def Message.kind : Message → MsgKind
  | .profile _ => .profile
  | .config _ => .config
  | .ack _ => .ack
  | .secret _ => .secret
  | .command _ => .command
  | .event _ => .event

lemma Message.exists_command {m : Message} (h : m.kind = .command) : ∃ cmd, m = .command cmd := by
  cases m with
  | command cmd => exact ⟨cmd, rfl⟩
  | _ => cases h

/-- The library allocates the struct of the descriptor it is given, and `pack` writes as
many bytes as `get_packed_size` announced. -/
structure Protobufc where
  unpack : MsgKind → List UInt8 → Option Message
  unpack_kind : ∀ {k bs m}, unpack k bs = some m → m.kind = k
  pack : Message → List UInt8

def md : List MsgKind := [.profile, .config, .ack, .secret, .command, .event]

/-- `md[i]`. -/
def descriptor (i : Int) : Except Fault MsgKind :=
  if i < 0 then .error .tableIndex
  else match md[i.toNat]? with
    | some k => .ok k
    | none => .error .tableIndex

variable {n : Nat}

def store (buff : Buffer n) (i : Nat) (xs : List UInt8) : Except Fault (Buffer n) :=
  match buff.write i xs with
  | some b => .ok b
  | none => .error .outOfBounds

/-- The loop of `nais_setup_header` that writes the LEN bytes. -/
def setupLen (buff : Buffer n) (lenIndex hlen len : Nat) : Except Fault (Nat × Buffer n) := do
  if 0 < len / 128 then
    let buff ← store buff lenIndex [UInt8.ofNat (128 + len % 128)]
    setupLen buff (lenIndex + 1) (hlen + 1) (len / 128)
  else
    let buff ← store buff lenIndex [UInt8.ofNat (len % 128)]
    .ok (hlen, buff)
termination_by len

def naisSetupHeader (msgType : ProtoMsg) (msgLen : Nat) (buff : Buffer n) :
    Except Fault (Nat × Buffer n) := do
  let buff ← store buff 0 [RECORD_START, msgType.type, 0, msgType.dline, msgType.flags]
  let (hlen, buff) ← setupLen buff 5 6 msgLen
  let buff ← store buff (msgLen + hlen) [RECORD_END]
  .ok (hlen, buff)

/-- `obj` is `none` for a null pointer. The result is the payload and the buffer it lies in. -/
def naisMarshall (pb : Protobufc) (type : ProtoMsg) (obj : Option Message) (protobuf : Buffer n) :
    Except Fault (List UInt8 × Buffer n) := do
  match obj with
  | none => .error .nullPointer
  | some m =>
    let blen := (pb.pack m).length
    let (hlen, protobuf) ← naisSetupHeader type blen protobuf
    let protobuf ← store protobuf hlen (pb.pack m)
    .ok (protobuf.bytes.take (blen + hlen + 1), protobuf)

def load (data : List UInt8) (i : Nat) : Except Fault UInt8 :=
  match data[i]? with
  | some b => .ok b
  | none => .error .outOfBounds

/-- `len` consecutive bytes. -/
def loadRange (data : List UInt8) (i len : Nat) : Except Fault (List UInt8) :=
  if i + len ≤ data.length then .ok ((data.drop i).take len) else .error .outOfBounds

/-- The loop that reads LEN from the bytes at `cptr`. -/
def readLen : List UInt8 → Nat → BitVec 32 → BitVec 32 → Except Fault (BitVec 32 × Nat)
  | [], _, _, _ => .error .outOfBounds
  | c :: rest, cptr, len, multiplier =>
    let len := len + BitVec.ofNat 32 (c.toNat &&& 127) * multiplier
    if c.toNat &&& 128 ≠ 0 then readLen rest (cptr + 1) len (multiplier * 128)
    else .ok (len, cptr + 1)

/-- The trace of `len + 1` bytes from `cptr`. Its 16 bit index cannot wrap before the
end of an object of less than 2^16 bytes is passed. -/
def trace : List UInt8 → Int → Int → Except Fault Unit
  | [], i, bound => if i < bound then .error .outOfBounds else .ok ()
  | _ :: rest, i, bound => if i < bound then trace rest (i + 1) bound else .ok ()

/-- `payloadAt` is `cptr` when the payload is unpacked. -/
structure Unmarshalled where
  ptype : ProtoMsg
  payloadAt : Nat
  len : Nat
  obj : Option Message
  deriving DecidableEq

/-- The index of the descriptor of a message type: unknown types are custom commands. -/
def descriptorIndex (type : UInt8) : Int :=
  (if EVENT_TYPE < type then COMMAND_TYPE.toNat else type.toNat : Int) - 1

def naisUnmarshall (pb : Protobufc) (data : List UInt8) : Except Fault Unmarshalled := do
  let type ← load data 0
  let sline ← load data 1
  let _ ← load data 2
  let flags ← load data 3
  let (len, cptr) ← readLen (data.drop 4) 4 0 1
  trace (data.drop cptr) 0 (len.toInt + 1)
  let kind ← descriptor (descriptorIndex type)
  let packed ← loadRange data cptr len.toNat
  .ok ⟨⟨type, sline, flags⟩, cptr, len.toNat, pb.unpack kind packed⟩

/-- `%.*s` at `off`. It reads up to a null byte, or `len` bytes, where `len` is not negative. -/
def traceString (mem : List UInt8) (off : Nat) (len : Int) : Except Fault Unit :=
  let chars := ((mem.drop off).takeWhile (· ≠ 0)).length
  if 0 ≤ len ∧ len ≤ chars ∨ off + chars < mem.length then .ok () else .error .outOfBounds

/-- `buff` points to the offset `off` of the object `mem`. -/
def isNaisPayload (mem : List UInt8) (off : Nat) (len : Int) : Except Fault Bool := do
  let first ← load mem off
  let last ← if first = RECORD_START then
      if off + len - 1 < 0 then .error .outOfBounds else (load mem (off + len - 1).toNat).map some
    else .ok none
  if last = some RECORD_END then .ok true
  else
    traceString mem off len
    .ok false

lemma store_eq_ok_iff {buff buff' : Buffer n} {i : Nat} {xs : List UInt8} :
    store buff i xs = .ok buff' ↔ buff.write i xs = some buff' := by
  unfold store
  cases buff.write i xs <;> simp

lemma store_adjacent (buff : Buffer n) (i : Nat) (xs ys : List UInt8) :
    (store buff i xs).bind (fun b => store b (i + xs.length) ys) = store buff i (xs ++ ys) := by
  have h := buff.write_adjacent i xs ys
  unfold store
  cases hx : buff.write i xs with
  | none =>
    rw [hx, Option.bind_none] at h
    rw [← h]
    rfl
  | some b =>
    rw [hx, Option.bind_some] at h
    rw [← h]
    rfl

/-- LEN is written as the shortest base 128 numeral of the length. -/
lemma setupLen_eq (buff : Buffer n) (lenIndex hlen len : Nat) :
    setupLen buff lenIndex hlen len = (store buff lenIndex (Base128.encode len)).map
      (fun b => (hlen + (Base128.encode len).length - 1, b)) := by
  induction len using Nat.strong_induction_on generalizing buff lenIndex hlen with
  | _ len ih =>
    rw [setupLen]
    by_cases hl : 0 < len / 128
    · have hpos : 0 < (Base128.encode (len / 128)).length :=
        List.length_pos_iff.mpr (Base128.encode_ne_nil (len / 128))
      have hadj : _ = store buff lenIndex (UInt8.ofNat (128 + len % 128) ::
          Base128.encode (len / 128)) :=
        store_adjacent buff lenIndex [UInt8.ofNat (128 + len % 128)] (Base128.encode (len / 128))
      rw [if_pos hl, Base128.encode_large (by omega), ← hadj]
      cases hs : store buff lenIndex [UInt8.ofNat (128 + len % 128)] with
      | error e => rfl
      | ok b =>
        have hlen : hlen + 1 + (Base128.encode (len / 128)).length - 1 =
            hlen + (UInt8.ofNat (128 + len % 128) :: Base128.encode (len / 128)).length - 1 := by
          rw [List.length_cons]
          omega
        simp only [Bind.bind, Except.bind, ih (len / 128) (by omega), List.length_singleton, hlen]
    · have hmod : len % 128 = len := Nat.mod_eq_of_lt (by omega)
      rw [if_neg hl, Base128.encode_small (by omega), hmod]
      cases store buff lenIndex [UInt8.ofNat len] <;> rfl

/-- The bytes before the payload. -/
def headerBytes (type : ProtoMsg) (msgLen : Nat) : List UInt8 :=
  [RECORD_START, type.type, 0, type.dline, type.flags] ++ Base128.encode msgLen

lemma headerBytes_length (type : ProtoMsg) (msgLen : Nat) :
    (headerBytes type msgLen).length = 5 + (Base128.encode msgLen).length := by
  rw [headerBytes, List.length_append]
  rfl

lemma naisSetupHeader_eq (type : ProtoMsg) (msgLen : Nat) (buff : Buffer n) :
    naisSetupHeader type msgLen buff =
      ((store buff 0 (headerBytes type msgLen)).bind
        (fun b => store b (msgLen + (headerBytes type msgLen).length) [RECORD_END])).map
        (fun b => ((headerBytes type msgLen).length, b)) := by
  have hpos : 0 < (Base128.encode msgLen).length :=
    List.length_pos_iff.mpr (Base128.encode_ne_nil msgLen)
  have hlen : 6 + (Base128.encode msgLen).length - 1 = (headerBytes type msgLen).length := by
    rw [headerBytes_length]
    omega
  have hadj := store_adjacent buff 0 [RECORD_START, type.type, 0, type.dline, type.flags]
    (Base128.encode msgLen)
  rw [naisSetupHeader]
  rw [← headerBytes] at hadj
  rw [← hadj]
  cases hs : store buff 0 [RECORD_START, type.type, 0, type.dline, type.flags] with
  | error e => rfl
  | ok b =>
    simp only [Bind.bind, Except.bind, setupLen_eq, List.length_cons, List.length_nil]
    cases hl : store b 5 (Base128.encode msgLen) with
    | error e => rfl
    | ok b' =>
      simp only [Except.map, hlen]

lemma naisSetupHeader_ok_iff (type : ProtoMsg) (msgLen hlen : Nat) (buff buff' : Buffer n) :
    naisSetupHeader type msgLen buff = .ok (hlen, buff') ↔
      hlen = (headerBytes type msgLen).length ∧ ∃ b, buff.write 0 (headerBytes type msgLen) = some b ∧
        b.write (msgLen + (headerBytes type msgLen).length) [RECORD_END] = some buff' := by
  rw [naisSetupHeader_eq]
  cases hs : store buff 0 (headerBytes type msgLen) with
  | error e =>
    have hnone : ∀ b, buff.write 0 (headerBytes type msgLen) ≠ some b := by
      intro b hb
      have hok := store_eq_ok_iff.mpr hb
      simp [hs] at hok
    simp [Except.bind, Except.map, hnone]
  | ok b =>
    rw [store_eq_ok_iff] at hs
    simp only [Except.bind, hs, Option.some.injEq, exists_eq_left', ← store_eq_ok_iff]
    cases store b (msgLen + (headerBytes type msgLen).length) [RECORD_END] with
    | error e => simp [Except.map]
    | ok b' => simp [Except.map, eq_comm]

/-- The header and the end byte fit where the whole frame does. -/
lemma exists_naisSetupHeader (type : ProtoMsg) (msgLen : Nat) (buff : Buffer n)
    (hfit : msgLen + (headerBytes type msgLen).length + 1 ≤ n) :
    ∃ b₁ b₂, buff.write 0 (headerBytes type msgLen) = some b₁ ∧
      b₁.write (msgLen + (headerBytes type msgLen).length) [RECORD_END] = some b₂ ∧
      naisSetupHeader type msgLen buff = .ok ((headerBytes type msgLen).length, b₂) := by
  obtain ⟨b₁, hx⟩ : ∃ b, buff.write 0 (headerBytes type msgLen) = some b :=
    buff.exists_write (by omega)
  obtain ⟨b₂, he⟩ : ∃ b, b₁.write (msgLen + (headerBytes type msgLen).length) [RECORD_END] = some b :=
    b₁.exists_write hfit
  exact ⟨b₁, b₂, hx, he, (naisSetupHeader_ok_iff ..).mpr ⟨rfl, b₁, hx, he⟩⟩

/-- What the marshaller returns is a whole frame, when it fits its buffer. -/
lemma naisMarshall_ok_iff (pb : Protobufc) (type : ProtoMsg) (m : Message) (protobuf : Buffer n)
    (frame : List UInt8) :
    (∃ protobuf', naisMarshall pb type (some m) protobuf = .ok (frame, protobuf')) ↔
      frame.length ≤ n ∧
        frame = headerBytes type (pb.pack m).length ++ pb.pack m ++ [RECORD_END] := by
  have hone : ([RECORD_END] : List UInt8).length = 1 := rfl
  constructor
  · rintro ⟨protobuf', h⟩
    rw [naisMarshall] at h
    dsimp only at h
    cases hh : naisSetupHeader type (pb.pack m).length protobuf with
    | error e => simp [hh, Bind.bind, Except.bind] at h
    | ok p =>
      obtain ⟨hlen, b₂⟩ := p
      obtain ⟨rfl, b₁, hx, he⟩ := (naisSetupHeader_ok_iff ..).mp hh
      cases hs : store b₂ (headerBytes type (pb.pack m).length).length (pb.pack m) with
      | error e => simp [hh, hs, Bind.bind, Except.bind] at h
      | ok b₃ =>
        simp only [hh, hs, Bind.bind, Except.bind, Except.ok.injEq, Prod.mk.injEq] at h
        have hframe := Buffer.write_around hx he (store_eq_ok_iff.mp hs)
        have hfit := ((b₁.write_eq_some_iff b₂ _ _).mp he).1
        rw [← h.1, hframe]
        refine ⟨?_, rfl⟩
        simp only [List.length_append] at hfit ⊢
        omega
  · rintro ⟨hfit, rfl⟩
    simp only [List.length_append, hone] at hfit
    obtain ⟨b₁, b₂, hx, he, hsetup⟩ := exists_naisSetupHeader type (pb.pack m).length protobuf
      (by omega)
    obtain ⟨b₃, hy⟩ : ∃ b, b₂.write (headerBytes type (pb.pack m).length).length (pb.pack m) = some b :=
      b₂.exists_write (by omega)
    refine ⟨b₃, ?_⟩
    rw [naisMarshall, ← Buffer.write_around hx he hy]
    simp only [hsetup, store_eq_ok_iff.mpr hy, Bind.bind, Except.bind]

/-- The number of bytes of the frame of `m`. -/
def frameLength (pb : Protobufc) (m : Message) : Nat :=
  5 + (Base128.encode (pb.pack m).length).length + (pb.pack m).length + 1

lemma naisMarshall_ok_or_error (pb : Protobufc) (type : ProtoMsg) (m : Message)
    (protobuf : Buffer n) :
    (frameLength pb m ≤ n ∧ ∃ protobuf', naisMarshall pb type (some m) protobuf =
      .ok (headerBytes type (pb.pack m).length ++ pb.pack m ++ [RECORD_END], protobuf')) ∨
    (n < frameLength pb m ∧ ∃ e, naisMarshall pb type (some m) protobuf = .error e) := by
  have hlen : (headerBytes type (pb.pack m).length ++ pb.pack m ++ [RECORD_END]).length =
      frameLength pb m := by
    rw [List.length_append, List.length_append, headerBytes_length]
    rfl
  cases h : naisMarshall pb type (some m) protobuf with
  | ok p =>
    obtain ⟨hfit, hframe⟩ := (naisMarshall_ok_iff pb type m protobuf p.1).mp ⟨p.2, h⟩
    rw [hframe, hlen] at hfit
    refine Or.inl ⟨hfit, p.2, ?_⟩
    rw [← hframe]
  | error e =>
    refine Or.inr ⟨?_, e, rfl⟩
    by_contra hfit
    obtain ⟨p, hok⟩ := (naisMarshall_ok_iff pb type m protobuf _).mpr ⟨by rw [hlen]; omega, rfl⟩
    rw [h] at hok
    cases hok

end Nais.Board
