import Nais.Board.Unmarshall
import Nais.Protobuf.Overread
import Nais.Protobuf.RoundTrip

/-!
# The messages of the board

The structs of `messages.pb-c.c`, and `nais_marshall` and `nais_unmarshall` with the library behind
them.
-/

namespace Nais.Protobuf
open Board Lib Lib.Memory

section Structs

/-- A member and its `has` flag. -/
def optional {α : Type} (member : Bool × α) : Option α := if member.1 then some member.2 else none

def member {α : Type} (d : α) (v : Option α) : Bool × α := (v.isSome, v.getD d)

/-- The members of an unpacked message. -/
def structOf : (k : MsgKind) → Message (descriptorOf k) → Board.Message
  | .profile, m => .profile ⟨m.members ⟨0, by decide⟩, m.members ⟨1, by decide⟩⟩
  | .config, m => .config ⟨m.members ⟨0, by decide⟩, m.members ⟨1, by decide⟩, m.members ⟨2, by decide⟩,
      optional (m.members ⟨3, by decide⟩), optional (m.members ⟨4, by decide⟩),
      optional (m.members ⟨5, by decide⟩)⟩
  | .ack, m => .ack ⟨m.members ⟨0, by decide⟩, optional (m.members ⟨1, by decide⟩),
      optional (m.members ⟨2, by decide⟩)⟩
  | .secret, m => .secret ⟨m.members ⟨0, by decide⟩⟩
  | .command, m => .command ⟨m.members ⟨0, by decide⟩, optional (m.members ⟨1, by decide⟩),
      m.members ⟨2, by decide⟩, m.members ⟨3, by decide⟩⟩
  | .event, m => .event ⟨m.members ⟨0, by decide⟩, m.members ⟨1, by decide⟩, m.members ⟨2, by decide⟩,
      m.members ⟨3, by decide⟩⟩

/-- The struct of a message, as the board fills it in. -/
def membersOf : (m : Board.Message) → (f : (descriptorOf m.kind).Index) →
    Member ((descriptorOf m.kind).field f).label ((descriptorOf m.kind).field f).type
  | .profile m, ⟨0, _⟩ => m.uid
  | .profile m, ⟨1, _⟩ => m.pwd
  | .config m, ⟨0, _⟩ => m.network
  | .config m, ⟨1, _⟩ => m.board
  | .config m, ⟨2, _⟩ => m.host
  | .config m, ⟨3, _⟩ => member (1883 : Int32) m.port
  | .config m, ⟨4, _⟩ => member (0 : Int32) m.alivePeriod
  | .config m, ⟨5, _⟩ => member false m.secure
  | .ack m, ⟨0, _⟩ => m.id
  | .ack m, ⟨1, _⟩ => member (0 : Int32) m.seq
  | .ack m, ⟨2, _⟩ => member (0 : Int32) m.status
  | .secret m, ⟨0, _⟩ => m.key
  | .command m, ⟨0, _⟩ => m.id
  | .command m, ⟨1, _⟩ => member (0 : Int32) m.seq
  | .command m, ⟨2, _⟩ => m.svals
  | .command m, ⟨3, _⟩ => m.ivals
  | .event m, ⟨0, _⟩ => m.id
  | .event m, ⟨1, _⟩ => m.svals
  | .event m, ⟨2, _⟩ => m.fvals
  | .event m, ⟨3, _⟩ => m.ivals

def toMessage (m : Board.Message) : Message (descriptorOf m.kind) := ⟨membersOf m, []⟩

/-- The strings of a message. -/
def strings : Board.Message → List (List UInt8)
  | .profile m => [m.uid, m.pwd]
  | .config m => [m.network, m.board, m.host]
  | .ack _ => []
  | .secret m => [m.key]
  | .command m => m.svals
  | .event m => m.svals

def Terminated (m : Board.Message) : Prop := ∀ s ∈ strings m, ∀ c ∈ s, c ≠ 0

lemma optional_member {α : Type} (d d' : α) (v : Option α) :
    optional (if (member d v).1 then (true, (member d v).2) else (false, d')) = v := by
  cases v <;> rfl

lemma cString_eq {s : List UInt8} (h : ∀ c ∈ s, c ≠ 0) : cString s = s :=
  Cell.normal_eq (t := .string) h

lemma map_cString_eq {ss : List (List UInt8)} (h : ∀ s ∈ ss, ∀ c ∈ s, c ≠ 0) : ss.map cString = ss :=
  (List.map_congr_left fun s hs => cString_eq (h s hs)).trans (List.map_id ss)

/-- What is unpacked is what was packed. -/
lemma structOf_normal {m : Board.Message} (h : Terminated m) :
    structOf m.kind (toMessage m).normal = m := by
  have hcells : ∀ {α : Type} (l : List α), l.map (fun v => v) = l := List.map_id
  cases m with
  | profile m =>
    simp only [Terminated, strings, List.forall_mem_cons] at h
    change Board.Message.profile ⟨cString m.uid, cString m.pwd⟩ = _
    rw [cString_eq h.1, cString_eq h.2.1]
  | config m =>
    simp only [Terminated, strings, List.forall_mem_cons] at h
    change Board.Message.config ⟨cString m.network, cString m.board, cString m.host,
      optional (if (member (1883 : Int32) m.port).1 then (true, (member 1883 m.port).2) else (false, 1883)),
      optional (if (member (0 : Int32) m.alivePeriod).1 then (true, (member 0 m.alivePeriod).2) else (false, 0)),
      optional (if (member (false : Bool) m.secure).1 then (true, (member false m.secure).2) else (false, false))⟩ = _
    rw [cString_eq h.1, cString_eq h.2.1, cString_eq h.2.2.1, optional_member, optional_member,
      optional_member]
  | ack m =>
    change Board.Message.ack ⟨m.id,
      optional (if (member (0 : Int32) m.seq).1 then (true, (member 0 m.seq).2) else (false, 0)),
      optional (if (member (0 : Int32) m.status).1 then (true, (member 0 m.status).2) else (false, 0))⟩ = _
    rw [optional_member, optional_member]
  | secret m =>
    simp only [Terminated, strings, List.forall_mem_cons] at h
    change Board.Message.secret ⟨cString m.key⟩ = _
    rw [cString_eq h.1]
  | command m =>
    change Board.Message.command ⟨m.id,
      optional (if (member (0 : Int32) m.seq).1 then (true, (member 0 m.seq).2) else (false, 0)),
      m.svals.map cString, m.ivals.map fun v => v⟩ = _
    have hsvals : m.svals.map cString = m.svals := map_cString_eq h
    rw [optional_member, hsvals, hcells]
  | event m =>
    have hsvals : m.svals.map cString = m.svals := map_cString_eq h
    change Board.Message.event ⟨m.id, m.svals.map cString, m.fvals.map fun v => v, m.ivals.map fun v => v⟩ = _
    rw [hsvals, hcells, hcells]

end Structs

section Library

variable {alloc : Nat → Bool}

/-- Packs to a new buffer of the packed size. -/
def packed (m : Board.Message) : List UInt8 :=
  match protobufCMessagePack (toMessage m)
    (Buffer.fill (protobufCMessageGetPackedSize (toMessage m)) 0) 0 with
  | .ok (_, b) => b.bytes
  | .error _ => []

/-- The library behind the board. -/
def protobufc (alloc : Nat → Bool) : Protobufc where
  unpack k bs :=
    match protobufCMessageUnpack alloc (descriptorOf k) bs with
    | .ok msg => some (structOf k msg)
    | .error _ => none
  unpack_kind := by
    intro k bs m h
    split at h
    · cases h
      cases k <;> rfl
    · cases h
  pack := packed

lemma packed_eq {m : Board.Message} (hsmall : (messageBytes (toMessage m)).length < 2 ^ 32) :
    packed m = messageBytes (toMessage m) := by
  have hkeyed : (toMessage m).Keyed := by
    intro u hu
    cases hu
  have hsize := getPackedSize_eq hkeyed hsmall
  unfold packed
  rw [messagePack_eq hkeyed hsmall, writing_of_le (Nat.zero_le _)]
  have hfit : 0 + (messageBytes (toMessage m)).length ≤ protobufCMessageGetPackedSize (toMessage m) := by
    omega
  obtain ⟨b, hb⟩ := (Buffer.fill (protobufCMessageGetPackedSize (toMessage m)) 0).exists_write hfit
  have hbytes := Buffer.write_zero hb
  rw [put_eq_ok_iff.mpr hb]
  change b.bytes = _
  have hnil : (Buffer.fill (protobufCMessageGetPackedSize (toMessage m)) 0).bytes.drop
      (messageBytes (toMessage m)).length = [] := by
    rw [List.drop_eq_nil_iff, (Buffer.fill _ 0).size]
    omega
  rw [hbytes, hnil, List.append_nil]

/-- What the board packs it unpacks. -/
lemma protobufc_unpack_pack (henough : Enough alloc) {m : Board.Message} (h : Terminated m)
    (hsmall : (messageBytes (toMessage m)).length + 16 ≤ 2 ^ 27) :
    (protobufc alloc).unpack m.kind ((protobufc alloc).pack m) = some m := by
  have hkept : ∀ u ∈ (toMessage m).unknownFields, u.Kept (descriptorOf m.kind) := by
    intro u hu
    cases hu
  have hpack : (protobufc alloc).pack m = messageBytes (toMessage m) := packed_eq (by omega)
  have hunpack := unpack_of_decodes hsmall henough (decodes_messageBytes hkept (by omega))
  simp only [protobufc] at hpack ⊢
  rw [hpack, hunpack]
  exact congrArg some (structOf_normal h)

end Library

section Marshaller

variable {alloc : Nat → Bool}

/-- The frame of a message in memory, whatever lies behind it. -/
lemma naisUnmarshall_marshalled (henough : Enough alloc) {m : Board.Message} (h : Terminated m)
    (hsmall : (messageBytes (toMessage m)).length < 2 ^ 32) (type : ProtoMsg)
    (hkind : kindOf type.type = m.kind) (htype : type.type ≠ 0) (protobuf : Buffer 256)
    {frame : List UInt8} {protobuf' : Buffer 256}
    (hmarshall : naisMarshall (protobufc alloc) type (some m) protobuf = .ok (frame, protobuf'))
    {behind : List UInt8} (hbehind : frame.length + behind.length < 2 ^ 16) :
    ∃ r, naisUnmarshall (protobufc alloc) (frame.drop 1 ++ behind) = .ok r ∧ r.obj = some m ∧
      r.ptype = ⟨type.type, 0, type.flags⟩ := by
  obtain ⟨hfit, rfl⟩ := (naisMarshall_ok_iff (protobufc alloc) type m protobuf frame).mp ⟨_, hmarshall⟩
  have hmemory : (headerBytes type ((protobufc alloc).pack m).length ++ (protobufc alloc).pack m ++
      [RECORD_END]).drop 1 ++ behind =
        frameMemory type.type 0 type.dline type.flags ((protobufc alloc).pack m) ([RECORD_END] ++ behind) := by
    simp [headerBytes, frameMemory]
  have hread := naisUnmarshall_frameMemory type.type 0 type.dline type.flags ((protobufc alloc).pack m)
    ([RECORD_END] ++ behind) (protobufc alloc) htype (by simp) (by
      rw [← hmemory, List.length_append, List.length_drop]
      omega)
  have hpack : (protobufc alloc).pack m = messageBytes (toMessage m) := packed_eq hsmall
  have hlen : (messageBytes (toMessage m)).length + 16 ≤ 2 ^ 27 := by
    rw [hpack, List.length_append, List.length_append] at hfit
    omega
  rw [hmemory, hread, hkind, protobufc_unpack_pack henough h hlen]
  exact ⟨_, rfl, rfl, rfl⟩

/-- With the library behind it, `nais_unmarshall` gets back every message that `nais_marshall` found
room for: its values, and what of the header is meant for the board. -/
theorem unmarshall_marshall_library (henough : Enough alloc) {m : Board.Message} (h : Terminated m)
    (hsmall : (messageBytes (toMessage m)).length < 2 ^ 32) (type : ProtoMsg)
    (hkind : kindOf type.type = m.kind) (htype : type.type ≠ 0) (protobuf : Buffer 256)
    {frame : List UInt8} {protobuf' : Buffer 256}
    (hmarshall : naisMarshall (protobufc alloc) type (some m) protobuf = .ok (frame, protobuf'))
    {behind : List UInt8} (hbehind : frame.length + behind.length < 2 ^ 16) :
    ∃ r, naisUnmarshall (protobufc alloc) (frame.drop 1 ++ behind) = .ok r ∧ r.obj = some m ∧
      r.ptype = ⟨type.type, 0, type.flags⟩ :=
  naisUnmarshall_marshalled henough h hsmall type hkind htype protobuf hmarshall hbehind

theorem unmarshall_marshall_command_library :
    ∃ r, naisUnmarshall (protobufc fun _ => true) [COMMAND_TYPE, 0, 9, 1, 2, 8, 5, 0x17, 0xAA] = .ok r ∧
      r.obj = some (.command ⟨5, none, [], []⟩) ∧ r.ptype = ⟨COMMAND_TYPE, 0, 1⟩ := by
  have hterm : Terminated (.command ⟨5, none, [], []⟩) := fun s hs => absurd hs List.not_mem_nil
  obtain ⟨protobuf', hmarshall⟩ := (naisMarshall_ok_iff (protobufc fun _ => true) ⟨COMMAND_TYPE, 9, 1⟩
    (.command ⟨5, none, [], []⟩) (Buffer.fill 256 0)
    [RECORD_START, COMMAND_TYPE, 0, 9, 1, 2, 8, 5, RECORD_END]).mpr ⟨by decide, by decide +kernel⟩
  exact @unmarshall_marshall_library (fun _ => true) (fun _ => rfl) _ hterm (by decide +kernel)
    ⟨COMMAND_TYPE, 9, 1⟩ (by decide) (by decide) (Buffer.fill 256 0) _ _ hmarshall [0xAA] (by decide)

/-- `none` is a null pointer. -/
def unpackObj (alloc : Nat → Bool) (k : MsgKind) (bs : List UInt8) :
    Except Stop (Option Board.Message) :=
  match protobufCMessageUnpack alloc (descriptorOf k) bs with
  | .ok msg => .ok (some (structOf k msg))
  | .error .rejected => .ok none
  | .error e => .error e

/-- `nais_unmarshall`, with all that the library does. -/
def naisUnmarshallLibrary (alloc : Nat → Bool) (data : List UInt8) : Except Stop Unmarshalled := do
  let type ← fetch (load data 0)
  let sline ← fetch (load data 1)
  let _ ← fetch (load data 2)
  let flags ← fetch (load data 3)
  let (len, cptr) ← fetch (readLen (data.drop 4) 4 0 1)
  fetch (trace (data.drop cptr) 0 (len.toInt + 1))
  let kind ← fetch (Board.descriptor (descriptorIndex type))
  let payload ← fetch (loadRange data cptr len.toNat)
  let obj ← unpackObj alloc kind payload
  .ok ⟨⟨type, sline, flags⟩, cptr, len.toNat, obj⟩

/-- What `nais_unmarshall` reads before it calls the library. -/
def readFields (data : List UInt8) : Except Fault (ProtoMsg × Nat × Nat × MsgKind × List UInt8) := do
  let type ← load data 0
  let sline ← load data 1
  let _ ← load data 2
  let flags ← load data 3
  let (len, cptr) ← readLen (data.drop 4) 4 0 1
  trace (data.drop cptr) 0 (len.toInt + 1)
  let kind ← Board.descriptor (descriptorIndex type)
  let payload ← loadRange data cptr len.toNat
  .ok (⟨type, sline, flags⟩, cptr, len.toNat, kind, payload)

lemma naisUnmarshall_eq_readFields (pb : Protobufc) (data : List UInt8) : naisUnmarshall pb data =
    readFields data >>= fun (ptype, cptr, len, kind, payload) =>
      .ok ⟨ptype, cptr, len, pb.unpack kind payload⟩ := by
  simp only [naisUnmarshall, readFields, bind_assoc]
  rfl

lemma fetch_bind {α β : Type} (x : Except Fault α) (f : α → Except Fault β) :
    fetch (x >>= f) = fetch x >>= fun a => fetch (f a) := by
  cases x <;> rfl

lemma naisUnmarshallLibrary_eq_readFields (data : List UInt8) : naisUnmarshallLibrary alloc data =
    fetch (readFields data) >>= fun (ptype, cptr, len, kind, payload) =>
      unpackObj alloc kind payload >>= fun obj => .ok ⟨ptype, cptr, len, obj⟩ := by
  simp only [naisUnmarshallLibrary, readFields, fetch_bind, bind_assoc]
  rfl

/-- The library can be made to read beyond the payload of a command or an event only. -/
lemma overreads_kind {k : MsgKind} {bs : List UInt8} (h : Overreads (descriptorOf k) bs) :
    k = .command ∨ k = .event := by
  obtain ⟨-, -, -, -, -, ⟨f, -, hrepeated, -⟩, -⟩ := h
  cases k with
  | command => exact .inl rfl
  | event => exact .inr rfl
  | profile | config | ack | secret =>
    revert f
    decide

lemma readFields_ok {data : List UInt8} {ptype : ProtoMsg} {cptr len : Nat} {kind : MsgKind}
    {payload : List UInt8} (h : readFields data = .ok (ptype, cptr, len, kind, payload)) :
    kind = kindOf ptype.type ∧ payload = (data.drop cptr).take len := by
  obtain ⟨type, -, h⟩ := Refine.bind_eq_ok_iff.mp h
  obtain ⟨sline, -, h⟩ := Refine.bind_eq_ok_iff.mp h
  obtain ⟨dline, -, h⟩ := Refine.bind_eq_ok_iff.mp h
  obtain ⟨flags, -, h⟩ := Refine.bind_eq_ok_iff.mp h
  obtain ⟨⟨n, i⟩, -, h⟩ := Refine.bind_eq_ok_iff.mp h
  obtain ⟨-, -, h⟩ := Refine.bind_eq_ok_iff.mp h
  obtain ⟨k, hkind, h⟩ := Refine.bind_eq_ok_iff.mp h
  obtain ⟨bs, hrange, h⟩ := Refine.bind_eq_ok_iff.mp h
  cases h
  rw [descriptor_descriptorIndex] at hkind
  unfold loadRange at hrange
  split_ifs at hkind hrange
  cases hkind
  cases hrange
  exact ⟨rfl, rfl⟩

/-- What is not accepted is a null pointer, where the library rejects it. -/
lemma unpackObj_eq {k : MsgKind} {bs : List UInt8}
    (h : ∀ e, protobufCMessageUnpack alloc (descriptorOf k) bs = .error e → e = .rejected) :
    unpackObj alloc k bs = .ok ((protobufc alloc).unpack k bs) := by
  have hlibrary : (protobufc alloc).unpack k bs =
      match protobufCMessageUnpack alloc (descriptorOf k) bs with
      | .ok msg => some (structOf k msg)
      | .error _ => none := rfl
  rw [hlibrary, unpackObj]
  cases hunpack : protobufCMessageUnpack alloc (descriptorOf k) bs with
  | ok msg => rfl
  | error e =>
    obtain rfl := h e hunpack
    rfl

/-- `nais_unmarshall` goes wrong with the library behind it where it does without, and on a payload
that the library reads beyond. Only a command, an event or a message of an unknown type has one. -/
theorem unmarshall_library_iff (henough : Enough alloc) {data : List UInt8} (hsize : data.length < 2 ^ 16) :
    (∀ e, naisUnmarshall (protobufc alloc) data = .error e →
      naisUnmarshallLibrary alloc data = .error (.fault e)) ∧
    ∀ r, naisUnmarshall (protobufc alloc) data = .ok r →
      (¬Overreads (descriptorOf (kindOf (typeByte data))) (declaredPayload data) →
        naisUnmarshallLibrary alloc data = .ok r) ∧
      (Overreads (descriptorOf (kindOf (typeByte data))) (declaredPayload data) →
        naisUnmarshallLibrary alloc data = .error (.fault .outOfBounds) ∧
          typeByte data ∉ [PROFILE_TYPE, CONFIG_TYPE, ACK_TYPE, SECRET_TYPE]) := by
  rw [naisUnmarshall_eq_readFields, naisUnmarshallLibrary_eq_readFields]
  cases hfields : readFields data with
  | error e =>
    refine ⟨fun e' he => ?_, fun r hr => ?_⟩
    · cases he
      rfl
    · cases hr
  | ok q =>
    obtain ⟨ptype, cptr, len, kind, payload⟩ := q
    obtain ⟨rfl, rfl⟩ := readFields_ok hfields
    refine ⟨fun e he => (by cases he), fun r hr => ?_⟩
    -- the fields are those of the frame
    have hframe := (naisUnmarshall_ok_iff (protobufc alloc) hsize r).mp (by
      rw [naisUnmarshall_eq_readFields, hfields]
      exact hr)
    cases hr
    obtain ⟨-, hfit, -, hr⟩ := hframe
    have htype : ptype.type = typeByte data := congrArg (fun u => u.ptype.type) hr
    have hpayload : (data.drop cptr).take len = declaredPayload data := by
      have hcptr : cptr = payloadStart data := congrArg (fun u => u.payloadAt) hr
      have hlen : len = declaredLen data := congrArg (fun u => u.len) hr
      rw [hcptr, hlen, declaredPayload]
    rw [← htype, ← hpayload]
    have hshort : ((data.drop cptr).take len).length + 16 ≤ 2 ^ 27 := by
      rw [List.length_take, List.length_drop]
      omega
    obtain ⟨hends, hover⟩ := unpack_faults_iff alloc (descriptorOf (kindOf ptype.type)) hshort
    have hover := hover henough
    refine ⟨fun hno => ?_, fun hyes => ⟨?_, fun hmem => ?_⟩⟩
    · change (unpackObj alloc _ _ >>= _) = _
      rw [unpackObj_eq fun e he => (hends e he).resolve_right fun h => hno h.2]
      rfl
    · change (unpackObj alloc _ _ >>= _) = _
      rw [unpackObj, hover.mpr hyes]
      rfl
    · simp only [List.mem_cons, List.not_mem_nil, or_false] at hmem
      obtain hkind | hkind := overreads_kind hyes <;> obtain h | h | h | h := hmem <;>
        rw [h] at hkind <;> cases hkind

/-- A command whose payload is a length of 2^32 - 1 in the field `ivals`. -/
def overlongCommand : List UInt8 := [7, 0, 0, 0, 6, 0x22, 0xff, 0xff, 0xff, 0xff, 0x0f, 0x17]

theorem overlongCommand_library :
    naisUnmarshallLibrary (fun _ => true) overlongCommand = .error (.fault .outOfBounds) := by
  have hover : Overreads (descriptorOf (kindOf (typeByte overlongCommand))) (declaredPayload overlongCommand) := by
    have hlong := @Wire.OverlongAfter.here (declaredPayload overlongCommand) 1 (by decide) (by decide)
    have htag : Base128.number ((declaredPayload overlongCommand).take 1) / 8 = 4 := by decide
    have hlen : Base128.number (((declaredPayload overlongCommand).drop 1).take 5) % 2 ^ 32 = 2 ^ 32 - 1 := by
      decide
    rw [htag, hlen] at hlong
    exact ⟨[], 4, 2 ^ 32 - 1, hlong, by decide, ⟨⟨3, by decide⟩, by decide, by decide, trivial⟩, by simp⟩
  have hread := (naisUnmarshall_ok_iff (protobufc fun _ => true) (by decide : overlongCommand.length < 2 ^ 16)
    _).mpr ⟨by decide, by decide, by decide, rfl⟩
  exact (((unmarshall_library_iff (fun _ => rfl) (by decide)).2 _ hread).2 hover).1

end Marshaller

end Nais.Protobuf
