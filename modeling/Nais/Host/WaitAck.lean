import Nais.Host.Cleanup
import Nais.Host.Unmarshall

/-!
# Waiting for an ack

`is_ack` and `entity_from` of `pynais/nais.py`, and the loop of `msg_send` in
`pynais/junction.py`, which decodes every record on the way to the ack of its request.
-/

namespace Nais.Host
open Nais.Lib Nais.Lib.Cut Nais.Lib.Base128

/-- What `is_ack` and `entity_from` do with the objects. `isAck` is `isinstance(o, Ack)`, and
`id` is the attribute: `none` where there is none, `some none` where it is `None`. The objects
of `Ack` have an `id` and take further attributes. -/
structure AckLib (O : Type) where
  isAck : O → Bool
  id : O → Option (Option Int)
  setSline : O → UInt8 → Except PyErr O
  id_of_isAck : ∀ o, isAck o = true → (id o).isSome
  setSline_of_isAck : ∀ o b, isAck o = true → ∃ o', setSline o b = .ok o'
  isAck_setSline : ∀ {o o' b}, setSline o b = .ok o' → isAck o' = isAck o
  id_setSline : ∀ {o o' b}, setSline o b = .ok o' → isAck o = true → id o' = id o

/-- The results of `entity_from`. -/
inductive Entity (O : Type) where
  | packet (data : List UInt8)
  | object (o : O)

/-- The messages that `msg_send` accepts. -/
inductive Sendable where
  | str (text : String)
  | bytes (bs : List UInt8)

/-- The bytes of a message, a text in UTF-8. -/
def Sendable.encode : Sendable → List UInt8
  | .str text => text.toUTF8.toList
  | .bytes bs => bs

section Ack

variable {C P M O : Type}

def Entity.isAck (lib : AckLib O) : Entity O → Bool
  | .packet _ => false
  | .object o => lib.isAck o

def Entity.id (lib : AckLib O) : Entity O → Option (Option Int)
  | .packet _ => none
  | .object o => lib.id o

def isAck [DecidableEq C] (lib : AckLib O) (reg : Registry C P) (responseObj : Entity O)
    (requestPkt : Option (List UInt8)) (commandType : Option C) : Except PyErr Bool :=
  -- an empty packet counts as none
  match requestPkt.filter (· ≠ []), commandType with
  | some pkt, _ =>
    if responseObj.isAck lib then
      match getByte (.bytearray pkt) 1, responseObj.id lib with
      | .error e, _ => .error e
      | .ok _, none => .error .attributeError
      | .ok b, some id => .ok (id = some b.toNat)
    else .ok false
  | none, some t =>
    match responseObj.id lib with
    | none => .ok false
    | some none => .error .keyError
    | some (some id) =>
      match reg.cidToClasses id with
      | none => .error .keyError
      | some (_, modelClass) => .ok (modelClass = t)
  | none, none => .ok (responseObj.isAck lib)

variable (models : ModelLib C P M O) (lib : AckLib O) (reg : Registry C P)

def entityFrom (packet : List UInt8) : Except PyErr (Entity O) :=
  if !isProtobuf (.bytearray packet) then .ok (.packet packet)
  else do
    let e ← unmarshall models reg packet
    let sline ← getByte (.bytearray packet) SLINE
    let e ← lib.setSline e sline
    .ok (.object e)

variable [DecidableEq C]

/-- The body of the loop: whether `data` is the ack of the message. -/
def acknowledges (message data : List UInt8) : Except PyErr Bool := do
  let response ← entityFrom models lib reg data
  isAck lib reg response (some message) none

/-- The loop of `msg_send`: the bytes that are left unread when it ends. -/
def waitAck (message stream : List UInt8) : Except PyErr (List UInt8) :=
  match h : msgReceive false 0 stream with
  | .error e => .error e
  | .ok (data, rest) =>
    have := msgReceive_rest_lt h
    match acknowledges models lib reg message data with
    | .error e => .error e
    | .ok true => .ok rest
    | .ok false => waitAck message rest
termination_by stream.length

/-- `msg_send`: the bytes written to the channel, and what the loop makes of the bytes that
arrive afterwards. -/
def msgSend (message : Sendable) (waitAck : Bool) (stream : List UInt8) :
    List UInt8 × Except PyErr (List UInt8) :=
  let message := message.encode
  (message, if waitAck then Host.waitAck models lib reg message stream else .ok stream)

/-- The loop of `msg_send` on records that have been cut already: those behind the ack, or
`none` if it waits still. -/
def waitAckAmong (message : List UInt8) : List (List UInt8) → Except PyErr (Option (List (List UInt8)))
  | [] => .ok none
  | data :: records =>
    match acknowledges models lib reg message data with
    | .error e => .error e
    | .ok true => .ok (some records)
    | .ok false => waitAckAmong message records

end Ack

section Spec

variable {C P M O : Type} (models : ModelLib C P M O) (lib : AckLib O) (reg : Registry C P)

/-- The record is a frame with an `Ack` for the request with this id. -/
def ackFor (oid : Int) (record : List UInt8) : Bool :=
  isProtobuf (.bytearray record) &&
    match unmarshall models reg record with
    | .ok o => lib.isAck o && lib.id o = some (some oid)
    | .error _ => false

def beforeAck (oid : Int) (records : List (List UInt8)) : List (List UInt8) :=
  records.takeWhile fun r => !ackFor models lib reg oid r

/-- The records behind the first ack for the request. -/
def behindAck (oid : Int) (records : List (List UInt8)) : Option (List (List UInt8)) :=
  (records.dropWhile fun r => !ackFor models lib reg oid r).tail?

/-- The record is text, or a frame of a registered type with a LEN that ends inside the frame
and a payload that makes an object that takes an `sline`. -/
def Decodes (record : List UInt8) : Prop :=
  isProtobuf (.bytearray record) = true →
    ∃ cid protobufClass modelClass pobj o sline o', record[1]? = some cid ∧
      reg.cidToClasses cid.toNat = some (protobufClass, modelClass) ∧
      continuations (record.drop 5) < (record.drop 5).length ∧
      models.parse protobufClass (record.dropLast.drop (6 + continuations (record.drop 5))) = .ok pobj ∧
      models.build modelClass pobj = .ok o ∧ record[SLINE]? = some sline ∧
      lib.setSline o sline = .ok o'

lemma entityFrom_packet {record : List UInt8} (h : isProtobuf (.bytearray record) = false) :
    entityFrom models lib reg record = .ok (.packet record) := by
  simp [entityFrom, h]

lemma entityFrom_object_iff {record : List UInt8} (h : isProtobuf (.bytearray record) = true)
    (response : Entity O) :
    entityFrom models lib reg record = .ok response ↔
      ∃ o sline o', unmarshall models reg record = .ok o ∧ record[SLINE]? = some sline ∧
        lib.setSline o sline = .ok o' ∧ response = .object o' := by
  unfold entityFrom
  rw [h]
  cases hu : unmarshall models reg record with
  | error e => simp [Bind.bind, Except.bind]
  | ok o =>
    cases hs : record[SLINE]? with
    | none => simp [getByte, hs, Bind.bind, Except.bind]
    | some sline =>
      cases hset : lib.setSline o sline with
      | error e => simp [getByte, hs, hset, Bind.bind, Except.bind]
      | ok o' => simp [getByte, hs, hset, Bind.bind, Except.bind, eq_comm]

lemma decodes_iff (record : List UInt8) :
    Decodes models lib reg record ↔ ∃ response, entityFrom models lib reg record = .ok response := by
  cases hp : isProtobuf (.bytearray record) with
  | false =>
    refine iff_of_true (fun h => ?_) ⟨_, entityFrom_packet models lib reg hp⟩
    rw [hp] at h
    cases h
  | true =>
    simp only [entityFrom_object_iff models lib reg hp, unmarshall_ok_iff]
    constructor
    · intro h
      obtain ⟨cid, protobufClass, modelClass, pobj, o, sline, o', hcid, hreg, hlen, hparse, hbuild,
        hsline, hset⟩ := h hp
      exact ⟨_, o, sline, o', ⟨cid, protobufClass, modelClass, pobj, hcid, hreg, hlen, hparse, hbuild⟩,
        hsline, hset, rfl⟩
    · rintro ⟨_, o, sline, o', ⟨cid, protobufClass, modelClass, pobj, hcid, hreg, hlen, hparse, hbuild⟩,
        hsline, hset, rfl⟩ -
      exact ⟨cid, protobufClass, modelClass, pobj, o, sline, o', hcid, hreg, hlen, hparse, hbuild,
        hsline, hset⟩

/-- An ack takes the attribute, so that nothing is raised for it. -/
lemma decodes_of_ackFor {oid : Int} {record : List UInt8} (h : ackFor models lib reg oid record = true) :
    Decodes models lib reg record := by
  intro hp
  unfold ackFor at h
  cases hu : unmarshall models reg record with
  | error e => simp [hu] at h
  | ok o =>
    have hack : lib.isAck o = true := by
      simp only [hu, Bool.and_eq_true] at h
      exact h.2.1
    obtain ⟨cid, protobufClass, modelClass, pobj, hcid, hreg, hlen, hparse, hbuild⟩ :=
      (unmarshall_ok_iff models reg record o).mp hu
    have hfive : SLINE < record.length := by
      rw [List.length_drop] at hlen
      unfold SLINE
      omega
    obtain ⟨o', hset⟩ := lib.setSline_of_isAck o record[SLINE] hack
    exact ⟨cid, protobufClass, modelClass, pobj, o, record[SLINE], o', hcid, hreg, hlen, hparse, hbuild,
      List.getElem?_eq_getElem hfive, hset⟩

variable [DecidableEq C]

lemma isAck_request {message : List UInt8} {b : UInt8} (hbyte : message[1]? = some b)
    (response : Entity O) :
    isAck lib reg response (some message) none =
      if response.isAck lib then
        match response.id lib with
        | none => .error .attributeError
        | some id => .ok (id = some b.toNat)
      else .ok false := by
  have hne : message ≠ [] := by
    rintro rfl
    cases hbyte
  have hpkt : (some message).filter (· ≠ []) = some message := Option.filter_eq_some_iff.mpr ⟨rfl, by simpa⟩
  have hget : getByte (.bytearray message) 1 = .ok b := (getByte_eq_ok_iff (.inl rfl)).mpr hbyte
  simp only [isAck, hpkt, hget]
  cases response.id lib <;> rfl

/-- What the loop finds out about a record of which it makes an entity. -/
lemma acknowledges_of_decodes {oid : Int} {message : List UInt8} {b : UInt8}
    (hbyte : message[1]? = some b) (hoid : (b.toNat : Int) = oid) {record : List UInt8}
    (h : Decodes models lib reg record) :
    acknowledges models lib reg message record = .ok (ackFor models lib reg oid record) := by
  obtain ⟨response, hresponse⟩ := (decodes_iff models lib reg record).mp h
  have hloop : acknowledges models lib reg message record = isAck lib reg response (some message) none := by
    rw [acknowledges, hresponse]
    rfl
  rw [hloop, isAck_request lib reg hbyte]
  cases hp : isProtobuf (.bytearray record) with
  | false =>
    rw [entityFrom_packet models lib reg hp] at hresponse
    cases hresponse
    simp [ackFor, Entity.isAck, hp]
  | true =>
    obtain ⟨o, sline, o', hu, -, hset, rfl⟩ := (entityFrom_object_iff models lib reg hp response).mp hresponse
    have hsame := lib.isAck_setSline hset
    cases hack : lib.isAck o with
    | false =>
      simp [ackFor, Entity.isAck, hu, hack, hsame]
    | true =>
      obtain ⟨id, hid⟩ := Option.isSome_iff_exists.mp (lib.id_of_isAck o hack)
      have hid' : lib.id o' = some id := by rw [lib.id_setSline hset hack, hid]
      simp [ackFor, Entity.isAck, Entity.id, hoid, hp, hu, hack, hsame, hid, hid']

lemma acknowledges_of_not_decodes (message : List UInt8) {record : List UInt8}
    (h : ¬Decodes models lib reg record) : ∃ e, acknowledges models lib reg message record = .error e := by
  rw [decodes_iff] at h
  unfold acknowledges
  cases he : entityFrom models lib reg record with
  | error e => exact ⟨e, rfl⟩
  | ok response => exact absurd ⟨response, he⟩ h

/-- The loop comes to the ack, or to the end of the records, where it decodes what lies before. -/
lemma waitAckAmong_iff {oid : Int} {message : List UInt8} {b : UInt8} (hbyte : message[1]? = some b)
    (hoid : (b.toNat : Int) = oid) (records : List (List UInt8)) :
    waitAckAmong models lib reg message records = .ok (behindAck models lib reg oid records) ↔
      ∀ r ∈ beforeAck models lib reg oid records, Decodes models lib reg r := by
  induction records with
  | nil => exact iff_of_true rfl (by simp [beforeAck])
  | cons record records ih =>
    rw [waitAckAmong]
    cases hack : ackFor models lib reg oid record with
    | true =>
      have hdecodes := decodes_of_ackFor models lib reg hack
      rw [acknowledges_of_decodes models lib reg hbyte hoid hdecodes, hack]
      simp [behindAck, beforeAck, hack]
    | false =>
      have hbehind : behindAck models lib reg oid (record :: records) =
          behindAck models lib reg oid records := by
        simp [behindAck, hack]
      have hbefore : beforeAck models lib reg oid (record :: records) =
          record :: beforeAck models lib reg oid records := by
        simp [beforeAck, hack]
      rw [hbehind, hbefore, List.forall_mem_cons]
      by_cases hdecodes : Decodes models lib reg record
      · rw [acknowledges_of_decodes models lib reg hbyte hoid hdecodes, hack, and_iff_right hdecodes]
        exact ih
      · obtain ⟨e, he⟩ := acknowledges_of_not_decodes models lib reg message hdecodes
        rw [he]
        simp [hdecodes]

/-- The loop on a stream is the loop on the records that `msg_receive` cuts off it. -/
lemma waitAck_eq_among (message : List UInt8) {stream rest : List UInt8} {records : List (List UInt8)}
    (h : receiveMany (msgReceive false 0) records.length stream = .ok (records, rest)) :
    waitAck models lib reg message stream =
      match waitAckAmong models lib reg message records with
      | .error e => .error e
      | .ok (some behind) => .ok (behind.flatten ++ rest)
      | .ok none => waitAck models lib reg message rest := by
  induction records generalizing stream with
  | nil =>
    cases h
    rfl
  | cons record records ih =>
    obtain ⟨_, unread, _, hcons, hreceive, hmany⟩ := receiveMany_succ_iff.mp h
    cases hcons
    have hunread : unread = records.flatten ++ rest := by
      rw [msgReceive_eq_tapeCutter] at hmany
      exact tapeCutter.receiveMany_consumes hmany
    rw [waitAck, waitAckAmong]
    split
    · rename_i e he
      rw [hreceive] at he
      cases he
    · rename_i data unread' hok
      rw [hreceive] at hok
      cases hok
      cases acknowledges models lib reg message record with
      | error e => rfl
      | ok acked =>
        cases acked with
        | true => exact congrArg Except.ok hunread
        | false => exact ih hmany

/-- Of these records, cut off the stream, `msg_send` skips those before the ack, ends behind
it if there is one, and raises nothing on the way. -/
structure SkipsToAck (message : List UInt8) (oid : Int) (records : List (List UInt8))
    (stream rest : List UInt8) : Prop where
  among : waitAckAmong models lib reg message records = .ok (behindAck models lib reg oid records)
  returns : ∀ behind, behindAck models lib reg oid records = some behind →
    msgSend models lib reg (.bytes message) true stream = (message, .ok (behind.flatten ++ rest))
  waits : behindAck models lib reg oid records = none →
    msgSend models lib reg (.bytes message) true stream =
      msgSend models lib reg (.bytes message) true rest

/-- `msg_send` finds the ack of a marshalled request exactly when every record before it is
one that can be decoded. -/
theorem wait_ack_iff (protoLib : ProtoLib C P O) (m : O) {message : List UInt8} {oid : Int}
    {protobufClass : P} (hmarshall : marshall protoLib reg m = .ok message)
    (hreg : reg.protoFromClass (protoLib.typeOf m) = some (oid, protobufClass))
    (records : List (List UInt8)) {stream rest : List UInt8}
    (h : receiveMany (msgReceive false 0) records.length stream = .ok (records, rest)) :
    SkipsToAck models lib reg message oid records stream rest ↔
      ∀ r ∈ beforeAck models lib reg oid records, Decodes models lib reg r := by
  obtain ⟨oid', _, payload, hreg', hrange, -, -, hmessage⟩ := (marshall_ok_iff ..).mp hmarshall
  rw [hreg] at hreg'
  cases hreg'
  have hbyte : message[1]? = some (UInt8.ofNat oid.toNat) := by
    rw [hmessage]
    rfl
  have hoid : ((UInt8.ofNat oid.toNat).toNat : Int) = oid := by
    rw [UInt8.toNat_ofNat']
    omega
  rw [← waitAckAmong_iff models lib reg hbyte hoid records]
  refine ⟨fun hskips => hskips.among, fun hamong => ?_⟩
  have hstream := waitAck_eq_among models lib reg message h
  rw [hamong] at hstream
  constructor
  · exact hamong
  · intro behind hbehind
    rw [hbehind] at hstream
    simp [msgSend, Sendable.encode, hstream]
  · intro hnone
    rw [hnone] at hstream
    simp [msgSend, Sendable.encode, hstream]

end Spec

section Sample

/-- An ack for an id, or a command. -/
inductive SampleObj where
  | ack (id : Int)
  | command (payload : List UInt8)

/-- The true class and protobuf class are those of `Ack`. -/
def sampleObjLib : ProtoLib Bool Bool SampleObj where
  typeOf
    | .ack _ => true
    | .command _ => false
  dline _ := none
  serialize _
    | .ack id => .ok [8, UInt8.ofNat id.toNat]
    | .command payload => .ok payload

def sampleObjModels : ModelLib Bool Bool (List UInt8) SampleObj where
  parse _ bs := .ok bs
  build
    | true, [8, id] => .ok (.ack id.toNat)
    | true, _ => .error .raised
    | false, bs => .ok (.command bs)

def sampleAckLib : AckLib SampleObj where
  isAck
    | .ack _ => true
    | .command _ => false
  id
    | .ack id => some (some id)
    | .command _ => none
  setSline o _ := .ok o
  id_of_isAck o h := by cases o <;> simp_all
  setSline_of_isAck o _ _ := ⟨o, rfl⟩
  isAck_setSline h := by
    cases h
    rfl
  id_setSline h _ := by
    cases h
    rfl

def sampleObjRegistry : Registry Bool Bool :=
  registered ⟨fun _ => true, false⟩ [.addProtobufModel 3 true true, .setCommand 5 false]

def ackFrame (id : UInt8) : List UInt8 := [0x1E, 3, 0, 0, 0, 2, 8, id, 0x17]

lemma marshall_sampleCommand :
    marshall sampleObjLib sampleObjRegistry (.command [8, 5]) = .ok [0x1E, 5, 0, 0, 0, 2, 8, 5, 0x17] := by
  rw [marshall_ok_iff]
  refine ⟨5, false, [8, 5], rfl, by decide, by decide, rfl, ?_⟩
  rw [lenBytes_eq_encode _ (by decide), encode_small (by decide)]
  rfl

/-- A line and the ack for another request come before the ack. -/
theorem wait_ack_behind_line :
    SkipsToAck sampleObjModels sampleAckLib sampleObjRegistry [0x1E, 5, 0, 0, 0, 2, 8, 5, 0x17] 5
      [[0x61, 10], ackFrame 3, ackFrame 5] ([0x61, 10] ++ ackFrame 3 ++ ackFrame 5 ++ [0x62]) [0x62] := by
  refine (wait_ack_iff sampleObjModels sampleAckLib sampleObjRegistry sampleObjLib (.command [8, 5])
    marshall_sampleCommand rfl _ rfl).mpr ?_
  have hbefore : beforeAck sampleObjModels sampleAckLib sampleObjRegistry 5
      [[0x61, 10], ackFrame 3, ackFrame 5] = [[0x61, 10], ackFrame 3] := rfl
  rw [hbefore]
  intro r hr
  simp only [List.mem_cons, List.not_mem_nil, or_false] at hr
  obtain rfl | rfl := hr
  · intro hp
    cases hp
  · exact fun _ => ⟨3, true, true, [8, 3], .ack 3, 0, .ack 3, rfl, rfl, by decide, rfl, rfl, rfl, rfl⟩

/-- A frame of the type 99, which is not registered, comes before the ack. -/
theorem wait_ack_raises_at_unknown_type :
    ¬∀ (m : SampleObj) (message : List UInt8) (oid : Int) (protobufClass : Bool)
        (records : List (List UInt8)) (stream rest : List UInt8),
      marshall sampleObjLib sampleObjRegistry m = .ok message →
      sampleObjRegistry.protoFromClass (sampleObjLib.typeOf m) = some (oid, protobufClass) →
      receiveMany (msgReceive false 0) records.length stream = .ok (records, rest) →
      SkipsToAck sampleObjModels sampleAckLib sampleObjRegistry message oid records stream rest := by
  intro hall
  have hskips := hall (.command [8, 5]) _ 5 false [[0x1E, 99, 0, 0, 0, 1, 8, 0x17], ackFrame 5]
    ([0x1E, 99, 0, 0, 0, 1, 8, 0x17] ++ ackFrame 5) [] marshall_sampleCommand rfl rfl
  have hraised : waitAckAmong sampleObjModels sampleAckLib sampleObjRegistry
      [0x1E, 5, 0, 0, 0, 2, 8, 5, 0x17] [[0x1E, 99, 0, 0, 0, 1, 8, 0x17], ackFrame 5] =
        .error .keyError := rfl
  rw [hskips.among] at hraised
  cases hraised

end Sample

end Nais.Host
