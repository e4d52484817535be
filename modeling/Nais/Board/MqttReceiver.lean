import Nais.Board.Mqtt
import Nais.Board.Transmit

/-!
# The MQTT receiver

`mqtt_receiver_handler` of `sys/bocia/bocia_mqtt.c`, on the packet reader of `sys/paho/MQTTPacket.c`
and `MQTTDeserialize_publish`. There is one packet buffer for what is sent and what is received, and
a packet leaves alone what it does not cover of it.
-/

namespace Nais.Board.MqttReceiver
open Nais.Lib Nais.Lib.Memory Nais.Lib.Base128 ConfigPath Mqtt Transmit

section Read

variable {n : ℕ}

/-- `getfn(fd, buf + i, count)`. -/
def recvInto (fd : ℤ) (buf : Buffer n) (i count : ℕ) (l : SocketLayer) :
    Except Fault (Option ℕ × Buffer n × SocketLayer) := do
  let (rc, l) := sockReceive fd l count
  match rc with
  | none => .ok (none, buf, l)
  | some bytes =>
    let buf ← store buf i bytes
    .ok (some bytes.length, buf, l)

/-- `MQTTPacket_read`: the type of the packet, or -1. -/
def mqttPacketReadInto (fd : ℤ) (buf : Buffer n) (buflen : ℕ) (l : SocketLayer) :
    Except Fault (ℤ × Buffer n × SocketLayer) := do
  let (rc, buf, l) ← recvInto fd buf 0 1 l
  if rc ≠ some 1 then .ok (-1, buf, l)
  else
    let (_, remLen, l) := mqttPacketDecode (sockChar fd) MAX_NO_OF_REMAINING_LENGTH_BYTES 1 l
    let (len, buf) ← mqttPacketEncode buf 1 remLen
    if buflen < remLen + len then .ok (-1, buf, l)
    else
      let (rc, buf, l) ← recvInto fd buf len remLen l
      if rc ≠ some remLen then .ok (-1, buf, l)
      else
        let header ← load buf.bytes 0
        .ok (header.toNat >>> 4, buf, l)

end Read

section Deserialize

/-- Pointers into the packet are offsets. `none` has not been set. -/
structure LenString where
  len : Option ℕ
  data : Option ℕ
  deriving DecidableEq

/-- What `MQTTDeserialize_publish` returns through its pointers. -/
structure PublishData where
  dup : Option ℕ
  qos : Option ℕ
  retained : Option ℕ
  packetid : Option ℕ
  topicName : LenString
  payload : Option (ℕ × ℤ)
  deriving DecidableEq

def PublishData.unset : PublishData := ⟨none, none, none, none, ⟨none, none⟩, none⟩

variable (buf : List UInt8)

def readInt (ptr : ℕ) : Except Fault (ℕ × ℕ) := do
  let high ← load buf ptr
  let low ← load buf (ptr + 1)
  .ok (256 * high.toNat + low.toNat, ptr + 2)

/-- The result, the string, and the pointer. -/
def readMqttLenString (ptr enddata : ℕ) : Except Fault (Bool × LenString × ℕ) := do
  if ptr + 1 < enddata then
    let (len, ptr) ← readInt buf ptr
    if ptr + len ≤ enddata then .ok (true, ⟨some len, some ptr⟩, ptr + len)
    else .ok (false, ⟨some len, none⟩, ptr)
  else .ok (false, ⟨none, none⟩, ptr)

/-- The result of a failure is that of `MQTTPacket_decodeBuf`, or 0. LEN lies in the 256 bytes of
the buffer. -/
def mqttDeserializePublish : Except Fault (ℕ × PublishData) := do
  let header ← load buf 0
  if header.toNat >>> 4 ≠ PUBLISH then .ok (0, .unset)
  else
    let dup := header.toNat / 8 % 2
    let qos := header.toNat / 2 % 4
    let retained := header.toNat % 2
    let (rc, mylen, _) := mqttPacketDecode bufchar MAX_NO_OF_REMAINING_LENGTH_BYTES 1 (buf.drop 1)
    let enddata := 1 + rc + mylen
    let (read, topicName, curdata) ← readMqttLenString buf (1 + rc) enddata
    if !read || enddata < curdata then
      .ok (rc, ⟨dup, qos, retained, none, topicName, none⟩)
    else
      let (packetid, curdata) ← if 0 < qos then
          (readInt buf curdata).map fun (i, curdata) => (some i, curdata)
        else .ok (none, curdata)
      .ok (1, ⟨dup, qos, retained, packetid, topicName, some (curdata, (enddata : ℤ) - curdata)⟩)

end Deserialize

section Handler

/-- What the receiver does: it gives the connection up, passes over the packet, uses variables that
have no value, or unmarshalls the bytes from a pointer on. -/
inductive Received where
  | lost
  | ignored
  | uninitialised
  | unmarshalls (data : List UInt8)
  deriving DecidableEq

/-- `mqtt_receiver_handler`, up to the call of `bocia_unmarshall`. A connection that is lost gets the
descriptor 0, and no packet of the descriptor 0 is looked at. -/
def mqttReceiverHandler (fd : ℤ) (buf : Buffer 256) (l : SocketLayer) :
    Except Fault (Received × Buffer 256 × SocketLayer) := do
  let (type, buf, l) ← mqttPacketReadInto fd buf MAX_MQTT_PKT_SIZE l
  if type = -1 then .ok (.lost, buf, l)
  else if fd ≠ 0 ∧ type = PUBLISH then
    let (_, data) ← mqttDeserializePublish buf.bytes
    match data.payload with
    | none => .ok (.uninitialised, buf, l)
    | some (payloadIn, payloadlenIn) =>
      let accepted ← isNaisPayload buf.bytes payloadIn payloadlenIn
      if accepted then .ok (.unmarshalls (buf.bytes.drop (payloadIn + 1)), buf, l)
      else .ok (.ignored, buf, l)
  else .ok (.ignored, buf, l)

end Handler

section Read

variable {n : ℕ}

lemma exists_store (buf : Buffer n) {i : ℕ} {bytes : List UInt8} (hfit : i + bytes.length ≤ n) :
    ∃ buf', store buf i bytes = .ok buf' := by
  obtain ⟨buf', hwrite⟩ := buf.exists_write hfit
  exact ⟨buf', store_eq_ok_iff.mpr hwrite⟩

lemma store_append {buf buf₁ buf₂ : Buffer n} {i : ℕ} {bytes bytes' : List UInt8}
    (h : store buf i bytes = .ok buf₁) (h' : store buf₁ (i + bytes.length) bytes' = .ok buf₂) :
    store buf i (bytes ++ bytes') = .ok buf₂ := by
  rw [← store_adjacent, h]
  exact h'

lemma Recv.length_take_le {r : Recv} {count : ℕ} {bytes : List UInt8} (h : r.take count = some bytes) :
    bytes.length ≤ count := by
  cases r with
  | error => cases h
  | data all =>
    cases h
    rw [List.length_take]
    exact min_le_left _ _

/-- Where the answer fits, it is put there. -/
lemma recvInto_eq (fd : ℤ) (buf : Buffer n) {i count : ℕ} (hfit : i + count ≤ n) (l : SocketLayer) :
    ∃ buf', recvInto fd buf i count l =
        .ok ((sockReceive fd l count).1.map List.length, buf', (sockReceive fd l count).2) ∧
      ∀ bytes ∈ (sockReceive fd l count).1, store buf i bytes = .ok buf' := by
  have hrc : (sockReceive fd l count).1 = (l.answers.headD .error).take count := by
    rw [sockReceive_eq]
  generalize hread : sockReceive fd l count = read at hrc
  obtain ⟨rc, l'⟩ := read
  dsimp only at hrc ⊢
  cases rc with
  | none => exact ⟨buf, by simp only [recvInto, hread, Option.map_none], by simp⟩
  | some bytes =>
    have hle := Recv.length_take_le hrc.symm
    obtain ⟨buf', hstore⟩ := exists_store buf (by omega : i + bytes.length ≤ n)
    refine ⟨buf', ?_, by simpa using hstore⟩
    simp only [recvInto, hread, hstore, Option.map_some]
    rfl

lemma lenAnswers_length_le (tries : ℕ) (answers : List Recv) : (lenAnswers tries answers).length ≤ tries := by
  induction tries generalizing answers with
  | zero => simp [lenAnswers]
  | succ tries ih =>
    cases answers with
    | nil => simp [lenAnswers]
    | cons r rest =>
      have hrest := ih rest
      rw [lenAnswers]
      cases r.char with
      | none => simp
      | some c =>
        dsimp only
        split_ifs
        · rw [List.length_cons]
          omega
        · simp

/-- LEN is written back with no more bytes than it may have. -/
lemma encode_decoded_length_le (fd : ℤ) (l : SocketLayer) :
    (encode (mqttPacketDecode (sockChar fd) MAX_NO_OF_REMAINING_LENGTH_BYTES 1 l).2.1).length ≤ 4 := by
  have hlt := number_lt ((lenAnswers MAX_NO_OF_REMAINING_LENGTH_BYTES l.answers).filterMap Recv.char)
  have hle : ((lenAnswers MAX_NO_OF_REMAINING_LENGTH_BYTES l.answers).filterMap Recv.char).length ≤ 4 :=
    (List.length_filterMap_le _ _).trans (lenAnswers_length_le _ _)
  rw [mqttPacketDecode_sock, one_mul]
  exact encode_length_le 3 _ (hlt.trans_le (Nat.pow_le_pow_right (by decide) hle))

/-- The reader with a buffer finds the packet of the reader without, and leaves the bytes behind it. -/
lemma mqttPacketReadInto_eq (fd : ℤ) (buf : Buffer 256) (l : SocketLayer) :
    ∃ type buf', mqttPacketReadInto fd buf MAX_MQTT_PKT_SIZE l =
        .ok (type, buf', (mqttPacketRead fd MAX_MQTT_PKT_SIZE l).2) ∧
      match (mqttPacketRead fd MAX_MQTT_PKT_SIZE l).1 with
      | none => type = -1
      | some packet => type = packetType packet ∧ buf'.bytes = packet ++ buf.bytes.drop packet.length := by
  obtain ⟨buf₁, hrecv, hstore⟩ := recvInto_eq fd buf (by omega : 0 + 1 ≤ 256) l
  have hrc : (sockReceive fd l 1).1 = (l.answers.headD .error).take 1 := by
    rw [sockReceive_eq]
  rw [mqttPacketReadInto, mqttPacketRead, hrecv]
  generalize sockReceive fd l 1 = read at hrc hstore ⊢
  obtain ⟨rc, l₁⟩ := read
  dsimp only at hrc hstore ⊢
  cases rc with
  | none => exact ⟨-1, buf₁, rfl, rfl⟩
  | some bytes =>
    have hone := Recv.length_take_le hrc.symm
    have hstore := hstore bytes rfl
    cases bytes with
    | nil => exact ⟨-1, buf₁, rfl, rfl⟩
    | cons header rest =>
      obtain rfl : rest = [] := by
        rw [List.length_cons] at hone
        exact List.length_eq_zero_iff.mp (by omega)
      have hlen := encode_decoded_length_le fd l₁
      obtain ⟨tried, remLen, l₂, hdecode⟩ : ∃ tried remLen l₂, mqttPacketDecode (sockChar fd)
        MAX_NO_OF_REMAINING_LENGTH_BYTES 1 l₁ = (tried, remLen, l₂) := ⟨_, _, _, rfl⟩
      rw [hdecode] at hlen
      dsimp only at hlen
      obtain ⟨buf₂, hstore₂⟩ := exists_store buf₁ (by omega : 1 + (encode remLen).length ≤ 256)
      have hmax : MAX_MQTT_PKT_SIZE = 256 := rfl
      have hone : (some [header]).map List.length = some 1 := rfl
      simp only [hone, hdecode, mqttPacketEncode_eq, Transmit.put, hstore₂, Bind.bind, Except.bind,
        Except.map, ne_eq, not_true, if_false, Option.bind_some, List.head?_cons, List.length_cons]
      rw [add_comm (encode remLen).length 1]
      by_cases hshort : MAX_MQTT_PKT_SIZE < remLen + (1 + (encode remLen).length)
      · rw [if_pos hshort, if_pos hshort]
        exact ⟨-1, buf₂, rfl, rfl⟩
      · obtain ⟨buf₃, hrecv₃, hstore₃⟩ := recvInto_eq fd buf₂
          (by omega : 1 + (encode remLen).length + remLen ≤ 256) l₂
        rw [if_neg hshort, if_neg hshort, hrecv₃]
        generalize sockReceive fd l₂ remLen = read at hstore₃ ⊢
        obtain ⟨rc, l₃⟩ := read
        cases rc with
        | none => exact ⟨-1, buf₃, rfl, rfl⟩
        | some body =>
          have hfront := store_append hstore hstore₂
          have hstart : 0 + ([header] ++ encode remLen).length = 1 + (encode remLen).length := by
            rw [List.length_append, List.length_singleton]
            omega
          have hpacket := store_append hfront (by rw [hstart]; exact hstore₃ body rfl)
          have hbytes := Buffer.write_zero (store_eq_ok_iff.mp hpacket)
          have hload : load buf₃.bytes 0 = .ok header := by
            rw [load, hbytes]
            rfl
          by_cases hwhole : body.length = remLen
          · simp only [Option.map_some, hwhole, not_true, if_false, if_true, hload, Option.bind_some]
            exact ⟨_, buf₃, rfl, rfl, hbytes⟩
          · simp only [Option.map_some, Option.some.injEq, hwhole, not_false_eq_true, if_true, if_false,
              Option.bind_some]
            exact ⟨-1, buf₃, rfl, rfl⟩

end Read

section Deserialize

variable (header : UInt8) (body stale : List UInt8)

def qosOf : ℕ := header.toNat / 2 % 4

/-- Where a packet has what LEN counts. -/
def bodyStart : ℕ := 1 + (encode body.length).length

def topicLen : ℕ := 256 * (body.getD 0 0).toNat + (body.getD 1 0).toNat

/-- The topic ends in the packet. -/
def TopicFits : Prop := 2 + topicLen body ≤ body.length

instance : Decidable (TopicFits body) := inferInstanceAs (Decidable (_ ≤ _))

def payloadStart : ℕ := bodyStart body + 2 + topicLen body + if 0 < qosOf header then 2 else 0

/-- It is negative where the packet identifier lies behind the packet. -/
def payloadLen : ℤ := (bodyStart body + body.length : ℕ) - (payloadStart header body : ℤ)

/-- What is deserialized of a packet whose topic fits. -/
def publishData (memory : List UInt8) : PublishData where
  dup := some (header.toNat / 8 % 2)
  qos := some (qosOf header)
  retained := some (header.toNat % 2)
  packetid := if 0 < qosOf header then
      some (256 * (memory.getD (bodyStart body + 2 + topicLen body) 0).toNat +
        (memory.getD (bodyStart body + 2 + topicLen body + 1) 0).toNat)
    else none
  topicName := ⟨some (topicLen body), some (bodyStart body + 2)⟩
  payload := some (payloadStart header body, payloadLen header body)

lemma length_packet : (packet header body).length = bodyStart body + body.length := by
  rw [packet, List.length_append, List.length_cons, bodyStart]
  omega

lemma getD_packet {k : ℕ} (hk : k < body.length) :
    (packet header body ++ stale).getD (bodyStart body + k) 0 = body.getD k 0 := by
  have hstart : (header :: encode body.length).length = bodyStart body := by
    rw [List.length_cons, bodyStart]
    omega
  rw [packet, List.append_assoc, List.getD_append_right _ _ _ _ (by omega), hstart, Nat.add_sub_cancel_left,
    List.getD_append _ _ _ _ hk]

lemma readInt_eq (memory : List UInt8) (ptr : ℕ) : readInt memory ptr =
    if ptr + 1 < memory.length then
      .ok (256 * (memory.getD ptr 0).toNat + (memory.getD (ptr + 1) 0).toNat, ptr + 2)
    else .error .outOfBounds := by
  rw [readInt]
  by_cases h : ptr + 1 < memory.length
  · rw [if_pos h, load_eq (by omega : ptr < memory.length), load_eq h]
    rfl
  · have hlow : load memory (ptr + 1) = .error .outOfBounds := by
      rw [load, List.getElem?_eq_none (by omega)]
    rw [if_neg h, hlow]
    cases hhigh : load memory ptr with
    | ok b => rfl
    | error e =>
      unfold load at hhigh
      split at hhigh
      · cases hhigh
      · cases hhigh
        rfl

variable {header body}

lemma mqttPacketDecode_packet (hlen : body.length < 128 ^ 4) :
    mqttPacketDecode bufchar MAX_NO_OF_REMAINING_LENGTH_BYTES 1 ((packet header body ++ stale).drop 1) =
      ((encode body.length).length, body.length, body ++ stale) := by
  have h := mqttPacketDecode_encode 3 1 hlen (body ++ stale)
  rw [mul_one] at h
  rw [← h]
  simp [packet, MAX_NO_OF_REMAINING_LENGTH_BYTES]

lemma readMqttLenString_packet : ∃ curdata topicName,
    readMqttLenString (packet header body ++ stale) (bodyStart body) (bodyStart body + body.length) =
      .ok (decide (TopicFits body), topicName, curdata) ∧
    (TopicFits body → topicName = ⟨some (topicLen body), some (bodyStart body + 2)⟩ ∧
      curdata = bodyStart body + 2 + topicLen body) := by
  rw [readMqttLenString]
  by_cases htwo : 2 ≤ body.length
  · have hmemory : bodyStart body + 1 < (packet header body ++ stale).length := by
      rw [List.length_append, length_packet]
      omega
    have h0 := getD_packet header body stale (by omega : 0 < body.length)
    have h1 := getD_packet header body stale (by omega : 1 < body.length)
    rw [add_zero] at h0
    rw [if_pos (by omega), readInt_eq, if_pos hmemory, h0, h1, ← topicLen]
    simp only [Bind.bind, Except.bind]
    by_cases hfits : TopicFits body
    · rw [if_pos (by unfold TopicFits at hfits; omega), decide_eq_true hfits]
      exact ⟨_, _, rfl, fun _ => ⟨rfl, rfl⟩⟩
    · rw [if_neg (by unfold TopicFits at hfits; omega), decide_eq_false hfits]
      exact ⟨_, _, rfl, fun h => absurd h hfits⟩
  · have hno : ¬TopicFits body := by
      unfold TopicFits
      omega
    rw [if_neg (by omega), decide_eq_false hno]
    exact ⟨_, _, rfl, fun h => absurd h hno⟩

lemma mqttDeserializePublish_packet (htype : header.toNat >>> 4 = PUBLISH) (hlen : body.length < 128 ^ 4) :
    (¬TopicFits body → ∃ rc data, mqttDeserializePublish (packet header body ++ stale) = .ok (rc, data) ∧
      data.payload = none) ∧
    (TopicFits body → mqttDeserializePublish (packet header body ++ stale) =
      if 0 < qosOf header ∧ (packet header body ++ stale).length < payloadStart header body then
        .error .outOfBounds
      else .ok (1, publishData header body (packet header body ++ stale))) := by
  have hload : load (packet header body ++ stale) 0 = .ok header := rfl
  obtain ⟨curdata, topicName, hread, htopic⟩ := @readMqttLenString_packet header body stale
  rw [mqttDeserializePublish, hload]
  simp only [Bind.bind, Except.bind, htype, ne_eq, not_true, if_false, mqttPacketDecode_packet stale hlen]
  rw [← bodyStart, hread]
  refine ⟨fun hno => ?_, fun hfits => ?_⟩
  · simp [hno]
  · obtain ⟨rfl, rfl⟩ := htopic hfits
    have henough : ¬bodyStart body + body.length < bodyStart body + 2 + topicLen body := by
      unfold TopicFits at hfits
      omega
    simp only [hfits, decide_true, Bool.not_true, henough, decide_false, Bool.or_false, Bool.false_eq_true,
      if_false]
    rw [← qosOf]
    by_cases hqos : 0 < qosOf header
    · have hstart : payloadStart header body = bodyStart body + 2 + topicLen body + 2 := by
        rw [payloadStart, if_pos hqos]
      rw [if_pos hqos, readInt_eq]
      by_cases hroom : bodyStart body + 2 + topicLen body + 1 < (packet header body ++ stale).length
      · rw [if_pos hroom, if_neg (by omega)]
        simp only [Except.map, publishData, hqos, if_true, hstart, payloadLen]
      · rw [if_neg hroom, if_pos (by omega)]
        rfl
    · have hstart : payloadStart header body = bodyStart body + 2 + topicLen body := by
        rw [payloadStart, if_neg hqos, add_zero]
      rw [if_neg hqos, if_neg (fun h => hqos h.1)]
      simp only [publishData, hqos, if_false, hstart, payloadLen]

end Deserialize

section RoundTrip

/-- The topic that is written. -/
def topicBytes (s : MqttString) : List UInt8 :=
  if s.lenstring ≠ [] then s.lenstring
  else match s.cstring with
    | some cstring => cString cstring
    | none => []

def intBytes (i : ℕ) : List UInt8 := [UInt8.ofNat (i / 256), UInt8.ofNat (i % 256)]

/-- What LEN counts of a PUBLISH packet. -/
def publishBody (qos packetid : ℕ) (topic payload : List UInt8) : List UInt8 :=
  intBytes topic.length ++ topic ++ (if 0 < qos then intBytes packetid else []) ++ payload

variable {n : ℕ} (buf : Buffer n) (qos packetid : ℕ) {topicName : MqttString} (payload : List UInt8)

lemma mqttStrlen_eq (hone : topicName.cstring = none ∨ topicName.lenstring = []) :
    mqttStrlen topicName = (topicBytes topicName).length := by
  obtain ⟨cstring, lenstring⟩ := topicName
  unfold mqttStrlen topicBytes
  obtain h | h := hone
  · dsimp only at h
    subst h
    cases lenstring <;> simp
  · dsimp only at h
    subst h
    cases cstring <;> simp

lemma writeMqttString_eq (ptr : ℕ) :
    writeMqttString buf ptr topicName =
      Transmit.put buf ptr (intBytes (topicBytes topicName).length ++ topicBytes topicName) := by
  obtain ⟨cstring, lenstring⟩ := topicName
  cases lenstring with
  | cons b bs =>
    simp only [writeMqttString, topicBytes, List.length_cons, Nat.succ_pos, if_true, ne_eq, reduceCtorEq,
      not_false_eq_true, writeInt_eq, put_put]
    rfl
  | nil =>
    simp only [writeMqttString, topicBytes, List.length_nil, lt_irrefl, if_false, ne_eq, not_true]
    cases cstring with
    | none =>
      simp only [writeInt_eq]
      rfl
    | some cstring =>
      simp only [writeCString_eq]
      rfl

lemma length_publishBody (topic : List UInt8) : (publishBody qos packetid topic payload).length =
    2 + topic.length + payload.length + if 0 < qos then 2 else 0 := by
  simp only [publishBody, intBytes, List.length_append, List.length_cons, List.length_nil]
  split_ifs
  · simp only [List.length_cons, List.length_nil]
    omega
  · simp only [List.length_nil]
    omega

/-- The serializer writes the packet in one piece, whatever its flags. -/
lemma mqttSerializePublish_packet (buflen dup retained : ℕ)
    (hone : topicName.cstring = none ∨ topicName.lenstring = []) :
    mqttSerializePublish buf buflen dup qos retained packetid topicName payload =
      if buflen < mqttPacketLen (publishBody qos packetid (topicBytes topicName) payload).length then
        .ok (MQTTPACKET_BUFFER_TOO_SHORT, buf)
      else (Transmit.put buf 0 (packet (headerByte PUBLISH dup qos retained)
        (publishBody qos packetid (topicBytes topicName) payload))).map fun (ptr, buf) => ((ptr : ℤ), buf) := by
  have hlen : mqttSerializePublishLength qos topicName payload.length =
      (publishBody qos packetid (topicBytes topicName) payload).length := by
    rw [length_publishBody, mqttSerializePublishLength, mqttStrlen_eq hone]
  rw [mqttSerializePublish, hlen]
  dsimp only
  by_cases hshort : buflen < mqttPacketLen (publishBody qos packetid (topicBytes topicName) payload).length
  · rw [if_pos hshort, if_pos hshort]
  · rw [if_neg hshort, if_neg hshort]
    simp only [writeChar, mqttPacketEncode_eq, writeMqttString_eq]
    rw [put_put_bind, put_put_bind]
    -- the identifier and the payload are written in one piece, too
    have hid : ∀ (ptr : ℕ) (buf : Buffer n) (f : ℕ × Buffer n → Except Fault (ℤ × Buffer n)),
        (if 0 < qos then writeInt buf ptr packetid >>= fun p => Transmit.put p.2 p.1 payload >>= f
          else Except.ok (ptr, buf) >>= fun p => Transmit.put p.2 p.1 payload >>= f) =
          Transmit.put buf ptr ((if 0 < qos then intBytes packetid else []) ++ payload) >>= f := by
      intro ptr buf f
      by_cases hqos : 0 < qos
      · rw [if_pos hqos, if_pos hqos, writeInt_eq]
        exact put_put_bind buf ptr _ _ f
      · rw [if_neg hqos, if_neg hqos]
        rfl
    have hpacket : [headerByte PUBLISH dup qos retained] ++
        encode (publishBody qos packetid (topicBytes topicName) payload).length ++
        (intBytes (topicBytes topicName).length ++ topicBytes topicName) ++
        ((if 0 < qos then intBytes packetid else []) ++ payload) =
        packet (headerByte PUBLISH dup qos retained)
          (publishBody qos packetid (topicBytes topicName) payload) := by
      simp only [packet, publishBody, List.append_assoc, List.singleton_append]
    simp only [hid]
    rw [put_put_bind, hpacket]
    cases Transmit.put buf 0 (packet (headerByte PUBLISH dup qos retained)
      (publishBody qos packetid (topicBytes topicName) payload)) <;> rfl

variable {qos packetid payload} {dup retained : ℕ}

lemma toNat_headerByte (hdup : dup < 2) (hqos : qos < 4) (hretained : retained < 2) :
    (headerByte PUBLISH dup qos retained).toNat = 48 + dup * 8 + qos * 2 + retained := by
  rw [headerByte, PUBLISH, UInt8.toNat_ofNat', Nat.mod_eq_of_lt hdup, Nat.mod_eq_of_lt hqos,
    Nat.mod_eq_of_lt hretained]
  omega

lemma headerByte_type (hdup : dup < 2) (hqos : qos < 4) (hretained : retained < 2) :
    (headerByte PUBLISH dup qos retained).toNat >>> 4 = PUBLISH := by
  rw [toNat_headerByte hdup hqos hretained, Nat.shiftRight_eq_div_pow, PUBLISH]
  omega

lemma qosOf_headerByte (hdup : dup < 2) (hqos : qos < 4) (hretained : retained < 2) :
    qosOf (headerByte PUBLISH dup qos retained) = qos := by
  rw [qosOf, toNat_headerByte hdup hqos hretained]
  omega

/-- An integer of two bytes that is read back. -/
lemma intBytes_toNat {i : ℕ} (hi : i < 2 ^ 16) :
    256 * (UInt8.ofNat (i / 256)).toNat + (UInt8.ofNat (i % 256)).toNat = i := by
  rw [UInt8.toNat_ofNat', UInt8.toNat_ofNat']
  omega

variable {topic : List UInt8}

lemma topicLen_publishBody (htopic : topic.length < 2 ^ 16) :
    topicLen (publishBody qos packetid topic payload) = topic.length := intBytes_toNat htopic

lemma topicFits_publishBody (htopic : topic.length < 2 ^ 16) :
    TopicFits (publishBody qos packetid topic payload) := by
  rw [TopicFits, topicLen_publishBody htopic, length_publishBody]
  omega

lemma payloadStart_publishBody (hdup : dup < 2) (hqos : qos < 4) (hretained : retained < 2)
    (htopic : topic.length < 2 ^ 16) :
    payloadStart (headerByte PUBLISH dup qos retained) (publishBody qos packetid topic payload) +
      payload.length = bodyStart (publishBody qos packetid topic payload) +
        (publishBody qos packetid topic payload).length := by
  rw [payloadStart, qosOf_headerByte hdup hqos hretained, topicLen_publishBody htopic, length_publishBody]
  omega

lemma payloadLen_publishBody (hdup : dup < 2) (hqos : qos < 4) (hretained : retained < 2)
    (htopic : topic.length < 2 ^ 16) :
    payloadLen (headerByte PUBLISH dup qos retained) (publishBody qos packetid topic payload) =
      payload.length := by
  have hend := @payloadStart_publishBody qos packetid payload dup retained topic hdup hqos hretained htopic
  rw [payloadLen]
  omega

lemma lt_of_mqttPacketLen_le {remLen buflen : ℕ} (h : mqttPacketLen remLen ≤ buflen) : remLen < buflen := by
  unfold mqttPacketLen at h
  dsimp only at h
  split_ifs at h <;> omega

lemma loadRange_middle (before bytes behind : List UInt8) :
    loadRange (before ++ bytes ++ behind) before.length bytes.length = .ok bytes := by
  rw [loadRange, if_pos (by simp only [List.length_append]; omega), List.append_assoc, List.drop_left,
    List.take_left]

lemma getD_publishBody {k : ℕ} : (publishBody qos packetid topic payload).getD (2 + topic.length + k) 0 =
    ((if 0 < qos then intBytes packetid else []) ++ payload).getD k 0 := by
  have hfront : (intBytes topic.length ++ topic).length = 2 + topic.length := by
    rw [List.length_append]
    rfl
  rw [publishBody, List.append_assoc, List.getD_append_right _ _ _ _ (by omega), hfront,
    Nat.add_sub_cancel_left]

variable (stale : List UInt8)

lemma packet_publishBody (header : UInt8) :
    packet header (publishBody qos packetid topic payload) ++ stale =
      (header :: encode (publishBody qos packetid topic payload).length ++ intBytes topic.length) ++ topic ++
        ((if 0 < qos then intBytes packetid else []) ++ payload ++ stale) := by
  rw [packet]
  nth_rewrite 2 [publishBody]
  simp only [List.append_assoc]

lemma length_front (header : UInt8) (body : List UInt8) (i : ℕ) :
    (header :: encode body.length ++ intBytes i).length = bodyStart body + 2 := by
  simp only [intBytes, bodyStart, List.length_append, List.length_cons, List.length_nil]
  omega

lemma loadRange_topic (header : UInt8) :
    loadRange (packet header (publishBody qos packetid topic payload) ++ stale)
      (bodyStart (publishBody qos packetid topic payload) + 2) topic.length = .ok topic := by
  have h := loadRange_middle (header :: encode (publishBody qos packetid topic payload).length ++
    intBytes topic.length) topic ((if 0 < qos then intBytes packetid else []) ++ payload ++ stale)
  rw [length_front, ← packet_publishBody] at h
  exact h

lemma loadRange_payload (header : UInt8) :
    loadRange (packet header (publishBody qos packetid topic payload) ++ stale)
      (bodyStart (publishBody qos packetid topic payload) + 2 + topic.length + if 0 < qos then 2 else 0)
      payload.length = .ok payload := by
  have h := loadRange_middle (header :: encode (publishBody qos packetid topic payload).length ++
    intBytes topic.length ++ topic ++ if 0 < qos then intBytes packetid else []) payload stale
  rw [List.length_append, List.length_append, length_front] at h
  rw [packet_publishBody]
  simp only [List.append_assoc] at h ⊢
  split_ifs at h ⊢ with hqos
  · exact h
  · exact h

/-- What is deserialized of a packet with a topic and a payload. -/
lemma publishData_publishBody (hdup : dup < 2) (hqos : qos < 4) (hretained : retained < 2)
    (hid : packetid < 2 ^ 16) (htopic : topic.length < 2 ^ 16) :
    publishData (headerByte PUBLISH dup qos retained) (publishBody qos packetid topic payload)
      (packet (headerByte PUBLISH dup qos retained) (publishBody qos packetid topic payload) ++ stale) =
      ⟨some dup, some qos, some retained, if 0 < qos then some packetid else none,
        ⟨some topic.length, some (bodyStart (publishBody qos packetid topic payload) + 2)⟩,
        some (bodyStart (publishBody qos packetid topic payload) + 2 + topic.length +
          (if 0 < qos then 2 else 0), payload.length)⟩ := by
  have hnat := toNat_headerByte hdup hqos hretained
  have hlen := length_publishBody qos packetid payload topic
  have hdup' : (headerByte PUBLISH dup qos retained).toNat / 8 % 2 = dup := by
    rw [hnat]
    omega
  have hretained' : (headerByte PUBLISH dup qos retained).toNat % 2 = retained := by
    rw [hnat]
    omega
  simp only [publishData, payloadStart, hdup', hretained', qosOf_headerByte hdup hqos hretained,
    topicLen_publishBody htopic, payloadLen_publishBody hdup hqos hretained htopic]
  by_cases h : 0 < qos
  · have hbyte : ∀ k < 2, (packet (headerByte PUBLISH dup qos retained)
        (publishBody qos packetid topic payload) ++ stale).getD
          (bodyStart (publishBody qos packetid topic payload) + 2 + topic.length + k) 0 =
        (intBytes packetid).getD k 0 := by
      intro k hk
      have hin := getD_packet (headerByte PUBLISH dup qos retained) (publishBody qos packetid topic payload) stale
        (k := 2 + topic.length + k) (by rw [hlen, if_pos h]; omega)
      have hrest : ((if 0 < qos then intBytes packetid else []) ++ payload).getD k 0 =
          (intBytes packetid).getD k 0 := by
        rw [if_pos h, List.getD_append _ _ _ _ hk]
      rw [getD_publishBody, hrest] at hin
      rw [← hin]
      congr 1
      omega
    have hhigh := hbyte 0 (by omega)
    have hlow := hbyte 1 (by omega)
    rw [add_zero] at hhigh
    simp only [if_pos h, hhigh, hlow]
    congr 1
    exact congrArg some (intBytes_toNat hid)
  · simp only [if_neg h]

/-- What was serialized is deserialized, whatever lies behind it: the flags, the identifier where
there is one, the topic and the payload. -/
theorem mqttDeserializePublish_serialize {buflen : ℕ} {buf buf' : Buffer n} {len : ℤ}
    (hdup : dup < 2) (hqos : qos < 4) (hretained : retained < 2) (hid : packetid < 2 ^ 16)
    (hone : topicName.cstring = none ∨ topicName.lenstring = [])
    (htopic : (topicBytes topicName).length < 2 ^ 16) (hbuflen : buflen < 2 ^ 28)
    (hserialize : mqttSerializePublish buf buflen dup qos retained packetid topicName payload = .ok (len, buf'))
    (hlen : 0 < len) :
    ∃ topicAt payloadAt : ℕ, mqttDeserializePublish buf'.bytes =
        .ok (1, ⟨some dup, some qos, some retained, if 0 < qos then some packetid else none,
          ⟨some (topicBytes topicName).length, some topicAt⟩, some (payloadAt, payload.length)⟩) ∧
      loadRange buf'.bytes topicAt (topicBytes topicName).length = .ok (topicBytes topicName) ∧
      loadRange buf'.bytes payloadAt payload.length = .ok payload ∧ payloadAt + payload.length = len := by
  rw [mqttSerializePublish_packet buf qos packetid payload buflen dup retained hone] at hserialize
  split_ifs at hserialize with hshort
  · cases hserialize
    cases hlen
  have hbody : (publishBody qos packetid (topicBytes topicName) payload).length < 128 ^ 4 := by
    have hlt := lt_of_mqttPacketLen_le (not_lt.mp hshort)
    norm_num
    omega
  cases hstore : store buf 0 (packet (headerByte PUBLISH dup qos retained)
    (publishBody qos packetid (topicBytes topicName) payload)) with
  | error e =>
    rw [Transmit.put, hstore] at hserialize
    cases hserialize
  | ok buf₁ =>
    rw [Transmit.put, hstore] at hserialize
    cases hserialize
    have hbytes := Buffer.write_zero (store_eq_ok_iff.mp hstore)
    have hread := (mqttDeserializePublish_packet (buf.bytes.drop (packet (headerByte PUBLISH dup qos retained)
      (publishBody qos packetid (topicBytes topicName) payload)).length)
      (headerByte_type hdup hqos hretained) hbody).2 (topicFits_publishBody htopic)
    have hend := @payloadStart_publishBody qos packetid payload dup retained _ hdup hqos hretained htopic
    rw [hbytes, hread, if_neg (fun h => by rw [List.length_append, length_packet] at h; omega),
      publishData_publishBody _ hdup hqos hretained hid htopic]
    refine ⟨_, _, rfl, loadRange_topic _ _, loadRange_payload _ _, ?_⟩
    rw [payloadStart, qosOf_headerByte hdup hqos hretained, topicLen_publishBody htopic, ← length_packet
      (headerByte PUBLISH dup qos retained)] at hend
    rw [zero_add, ← hend]
    exact (Nat.cast_add _ _).symm

theorem mqttDeserializePublish_serialize_sample :
    ∃ topicAt payloadAt : ℕ, mqttDeserializePublish
        [0x3B, 6, 0, 1, 0x61, 0x12, 0x34, 0x1E, 0xAA] =
        .ok (1, ⟨some 1, some 1, some 1, some 0x1234, ⟨some 1, some topicAt⟩, some (payloadAt, 1)⟩) ∧
      loadRange [0x3B, 6, 0, 1, 0x61, 0x12, 0x34, 0x1E, 0xAA] topicAt 1 = .ok [0x61] ∧
      loadRange [0x3B, 6, 0, 1, 0x61, 0x12, 0x34, 0x1E, 0xAA] payloadAt 1 = .ok [0x1E] ∧
      ((payloadAt + 1 : ℕ) : ℤ) = 8 :=
  @mqttDeserializePublish_serialize 9 1 0x1234 ⟨none, [0x61]⟩ [0x1E] 1 1 9 (Buffer.fill 9 0xAA)
    ⟨[0x3B, 6, 0, 1, 0x61, 0x12, 0x34, 0x1E, 0xAA], rfl⟩ 8 (by decide) (by decide) (by decide)
    (by decide) (.inl rfl) (by decide) (by decide) (by decide +kernel) (by decide)

end RoundTrip

section Handler

/-- A packet in the buffer. -/
def memoryOf (buf : Buffer 256) (packet : List UInt8) : List UInt8 := packet ++ buf.bytes.drop packet.length

variable (header : UInt8) (body : List UInt8)

/-- The payload is taken for a frame. -/
def Framed (memory : List UInt8) : Prop :=
  memory.getD (payloadStart header body) 0 = RECORD_START ∧
    memory.getD (bodyStart body + body.length - 1) 0 = RECORD_END

instance (memory : List UInt8) : Decidable (Framed header body memory) :=
  inferInstanceAs (Decidable (_ ∧ _))

/-- The trace of a payload that is no frame comes to no end: its length is negative, and there is no
null byte from where it begins. -/
def TracedOn (memory : List UInt8) : Prop :=
  ¬Framed header body memory ∧ payloadLen header body < 0 ∧ 0 ∉ memory.drop (payloadStart header body)

instance (memory : List UInt8) : Decidable (TracedOn header body memory) :=
  inferInstanceAs (Decidable (_ ∧ _))

/-- What becomes of a packet. -/
def received (fd : ℤ) (memory : List UInt8) : Except Fault Received :=
  if ¬(fd ≠ 0 ∧ header.toNat >>> 4 = PUBLISH) then .ok .ignored
  else if ¬TopicFits body then .ok .uninitialised
  else if 256 ≤ payloadStart header body ∨ TracedOn header body memory then .error .outOfBounds
  else if Framed header body memory then
    .ok (.unmarshalls (memory.drop (payloadStart header body + 1)))
  else .ok .ignored

variable {header body} {fd : ℤ} {buf buf' : Buffer 256} {l l' : SocketLayer}

variable (buf) in
lemma length_memoryOf {p : List UInt8} (hp : p.length ≤ 256) : (memoryOf buf p).length = 256 := by
  have hsize := buf.size
  rw [memoryOf, List.length_append, List.length_drop]
  omega

lemma traceString_eq {memory : List UInt8} {off : ℕ} {len : ℤ} (hin : off + len ≤ memory.length)
    (hoff : off < memory.length) : traceString memory off len =
      if len < 0 ∧ 0 ∉ memory.drop off then .error .outOfBounds else .ok () := by
  have hlength : (memory.drop off).length = memory.length - off := List.length_drop
  have hsub := List.takeWhile_sublist (fun b : UInt8 => decide (b ≠ 0)) (l := memory.drop off)
  unfold traceString
  dsimp only
  by_cases hzero : 0 ∈ memory.drop off
  · have hlt : ((memory.drop off).takeWhile (fun b => decide (b ≠ 0))).length < (memory.drop off).length := by
      refine lt_of_le_of_ne hsub.length_le fun heq => ?_
      have hall := List.takeWhile_eq_self_iff.mp (hsub.eq_of_length heq)
      simpa using hall 0 hzero
    rw [if_pos (Or.inr (by omega)), if_neg fun h => h.2 hzero]
  · have hself : (memory.drop off).takeWhile (fun b => decide (b ≠ 0)) = memory.drop off := by
      rw [List.takeWhile_eq_self_iff]
      intro b hb
      simpa using fun h0 : b = 0 => hzero (h0 ▸ hb)
    rw [hself]
    by_cases hneg : len < 0
    · rw [if_neg (by omega), if_pos ⟨hneg, hzero⟩]
    · rw [if_pos (Or.inl (by omega)), if_neg fun h => hneg h.1]

lemma isNaisPayload_eq {memory : List UInt8} {off last : ℕ} {len : ℤ} (hoff : off < memory.length)
    (hlast : last < memory.length) (hlen : off + len - 1 = last) : isNaisPayload memory off len =
      if memory.getD off 0 = RECORD_START ∧ memory.getD last 0 = RECORD_END then .ok true
      else if len < 0 ∧ 0 ∉ memory.drop off then .error .outOfBounds else .ok false := by
  have htrace := traceString_eq (by omega : off + len ≤ memory.length) hoff
  rw [isNaisPayload, load_eq hoff, htrace]
  simp only [Bind.bind, Except.bind]
  by_cases hstart : memory.getD off 0 = RECORD_START
  · rw [if_pos hstart, if_neg (by omega), hlen, Int.toNat_natCast, load_eq hlast]
    simp only [Except.map, Option.some.injEq, hstart, true_and]
    split_ifs <;> rfl
  · simp only [reduceCtorEq, if_false, hstart, false_and]
    split_ifs <;> rfl

lemma isNaisPayload_behind {memory : List UInt8} {off : ℕ} (h : memory.length ≤ off) (len : ℤ) :
    isNaisPayload memory off len = .error .outOfBounds := by
  rw [isNaisPayload, load, List.getElem?_eq_none h]
  rfl

/-- What is made of the payload of a packet. -/
lemma isNaisPayload_packet {memory : List UInt8} (hroom : (packet header body).length ≤ memory.length)
    (hstart : payloadStart header body < memory.length) :
    isNaisPayload memory (payloadStart header body) (payloadLen header body) =
      if Framed header body memory then .ok true
      else if TracedOn header body memory then .error .outOfBounds else .ok false := by
  rw [length_packet] at hroom
  have hpos : 0 < bodyStart body := by
    unfold bodyStart
    omega
  rw [isNaisPayload_eq hstart (by omega : bodyStart body + body.length - 1 < memory.length) (by
    rw [payloadLen]
    omega)]
  by_cases hframed : Framed header body memory
  · rw [if_pos hframed]
    exact if_pos hframed
  · rw [if_neg hframed]
    refine (if_neg hframed).trans (if_congr ?_ rfl rfl)
    exact ⟨fun h => ⟨hframed, h⟩, fun h => h.2⟩

variable (fd buf) in
lemma mqttReceiverHandler_none (h : wholePacket l.answers = none) :
    ∃ buf' l', mqttReceiverHandler fd buf l = .ok (.lost, buf', l') := by
  obtain ⟨type, buf', hread, htype⟩ := mqttPacketReadInto_eq fd buf l
  rw [(mqttPacketRead_eq fd l).1, h] at htype
  dsimp only at htype
  subst htype
  refine ⟨buf', (mqttPacketRead fd MAX_MQTT_PKT_SIZE l).2, ?_⟩
  rw [mqttReceiverHandler, hread]
  rfl

variable (fd buf) in
lemma mqttReceiverHandler_packet (h : wholePacket l.answers = some (packet header body)) :
    ∃ buf' l', buf'.bytes = memoryOf buf (packet header body) ∧ mqttReceiverHandler fd buf l =
      (received header body fd (memoryOf buf (packet header body))).map fun r => (r, buf', l') := by
  obtain ⟨type, buf', hread, hpacket⟩ := mqttPacketReadInto_eq fd buf l
  rw [(mqttPacketRead_eq fd l).1, h] at hpacket
  obtain ⟨rfl, hbytes⟩ := hpacket
  rw [← memoryOf] at hbytes
  refine ⟨buf', (mqttPacketRead fd MAX_MQTT_PKT_SIZE l).2, hbytes, ?_⟩
  have hroom := (exists_packet h).2
  have hmemory : (memoryOf buf (packet header body)).length = 256 := length_memoryOf buf hroom
  have hne : ((header.toNat >>> 4 : ℕ) : ℤ) ≠ -1 := by omega
  rw [mqttReceiverHandler, hread]
  simp only [Bind.bind, Except.bind, packetType_packet, if_neg hne, hbytes]
  rw [received]
  by_cases htype : fd ≠ 0 ∧ header.toNat >>> 4 = PUBLISH
  · obtain ⟨hunset, hset⟩ := mqttDeserializePublish_packet
      (buf.bytes.drop (packet header body).length) htype.2 (length_body_lt h)
    rw [← memoryOf] at hunset hset
    rw [if_pos ⟨htype.1, by exact_mod_cast htype.2⟩, if_neg (not_not.mpr htype)]
    by_cases hfits : TopicFits body
    · have hset := hset hfits
      rw [hmemory] at hset
      rw [if_neg (not_not.mpr hfits)]
      by_cases hbehind : 256 ≤ payloadStart header body
      · rw [if_pos (Or.inl hbehind)]
        have hoff := isNaisPayload_behind (hmemory.le.trans hbehind) (payloadLen header body)
        split_ifs at hset with hread
        · rw [hset]
          rfl
        · rw [hset]
          simp only [publishData, hoff]
          rfl
      · have haccepted := @isNaisPayload_packet header body _ (hroom.trans hmemory.ge) (by omega)
        rw [if_neg (by omega)] at hset
        rw [hset]
        simp only [publishData, haccepted, hbehind, false_or]
        by_cases hframed : Framed header body (memoryOf buf (packet header body))
        · rw [if_pos hframed, if_neg (fun htraced : TracedOn .. => htraced.1 hframed), if_pos hframed]
          rfl
        · rw [if_neg hframed, if_neg hframed]
          split_ifs <;> rfl
    · obtain ⟨rc, data, hdata, hpayload⟩ := hunset hfits
      rw [if_pos hfits, hdata]
      simp only [hpayload]
      rfl
  · rw [if_neg (by exact_mod_cast htype), if_pos htype]
    rfl

/-- A PUBLISH packet arrives that has the property. -/
def Arrives (l : SocketLayer) (P : UInt8 → List UInt8 → Prop) : Prop :=
  ∃ header body, wholePacket l.answers = some (packet header body) ∧ header.toNat >>> 4 = PUBLISH ∧
    P header body

lemma mqttReceiverHandler_cases (fd : ℤ) (buf : Buffer 256) (l : SocketLayer) :
    (∃ buf' l', wholePacket l.answers = none ∧ mqttReceiverHandler fd buf l = .ok (.lost, buf', l')) ∨
      ∃ header body, wholePacket l.answers = some (packet header body) ∧
        ∃ buf' l', buf'.bytes = memoryOf buf (packet header body) ∧ mqttReceiverHandler fd buf l =
          (received header body fd (memoryOf buf (packet header body))).map fun r => (r, buf', l') := by
  cases h : wholePacket l.answers with
  | none =>
    obtain ⟨buf', l', hlost⟩ := mqttReceiverHandler_none fd buf h
    exact .inl ⟨buf', l', rfl, hlost⟩
  | some p =>
    obtain ⟨⟨header, body, rfl⟩, -⟩ := exists_packet h
    exact .inr ⟨header, body, rfl, mqttReceiverHandler_packet fd buf h⟩

/-- The receiver uses what C leaves undefined for a PUBLISH packet whose topic does not end in it, for
one whose payload would begin where the buffer ends, and for one whose trace comes to no end. -/
theorem mqtt_receiver_undefined_iff (fd : ℤ) (buf : Buffer 256) (l : SocketLayer) :
    ((∃ buf' l', mqttReceiverHandler fd buf l = .ok (.uninitialised, buf', l')) ↔
      fd ≠ 0 ∧ Arrives l fun _ body => ¬TopicFits body) ∧
    ∀ e, mqttReceiverHandler fd buf l = .error e ↔ e = .outOfBounds ∧ fd ≠ 0 ∧
      Arrives l fun header body => TopicFits body ∧ (256 ≤ payloadStart header body ∨
        TracedOn header body (memoryOf buf (packet header body))) := by
  refine ⟨⟨?_, ?_⟩, fun e => ⟨?_, ?_⟩⟩
  · rintro ⟨buf', l', hhandler⟩
    obtain ⟨buf₁, l₁, -, hlost⟩ | ⟨header, body, hwhole, buf₁, l₁, -, heq⟩ :=
      mqttReceiverHandler_cases fd buf l
    · rw [hlost] at hhandler
      cases hhandler
    · rw [heq, received] at hhandler
      split_ifs at hhandler with htype hfits <;> cases hhandler
      exact ⟨htype.1, header, body, hwhole, htype.2, hfits⟩
  · rintro ⟨hfd, header, body, hwhole, htype, hfits⟩
    obtain ⟨buf₁, l₁, -, heq⟩ := mqttReceiverHandler_packet fd buf hwhole
    rw [received, if_neg (not_not.mpr ⟨hfd, htype⟩), if_pos hfits] at heq
    exact ⟨buf₁, l₁, heq⟩
  · intro hhandler
    obtain ⟨buf₁, l₁, -, hlost⟩ | ⟨header, body, hwhole, buf₁, l₁, -, heq⟩ :=
      mqttReceiverHandler_cases fd buf l
    · rw [hlost] at hhandler
      cases hhandler
    · rw [heq, received] at hhandler
      split_ifs at hhandler with htype hfits hbehind <;> cases hhandler
      exact ⟨rfl, htype.1, header, body, hwhole, htype.2, hfits, hbehind⟩
  · rintro ⟨rfl, hfd, header, body, hwhole, htype, hfits, hbehind⟩
    obtain ⟨buf₁, l₁, -, heq⟩ := mqttReceiverHandler_packet fd buf hwhole
    rw [heq, received, if_neg (not_not.mpr ⟨hfd, htype⟩), if_neg (not_not.mpr hfits), if_pos hbehind]
    rfl

end Handler

section Replay

variable {fd : ℤ}

/-- What goes through the one packet buffer: a packet that is received, or the bytes of one that is
serialized to be sent. -/
inductive Traffic where
  | receives (l : SocketLayer)
  | sends (packet : List UInt8)

/-- The buffer after some traffic. -/
def pass (fd : ℤ) : Buffer 256 → List Traffic → Except Fault (Buffer 256)
  | buf, [] => .ok buf
  | buf, .receives l :: traffic => do
    let (_, buf, _) ← mqttReceiverHandler fd buf l
    pass fd buf traffic
  | buf, .sends packet :: traffic => do
    let buf ← store buf 0 packet
    pass fd buf traffic

/-- The packet has no more than `k` bytes. -/
def Traffic.Short (k : ℕ) : Traffic → Prop
  | .receives l => ∃ p, wholePacket l.answers = some p ∧ p.length ≤ k
  | .sends packet => packet.length ≤ k

lemma drop_memoryOf (buf : Buffer 256) {p : List UInt8} {k : ℕ} (hp : p.length ≤ k) :
    (memoryOf buf p).drop k = buf.bytes.drop k := by
  rw [memoryOf, List.drop_append, List.drop_eq_nil_of_le hp, List.nil_append, List.drop_drop]
  congr 1
  omega

/-- Short packets leave what is behind them. -/
lemma pass_drop {k : ℕ} {buf buf' : Buffer 256} {traffic : List Traffic}
    (hshort : ∀ t ∈ traffic, t.Short k) (h : pass fd buf traffic = .ok buf') :
    buf'.bytes.drop k = buf.bytes.drop k := by
  induction traffic generalizing buf with
  | nil =>
    cases h
    rfl
  | cons t traffic ih =>
    obtain ⟨hfirst, hrest⟩ := List.forall_mem_cons.mp hshort
    cases t with
    | receives l =>
      obtain ⟨p, hwhole, hp⟩ := hfirst
      obtain ⟨⟨header, body, rfl⟩, -⟩ := exists_packet hwhole
      obtain ⟨buf₁, l₁, hbytes, heq⟩ := mqttReceiverHandler_packet fd buf hwhole
      rw [pass, heq] at h
      cases hr : received header body fd (memoryOf buf (packet header body)) with
      | error e =>
        rw [hr] at h
        cases h
      | ok r =>
        rw [hr] at h
        rw [ih hrest h, hbytes, drop_memoryOf _ hp]
    | sends packet =>
      rw [pass] at h
      cases hstore : store buf 0 packet with
      | error e =>
        rw [hstore] at h
        cases h
      | ok buf₁ =>
        rw [hstore] at h
        have hbytes := Buffer.write_zero (store_eq_ok_iff.mp hstore)
        rw [ih hrest h, hbytes]
        exact drop_memoryOf buf hfirst

lemma getD_of_drop_eq {bs cs : List UInt8} {k : ℕ} (h : bs.drop k = cs.drop k) : bs.getD k 0 = cs.getD k 0 := by
  rw [List.getD_eq_getElem?_getD, List.getD_eq_getElem?_getD, ← List.head?_drop, ← List.head?_drop, h]

lemma getD_last {header : UInt8} {body stale : List UInt8} (hne : body ≠ []) :
    (packet header body ++ stale).getD (bodyStart body + body.length - 1) 0 = body.getLast hne := by
  have hpos := List.length_pos_iff.mpr hne
  have h := getD_packet header body stale (by omega : body.length - 1 < body.length)
  rw [show bodyStart body + (body.length - 1) = bodyStart body + body.length - 1 by omega] at h
  rw [h, List.getLast_eq_getElem, List.getD_eq_getElem _ _ (by omega)]

lemma received_unmarshalls {header : UInt8} {body memory data : List UInt8}
    (h : received header body fd memory = .ok (.unmarshalls data)) :
    fd ≠ 0 ∧ payloadStart header body < 256 ∧ memory.getD (payloadStart header body) 0 = RECORD_START ∧
      data = memory.drop (payloadStart header body + 1) := by
  unfold received at h
  split_ifs at h with htype hfits hbehind hframed <;> cases h
  exact ⟨htype.1, by omega, hframed.1, rfl⟩

/-- A packet without a payload makes the receiver unmarshall an earlier one again, if that began at
the same place, only short packets were received or sent in between, and the packet ends with the
byte of a record end. With QoS 1 this is the low byte of the packet identifier. -/
theorem mqtt_receiver_replays {buf buf₁ buf₂ : Buffer 256} {l l₁ l' : SocketLayer}
    {traffic : List Traffic} {header header' : UInt8} {body body' data : List UInt8}
    (hwhole : wholePacket l.answers = some (packet header body))
    (hframe : mqttReceiverHandler fd buf l = .ok (.unmarshalls data, buf₁, l₁))
    (hshort : ∀ t ∈ traffic, t.Short (payloadStart header body))
    (hbetween : pass fd buf₁ traffic = .ok buf₂)
    (hwhole' : wholePacket l'.answers = some (packet header' body'))
    (htype : header'.toNat >>> 4 = PUBLISH) (hfits : TopicFits body')
    (hstart : payloadStart header' body' = payloadStart header body)
    (hempty : payloadLen header' body' ≤ 0) (data' : List UInt8) :
    (∃ buf₃ l₃, mqttReceiverHandler fd buf₂ l' = .ok (.unmarshalls data', buf₃, l₃)) ↔
      body'.getLast? = some RECORD_END ∧ data' = data := by
  obtain ⟨buf₁', l₁', hbytes, heq⟩ := mqttReceiverHandler_packet fd buf hwhole
  rw [hframe] at heq
  cases hr : received header body fd (memoryOf buf (packet header body)) with
  | error e =>
    rw [hr] at heq
    cases heq
  | ok r =>
    rw [hr] at heq
    cases heq
    obtain ⟨hfd, hlt, hfirst, rfl⟩ := received_unmarshalls hr
    rw [← hbytes] at hfirst ⊢
    -- the payload is still there
    have hleft := pass_drop hshort hbetween
    have hpacket : (packet header' body').length ≤ payloadStart header body := by
      rw [length_packet, ← hstart]
      unfold payloadLen at hempty
      omega
    have hmemory := (drop_memoryOf buf₂ hpacket).trans hleft
    have hne : body' ≠ [] := by
      rintro rfl
      unfold TopicFits at hfits
      simp at hfits
    have hbehind : (memoryOf buf₂ (packet header' body')).drop (payloadStart header body + 1) =
        buf₁.bytes.drop (payloadStart header body + 1) := by
      rw [← List.drop_drop, hmemory, List.drop_drop]
    have hframed : Framed header' body' (memoryOf buf₂ (packet header' body')) ↔
        body'.getLast? = some RECORD_END := by
      rw [Framed, hstart, getD_of_drop_eq hmemory, hfirst, memoryOf, getD_last hne,
        List.getLast?_eq_some_getLast hne]
      simp
    obtain ⟨buf₃, l₃, -, heq'⟩ := mqttReceiverHandler_packet fd buf₂ hwhole'
    rw [heq', received, if_neg (not_not.mpr ⟨hfd, htype⟩), if_neg (not_not.mpr hfits)]
    by_cases hlast : Framed header' body' (memoryOf buf₂ (packet header' body'))
    · rw [if_neg (by rw [hstart]; exact fun h => h.elim (by omega) fun htraced => htraced.1 hlast),
        if_pos hlast, hstart, hbehind]
      constructor
      · rintro ⟨buf₄, l₄, hok⟩
        cases hok
        exact ⟨hframed.mp hlast, rfl⟩
      · rintro ⟨-, rfl⟩
        exact ⟨buf₃, l₃, rfl⟩
    · rw [if_neg hlast]
      refine iff_of_false ?_ fun h => hlast (hframed.mpr h.1)
      rintro ⟨buf₄, l₄, hok⟩
      split_ifs at hok <;> cases hok

theorem mqtt_receiver_replays_frame : ∃ data buf₁ l₁,
    mqttReceiverHandler 1 (Buffer.fill 256 0)
      ⟨.empty, [.data [0x32], .data [8], .data [0, 1, 0x61, 0, 1, 0x1E, 5, 0x17]]⟩ =
      .ok (.unmarshalls data, buf₁, l₁) ∧
    ∃ buf₂ l₂, mqttReceiverHandler 1 buf₁
      ⟨.empty, [.data [0x32], .data [5], .data [0, 1, 0x61, 0, 0x17]]⟩ =
      .ok (.unmarshalls data, buf₂, l₂) := by
  have hwhole : wholePacket [.data [0x32], .data [8], .data [0, 1, 0x61, 0, 1, 0x1E, 5, 0x17]] =
      some (packet 0x32 [0, 1, 0x61, 0, 1, 0x1E, 5, 0x17]) := by decide +kernel
  obtain ⟨buf₁, l₁, -, hframe⟩ := @mqttReceiverHandler_packet 0x32 [0, 1, 0x61, 0, 1, 0x1E, 5, 0x17] 1
    (Buffer.fill 256 0)
    ⟨.empty, [.data [0x32], .data [8], .data [0, 1, 0x61, 0, 1, 0x1E, 5, 0x17]]⟩ hwhole
  have hreceived : received 0x32 [0, 1, 0x61, 0, 1, 0x1E, 5, 0x17] 1
      (memoryOf (Buffer.fill 256 0) (packet 0x32 [0, 1, 0x61, 0, 1, 0x1E, 5, 0x17])) =
      .ok (.unmarshalls (5 :: 0x17 :: List.replicate 246 0)) := by decide +kernel
  rw [hreceived] at hframe
  refine ⟨_, buf₁, l₁, hframe, ?_⟩
  exact (@mqtt_receiver_replays 1 (Buffer.fill 256 0) buf₁ buf₁ _ l₁
    ⟨.empty, [.data [0x32], .data [5], .data [0, 1, 0x61, 0, 0x17]]⟩ [] 0x32 0x32 _ [0, 1, 0x61, 0, 0x17]
    _ hwhole hframe (by simp) rfl (by decide +kernel) (by decide) (by decide +kernel)
    (by decide +kernel) (by decide +kernel) _).mpr ⟨by decide +kernel, rfl⟩

end Replay

end Nais.Board.MqttReceiver
