import Nais.Board.Bocia
import Nais.Board.ConfigPath

/-!
# Publishing over MQTT

The serializer of `sys/paho/MQTTSerializePublish.c`, and the transmitter of
`sys/bocia/bocia_mqtt.c` that marshalls a message into one buffer of 256 bytes, makes a packet
of it in another one, and gives that to `sl_Send` with the length the serializer returned.
-/

namespace Nais.Board.Transmit

open Nais.Lib Nais.Lib.Memory ConfigPath

def MQTTPACKET_BUFFER_TOO_SHORT : ℤ := -2

def PUBLISH : ℕ := 3

/-- `lenstring` is empty for a length of 0. -/
structure MqttString where
  cstring : Option (List UInt8)
  lenstring : List UInt8

def MqttString.initializer : MqttString := ⟨none, []⟩

def mqttStrlen (s : MqttString) : ℕ :=
  match s.cstring with
  | some cstring => (cString cstring).length
  | none => s.lenstring.length

def mqttSerializePublishLength (qos : ℕ) (topicName : MqttString) (payloadlen : ℕ) : ℕ :=
  2 + mqttStrlen topicName + payloadlen + if 0 < qos then 2 else 0

/-- The bit fields of `MQTTHeader`. -/
def headerByte (type dup qos retain : ℕ) : UInt8 :=
  UInt8.ofNat (type % 16 * 16 + dup % 2 * 8 + qos % 4 * 2 + retain % 2)

section Write

variable {n : ℕ}

/-- Writes at `ptr`. The results are `ptr` behind the bytes, and the buffer. -/
def put (buf : Buffer n) (ptr : ℕ) (bytes : List UInt8) : Except Fault (ℕ × Buffer n) :=
  (store buf ptr bytes).map fun buf => (ptr + bytes.length, buf)

def writeChar (buf : Buffer n) (ptr : ℕ) (c : UInt8) : Except Fault (ℕ × Buffer n) :=
  put buf ptr [c]

def writeInt (buf : Buffer n) (ptr anInt : ℕ) : Except Fault (ℕ × Buffer n) := do
  let (ptr, buf) ← put buf ptr [UInt8.ofNat (anInt / 256)]
  put buf ptr [UInt8.ofNat (anInt % 256)]

def writeCString (buf : Buffer n) (ptr : ℕ) (string : List UInt8) :
    Except Fault (ℕ × Buffer n) := do
  let (ptr, buf) ← writeInt buf ptr (cString string).length
  put buf ptr (cString string)

def writeMqttString (buf : Buffer n) (ptr : ℕ) (s : MqttString) :
    Except Fault (ℕ × Buffer n) := do
  if 0 < s.lenstring.length then
    let (ptr, buf) ← writeInt buf ptr s.lenstring.length
    put buf ptr s.lenstring
  else match s.cstring with
    | some cstring => writeCString buf ptr cstring
    | none => writeInt buf ptr 0

/-- The loop of `MQTTPacket_encode`, with `ptr` at the next byte. -/
def mqttPacketEncode (buf : Buffer n) (ptr length : ℕ) : Except Fault (ℕ × Buffer n) := do
  let d := length % 128
  if 0 < length / 128 then
    let (ptr, buf) ← put buf ptr [UInt8.ofNat (d ||| 0x80)]
    mqttPacketEncode buf ptr (length / 128)
  else put buf ptr [UInt8.ofNat d]
termination_by length

/-- The result, and the buffer. -/
def mqttSerializePublish (buf : Buffer n) (buflen dup qos retained packetid : ℕ)
    (topicName : MqttString) (payload : List UInt8) : Except Fault (ℤ × Buffer n) := do
  let remLen := mqttSerializePublishLength qos topicName payload.length
  if buflen < mqttPacketLen remLen then .ok (MQTTPACKET_BUFFER_TOO_SHORT, buf)
  else
    let (ptr, buf) ← writeChar buf 0 (headerByte PUBLISH dup qos retained)
    let (ptr, buf) ← mqttPacketEncode buf ptr remLen
    let (ptr, buf) ← writeMqttString buf ptr topicName
    let (ptr, buf) ← if 0 < qos then writeInt buf ptr packetid else .ok (ptr, buf)
    let (ptr, buf) ← put buf ptr payload
    .ok (ptr, buf)

end Write

/-- The arguments of a call of `sl_Send`. -/
structure Sent where
  buf : Buffer 256
  len : ℤ

/-- What is sent, and the buffer of the marshaller. -/
def mqttTransmitterHandler (pb : Protobufc) (topicBuff : Buffer 64) (type : ProtoMsg)
    (data : Option Message) (protobuf buf : Buffer 256) : Except Fault (Sent × Buffer 256) := do
  let (payload, protobuf) ← naisMarshall pb type data protobuf
  let topicString := { MqttString.initializer with cstring := some topicBuff.bytes }
  let (len, buf) ← mqttSerializePublish buf 256 0 1 0 0 topicString payload
  .ok (⟨buf, len⟩, protobuf)

/-- What LEN counts of a PUBLISH packet of QoS 1 with the identifier 0. -/
def publishRest (topic payload : List UInt8) : List UInt8 :=
  [UInt8.ofNat (topic.length / 256), UInt8.ofNat (topic.length % 256)] ++ topic ++ [0, 0] ++ payload

def publishPacket (topic payload : List UInt8) : List UInt8 :=
  0x32 :: Base128.encode (publishRest topic payload).length ++ publishRest topic payload

def frame (pb : Protobufc) (type : ProtoMsg) (m : Message) : List UInt8 :=
  headerBytes type (pb.pack m).length ++ pb.pack m ++ [RECORD_END]

/-- The call sends the packet of the whole frame on the topic. -/
def Complete (pb : Protobufc) (topic : List UInt8) (topicBuff : Buffer 64) (type : ProtoMsg)
    (m : Message) (protobuf buf : Buffer 256) : Prop :=
  ∃ sent protobuf', mqttTransmitterHandler pb topicBuff type (some m) protobuf buf =
      .ok (sent, protobuf') ∧ 0 < sent.len ∧
    sent.buf.bytes.take sent.len.toNat = publishPacket topic (frame pb type m)

section Write

variable {n : ℕ} {α : Type} (buf : Buffer n) (ptr : ℕ)

lemma put_put (xs ys : List UInt8) :
    (do let (ptr, buf) ← put buf ptr xs; put buf ptr ys) = put buf ptr (xs ++ ys) := by
  unfold put
  rw [← store_adjacent, List.length_append, ← add_assoc]
  cases store buf ptr xs <;> rfl

lemma put_put_bind (xs ys : List UInt8) (f : ℕ × Buffer n → Except Fault α) :
    (put buf ptr xs >>= fun p => put p.2 p.1 ys >>= f) = put buf ptr (xs ++ ys) >>= f := by
  rw [← put_put]
  cases put buf ptr xs <;> rfl

lemma writeInt_eq (anInt : ℕ) : writeInt buf ptr anInt =
    put buf ptr [UInt8.ofNat (anInt / 256), UInt8.ofNat (anInt % 256)] := by
  rw [writeInt, put_put, List.singleton_append]

lemma writeCString_eq (string : List UInt8) : writeCString buf ptr string =
    put buf ptr ([UInt8.ofNat ((cString string).length / 256),
      UInt8.ofNat ((cString string).length % 256)] ++ cString string) := by
  rw [writeCString, writeInt_eq, put_put]

lemma mqttPacketEncode_eq (length : ℕ) :
    mqttPacketEncode buf ptr length = put buf ptr (Base128.encode length) := by
  induction length using Nat.strong_induction_on generalizing buf ptr with
  | _ length ih =>
    rw [mqttPacketEncode]
    dsimp only
    by_cases hl : 0 < length / 128
    · have hbits : length % 128 ||| 0x80 = 128 + length % 128 := by
        have h := Nat.two_pow_add_eq_or_of_lt (i := 7) (Nat.mod_lt length (by decide)) 1
        rw [Nat.or_comm]
        exact h.symm
      have hrest : ∀ ptr (buf : Buffer n), mqttPacketEncode buf ptr (length / 128) =
          put buf ptr (Base128.encode (length / 128)) := fun ptr buf => ih _ (by omega) buf ptr
      rw [if_pos hl, hbits, Base128.encode_large (by omega)]
      simp only [hrest]
      rw [put_put, List.singleton_append]
    · rw [if_neg hl, Base128.encode_small (by omega), Nat.mod_eq_of_lt (by omega)]

lemma length_publishRest (topic payload : List UInt8) :
    (publishRest topic payload).length = mqttPublishLength topic payload.length := by
  simp only [publishRest, mqttPublishLength, List.length_append, List.length_cons, List.length_nil]
  omega

/-- The serializer writes the packet in one piece where it has room for it. -/
lemma mqttSerializePublish_eq (buflen : ℕ) (string payload : List UInt8) :
    mqttSerializePublish buf buflen 0 1 0 0 ⟨some string, []⟩ payload =
      if buflen < mqttPacketLen (mqttPublishLength (cString string) payload.length) then
        .ok (MQTTPACKET_BUFFER_TOO_SHORT, buf)
      else (put buf 0 (publishPacket (cString string) payload)).map fun (ptr, buf) =>
        ((ptr : ℤ), buf) := by
  have hlen : mqttSerializePublishLength 1 ⟨some string, []⟩ payload.length =
      mqttPublishLength (cString string) payload.length := rfl
  rw [mqttSerializePublish, hlen]
  dsimp only
  by_cases hshort : buflen < mqttPacketLen (mqttPublishLength (cString string) payload.length)
  · rw [if_pos hshort, if_pos hshort]
  · rw [if_neg hshort, if_neg hshort]
    simp only [writeChar, mqttPacketEncode_eq, writeMqttString, List.length_nil, lt_irrefl,
      writeCString_eq, writeInt_eq, if_true, if_false, zero_lt_one]
    rw [put_put_bind, put_put_bind, put_put_bind, put_put_bind]
    have hpacket : [headerByte PUBLISH 0 1 0] ++
        Base128.encode (mqttPublishLength (cString string) payload.length) ++
        ([UInt8.ofNat ((cString string).length / 256), UInt8.ofNat ((cString string).length % 256)] ++
          cString string) ++ [UInt8.ofNat (0 / 256), UInt8.ofNat (0 % 256)] ++ payload =
        publishPacket (cString string) payload := by
      rw [publishPacket, length_publishRest, publishRest]
      simp only [List.append_assoc]
      rfl
    rw [hpacket]
    cases put buf 0 (publishPacket (cString string) payload) <;> rfl

end Write

section Sizes

variable (topic payload : List UInt8)

/-- A packet of up to 256 bytes has at most two LEN bytes. -/
lemma mqttPacketLen_le_iff (remLen : ℕ) : mqttPacketLen remLen ≤ 256 ↔ remLen ≤ 253 := by
  unfold mqttPacketLen
  dsimp only
  split_ifs <;> omega

lemma length_publishPacket : (publishPacket topic payload).length =
    1 + (Base128.encode (mqttPublishLength topic payload.length)).length +
      mqttPublishLength topic payload.length := by
  rw [publishPacket, List.length_append, List.length_cons, length_publishRest]
  omega

lemma length_publishPacket_le (h : mqttPublishLength topic payload.length ≤ 253) :
    (publishPacket topic payload).length ≤ 256 := by
  have hlen := Base128.encode_length_le 1 (mqttPublishLength topic payload.length)
    (by norm_num; omega)
  rw [length_publishPacket]
  omega

lemma length_frame (pb : Protobufc) (type : ProtoMsg) (m : Message) :
    (frame pb type m).length = frameLength pb m := by
  rw [frame, List.length_append, List.length_append, headerBytes_length]
  rfl

end Sizes

lemma ne_zero_of_mem_cString {bs : List UInt8} {b : UInt8} (h : b ∈ cString bs) : b ≠ 0 := by
  have hb := List.mem_takeWhile_imp (p := fun b => decide (b ≠ 0)) h
  simpa using hb

lemma cString_topicBuff {cfg : Config} {before topicBuff : Buffer 64}
    (h : mqttTopic cfg before = .ok topicBuff) : cString topicBuff.bytes = topic cfg := by
  rw [mqttTopic_eq, store_eq_ok_iff] at h
  have hbytes := Buffer.write_zero h
  have hnonzero : ∀ b ∈ topic cfg, decide (b ≠ 0) = true := by
    intro b hb
    rw [decide_eq_true_iff]
    simp only [topic, List.mem_append] at hb
    obtain ((hb | hb) | hb) | hb := hb
    · simp only [TOPIC_PREFIX, List.mem_cons, List.not_mem_nil, or_false] at hb
      obtain rfl | rfl | rfl := hb <;> decide
    · exact ne_zero_of_mem_cString hb
    · rw [List.mem_singleton.mp hb]
      decide
    · exact ne_zero_of_mem_cString hb
  rw [hbytes, cString, List.append_assoc, List.takeWhile_append_of_pos hnonzero]
  simp

/-- What the transmitter gives to `sl_Send`: the packet, or the error code of the serializer. -/
lemma mqttTransmitterHandler_cases (pb : Protobufc) (topicBuff : Buffer 64) (type : ProtoMsg)
    (m : Message) (protobuf buf : Buffer 256) (hframe : frameLength pb m ≤ 256) :
    ∃ sent protobuf', mqttTransmitterHandler pb topicBuff type (some m) protobuf buf =
        .ok (sent, protobuf') ∧
      if mqttPublishLength (cString topicBuff.bytes) (frameLength pb m) ≤ 253 then
        sent.len = (publishPacket (cString topicBuff.bytes) (frame pb type m)).length ∧
          publishPacket (cString topicBuff.bytes) (frame pb type m) <+: sent.buf.bytes
      else sent = ⟨buf, MQTTPACKET_BUFFER_TOO_SHORT⟩ := by
  obtain ⟨-, protobuf', hmarshall⟩ | ⟨hlong, -⟩ := naisMarshall_ok_or_error pb type m protobuf
  · rw [← frame] at hmarshall
    have hserialize := mqttSerializePublish_eq buf 256 topicBuff.bytes (frame pb type m)
    rw [length_frame] at hserialize
    have hpacketLen := mqttPacketLen_le_iff
      (mqttPublishLength (cString topicBuff.bytes) (frameLength pb m))
    by_cases hfits : mqttPublishLength (cString topicBuff.bytes) (frameLength pb m) ≤ 253
    · rw [if_neg (not_lt.mpr (hpacketLen.mpr hfits))] at hserialize
      have hlen := length_publishPacket_le (cString topicBuff.bytes) (frame pb type m)
        (by rw [length_frame]; exact hfits)
      obtain ⟨buf', hwrite⟩ := buf.exists_write (i := 0) (by rw [Nat.zero_add]; exact hlen)
      refine ⟨⟨buf', (publishPacket (cString topicBuff.bytes) (frame pb type m)).length⟩, protobuf',
        ?_, ?_⟩
      · rw [mqttTransmitterHandler, hmarshall]
        simp only [MqttString.initializer, Bind.bind, Except.bind, hserialize, put,
          store_eq_ok_iff.mpr hwrite, Except.map, Nat.zero_add]
      · rw [if_pos hfits, Buffer.write_zero hwrite]
        exact ⟨rfl, List.prefix_append _ _⟩
    · rw [if_pos (not_le.mp (mt hpacketLen.mp hfits))] at hserialize
      refine ⟨⟨buf, MQTTPACKET_BUFFER_TOO_SHORT⟩, protobuf', ?_, ?_⟩
      · rw [mqttTransmitterHandler, hmarshall]
        simp only [MqttString.initializer, Bind.bind, Except.bind, hserialize]
      · rw [if_neg hfits]
  · omega

/-- The transmitter of the replies sends exactly the frames for which a packet is made here. -/
lemma sent_pos_iff_transmitted (env : Env) (topicBuff : Buffer 64) (type : ProtoMsg) (m : Message)
    (b : State) (buf : Buffer 256) (hframe : frameLength env.pb m ≤ 256) :
    (∃ sent protobuf', mqttTransmitterHandler env.pb topicBuff type (some m) b.protobuf buf =
        .ok (sent, protobuf') ∧ 0 < sent.len) ↔
      ((Board.mqttTransmitterHandler env (cString topicBuff.bytes) type (some m)).run b).2.sent =
        b.sent ++ [frame env.pb type m] := by
  obtain ⟨sent, protobuf', hrun, hsent⟩ :=
    mqttTransmitterHandler_cases env.pb topicBuff type m b.protobuf buf hframe
  obtain ⟨-, p, hmarshall⟩ | ⟨hlong, -⟩ := naisMarshall_ok_or_error env.pb type m b.protobuf
  · rw [← frame] at hmarshall
    by_cases hfits : mqttPublishLength (cString topicBuff.bytes) (frameLength env.pb m) ≤ 253
    · rw [if_pos hfits, length_publishPacket] at hsent
      refine iff_of_true ⟨sent, protobuf', hrun, by omega⟩ ?_
      simp [Board.mqttTransmitterHandler, hmarshall, length_frame,
        (mqttPacketLen_le_iff _).mpr hfits]
    · rw [if_neg hfits] at hsent
      refine iff_of_false ?_ ?_
      · rintro ⟨sent', protobuf'', hrun', hpos⟩
        rw [hrun] at hrun'
        obtain ⟨rfl, -⟩ := Prod.mk.inj (Except.ok.inj hrun')
        rw [hsent] at hpos
        exact absurd hpos (by decide : MQTTPACKET_BUFFER_TOO_SHORT < 0).le.not_gt
      · simp [Board.mqttTransmitterHandler, hmarshall, length_frame,
          mt (mqttPacketLen_le_iff _).mp hfits]
  · omega

lemma complete_iff {pb : Protobufc} {topicBuff : Buffer 64} {type : ProtoMsg} {m : Message}
    {protobuf buf protobuf' : Buffer 256} {sent : Sent}
    (hrun : mqttTransmitterHandler pb topicBuff type (some m) protobuf buf = .ok (sent, protobuf'))
    (topic : List UInt8) : Complete pb topic topicBuff type m protobuf buf ↔ 0 < sent.len ∧
      sent.buf.bytes.take sent.len.toNat = publishPacket topic (frame pb type m) := by
  constructor
  · rintro ⟨sent', protobuf'', hrun', hsent⟩
    rw [hrun] at hrun'
    obtain ⟨rfl, -⟩ := Prod.mk.inj (Except.ok.inj hrun')
    exact hsent
  · exact fun hsent => ⟨sent, protobuf', hrun, hsent⟩

section Complete

variable {pb : Protobufc} {topicBuff : Buffer 64} {type : ProtoMsg} {m : Message}
  {protobuf buf : Buffer 256} (hframe : frameLength pb m ≤ 256)

include hframe

lemma fits_of_complete {topic : List UInt8}
    (h : Complete pb topic topicBuff type m protobuf buf) :
    mqttPublishLength (cString topicBuff.bytes) (frameLength pb m) ≤ 253 := by
  obtain ⟨sent, protobuf', hrun, hsent⟩ :=
    mqttTransmitterHandler_cases pb topicBuff type m protobuf buf hframe
  have hpos := ((complete_iff hrun topic).mp h).1
  by_contra hlong
  rw [if_neg hlong] at hsent
  rw [hsent] at hpos
  exact absurd hpos (by decide : MQTTPACKET_BUFFER_TOO_SHORT < 0).le.not_gt

lemma complete_of_fits (h : mqttPublishLength (cString topicBuff.bytes) (frameLength pb m) ≤ 253) :
    Complete pb (cString topicBuff.bytes) topicBuff type m protobuf buf := by
  obtain ⟨sent, protobuf', hrun, hsent⟩ :=
    mqttTransmitterHandler_cases pb topicBuff type m protobuf buf hframe
  rw [if_pos h] at hsent
  obtain ⟨hlen, hprefix⟩ := hsent
  rw [complete_iff hrun, hlen, Int.toNat_natCast]
  refine ⟨?_, (List.prefix_iff_eq_take.mp hprefix).symm⟩
  rw [length_publishPacket]
  omega

end Complete

/-- A message that fits the buffer of the marshaller is published as a whole exactly if the
topic and its frame have 249 bytes together. -/
theorem mqtt_transmitter_complete_iff (pb : Protobufc) (cfg : Config) (type : ProtoMsg)
    (m : Message) {before topicBuff : Buffer 64} (htopic : mqttTopic cfg before = .ok topicBuff)
    (protobuf buf : Buffer 256) (hframe : frameLength pb m ≤ 256) :
    Complete pb (topic cfg) topicBuff type m protobuf buf ↔
      (topic cfg).length + frameLength pb m ≤ 249 := by
  have hstring := cString_topicBuff htopic
  have hfits : mqttPublishLength (cString topicBuff.bytes) (frameLength pb m) ≤ 253 ↔
      (topic cfg).length + frameLength pb m ≤ 249 := by
    rw [hstring, mqttPublishLength]
    omega
  rw [← hfits]
  constructor
  · exact fits_of_complete hframe
  · intro h
    rw [← hstring]
    exact complete_of_fits hframe h

theorem sample_config_complete : Complete ConfigFile.samplePb (topic sampleConfig)
    ⟨topic sampleConfig ++ List.replicate 58 0, by decide⟩ ⟨CONFIG_TYPE, 0, 0⟩ (.config sampleConfig)
    (Buffer.fill 256 0) (Buffer.fill 256 0) := by
  have htopic : mqttTopic sampleConfig (Buffer.fill 64 0) =
      .ok ⟨topic sampleConfig ++ List.replicate 58 0, by decide⟩ := by decide +kernel
  exact (mqtt_transmitter_complete_iff ConfigFile.samplePb sampleConfig _ _ htopic _ _
    (by decide +kernel)).mpr (by decide +kernel)

def longSecret : Secret := ⟨List.replicate 240 0x61⟩

/-- A library for one message. -/
def longSecretPb : Protobufc where
  unpack k bs :=
    if k = .secret ∧ bs = [0x0A, 0xF0, 0x01] ++ longSecret.key then some (.secret longSecret) else none
  unpack_kind := by
    intro k bs m h
    split_ifs at h with hk
    cases h
    exact hk.1.symm
  pack _ := [0x0A, 0xF0, 0x01] ++ longSecret.key

/-- A key of 240 letters is in a frame of 251 bytes, for which there is no room in a packet. -/
theorem mqtt_transmitter_sends_error : ¬∀ (pb : Protobufc) (cfg : Config) (type : ProtoMsg)
    (m : Message) (before topicBuff : Buffer 64), mqttTopic cfg before = .ok topicBuff →
    ∀ protobuf buf : Buffer 256, frameLength pb m ≤ 256 →
    Complete pb (topic cfg) topicBuff type m protobuf buf := by
  intro h
  have hroom : 0 + (topic sampleConfig ++ [0]).length ≤ 64 := by decide
  obtain ⟨topicBuff, hwrite⟩ := (Buffer.fill 64 0).exists_write hroom
  have htopic : mqttTopic sampleConfig (Buffer.fill 64 0) = .ok topicBuff := by
    rw [mqttTopic_eq, store_eq_ok_iff, hwrite]
  have hframe : frameLength longSecretPb (.secret longSecret) = 251 := by decide +kernel
  have hcomplete := h longSecretPb sampleConfig ⟨SECRET_TYPE, 0, 0⟩ (.secret longSecret) _ topicBuff
    htopic (Buffer.fill 256 0) (Buffer.fill 256 0) (by omega)
  have hfits := fits_of_complete (by omega) hcomplete
  rw [cString_topicBuff htopic, hframe] at hfits
  exact absurd hfits (by decide)

end Nais.Board.Transmit
