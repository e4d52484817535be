import Nais.Board.MqttReceiver
import Nais.Protobuf.Messages

/-!
# From one board to another

What a board publishes over MQTT, and what a board that a broker forwards it to makes of it. The
broker may send the packet on with other flags and another packet identifier.
-/

namespace Nais.Board.MqttReceiver
open Nais.Lib Nais.Lib.Memory Mqtt Transmit Nais.Protobuf

variable {alloc : Nat → Bool} {type : ProtoMsg} {m : Message} {topicBuff : Buffer 64}
  {protobuf buf : Buffer 256}

/-- What was sent is the packet of the frame. -/
lemma sent_packet {pb : Protobufc} {sent : Sent} {protobuf' : Buffer 256}
    (hsend : Transmit.mqttTransmitterHandler pb topicBuff type (some m) protobuf buf = .ok (sent, protobuf'))
    (hlen : 0 < sent.len) : ∃ frame, naisMarshall pb type (some m) protobuf = .ok (frame, protobuf') ∧
      sent.buf.bytes.take sent.len.toNat =
        packet (headerByte PUBLISH 0 1 0) (publishBody 1 0 (ConfigPath.cString topicBuff.bytes) frame) := by
  rw [Transmit.mqttTransmitterHandler] at hsend
  obtain ⟨⟨frame, protobuf₁⟩, hmarshall, hsend⟩ := Refine.bind_eq_ok_iff.mp hsend
  obtain ⟨⟨len, buf'⟩, hserialize, hsend⟩ := Refine.bind_eq_ok_iff.mp hsend
  cases hsend
  refine ⟨frame, hmarshall, ?_⟩
  have hone : ({ MqttString.initializer with cstring := some topicBuff.bytes } : MqttString).lenstring = [] := rfl
  rw [mqttSerializePublish_packet buf 1 0 frame 256 0 0 (.inr hone)] at hserialize
  split_ifs at hserialize
  · cases hserialize
    exact absurd hlen (by decide : ¬0 < MQTTPACKET_BUFFER_TOO_SHORT)
  · rw [Transmit.put] at hserialize
    cases hstore : store buf 0 (packet (headerByte PUBLISH 0 1 0)
      (publishBody 1 0 (ConfigPath.cString topicBuff.bytes) frame)) with
    | error e =>
      have htopic : topicBytes { MqttString.initializer with cstring := some topicBuff.bytes } =
        ConfigPath.cString topicBuff.bytes := rfl
      rw [htopic, hstore] at hserialize
      cases hserialize
    | ok buf₁ =>
      have htopic : topicBytes { MqttString.initializer with cstring := some topicBuff.bytes } =
        ConfigPath.cString topicBuff.bytes := rfl
      rw [htopic, hstore] at hserialize
      cases hserialize
      rw [Buffer.write_zero (store_eq_ok_iff.mp hstore), zero_add, Int.toNat_natCast, List.take_left]

variable {fd : ℤ} {l : SocketLayer}

/-- The receiver unmarshalls a frame that ends its packet and begins where the payload does. -/
lemma receiver_of_suffix {header : UInt8} {front frame : List UInt8} (buf : Buffer 256) (hfd : fd ≠ 0)
    (hwhole : wholePacket l.answers = some (packet header (front ++ frame)))
    (htype : header.toNat >>> 4 = PUBLISH) (hfits : TopicFits (front ++ frame))
    (hstart : payloadStart header (front ++ frame) = bodyStart (front ++ frame) + front.length)
    (hfirst : frame.head? = some RECORD_START) (hlast : frame.getLast? = some RECORD_END) :
    ∃ behind buf' l', frame.length + behind.length ≤ 256 ∧
      mqttReceiverHandler fd buf l = .ok (.unmarshalls (frame.drop 1 ++ behind), buf', l') := by
  obtain ⟨buf', l', -, heq⟩ := mqttReceiverHandler_packet fd buf hwhole
  have hroom := (exists_packet hwhole).2
  have hsize := length_memoryOf buf hroom
  have hmax : MAX_MQTT_PKT_SIZE = 256 := rfl
  have hne : frame ≠ [] := by
    rintro rfl
    cases hfirst
  have hpos := List.length_pos_iff.mpr hne
  -- the memory from the payload on
  have hmemory : (memoryOf buf (packet header (front ++ frame))).drop (payloadStart header (front ++ frame)) =
      frame ++ buf.bytes.drop (packet header (front ++ frame)).length := by
    have hfront : (header :: Base128.encode (front ++ frame).length ++ front).length =
        payloadStart header (front ++ frame) := by
      rw [hstart, bodyStart, List.length_append, List.length_cons]
      omega
    rw [memoryOf, ← hfront, packet, ← List.append_assoc _ front frame, List.append_assoc _ frame,
      List.drop_left]
  have hget : (memoryOf buf (packet header (front ++ frame))).getD (payloadStart header (front ++ frame)) 0 =
      RECORD_START := by
    rw [List.getD_eq_getElem?_getD, ← List.head?_drop, hmemory, List.head?_append_of_ne_nil _ hne, hfirst]
    rfl
  have hend : (memoryOf buf (packet header (front ++ frame))).getD
      (bodyStart (front ++ frame) + (front ++ frame).length - 1) 0 = RECORD_END := by
    rw [memoryOf, getD_last (List.append_ne_nil_of_right_ne_nil _ hne), List.getLast_append_of_ne_nil _ hne]
    rw [List.getLast?_eq_some_getLast hne] at hlast
    exact Option.some.inj hlast
  have hbehind : (memoryOf buf (packet header (front ++ frame))).drop (payloadStart header (front ++ frame) + 1) =
      frame.drop 1 ++ buf.bytes.drop (packet header (front ++ frame)).length := by
    rw [← List.drop_drop, hmemory, List.drop_append_of_le_length (by omega)]
  have hlength := congrArg List.length hmemory
  rw [List.length_drop, hsize, List.length_append] at hlength
  refine ⟨buf.bytes.drop (packet header (front ++ frame)).length, buf', l', by omega, ?_⟩
  have hframed : Framed header (front ++ frame) (memoryOf buf (packet header (front ++ frame))) := ⟨hget, hend⟩
  rw [heq, received, if_neg (not_not.mpr ⟨hfd, htype⟩), if_neg (not_not.mpr hfits),
    if_neg fun h => h.elim (by omega) fun htraced => htraced.1 hframed, if_pos hframed, hbehind]
  rfl

variable (fd) in
lemma receiver_of_frame {dup qos retained packetid : ℕ} {topic frame : List UInt8} (buf : Buffer 256)
    (hfd : fd ≠ 0)
    (hdup : dup < 2) (hqos : qos < 4) (hretained : retained < 2) (htopic : topic.length < 2 ^ 16)
    (hfirst : frame.head? = some RECORD_START) (hlast : frame.getLast? = some RECORD_END)
    (hwhole : wholePacket l.answers =
      some (packet (headerByte PUBLISH dup qos retained) (publishBody qos packetid topic frame))) :
    ∃ behind buf' l', frame.length + behind.length ≤ 256 ∧
      mqttReceiverHandler fd buf l = .ok (.unmarshalls (frame.drop 1 ++ behind), buf', l') := by
  have hend := @payloadStart_publishBody qos packetid frame dup retained topic hdup hqos hretained htopic
  have hfits : TopicFits (publishBody qos packetid topic frame) := topicFits_publishBody htopic
  refine receiver_of_suffix buf hfd hwhole (headerByte_type hdup hqos hretained) hfits ?_ hfirst hlast
  change payloadStart _ (publishBody qos packetid topic frame) = bodyStart (publishBody qos packetid topic frame) + _
  have hlen : (publishBody qos packetid topic frame).length = _ + frame.length := List.length_append
  omega

/-- A message that a board has published reaches the input handler of every board that a broker
sends its topic and payload to, if each call of `sl_Recv` returns what it was asked for. -/
theorem published_message_received {alloc alloc' : Nat → Bool} (henough : Enough alloc')
    (hm : Protobuf.Terminated m) (hsmall : (messageBytes (toMessage m)).length < 2 ^ 32)
    (hkind : kindOf type.type = m.kind) (htype : type.type ≠ 0) {sent : Sent} {protobuf' : Buffer 256}
    (hsend : Transmit.mqttTransmitterHandler (protobufc alloc) topicBuff type (some m) protobuf buf =
      .ok (sent, protobuf')) (hlen : 0 < sent.len) :
    ∃ frame, sent.buf.bytes.take sent.len.toNat =
        packet (headerByte PUBLISH 0 1 0) (publishBody 1 0 (ConfigPath.cString topicBuff.bytes) frame) ∧
      ∀ dup < 2, ∀ qos < 4, ∀ retained < 2, ∀ packetid fd (buf₁ : Buffer 256) l, fd ≠ 0 →
        wholePacket l.answers = some (packet (headerByte PUBLISH dup qos retained)
          (publishBody qos packetid (ConfigPath.cString topicBuff.bytes) frame)) →
        ∃ data buf₂ l', mqttReceiverHandler fd buf₁ l = .ok (.unmarshalls data, buf₂, l') ∧
          handlerCall (protobufc alloc') data = .ok (some (⟨type.type, 0, type.flags⟩, m)) := by
  obtain ⟨frame, hmarshall, hsent⟩ := sent_packet hsend hlen
  refine ⟨frame, hsent, ?_⟩
  intro dup hdup qos hqos retained hretained packetid fd buf₁ l hfd hwhole
  have hmarshall' : naisMarshall (protobufc alloc') type (some m) protobuf = .ok (frame, protobuf') := hmarshall
  obtain ⟨hfit, hframe⟩ := (naisMarshall_ok_iff (protobufc alloc') type m protobuf frame).mp ⟨_, hmarshall'⟩
  have hfirst : frame.head? = some RECORD_START := by
    rw [hframe]
    rfl
  have hlast : frame.getLast? = some RECORD_END := by
    rw [hframe, List.getLast?_concat]
  have htopic : (ConfigPath.cString topicBuff.bytes).length < 2 ^ 16 := by
    have hle := (List.takeWhile_sublist (fun b => decide (b ≠ 0)) (l := topicBuff.bytes)).length_le
    have hsize := topicBuff.size
    unfold ConfigPath.cString
    omega
  obtain ⟨behind, buf₂, l', hbehind, hreceived⟩ :=
    receiver_of_frame fd buf₁ hfd hdup hqos hretained htopic hfirst hlast hwhole
  obtain ⟨r, hread, hobj, hptype⟩ := naisUnmarshall_marshalled henough hm hsmall type hkind htype protobuf
    hmarshall' (by omega : frame.length + behind.length < 2 ^ 16)
  refine ⟨_, buf₂, l', hreceived, ?_⟩
  rw [handlerCall, hread]
  simp only [Bind.bind, Except.bind, hobj, Option.map_some, hptype]

/-- The topic `a`. -/
def sampleTopicBuff : Buffer 64 := ⟨0x61 :: List.replicate 63 0, rfl⟩

theorem published_command_received : ∃ sent protobuf',
    Transmit.mqttTransmitterHandler (protobufc fun _ => true) sampleTopicBuff ⟨COMMAND_TYPE, 0, 0⟩
      (some (.command ⟨5, none, [], []⟩)) (Buffer.fill 256 0) (Buffer.fill 256 0) = .ok (sent, protobuf') ∧
    ∃ frame, sent.buf.bytes.take sent.len.toNat =
        packet (headerByte PUBLISH 0 1 0) (publishBody 1 0 (ConfigPath.cString sampleTopicBuff.bytes) frame) ∧
      ∀ dup < 2, ∀ qos < 4, ∀ retained < 2, ∀ packetid fd (buf₁ : Buffer 256) l, fd ≠ 0 →
        wholePacket l.answers = some (packet (headerByte PUBLISH dup qos retained)
          (publishBody qos packetid (ConfigPath.cString sampleTopicBuff.bytes) frame)) →
        ∃ data buf₂ l', mqttReceiverHandler fd buf₁ l = .ok (.unmarshalls data, buf₂, l') ∧
          handlerCall (protobufc fun _ => true) data =
            .ok (some (⟨COMMAND_TYPE, 0, 0⟩, .command ⟨5, none, [], []⟩)) := by
  have hterm : Protobuf.Terminated (.command ⟨5, none, [], []⟩) := fun s hs => absurd hs List.not_mem_nil
  obtain ⟨sent, protobuf', hsend, hcase⟩ := Transmit.mqttTransmitterHandler_cases (protobufc fun _ => true)
    sampleTopicBuff ⟨COMMAND_TYPE, 0, 0⟩ (.command ⟨5, none, [], []⟩) (Buffer.fill 256 0)
    (Buffer.fill 256 0) (by decide +kernel)
  rw [if_pos (by decide +kernel)] at hcase
  have hlen : 0 < sent.len := by
    rw [hcase.1]
    decide +kernel
  exact ⟨sent, protobuf', hsend, published_message_received (fun _ => rfl) hterm (by decide +kernel)
    (by decide) (by decide) hsend hlen⟩

end Nais.Board.MqttReceiver
