import Nais.Lib.Base128
import Nais.Lib.Ledger

/-!
# Receiving MQTT packets

`sys/bocia/bocia_mqtt.c` up to `mqtt_connect`, on the packet reader of `sys/paho`. What
`sl_Recv` answers is up to the socket layer, also for a descriptor that is closed.
-/

namespace Nais.Board.Mqtt

open Nais.Lib Nais.Lib.Base128

/-- The descriptors of the socket layer. -/
abbrev Sockets := Ledger ℤ

/-- What `sl_Recv` answers. An empty list is the end of the stream. -/
inductive Recv where
  | data (bytes : List UInt8)
  | error
  deriving DecidableEq, Repr

/-- It does not return more bytes than asked for. `none` is a negative result. -/
def Recv.take : Recv → ℕ → Option (List UInt8)
  | .data bytes, count => some (bytes.take count)
  | .error, _ => none

def Recv.char (r : Recv) : Option UInt8 := (r.take 1).bind List.head?

/-- The sockets, and the answers to the calls of `sl_Recv` to come. Behind the last one there
are only errors. -/
structure SocketLayer where
  sockets : Sockets
  answers : List Recv

def slRecv (l : SocketLayer) (count : ℕ) : Option (List UInt8) × SocketLayer :=
  ((l.answers.headD .error).take count, { l with answers := l.answers.tail })

def sockReceive (fd : ℤ) (l : SocketLayer) (count : ℕ) : Option (List UInt8) × SocketLayer :=
  let (rc, l) := slRecv l count
  if rc = some [] then (rc, { l with sockets := l.sockets.release fd }) else (rc, l)

/-- `sock_receive` as the `getcharfn` of `MQTTPacket_decode`. -/
def sockChar (fd : ℤ) (l : SocketLayer) : Option UInt8 × SocketLayer :=
  ((sockReceive fd l 1).1.bind List.head?, (sockReceive fd l 1).2)

section Decode

variable {σ : Type} (getcharfn : σ → Option UInt8 × σ)

/-- The number of bytes tried and the value, with so many tries and the multiplier left. -/
def mqttPacketDecode : ℕ → ℕ → σ → ℕ × ℕ × σ
  | 0, _, s => (1, 0, s)
  | tries + 1, multiplier, s =>
    match getcharfn s with
    | (none, s) => (1, 0, s)
    | (some c, s) =>
      if c.toNat &&& 128 ≠ 0 then
        let (len, value, s) := mqttPacketDecode tries (multiplier * 128) s
        (len + 1, (c.toNat &&& 127) * multiplier + value, s)
      else (1, (c.toNat &&& 127) * multiplier, s)

end Decode

def MAX_NO_OF_REMAINING_LENGTH_BYTES : ℕ := 4

def MAX_MQTT_PKT_SIZE : ℕ := 256

/-- What is in the buffer, `none` for a result of -1. -/
def mqttPacketRead (fd : ℤ) (buflen : ℕ) (l : SocketLayer) : Option (List UInt8) × SocketLayer :=
  let (rc, l) := sockReceive fd l 1
  match rc.bind List.head? with
  | none => (none, l)
  | some header =>
    let (_, remLen, l) := mqttPacketDecode (sockChar fd) MAX_NO_OF_REMAINING_LENGTH_BYTES 1 l
    let start := header :: encode remLen
    if buflen < remLen + start.length then (none, l)
    else
      let (rc, l) := sockReceive fd l remLen
      (rc.bind fun body => if body.length = remLen then some (start ++ body) else none, l)

def CONNACK : ℕ := 2

/-- `header.bits.type`. -/
def packetType (packet : List UInt8) : ℕ := (packet.getD 0 0).toNat >>> 4

def bufchar (buf : List UInt8) : Option UInt8 × List UInt8 := (some (buf.getD 0 0), buf.tail)

/-- The result, and `connack_rc` where it is set. -/
def mqttDeserializeConnack (buf : List UInt8) : ℕ × Option UInt8 :=
  if packetType buf ≠ CONNACK then (0, none)
  else
    let (rc, mylen, curdata) :=
      mqttPacketDecode bufchar MAX_NO_OF_REMAINING_LENGTH_BYTES 1 buf.tail
    if mylen < 2 then (rc, none) else (1, some (curdata.getD 1 0))

/-- `connack_rc` is not initialised: `stale` is what it holds. -/
def connackRefused (buf : List UInt8) (stale : UInt8) : Bool :=
  let (rc, connackRc) := mqttDeserializeConnack buf
  decide (rc ≠ 1 ∨ connackRc.getD stale ≠ 0)

/-- The results of `sl_Socket` and `sl_Connect` are `sock` and `sts`. -/
def mqttConnect (sockets : Sockets) (sock sts : ℤ) (answers : List Recv) (stale : UInt8) :
    ℤ × Sockets :=
  if sock < 0 then (sock, sockets)
  else
    let sockets := sockets.handOut sock
    if sts < 0 then (0, sockets.release sock)
    else
      let (packet, l) := mqttPacketRead sock MAX_MQTT_PKT_SIZE ⟨sockets, answers⟩
      match packet with
      | none => (0, l.sockets.release sock)
      | some buf =>
        if packetType buf = CONNACK ∧ connackRefused buf stale then (0, l.sockets.release sock)
        else (sock, l.sockets)

/-- The packet, and the new value of `*fdp`. -/
def mqttReceive (fd : ℤ) (l : SocketLayer) : Option (List UInt8) × ℤ × SocketLayer :=
  let (packet, l) := mqttPacketRead fd MAX_MQTT_PKT_SIZE l
  (packet, if packet = none then 0 else fd, l)

/-! ## What the answers amount to -/

/-- The bytes of a packet with a header byte and a body. -/
def packet (header : UInt8) (body : List UInt8) : List UInt8 :=
  header :: encode body.length ++ body

/-- The answers to the reads of LEN. -/
def lenAnswers : ℕ → List Recv → List Recv
  | 0, _ => []
  | _, [] => []
  | tries + 1, r :: rest =>
    match r.char with
    | none => [r]
    | some c => if 128 ≤ c.toNat then r :: lenAnswers tries rest else [r]

def lenOf (answers : List Recv) : List Recv :=
  lenAnswers MAX_NO_OF_REMAINING_LENGTH_BYTES answers.tail

/-- The value of the LEN bytes that came. -/
def remLen (answers : List Recv) : ℕ := number ((lenOf answers).filterMap Recv.char)

/-- The answer to the read of the body. -/
def bodyAnswer (answers : List Recv) : Option (List UInt8) :=
  ((answers.tail.drop (lenOf answers).length).headD .error).take (remLen answers)

def Fits (answers : List Recv) : Prop :=
  remLen answers + (encode (remLen answers)).length + 1 ≤ MAX_MQTT_PKT_SIZE

instance (answers : List Recv) : Decidable (Fits answers) := inferInstanceAs (Decidable (_ ≤ _))

/-- The packet, where the answers are those to the reads of a whole packet that fits. -/
def wholePacket (answers : List Recv) : Option (List UInt8) :=
  (answers.headD .error).char.bind fun header =>
    if Fits answers then
      (bodyAnswer answers).bind fun body =>
        if body.length = remLen answers then some (header :: encode (remLen answers) ++ body)
        else none
    else none

/-- How many of the reads of a packet find the end of the stream. The read of an empty body
is one of them. -/
def packetEnds (answers : List Recv) : ℕ :=
  match (answers.headD .error).char with
  | none => if (answers.headD .error).take 1 = some [] then 1 else 0
  | some _ =>
    (lenOf answers).countP (fun r => r.take 1 = some []) +
      if Fits answers ∧ bodyAnswer answers = some [] then 1 else 0

/-- The answers leave `mqtt_connect` with a connection: a packet, and if it is a CONNACK one
that accepts. -/
def Accepted (answers : List Recv) (stale : UInt8) : Prop :=
  ∃ buf, wholePacket answers = some buf ∧ ¬(packetType buf = CONNACK ∧ connackRefused buf stale)

instance (answers : List Recv) (stale : UInt8) : Decidable (Accepted answers stale) :=
  match h : wholePacket answers with
  | none => isFalse fun hacc => by
      obtain ⟨buf, heq, -⟩ := hacc
      rw [h] at heq
      exact nomatch heq
  | some buf =>
    decidable_of_iff (¬(packetType buf = CONNACK ∧ connackRefused buf stale)) (by simp [Accepted, h])

section Reads

lemma Recv.take_one_ne_nil {r : Recv} {c : UInt8} (h : r.char = some c) : r.take 1 ≠ some [] := by
  intro hnil
  rw [Recv.char, hnil] at h
  simp at h

lemma sockReceive_eq (fd : ℤ) (l : SocketLayer) (count : ℕ) :
    sockReceive fd l count = ((l.answers.headD .error).take count,
      ⟨l.sockets.releases fd (if (l.answers.headD .error).take count = some [] then 1 else 0),
        l.answers.tail⟩) := by
  rw [sockReceive, slRecv]
  dsimp only
  split_ifs
  · rfl
  · rfl

lemma sockChar_nil (fd : ℤ) (sockets : Sockets) :
    sockChar fd ⟨sockets, []⟩ = (none, ⟨sockets, []⟩) := by
  rw [sockChar, sockReceive_eq]
  rfl

lemma sockChar_cons (fd : ℤ) (sockets : Sockets) (r : Recv) (rest : List Recv) :
    sockChar fd ⟨sockets, r :: rest⟩ =
      (r.char, ⟨sockets.releases fd (if r.take 1 = some [] then 1 else 0), rest⟩) := by
  rw [sockChar, sockReceive_eq]
  rfl

/-- Reading LEN takes the answers up to one that ends it, and closes at each end of the stream. -/
lemma mqttPacketDecode_sock (fd : ℤ) (tries multiplier : ℕ) (l : SocketLayer) :
    (mqttPacketDecode (sockChar fd) tries multiplier l).2 =
      (multiplier * number ((lenAnswers tries l.answers).filterMap Recv.char),
        ⟨l.sockets.releases fd ((lenAnswers tries l.answers).countP fun r => r.take 1 = some []),
          l.answers.drop (lenAnswers tries l.answers).length⟩) := by
  induction tries generalizing multiplier l with
  | zero =>
    rw [mqttPacketDecode, lenAnswers]
    simp [number, Ledger.releases]
  | succ tries ih =>
    obtain ⟨sockets, answers⟩ := l
    cases answers with
    | nil =>
      rw [mqttPacketDecode, sockChar_nil]
      simp [lenAnswers, number, Ledger.releases]
    | cons r rest =>
      rw [mqttPacketDecode, sockChar_cons, lenAnswers]
      cases hchar : r.char with
      | none => simp [hchar, number, List.countP_cons]
      | some c =>
        have hends := Recv.take_one_ne_nil hchar
        have hbit := and_128_ne_zero_iff c
        have hnext := ih (multiplier * 128) ⟨sockets, rest⟩
        rw [if_neg hends, Ledger.releases]
        by_cases hc : 128 ≤ c.toNat
        · dsimp only at hnext ⊢
          rw [if_pos (hbit.mpr hc), if_pos hc]
          generalize mqttPacketDecode (sockChar fd) tries (multiplier * 128)
            ⟨sockets, rest⟩ = read at hnext
          obtain ⟨tried, value, behind⟩ := read
          obtain ⟨rfl, rfl⟩ := Prod.mk.inj hnext
          dsimp only
          rw [and_127, List.filterMap_cons_some hchar,
            List.countP_cons_of_neg (by simpa using hends), number, List.length_cons,
            List.drop_succ_cons]
          congr 1
          ring
        · dsimp only
          rw [if_neg (mt hbit.mp hc), if_neg hc, and_127]
          simp [hchar, number, hends, Ledger.releases, mul_comm]

/-- `MQTTPacket_read` returns the packet that the answers amount to, and closes the socket as
often as they end the stream. -/
lemma mqttPacketRead_eq (fd : ℤ) (l : SocketLayer) :
    (mqttPacketRead fd MAX_MQTT_PKT_SIZE l).1 = wholePacket l.answers ∧
      (mqttPacketRead fd MAX_MQTT_PKT_SIZE l).2.sockets =
        l.sockets.releases fd (packetEnds l.answers) := by
  have hlen := mqttPacketDecode_sock fd MAX_NO_OF_REMAINING_LENGTH_BYTES 1
    ⟨l.sockets, l.answers.tail⟩
  rw [one_mul, ← lenOf, ← remLen] at hlen
  rw [mqttPacketRead, wholePacket, packetEnds, sockReceive_eq]
  dsimp only
  rw [← Recv.char]
  cases hchar : (l.answers.headD .error).char with
  | none => exact ⟨rfl, rfl⟩
  | some header =>
    have hends := Recv.take_one_ne_nil hchar
    rw [if_neg hends, Ledger.releases, Option.bind_some]
    dsimp only
    generalize mqttPacketDecode (sockChar fd) MAX_NO_OF_REMAINING_LENGTH_BYTES 1
      ⟨l.sockets, l.answers.tail⟩ = read at hlen
    obtain ⟨tried, value, behind⟩ := read
    obtain ⟨rfl, rfl⟩ := Prod.mk.inj hlen
    dsimp only
    rw [sockReceive_eq]
    have hfits : ¬MAX_MQTT_PKT_SIZE < remLen l.answers + (header :: encode (remLen l.answers)).length ↔
        Fits l.answers := by
      rw [Fits, List.length_cons, not_lt]
      rfl
    by_cases h : Fits l.answers
    · rw [if_neg (hfits.mpr h), if_pos h]
      refine ⟨rfl, ?_⟩
      rw [Ledger.releases_add]
      simp only [h, true_and]
      rfl
    · rw [if_pos (not_not.mp (mt hfits.mp h)), if_neg h, if_neg (fun hboth => h hboth.1)]
      exact ⟨rfl, rfl⟩

/-- The socket that `mqtt_connect` returns, and how often it has closed the new one. -/
lemma mqttConnect_eq (sockets : Sockets) {sock sts : ℤ} (answers : List Recv) (stale : UInt8)
    (hsock : 0 ≤ sock) : mqttConnect sockets sock sts answers stale =
      if sts < 0 then (0, (sockets.handOut sock).releases sock 1)
      else if Accepted answers stale then
        (sock, (sockets.handOut sock).releases sock (packetEnds answers))
      else (0, (sockets.handOut sock).releases sock (packetEnds answers + 1)) := by
  obtain ⟨hpacket, hsockets⟩ := mqttPacketRead_eq sock ⟨sockets.handOut sock, answers⟩
  rw [mqttConnect, if_neg (not_lt.mpr hsock)]
  dsimp only
  generalize mqttPacketRead sock MAX_MQTT_PKT_SIZE ⟨sockets.handOut sock, answers⟩ = read
    at hpacket hsockets
  obtain ⟨packet, l⟩ := read
  dsimp only at hpacket hsockets ⊢
  rw [hsockets]
  split_ifs with hsts hacc
  · rfl
  · obtain ⟨buf, hbuf, hok⟩ := hacc
    rw [hpacket, hbuf]
    dsimp only
    rw [if_neg hok]
  · cases packet with
    | none => rfl
    | some buf =>
      have hrefused : packetType buf = CONNACK ∧ connackRefused buf stale := by
        by_contra hok
        exact hacc ⟨buf, hpacket.symm, hok⟩
      dsimp only
      rw [if_pos hrefused]
      rfl

lemma mqttReceive_eq (fd : ℤ) (l : SocketLayer) :
    (mqttReceive fd l).2.1 = (if (wholePacket l.answers).isSome then fd else 0) ∧
      (mqttReceive fd l).2.2.sockets = l.sockets.releases fd (packetEnds l.answers) := by
  obtain ⟨hpacket, hsockets⟩ := mqttPacketRead_eq fd l
  refine ⟨?_, hsockets⟩
  rw [mqttReceive]
  dsimp only
  rw [hpacket]
  cases wholePacket l.answers with
  | none => rfl
  | some buf => rfl

end Reads

section Connack

lemma mqttPacketDecode_small (tries multiplier : ℕ) {n : ℕ} (hn : n < 128) (rest : List UInt8) :
    mqttPacketDecode bufchar (tries + 1) multiplier (encode n ++ rest) =
      ((encode n).length, n * multiplier, rest) := by
  have hbit := mt (and_128_ne_zero_iff (UInt8.ofNat n)).mp (by rw [toNat_last_digit hn]; omega)
  rw [encode_small hn, mqttPacketDecode]
  simp only [bufchar, List.singleton_append, List.getD_cons_zero, List.tail_cons]
  rw [if_neg hbit, and_127, toNat_last_digit hn, Nat.mod_eq_of_lt hn]
  rfl

lemma mqttPacketDecode_encode (tries multiplier : ℕ) {n : ℕ} (hn : n < 128 ^ (tries + 1))
    (rest : List UInt8) : mqttPacketDecode bufchar (tries + 1) multiplier (encode n ++ rest) =
      ((encode n).length, n * multiplier, rest) := by
  induction tries generalizing multiplier n with
  | zero => exact mqttPacketDecode_small 0 multiplier (by simpa using hn) rest
  | succ tries ih =>
    by_cases hsmall : n < 128
    · exact mqttPacketDecode_small (tries + 1) multiplier hsmall rest
    · have hbit := (and_128_ne_zero_iff (UInt8.ofNat (128 + n % 128))).mpr
        (by rw [toNat_digit]; omega)
      have hdiv : n / 128 < 128 ^ (tries + 1) := by
        rw [Nat.div_lt_iff_lt_mul (by decide), ← pow_succ]
        exact hn
      have hmod : (128 + n % 128) % 128 = n % 128 := by omega
      have hvalue : n % 128 * multiplier + n / 128 * (multiplier * 128) = n * multiplier := by
        calc n % 128 * multiplier + n / 128 * (multiplier * 128)
            = (n / 128 * 128 + n % 128) * multiplier := by ring
          _ = n * multiplier := by rw [Nat.div_add_mod']
      rw [encode_large (not_lt.mp hsmall), mqttPacketDecode]
      simp only [bufchar, List.cons_append, List.getD_cons_zero, List.tail_cons]
      rw [if_pos hbit, ih (multiplier * 128) hdiv, and_127, toNat_digit, List.length_cons]
      dsimp only
      rw [hmod, hvalue]

variable {header : UInt8} {body : List UInt8} {answers : List Recv}

lemma packetType_packet : packetType (packet header body) = header.toNat >>> 4 := rfl

lemma mqttDeserializeConnack_packet (htype : header.toNat >>> 4 = CONNACK)
    (hlen : body.length < 128 ^ 4) : mqttDeserializeConnack (packet header body) =
      if body.length < 2 then (1, none) else (1, some (body.getD 1 0)) := by
  have hdecode : mqttPacketDecode bufchar MAX_NO_OF_REMAINING_LENGTH_BYTES 1
      (packet header body).tail = ((encode body.length).length, body.length, body) := by
    have h := mqttPacketDecode_encode 3 1 hlen body
    rw [mul_one] at h
    exact h
  rw [mqttDeserializeConnack, packetType_packet, if_neg (not_not.mpr htype)]
  dsimp only
  rw [hdecode]
  dsimp only
  split_ifs with hshort
  · rw [(encode_length_one_iff body.length).mpr (by omega)]
  · rfl

/-- A whole packet has a header and a body, and the packet buffer has room for it. -/
lemma exists_packet {buf : List UInt8} (h : wholePacket answers = some buf) :
    (∃ header body, buf = packet header body) ∧ buf.length ≤ MAX_MQTT_PKT_SIZE := by
  rw [wholePacket] at h
  obtain ⟨header, -, h⟩ := Option.bind_eq_some_iff.mp h
  split_ifs at h with hfits
  obtain ⟨body, -, h⟩ := Option.bind_eq_some_iff.mp h
  split_ifs at h with hlen
  obtain rfl := Option.some.inj h
  refine ⟨⟨header, body, by rw [packet, hlen]⟩, ?_⟩
  rw [List.length_append, List.length_cons, hlen]
  rw [Fits] at hfits
  omega

lemma length_body_lt (h : wholePacket answers = some (packet header body)) :
    body.length < 128 ^ 4 := by
  have hroom : (packet header body).length ≤ 256 := (exists_packet h).2
  rw [packet, List.length_append] at hroom
  norm_num
  omega

/-- A CONNACK with a return code refuses unless the code is 0, and a shorter one if what was in
`connack_rc` before is not. -/
lemma connackRefused_packet (h : wholePacket answers = some (packet header body))
    (htype : header.toNat >>> 4 = CONNACK) (stale : UInt8) :
    connackRefused (packet header body) stale =
      decide ((if body.length < 2 then stale else body.getD 1 0) ≠ 0) := by
  rw [connackRefused, mqttDeserializeConnack_packet htype (length_body_lt h)]
  split_ifs with hshort
  · simp
  · simp

end Connack

end Nais.Board.Mqtt
