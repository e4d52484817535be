import Nais.Board.Bocia
import Nais.Host.Packet
import Nais.Host.Unmarshall

/-!
# Host and board speak the same frames

What `marshall` of `pynais/nais.py` writes is read by `nais_unmarshall` of
`sys/bocia/nais.c`, and what `nais_marshall` writes is read by `unmarshall`.
-/

namespace Nais
open Nais.Lib

section HostToBoard

open Board Host

/-- 0-based position of the flags in a frame. -/
def FLAGS : Nat := 4

/-- The values of `len` and `multiplier` after each round of the loop of `nais_unmarshall`,
in unbounded integers. -/
def lenRounds : List UInt8 → Nat → Nat → List (Nat × Nat)
  | [], _, _ => []
  | c :: rest, len, multiplier =>
    let len := len + (c.toNat &&& 127) * multiplier
    (len, multiplier * 128) ::
      if c.toNat &&& 128 ≠ 0 then lenRounds rest len (multiplier * 128) else []

lemma lenRounds_last {n : Nat} (hn : n < 128) (rest : List UInt8) (len multiplier : Nat) :
    lenRounds (UInt8.ofNat n :: rest) len multiplier = [(len + n * multiplier, multiplier * 128)] := by
  have hlast : ¬(UInt8.ofNat n).toNat &&& 128 ≠ 0 := by
    rw [Base128.and_128_ne_zero_iff, Base128.toNat_last_digit hn]
    omega
  rw [lenRounds, if_neg hlast, Base128.and_127, Base128.toNat_last_digit hn, Nat.mod_eq_of_lt hn]

lemma lenRounds_digit (n : Nat) (rest : List UInt8) (len multiplier : Nat) :
    lenRounds (UInt8.ofNat (128 + n % 128) :: rest) len multiplier =
      (len + n % 128 * multiplier, multiplier * 128) ::
        lenRounds rest (len + n % 128 * multiplier) (multiplier * 128) := by
  have hmore : (UInt8.ofNat (128 + n % 128)).toNat &&& 128 ≠ 0 := by
    rw [Base128.and_128_ne_zero_iff, Base128.toNat_digit]
    omega
  have hdigit : (128 + n % 128) % 128 = n % 128 := by omega
  rw [lenRounds, if_pos hmore, Base128.and_127, Base128.toNat_digit, hdigit]

/-- No round goes beyond the value of the numeral, nor beyond a factor 128 for each digit. -/
lemma lenRounds_encode_le (n len multiplier : Nat) (behind : List UInt8) :
    ∀ r ∈ lenRounds (Base128.encode n ++ behind) len multiplier,
      r.1 ≤ len + n * multiplier ∧ r.2 ≤ multiplier * 128 ^ (Base128.encode n).length := by
  induction n using Nat.strong_induction_on generalizing len multiplier with
  | _ n ih =>
    intro r hr
    by_cases hn : n < 128
    · rw [Base128.encode_small hn, List.singleton_append, lenRounds_last hn, List.mem_singleton] at hr
      subst hr
      simp [Base128.encode_small hn]
    · have hbig : 128 ≤ n := by omega
      have hsplit : n % 128 * multiplier + n / 128 * (multiplier * 128) = n * multiplier := by
        calc n % 128 * multiplier + n / 128 * (multiplier * 128)
            = (n % 128 + 128 * (n / 128)) * multiplier := by ring
          _ = n * multiplier := by rw [Nat.mod_add_div]
      rw [Base128.encode_large hbig, List.cons_append, lenRounds_digit, List.mem_cons] at hr
      rw [Base128.encode_large hbig, List.length_cons, pow_succ]
      obtain rfl | hr := hr
      · have hpos : 0 < 128 ^ (Base128.encode (n / 128)).length := Nat.pow_pos (by omega)
        constructor
        · dsimp only
          omega
        · apply Nat.mul_le_mul_left
          omega
      · obtain ⟨hlen, hmult⟩ := ih (n / 128) (by omega) _ _ r hr
        constructor
        · omega
        · calc r.2 ≤ multiplier * 128 * 128 ^ (Base128.encode (n / 128)).length := hmult
            _ = multiplier * (128 ^ (Base128.encode (n / 128)).length * 128) := by ring

variable {C P O : Type}

/-- The bytes behind the start byte, as the board finds them in its memory. -/
lemma marshalled_frameMemory (type sline dline flags : UInt8) {payload : List UInt8}
    (behind : List UInt8) (hne : payload ≠ []) :
    (((frameBytes type 0 dline 0 (lenBytes payload.length) payload).set SLINE sline).set
        FLAGS flags).drop 1 ++ behind =
      frameMemory type sline dline flags payload (SYNC_END :: behind) := by
  have hlen : payload.length ≠ 0 := by simpa using hne
  rw [lenBytes_eq_encode _ hlen]
  simp [frameBytes, frameMemory, SLINE, FLAGS]

/-- The board unmarshals a whole frame, whatever the size of the memory behind it. The
16 bit index of its trace does not wrap: `len + 1` is at most 65535. -/
lemma naisUnmarshall_frame (pb : Protobufc) (type sline dline flags : UInt8) {payload : List UInt8}
    (behind : List UInt8) (htype : type ≠ 0) (hsize : payload.length ≤ 65534) :
    naisUnmarshall pb (frameMemory type sline dline flags payload (SYNC_END :: behind)) =
      .ok ⟨⟨type, sline, flags⟩, 4 + (Base128.encode payload.length).length, payload.length,
        pb.unpack (kindOf type) payload⟩ := by
  have hlen : payload.length < 2 ^ 32 := by omega
  have htotal : (frameMemory type sline dline flags payload (SYNC_END :: behind)).length =
      4 + (Base128.encode payload.length).length + payload.length + (behind.length + 1) := by
    rw [frameMemory, List.length_append, List.length_append, List.length_append]
    change 4 + (_ + (_ + (behind.length + 1))) = _
    omega
  have hnum : Base128.number
      (lenField (frameMemory type sline dline flags payload (SYNC_END :: behind))) = payload.length := by
    rw [lenField, continuations_frameMemory, drop_four_frameMemory, List.take_left' rfl,
      Base128.number_encode]
  have htypeByte : typeByte (frameMemory type sline dline flags payload (SYNC_END :: behind)) = type :=
    rfl
  rw [naisUnmarshall_of_lenComplete pb (lenComplete_frameMemory ..), hnum, htypeByte,
    payloadStart_frameMemory, declaredLen_frameMemory _ _ _ _ _ _ hlen, htotal,
    toInt_ofNat_small (by omega), if_pos (by omega), if_neg htype, if_pos (by omega), unmarshalled,
    payloadStart_frameMemory, declaredLen_frameMemory _ _ _ _ _ _ hlen,
    declaredPayload_frameMemory _ _ _ _ _ _ hlen]
  rfl

/-- A frame of the host, stamped with any SLINE and FLAGS, is read by the board as the
message that the host packed. -/
theorem board_reads_host_frame (pb : Protobufc) (lib : ProtoLib C P O) (reg : Registry C P) (obj : O)
    {oid : Int} {protobufClass : P} {payload packet : List UInt8} (sline flags : UInt8)
    (behind : List UInt8) (hreg : reg.protoFromClass (lib.typeOf obj) = some (oid, protobufClass))
    (hser : lib.serialize protobufClass obj = .ok payload) (hpacket : marshall lib reg obj = .ok packet)
    (hoid : 1 ≤ oid) (hne : payload ≠ []) (hsize : payload.length ≤ 65534) :
    let data := ((packet.set SLINE sline).set FLAGS flags).drop 1 ++ behind
    (∃ payloadAt, naisUnmarshall pb data =
        .ok ⟨⟨UInt8.ofNat oid.toNat, sline, flags⟩, payloadAt, payload.length,
          pb.unpack (kindOf (UInt8.ofNat oid.toNat)) payload⟩ ∧
      (data.drop payloadAt).take payload.length = payload) ∧
    ∀ r ∈ lenRounds (data.drop 4) 0 1, r.1 < 2 ^ 31 ∧ r.2 < 2 ^ 31 := by
  intro data
  obtain ⟨oid', protobufClass', payload', hreg', hbyte, -, hser', rfl⟩ := (marshall_ok_iff ..).mp hpacket
  rw [hreg] at hreg'
  cases hreg'
  rw [hser] at hser'
  cases hser'
  have hdata : data = frameMemory (UInt8.ofNat oid.toNat) sline
      (UInt8.ofNat ((lib.dline obj).getD 0).toNat) flags payload (SYNC_END :: behind) :=
    marshalled_frameMemory _ _ _ _ behind hne
  have htype : UInt8.ofNat oid.toNat ≠ 0 := by
    intro h
    have hzero := congrArg UInt8.toNat h
    rw [UInt8.toNat_ofNat'] at hzero
    change _ = 0 at hzero
    omega
  rw [hdata]
  constructor
  · refine ⟨_, naisUnmarshall_frame pb _ _ _ _ behind htype hsize, ?_⟩
    rw [← List.drop_drop, drop_four_frameMemory, List.drop_left' rfl, List.take_left' rfl]
  · intro r hr
    rw [drop_four_frameMemory] at hr
    obtain ⟨hlen, hmult⟩ := lenRounds_encode_le payload.length 0 1 _ r hr
    have hdigits := Base128.encode_length_le 2 payload.length (by omega)
    have hpow : 128 ^ (Base128.encode payload.length).length ≤ 128 ^ 3 :=
      Nat.pow_le_pow_right (by omega) hdigits
    omega

theorem board_reads_host_command :
    (naisUnmarshall sampleProtobufc [5, 9, 0, 1, 2, 8, 5, 0x17]).map Unmarshalled.len = .ok 2 := by
  have hreg : sampleRegistry.protoFromClass (sampleLib.typeOf [8, 5]) = some (5, ()) := rfl
  have hser : sampleLib.serialize () [8, 5] = .ok [8, 5] := rfl
  obtain ⟨⟨payloadAt, h, -⟩, -⟩ := board_reads_host_frame sampleProtobufc sampleLib sampleRegistry
    [8, 5] 9 1 [] hreg hser sampleLib_marshall (by decide) (by decide) (by decide)
  exact congrArg (Except.map Unmarshalled.len) h

end HostToBoard

section BoardToHost

open Board Host

variable {C P M O : Type}

/-- The host's decoder finds class and payload of a frame of the board by the type byte. -/
theorem host_reads_board_frame (pb : Protobufc) (type : ProtoMsg) (m : Message)
    (protobuf : Lib.Memory.Buffer 256) (hfit : frameLength pb m ≤ 256)
    (models : ModelLib C P M O) (reg : Registry C P) :
    ∃ frame protobuf', naisMarshall pb type (some m) protobuf = .ok (frame, protobuf') ∧
      isProtobuf (.bytearray frame) = true ∧ isProtobuf (.bytes frame) = true ∧
      frame[Host.DLINE]? = some type.dline ∧ frame[SLINE]? = some 0 ∧
      frame.length = frameLength pb m ∧ frame.getLast? = some SYNC_END ∧
      unmarshall models reg frame =
        match reg.cidToClasses type.type.toNat with
        | none => .error .keyError
        | some (protobufClass, modelClass) =>
          (models.parse protobufClass (pb.pack m)).bind (models.build modelClass) := by
  obtain ⟨-, protobuf', hok⟩ | ⟨hbig, -⟩ := naisMarshall_ok_or_error pb type m protobuf
  · have hframe : headerBytes type (pb.pack m).length ++ pb.pack m ++ [RECORD_END] =
        frameBytes type.type 0 type.dline type.flags (Base128.encode (pb.pack m).length) (pb.pack m) := by
      simp [headerBytes, frameBytes, RECORD_START, SYNC_START, RECORD_END, SYNC_END]
    rw [hframe] at hok
    refine ⟨_, protobuf', hok, rfl, rfl, rfl, rfl, ?_, ?_, ?_⟩
    · rw [← hframe, List.length_append, List.length_append, headerBytes_length]
      rfl
    · rw [← hframe, List.getLast?_append]
      rfl
    · exact unmarshall_frameBytes models reg _ _ _ _ (Or.inl (Base128.encode_isNumeral _))
  · omega

theorem host_reads_board_ack :
    ∃ frame protobuf', naisMarshall sampleProtobufc ⟨ACK_TYPE, 7, 0⟩ (some (.ack ⟨5, none, none⟩))
      (Lib.Memory.Buffer.fill 256 0) = .ok (frame, protobuf') ∧ frame[Host.DLINE]? = some 7 := by
  obtain ⟨frame, protobuf', hok, -, -, hdline, -⟩ := host_reads_board_frame sampleProtobufc
    ⟨ACK_TYPE, 7, 0⟩ (.ack ⟨5, none, none⟩) (Lib.Memory.Buffer.fill 256 0) (by decide +kernel)
    sampleModels sampleRegistry
  exact ⟨frame, protobuf', hok, hdline⟩

end BoardToHost

section Headers

open Board Host Lib.Memory

variable {C P O : Type}

/-- A host frame without its payload and end byte. -/
lemma take_header (type sline dline flags : UInt8) (len payload : List UInt8) :
    let packet := frameBytes type sline dline flags len payload
    packet.take (packet.length - (payload.length + 1)) =
      [SYNC_START, type, sline, dline, flags] ++ len := by
  intro packet
  have hpacket : packet = ([SYNC_START, type, sline, dline, flags] ++ len) ++ (payload ++ [SYNC_END]) := by
    simp [packet, frameBytes]
  have hlen : packet.length - (payload.length + 1) = ([SYNC_START, type, sline, dline, flags] ++ len).length := by
    simp only [hpacket, List.length_append, List.length_cons, List.length_nil]
    omega
  rw [hlen, hpacket, List.take_left]

/-- What `nais_setup_header` leaves at the start of its buffer. -/
lemma naisSetupHeader_take {n msgLen hlen : Nat} {type : ProtoMsg} {buff buff' : Buffer n}
    (h : naisSetupHeader type msgLen buff = .ok (hlen, buff')) :
    buff'.bytes.take hlen = headerBytes type msgLen := by
  obtain ⟨rfl, b, hhead, hend⟩ := (naisSetupHeader_ok_iff type msgLen hlen buff buff').mp h
  obtain ⟨hfit, hbytes⟩ := (b.write_eq_some_iff buff' _ [RECORD_END]).mp hend
  have hsize := b.size
  rw [hbytes, List.append_assoc, List.take_append_of_le_length, List.take_take, Buffer.write_zero hhead,
    List.take_append_of_le_length (by omega), List.take_of_length_le (by omega)]
  rw [List.length_take]
  omega

/-- The bytes that the host writes before a payload are those that the board writes before a
message of this length exactly when the payload is not empty. -/
theorem headers_agree_iff (lib : ProtoLib C P O) (reg : Registry C P) (obj : O) {oid : Int}
    {protobufClass : P} {payload packet : List UInt8} {type dline : UInt8} {n hlen : Nat}
    {buff buff' : Buffer n} (hreg : reg.protoFromClass (lib.typeOf obj) = some (oid, protobufClass))
    (hser : lib.serialize protobufClass obj = .ok payload) (hpacket : marshall lib reg obj = .ok packet)
    (htype : packet[1]? = some type) (hdline : packet[Host.DLINE]? = some dline)
    (hsetup : naisSetupHeader ⟨type, dline, 0⟩ payload.length buff = .ok (hlen, buff')) :
    packet.take (packet.length - (payload.length + 1)) = buff'.bytes.take hlen ↔
      payload.length ≠ 0 := by
  obtain ⟨oid', protobufClass', payload', hreg', -, -, hser', rfl⟩ := (marshall_ok_iff ..).mp hpacket
  rw [hreg] at hreg'
  cases hreg'
  rw [hser] at hser'
  cases hser'
  cases htype
  cases hdline
  rw [take_header, naisSetupHeader_take hsetup, headerBytes]
  have hstart : RECORD_START = SYNC_START := rfl
  rw [hstart, List.append_cancel_left_eq]
  constructor
  · rintro hlen hzero
    rw [hzero, lenBytes_zero] at hlen
    exact Base128.encode_ne_nil 0 hlen.symm
  · exact lenBytes_eq_encode payload.length

theorem headers_agree_command :
    ∃ hlen, ∃ buff' : Buffer 64,
      naisSetupHeader ⟨5, 0, 0⟩ 2 (Buffer.fill 64 0) = .ok (hlen, buff') ∧
        [0x1E, 5, 0, 0, 0, 2] = buff'.bytes.take hlen := by
  obtain ⟨-, buff', -, -, hsetup⟩ :=
    exists_naisSetupHeader ⟨5, 0, 0⟩ 2 (Buffer.fill 64 0) (by decide +kernel)
  have hreg : sampleRegistry.protoFromClass (sampleLib.typeOf [8, 5]) = some (5, ()) := rfl
  have hser : sampleLib.serialize () [8, 5] = .ok [8, 5] := rfl
  exact ⟨_, buff', hsetup, (headers_agree_iff sampleLib sampleRegistry [8, 5] hreg hser
    sampleLib_marshall rfl rfl hsetup).mpr (by decide)⟩

/-- An empty payload: the host writes no LEN byte, the board a zero. -/
theorem headers_differ_for_empty_payload :
    ¬∀ (obj packet : List UInt8) (hlen : Nat) (buff' : Buffer 64),
      marshall sampleLib sampleRegistry obj = .ok packet →
      naisSetupHeader ⟨5, 0, 0⟩ obj.length (Buffer.fill 64 0) = .ok (hlen, buff') →
      packet.take (packet.length - (obj.length + 1)) = buff'.bytes.take hlen := by
  intro hall
  have hpacket : marshall sampleLib sampleRegistry [] = .ok [0x1E, 5, 0, 0, 0, 0x17] := by
    rw [marshall_ok_iff]
    refine ⟨5, (), [], rfl, by decide, by decide, rfl, ?_⟩
    rw [List.length_nil, lenBytes_zero]
    rfl
  obtain ⟨-, buff', -, -, hsetup⟩ := exists_naisSetupHeader ⟨5, 0, 0⟩ 0 (Buffer.fill 64 0) (by decide +kernel)
  have hsame := hall [] _ _ _ hpacket hsetup
  rw [naisSetupHeader_take hsetup, headerBytes, Base128.encode_small (by decide)] at hsame
  exact absurd hsame (by decide)

end Headers

end Nais
