import Nais.Board.Reply

/-!
# The two encoders of the board

`protobuf_to_uart` of `sys/bocia/bocia_uart.c` and `nais_marshall` of `sys/bocia/nais.c` both
call `nais_setup_header`. The first packs the message at byte 6, the second at the end of the
header, which is the same place while LEN has one byte.
-/

namespace Nais.Board
open Nais.Lib Nais.Lib.Memory

/-- The frame that the UART gets is the one that the marshaller returns. -/
def EncodersAgree (env : Env) (type : ProtoMsg) (m : Message) (b : State) (protobuf : Buffer 256) :
    Prop :=
  ∃ frame protobuf', naisMarshall env.pb type (some m) protobuf = .ok (frame, protobuf') ∧
    framesSent (protobufToUart env type (some m)) b = [frame]

/-- What the library packs begins with the tag of a field, and field numbers begin at 1. -/
def TagFirst (packed : List UInt8) : Prop := ∀ c, packed.head? = some c → 8 ≤ c.toNat

/-- The writes into the transmit buffer for a frame that fits it. -/
lemma framesSent_uart (env : Env) (type : ProtoMsg) (m : Message) (b : State)
    (hfit : frameLength env.pb m ≤ 512) :
    ∃ b₁ b₂ b₃ : Buffer 512,
      b.txbuff.write 0 (headerBytes type (env.pb.pack m).length) = some b₁ ∧
      b₁.write ((env.pb.pack m).length + (headerBytes type (env.pb.pack m).length).length)
        [RECORD_END] = some b₂ ∧
      b₂.write 6 (env.pb.pack m) = some b₃ ∧
      framesSent (protobufToUart env type (some m)) b =
        [b₃.bytes.take ((headerBytes type (env.pb.pack m).length).length +
          (env.pb.pack m).length + 1)] := by
  have hlen := headerBytes_length type (env.pb.pack m).length
  have hpos := List.length_pos_iff.mpr (Base128.encode_ne_nil (env.pb.pack m).length)
  unfold frameLength at hfit
  obtain ⟨b₁, b₂, hx, he, hsetup⟩ := exists_naisSetupHeader type
    (env.pb.pack m).length b.txbuff (by omega)
  obtain ⟨b₃, hy⟩ : ∃ b₃, b₂.write 6 (env.pb.pack m) = some b₃ := b₂.exists_write (by omega)
  refine ⟨b₁, b₂, b₃, hx, he, hy, framesSent_of_sent_append ?_⟩
  simp [protobufToUart, hsetup, store_eq_ok_iff.mpr hy]

/-- The byte behind a header whose LEN has one byte is the first one of the payload. -/
lemma uart_sixth_byte {b₂ b₃ : Buffer 512} {packed : List UInt8} {n : Nat}
    (hy : b₂.write 6 packed = some b₃) (hn : 6 < n) (hne : packed ≠ []) :
    (b₃.bytes.take n)[6]? = packed.head? := by
  obtain ⟨hfit, hbytes⟩ := (b₂.write_eq_some_iff b₃ 6 packed).mp hy
  have hsize := b₂.size
  have hpos := List.length_pos_iff.mpr hne
  have hsix : (b₂.bytes.take 6).length = 6 := by
    rw [List.length_take]
    omega
  rw [List.getElem?_take_of_lt hn, hbytes, List.append_assoc,
    List.getElem?_append_right (by omega), hsix, List.getElem?_append_left (by omega),
    List.head?_eq_getElem?]

/-- A frame of up to 256 bytes with a LEN of two bytes has a 1 there. -/
lemma header_sixth_byte (type : ProtoMsg) {n : Nat} (hbig : 128 ≤ n) (hsmall : n < 256)
    (behind : List UInt8) : (headerBytes type n ++ behind)[6]? = some 1 := by
  have hdiv : n / 128 = 1 := by omega
  have hlen : Base128.encode n = [UInt8.ofNat (128 + n % 128), 1] := by
    rw [Base128.encode_large hbig, hdiv, Base128.encode_small (by decide)]
    rfl
  rw [headerBytes, hlen]
  rfl

lemma encodersAgree_iff_bytes {env : Env} {type : ProtoMsg} {m : Message} {b : State}
    (protobuf : Buffer 256) (hfit : frameLength env.pb m ≤ 256) {sent : List UInt8}
    (hsent : framesSent (protobufToUart env type (some m)) b = [sent]) :
    EncodersAgree env type m b protobuf ↔
      sent = headerBytes type (env.pb.pack m).length ++ env.pb.pack m ++ [RECORD_END] := by
  obtain ⟨-, protobuf', hmarshall⟩ | ⟨hbig, -⟩ := naisMarshall_ok_or_error env.pb type m protobuf
  · unfold EncodersAgree
    rw [hmarshall, hsent]
    constructor
    · rintro ⟨frame, p, hok, hframe⟩
      cases hok
      exact List.singleton_inj.mp hframe
    · exact fun h => ⟨_, _, rfl, by rw [h]⟩
  · omega

lemma encodersAgree_of_short {env : Env} (type : ProtoMsg) {m : Message} (b : State)
    (protobuf : Buffer 256) (hfit : frameLength env.pb m ≤ 256)
    (hshort : (env.pb.pack m).length < 128) : EncodersAgree env type m b protobuf := by
  obtain ⟨b₁, b₂, b₃, hx, he, hy, hsent⟩ := framesSent_uart env type m b (by omega)
  have hlen := headerBytes_length type (env.pb.pack m).length
  have hone := (Base128.encode_length_one_iff (env.pb.pack m).length).mpr hshort
  have hsix : (headerBytes type (env.pb.pack m).length).length = 6 := by omega
  rw [encodersAgree_iff_bytes protobuf hfit hsent,
    ← Buffer.write_around hx he (by rwa [hsix]), Nat.add_comm (headerBytes _ _).length]

/-- The second LEN byte is overwritten by the first tag. -/
lemma not_encodersAgree_of_long {env : Env} (type : ProtoMsg) {m : Message} (b : State)
    (protobuf : Buffer 256) (hfit : frameLength env.pb m ≤ 256) (htag : TagFirst (env.pb.pack m))
    (hlong : 128 ≤ (env.pb.pack m).length) : ¬EncodersAgree env type m b protobuf := by
  obtain ⟨b₁, b₂, b₃, -, -, hy, hsent⟩ := framesSent_uart env type m b (by omega)
  have hlen := headerBytes_length type (env.pb.pack m).length
  have hne : env.pb.pack m ≠ [] := by
    intro hnil
    simp [hnil] at hlong
  rw [encodersAgree_iff_bytes protobuf hfit hsent]
  intro hbytes
  unfold frameLength at hfit
  have hsixth := uart_sixth_byte (n := (headerBytes type (env.pb.pack m).length).length +
    (env.pb.pack m).length + 1) hy (by omega) hne
  rw [hbytes, List.append_assoc, header_sixth_byte type hlong (by omega)] at hsixth
  exact absurd (htag 1 hsixth.symm) (by decide)

/-- The UART gets the frame of the marshaller exactly when the packed message has less than
128 bytes. -/
theorem uart_agrees_with_marshall_iff (env : Env) (type : ProtoMsg) (m : Message) (b : State)
    (protobuf : Buffer 256) (hfit : frameLength env.pb m ≤ 256) (htag : TagFirst (env.pb.pack m)) :
    EncodersAgree env type m b protobuf ↔ (env.pb.pack m).length < 128 := by
  constructor
  · intro hagree
    by_contra hlong
    exact not_encodersAgree_of_long type b protobuf hfit htag (by omega) hagree
  · exact encodersAgree_of_short type b protobuf hfit

theorem uart_agrees_with_marshall_config :
    EncodersAgree sampleEnv ⟨CONFIG_TYPE, 7, 0⟩ (.config sampleConfig) State.initial
      (Buffer.fill 256 0) := by
  have htag : TagFirst (sampleEnv.pb.pack (.config sampleConfig)) := by
    intro c hc
    cases hc
    decide
  exact (uart_agrees_with_marshall_iff sampleEnv _ _ _ _ (by decide +kernel) htag).mpr (by decide)

/-- A configuration whose network has 130 letters. -/
def longConfig : Config := ⟨List.replicate 130 0x61, [], [], none, none, none⟩

def longConfigEnv : Env where
  pb :=
    { unpack := fun _ _ => none
      unpack_kind := by simp
      pack := fun _ => [0x0A, 0x82, 0x01] ++ List.replicate 130 0x61 ++ [0x12, 0x00, 0x1A, 0x00] }
  fsWrite _ bs := some bs
  fsDel _ := none
  handleCommand _ _ := 0

/-- The configuration fits both buffers, and the UART gets its first tag for a LEN byte. -/
theorem uart_garbles_long_config :
    ¬∀ (env : Env) (type : ProtoMsg) (m : Message) (b : State) (protobuf : Buffer 256),
      frameLength env.pb m ≤ 256 → EncodersAgree env type m b protobuf := by
  intro hall
  have hfit : frameLength longConfigEnv.pb (.config longConfig) ≤ 256 := by decide +kernel
  have htag : TagFirst (longConfigEnv.pb.pack (.config longConfig)) := by
    intro c hc
    cases hc
    decide
  exact not_encodersAgree_of_long _ State.initial (Buffer.fill 256 0) hfit htag (by decide +kernel)
    (hall longConfigEnv ⟨CONFIG_TYPE, 0, 0⟩ (.config longConfig) State.initial (Buffer.fill 256 0) hfit)

end Nais.Board
