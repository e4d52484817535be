import Nais.Board.Bocia

/-!
# Replies carry the line of the request

The frames that the input handler sends while it processes a frame. Each reply is encoded
with the line byte of the request in DLINE, except the configuration that answers a
`GET_CONFIG_CMD`: its header is built with a zero.
-/

namespace Nais.Board
open Nais.Lib Nais.Lib.Memory

variable {α β : Type} {p t c : ℕ}

/-- The frames that a computation hands to the channel. -/
def framesSent (x : BoardIn p t c α) (b : StateIn p t c) : List (List UInt8) := (x.run b).2.sent.drop b.sent.length

/-- The 0-based position of DLINE in a frame. -/
def DLINE : Nat := 3

/-- An MQTT packet takes the frame of `m`. No other length is checked. -/
def Publishable (pb : Protobufc) (send : Send) (m : Message) : Prop :=
  match send with
  | .mqttTransmitterHandler topic => mqttPacketLen (mqttPublishLength topic (frameLength pb m)) ≤ 256
  | _ => True

/-- The memory does not end before the frame of `m` does, from the channel's transmit buffer on. -/
def FrameInMemory (p t : ℕ) (pb : Protobufc) (send : Send) (m : Message) : Prop :=
  match send with
  | .protobufToUart => frameLength pb m ≤ t
  | _ => frameLength pb m ≤ p

def Fits (p t : ℕ) (pb : Protobufc) (send : Send) (m : Message) : Prop :=
  FrameInMemory p t pb send m ∧ Publishable pb send m

lemma framesSent_of_sent_eq {x : BoardIn p t c α} {b : StateIn p t c} (h : (x.run b).2.sent = b.sent) :
    framesSent x b = [] := by
  rw [framesSent, h, List.drop_length]

lemma framesSent_of_sent_append {x : BoardIn p t c α} {b : StateIn p t c} {frames : List (List UInt8)}
    (h : (x.run b).2.sent = b.sent ++ frames) : framesSent x b = frames := by
  rw [framesSent, h, List.drop_left' rfl]

/-- A computation that sends nothing, in front of another one. -/
lemma framesSent_bind {x : BoardIn p t c α} {b : StateIn p t c} (f : α → BoardIn p t c β) (h : (x.run b).2.sent = b.sent) :
    framesSent (x >>= f) b = match (x.run b).1 with
      | .ok a => framesSent (f a) (x.run b).2
      | .error _ => [] := by
  unfold framesSent
  rw [bind_run]
  generalize x.run b = out at h ⊢
  obtain ⟨r, b'⟩ := out
  cases r with
  | ok a => rw [← h]
  | error e => rw [← h, List.drop_length]

/-- The frame is built in the transmit buffer, with the payload at byte 6. -/
lemma framesSent_protobufToUart (env : Env) (type : ProtoMsg) (m : Message) (b : StateIn p t c) :
    (frameLength env.pb m ≤ t ∧ ∃ frame : List UInt8, frame[DLINE]? = some type.dline ∧
      framesSent (protobufToUart env type (some m)) b = [frame]) ∨
    (¬frameLength env.pb m ≤ t ∧ framesSent (protobufToUart env type (some m)) b = []) := by
  have hlen := headerBytes_length type (env.pb.pack m).length
  have hpos := List.length_pos_iff.mpr (Base128.encode_ne_nil (env.pb.pack m).length)
  unfold frameLength
  by_cases hfit : 5 + (Base128.encode (env.pb.pack m).length).length + (env.pb.pack m).length + 1 ≤ t
  · obtain ⟨b₁, b₂, hx, he, hsetup⟩ := exists_naisSetupHeader type
      (env.pb.pack m).length b.txbuff (by omega)
    obtain ⟨b₃, hy⟩ : ∃ b₃, b₂.write 6 (env.pb.pack m) = some b₃ := b₂.exists_write (by omega)
    have hdline : DLINE = 3 := rfl
    refine Or.inl ⟨hfit, b₃.bytes.take ((headerBytes type (env.pb.pack m).length).length +
      (env.pb.pack m).length + 1), ?_, framesSent_of_sent_append ?_⟩
    · rw [List.getElem?_take_of_lt (by omega), Buffer.getElem?_write_before hy (by omega),
        Buffer.getElem?_write_before he (by omega), Buffer.write_zero hx]
      rfl
    · simp [protobufToUart, hsetup, store_eq_ok_iff.mpr hy]
  · refine Or.inr ⟨hfit, framesSent_of_sent_eq ?_⟩
    cases hh : naisSetupHeader type (env.pb.pack m).length b.txbuff with
    | error e => simp [protobufToUart, hh]
    | ok p =>
      obtain ⟨-, b₁, -, he⟩ := (naisSetupHeader_ok_iff type _ p.1 b.txbuff p.2).mp hh
      have hend := ((b₁.write_eq_some_iff p.2 _ _).mp he).1
      rw [List.length_singleton] at hend
      omega

/-- What a channel sends of a message: one frame where it fits, with the line in its header. -/
lemma framesSent_transmitter (env : Env) (rd : Channel) (type : ProtoMsg) (m : Message) (b : StateIn p t c) :
    (Fits p t env.pb rd.send m ∧ ∃ frame : List UInt8, frame[DLINE]? = some type.dline ∧
      framesSent (rd.transmitter env type (some m)) b = [frame]) ∨
    (¬Fits p t env.pb rd.send m ∧ framesSent (rd.transmitter env type (some m)) b = []) := by
  have hlen := headerBytes_length type (env.pb.pack m).length
  obtain ⟨send, debug⟩ := rd
  cases send with
  | bociaTcpSend =>
    obtain ⟨hfit, p, hm⟩ | ⟨hfit, e, hm⟩ := naisMarshall_ok_or_error env.pb type m b.protobuf
    · refine Or.inl ⟨⟨hfit, trivial⟩, headerBytes type (env.pb.pack m).length ++ env.pb.pack m ++ [RECORD_END],
        rfl, framesSent_of_sent_append ?_⟩
      simp [Channel.transmitter, bociaTcpSend, hm]
    · refine Or.inr ⟨fun h => Nat.not_le.mpr hfit h.1, framesSent_of_sent_eq ?_⟩
      simp [Channel.transmitter, bociaTcpSend, hm]
  | mqttTransmitterHandler topic =>
    obtain ⟨hfit, p, hm⟩ | ⟨hfit, e, hm⟩ := naisMarshall_ok_or_error env.pb type m b.protobuf
    · have hsize : (headerBytes type (env.pb.pack m).length ++ env.pb.pack m ++ [RECORD_END]).length =
          frameLength env.pb m := by
        rw [List.length_append, List.length_append, hlen]
        rfl
      by_cases hpub : mqttPacketLen (mqttPublishLength topic (frameLength env.pb m)) ≤ 256
      · refine Or.inl ⟨⟨hfit, hpub⟩, headerBytes type (env.pb.pack m).length ++ env.pb.pack m ++
          [RECORD_END], rfl, framesSent_of_sent_append ?_⟩
        simp only [Channel.transmitter, mqttTransmitterHandler, bind_run, board_run, fallible_run, hm,
          update_run, hsize, hpub, ite_true, transmit_run]
      · refine Or.inr ⟨fun h => hpub h.2, framesSent_of_sent_eq ?_⟩
        simp only [Channel.transmitter, mqttTransmitterHandler, bind_run, board_run, fallible_run, hm,
          update_run, hsize, hpub, ite_false, pure_run]
    · refine Or.inr ⟨fun h => Nat.not_le.mpr hfit h.1, framesSent_of_sent_eq ?_⟩
      simp [Channel.transmitter, mqttTransmitterHandler, hm]
  | protobufToUart =>
    obtain ⟨hfit, hframe⟩ | ⟨hfit, hframe⟩ := framesSent_protobufToUart env type m b
    · exact Or.inl ⟨⟨hfit, trivial⟩, hframe⟩
    · exact Or.inr ⟨fun h => hfit h.1, hframe⟩

lemma dline_of_transmitter (env : Env) (rd : Channel) (type : ProtoMsg) (m : Message) (b : StateIn p t c) :
    ∀ frame ∈ framesSent (rd.transmitter env type (some m)) b, frame[DLINE]? = some type.dline := by
  intro frame hframe
  obtain ⟨-, frame', hdline, hsent⟩ | ⟨-, hsent⟩ := framesSent_transmitter env rd type m b
  · rw [hsent, List.mem_singleton] at hframe
    rw [hframe, hdline]
  · rw [hsent] at hframe
    exact absurd hframe List.not_mem_nil

lemma framesSent_transmitter_none (env : Env) (rd : Channel) (type : ProtoMsg) (b : StateIn p t c) :
    framesSent (rd.transmitter env type none) b = [] := by
  apply framesSent_of_sent_eq
  obtain ⟨send, debug⟩ := rd
  cases send <;> simp [Channel.transmitter, bociaTcpSend, mqttTransmitterHandler, protobufToUart,
    naisMarshall]

/-- A property of the frames of `f` holds behind a computation that sends nothing. -/
lemma forall_framesSent_bind {x : BoardIn p t c α} {b : StateIn p t c} {f : α → BoardIn p t c β} {P : List UInt8 → Prop}
    (h : (x.run b).2.sent = b.sent) (hf : ∀ a b', ∀ frame ∈ framesSent (f a) b', P frame) :
    ∀ frame ∈ framesSent (x >>= f) b, P frame := by
  rw [framesSent_bind f h]
  cases (x.run b).1 with
  | ok a => exact hf a _
  | error e => simp

/-- The configuration that `bocia_get_config` finds: the cached one, or the one on flash. -/
def availableConfig (env : Env) (b : StateIn p t c) : Option Config :=
  match b.config with
  | some cfg => some cfg
  | none =>
    match b.flash with
    | none => none
    | some packed =>
      match env.pb.unpack .config packed with
      | some (.config cfg) => some cfg
      | _ => none

/-- The memory does not end before a file that is read does. -/
def FileInMemory (b : StateIn p t c) : Prop :=
  b.config = none → ∀ packed, b.flash = some packed → packed.length ≤ c

lemma bociaReadCfg_run (env : Env) {b : StateIn p t c} (hcached : b.config = none) :
    ((bociaReadCfg env).run b).2.sent = b.sent ∧
      ((FileInMemory b ∧ ((bociaReadCfg env).run b).1 = .ok (availableConfig env b)) ∨
        (¬FileInMemory b ∧ ∃ e, ((bociaReadCfg env).run b).1 = .error e)) := by
  unfold bociaReadCfg availableConfig FileInMemory
  simp only [hcached, bind_run, board_run]
  cases hflash : b.flash with
  | none => simp
  | some packed =>
    cases hs : store b.cfgBuff 0 packed with
    | error e =>
      have hlong : ¬packed.length ≤ c := by
        intro hshort
        obtain ⟨b₁, hw⟩ : ∃ b₁, b.cfgBuff.write 0 packed = some b₁ :=
          b.cfgBuff.exists_write (by omega)
        rw [store_eq_ok_iff.mpr hw] at hs
        cases hs
      simp [hs, hlong]
    | ok cfgBuff =>
      have hshort := ((b.cfgBuff.write_eq_some_iff cfgBuff 0 packed).mp (store_eq_ok_iff.mp hs)).1
      rw [Nat.zero_add] at hshort
      simp only [bind_run, board_run, fallible_run, hs, update_run]
      cases env.pb.unpack .config packed with
      | none => simp [hshort]
      | some m => cases m <;> simp [hshort]

lemma bociaGetConfig_run (env : Env) (b : StateIn p t c) :
    ((bociaGetConfig env).run b).2.sent = b.sent ∧
      ((FileInMemory b ∧ ((bociaGetConfig env).run b).1 = .ok (availableConfig env b)) ∨
        (¬FileInMemory b ∧ ∃ e, ((bociaGetConfig env).run b).1 = .error e)) := by
  cases hcached : b.config with
  | some cfg => simp [bociaGetConfig, availableConfig, FileInMemory, hcached]
  | none =>
    have hread := bociaReadCfg_run env hcached
    simp only [bociaGetConfig, hcached, bind_run, board_run]
    generalize (bociaReadCfg env).run b = out at hread ⊢
    obtain ⟨r, b'⟩ := out
    cases r with
    | ok cfg => simpa using hread
    | error e => simpa using hread

/-- The memory ends neither before the file nor before the frame of the configuration. -/
def ConfigInMemory (env : Env) (rd : Channel) (b : StateIn p t c) : Prop :=
  FileInMemory b ∧ ∀ cfg, availableConfig env b = some cfg → FrameInMemory p t env.pb rd.send (.config cfg)

lemma framesSent_bociaCommand_getConfig (env : Env) (rd : Channel) {cmd : Command}
    (hid : cmd.id = GET_CONFIG_CMD) (b : StateIn p t c) :
    ((∃ cfg, availableConfig env b = some cfg ∧ Publishable env.pb rd.send (.config cfg)) ∧
      ConfigInMemory env rd b ∧
      ∃ frame : List UInt8, frame[DLINE]? = some 0 ∧ framesSent (bociaCommand env rd cmd) b = [frame]) ∨
    (¬((∃ cfg, availableConfig env b = some cfg ∧ Publishable env.pb rd.send (.config cfg)) ∧
      ConfigInMemory env rd b) ∧ framesSent (bociaCommand env rd cmd) b = []) := by
  obtain ⟨hsent, hres⟩ := bociaGetConfig_run env b
  have hcmd : (bociaCommand env rd cmd : BoardIn p t c Unit) = bociaGetConfig env >>= fun config =>
      rd.transmitter env ⟨CONFIG_TYPE, 0, 0⟩ (config.map .config) := by
    rw [bociaCommand, hid]
    rfl
  rw [hcmd, framesSent_bind _ hsent]
  obtain ⟨hfile, hok⟩ | ⟨hfile, e, herr⟩ := hres
  · rw [hok]
    cases hcfg : availableConfig env b with
    | none => exact Or.inr ⟨by simp, framesSent_transmitter_none env rd _ _⟩
    | some cfg =>
      obtain ⟨⟨hmemory, hfit⟩, hframe⟩ | ⟨hfit, hframe⟩ := framesSent_transmitter env rd
        ⟨CONFIG_TYPE, 0, 0⟩ (.config cfg) ((bociaGetConfig env).run b).2
      · refine Or.inl ⟨⟨cfg, rfl, hfit⟩, ⟨hfile, fun cfg' h => ?_⟩, hframe⟩
        rw [hcfg, Option.some.injEq] at h
        rwa [← h]
      · refine Or.inr ⟨?_, hframe⟩
        rintro ⟨⟨cfg', h, hfit'⟩, -, hmemory⟩
        cases h
        exact hfit ⟨hmemory cfg hcfg, hfit'⟩
  · rw [herr]
    exact Or.inr ⟨fun h => hfile h.2.1, rfl⟩

lemma framesSent_bociaCommand_other (env : Env) (rd : Channel) {cmd : Command}
    (hid : cmd.id ≠ GET_CONFIG_CMD) (b : StateIn p t c) : framesSent (bociaCommand env rd cmd) b = [] := by
  apply framesSent_of_sent_eq
  unfold bociaCommand setRebootMode delayedReboot
  split_ifs <;> simp_all

/-- Only the commands are answered with another line than the request's. -/
lemma dline_of_bociaInputHandler (env : Env) (rd : Channel) {commandId : ProtoMsg} (obj : Message)
    (htype : commandId.type ≠ COMMAND_TYPE) (b : StateIn p t c) :
    ∀ frame ∈ framesSent (bociaInputHandler env rd commandId obj) b,
      frame[DLINE]? = some commandId.dline := by
  rw [bociaInputHandler]
  dsimp only
  rw [if_neg htype]
  split_ifs
  · have hquiet : framesSent (do
        let secret ← fallible (asSecret obj)
        request (.setApPassword secret.key)
        request .cc3200Reset) b = [] := by
      apply framesSent_of_sent_eq
      cases asSecret obj <;> simp
    simp [hquiet]
  · refine forall_framesSent_bind rfl fun cfg b => ?_
    refine forall_framesSent_bind ?_ fun _ b => dline_of_transmitter env rd _ _ b
    simp only [bociaSetCfg, bociaWriteCfg, bind_run, board_run, fallible_run]
    cases store b.cfgBuff 0 (env.pb.pack (.config cfg)) <;> simp
  · refine forall_framesSent_bind rfl fun profile b => ?_
    exact forall_framesSent_bind rfl fun _ b => dline_of_transmitter env rd _ _ b
  · exact forall_framesSent_bind rfl fun cmd b => dline_of_transmitter env rd _ _ b

/-- A frame with a payload that unpacks, as the receive buffer of a channel holds it from
its TYPE byte on: one more byte lies behind the payload, the END byte where it is kept. -/
structure Incoming (pb : Protobufc) where
  type : UInt8
  sline : UInt8
  dline : UInt8
  flags : UInt8
  payload : List UInt8
  obj : Message
  unpacks : pb.unpack (kindOf type) payload = some obj
  next : UInt8
  behind : List UInt8
  size : payload.length + behind.length ≤ 512

def Incoming.memory {pb : Protobufc} (r : Incoming pb) : List UInt8 :=
  frameMemory r.type r.sline r.dline r.flags r.payload (r.next :: r.behind)

lemma Incoming.memory_length {pb : Protobufc} (r : Incoming pb) : r.memory.length < 2 ^ 16 := by
  have hsize := r.size
  have hdigits := Base128.encode_length_le 1 r.payload.length (by norm_num; omega)
  rw [Incoming.memory, frameMemory, List.length_append, List.length_append, List.length_append,
    List.length_cons, List.length_cons]
  simp only [List.length_cons, List.length_nil]
  omega

/-- The frame asks for a configuration that the board has and that it can send back. -/
def AnswersConfig (env : Env) (rd : Channel) (r : Incoming env.pb) (b : StateIn p t c) : Prop :=
  r.type = COMMAND_TYPE ∧ (∃ cmd, r.obj = .command cmd ∧ cmd.id = GET_CONFIG_CMD) ∧
    ∃ cfg, availableConfig env b = some cfg ∧ Publishable env.pb rd.send (.config cfg)

lemma framesSent_bociaUnmarshall (env : Env) (rd : Channel) (r : Incoming env.pb) (b : StateIn p t c)
    (htype : r.type ≠ 0) : ∃ debug, framesSent (bociaUnmarshall env rd r.memory) b =
      framesSent (bociaInputHandler env { rd with debug := debug } ⟨r.type, r.sline, r.flags⟩ r.obj) b := by
  have hread := naisUnmarshall_frameMemory r.type r.sline r.dline r.flags r.payload
    (r.next :: r.behind) env.pb htype (by simp) r.memory_length
  refine ⟨if r.flags.toNat &&& 1 ≠ 0 then true else rd.debug, ?_⟩
  unfold framesSent
  rw [bociaUnmarshall, bind_run, fallible_run, handlerCall, Incoming.memory, hread, r.unpacks]
  simp only [Bind.bind, Except.bind, Option.map_some]
  split_ifs <;>
  · generalize (bociaInputHandler env _ _ r.obj).run b = out
    obtain ⟨res, b'⟩ := out
    cases res <;> rfl

lemma framesSent_bociaUnmarshall_type_zero (env : Env) (rd : Channel) (r : Incoming env.pb)
    (b : StateIn p t c) (htype : r.type = 0) : framesSent (bociaUnmarshall env rd r.memory) b = [] := by
  apply framesSent_of_sent_eq
  rw [bociaUnmarshall, bind_run, fallible_run, handlerCall]
  cases h : naisUnmarshall env.pb r.memory with
  | error e => rfl
  | ok u => exact absurd htype ((naisUnmarshall_ok_iff env.pb r.memory_length u).mp h).2.2.1

lemma framesSent_bociaInputHandler_command (env : Env) (rd : Channel) (commandId : ProtoMsg)
    (cmd : Command) (b : StateIn p t c) (htype : commandId.type = COMMAND_TYPE) :
    framesSent (bociaInputHandler env rd commandId (.command cmd)) b =
      framesSent (bociaCommand env rd cmd) b := by
  rw [bociaInputHandler]
  dsimp only
  rw [if_pos htype]
  rfl

/-- Every frame that is sent while a frame is processed carries the line of that frame in
DLINE, unless it is a configuration that answers a `GET_CONFIG_CMD` from a non-zero line. No
length is checked on the way there: only the end of the memory keeps a longer one back. -/
theorem replies_carry_sline_iff (env : Env) (rd : Channel) (r : Incoming env.pb) (b : StateIn p t c) :
    (∀ frame ∈ framesSent (bociaUnmarshall env rd r.memory) b, frame[DLINE]? = some r.sline) ↔
      r.sline = 0 ∨ ¬AnswersConfig env rd r b ∨ ¬ConfigInMemory env rd b := by
  by_cases hzero : r.type = 0
  · have hno : ¬AnswersConfig env rd r b := by
      intro h
      rw [h.1] at hzero
      exact absurd hzero (by decide)
    simp [framesSent_bociaUnmarshall_type_zero env rd r b hzero, hno]
  obtain ⟨debug, hsent⟩ := framesSent_bociaUnmarshall env rd r b hzero
  rw [hsent]
  by_cases htype : r.type = COMMAND_TYPE
  · have hkind := env.pb.unpack_kind r.unpacks
    rw [htype] at hkind
    obtain ⟨cmd, hobj⟩ := Message.exists_command hkind
    rw [hobj, framesSent_bociaInputHandler_command env _ _ cmd b htype]
    by_cases hid : cmd.id = GET_CONFIG_CMD
    · have hanswers : AnswersConfig env rd r b ↔
          ∃ cfg, availableConfig env b = some cfg ∧ Publishable env.pb rd.send (.config cfg) :=
        ⟨fun h => h.2.2, fun h => ⟨htype, ⟨cmd, hobj, hid⟩, h⟩⟩
      rw [hanswers, ← not_and_or]
      obtain ⟨hcfg, hmemory, frame, hdline, hframes⟩ | ⟨hcfg, hframes⟩ :=
        framesSent_bociaCommand_getConfig env { rd with debug := debug } hid b
      · rw [hframes, List.forall_mem_singleton, hdline, Option.some.injEq,
          or_iff_left (not_not.mpr ⟨hcfg, hmemory⟩)]
        exact eq_comm
      · rw [hframes]
        exact iff_of_true (by simp) (Or.inr hcfg)
    · have hno : ¬AnswersConfig env rd r b := by
        rintro ⟨-, ⟨cmd', hcmd, hid'⟩, -⟩
        rw [hobj] at hcmd
        cases hcmd
        exact hid hid'
      simp [framesSent_bociaCommand_other env _ hid b, hno]
  · have hno : ¬AnswersConfig env rd r b := fun h => htype h.1
    simp only [hno, not_false_eq_true, true_or, or_true, iff_true]
    exact dline_of_bociaInputHandler env _ r.obj htype b

/-- `GET_CONFIG_CMD` from line 7. -/
def sampleIncoming : Incoming sampleEnv.pb :=
  ⟨COMMAND_TYPE, 7, 0, 0, [0x08, 0x05], .command ⟨5, none, [], []⟩, by decide, RECORD_END, [],
    by decide⟩

theorem get_config_reply_loses_sline :
    ¬∀ frame ∈ framesSent (bociaUnmarshall sampleEnv ⟨.bociaTcpSend, false⟩ sampleIncoming.memory)
      sampleState, frame[DLINE]? = some sampleIncoming.sline := by
  decide +kernel

end Nais.Board
