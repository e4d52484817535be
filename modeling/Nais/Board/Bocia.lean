import Nais.Board.Unmarshall

/-!
# Input handling on the board

`sys/bocia/bocia.c` with the transmit functions of its three kinds of channel
(`bocia_tcp.c`, `bocia_mqtt.c`, `bocia_uart.c`) and the configuration file of
`bocia_file.c`. A computation either faults or returns; in both cases the board it leaves
behind records the frames that were handed to the channel and the requests to the system.
-/

namespace Nais.Board
open Nais.Lib Nais.Lib.Memory

def REBOOT_CMD : Int32 := 1
def TOGGLE_WIFI_MODE_CMD : Int32 := 2
def FACTORY_RESET_CMD : Int32 := 3
def GET_CONFIG_CMD : Int32 := 5

/-- The transmit function of a channel. The MQTT one publishes on the topic that was set
when the broker was connected. -/
inductive Send where
  | bociaTcpSend
  | mqttTransmitterHandler (topic : List UInt8)
  | protobufToUart
  deriving DecidableEq

structure Channel where
  send : Send
  debug : Bool
  deriving DecidableEq

/-- Calls that leave the modelled code. -/
inductive Request where
  | reboot
  | rebootRegister (value : Nat)
  | simplelinkToDefaultState
  | setApPassword (key : List UInt8)
  | cc3200Reset
  | addProfile (uid pwd : List UInt8)
  deriving DecidableEq

/-- `flash` is the content of `bocia.cfg`, `none` where it does not exist or cannot be
opened. `p`, `t` and `c` are how much memory there is from the beginning of the static buffers
on: nothing in the code stops a store at the end of the buffer. -/
structure StateIn (p t c : ℕ) where
  config : Option Config
  flash : Option (List UInt8)
  protobuf : Buffer p
  txbuff : Buffer t
  cfgBuff : Buffer c
  sent : List (List UInt8)
  requests : List Request
  deriving DecidableEq

/-- A store behind the end of a buffer is a fault. -/
abbrev State : Type := StateIn 256 512 128

/-- The static data before anything was received, without a configuration file. -/
def State.initial : State :=
  ⟨none, none, Buffer.fill 256 0, Buffer.fill 512 0, Buffer.fill 128 0, [], []⟩

/-- The protobuf library, the effect of a write or a deletion on the file, and the custom
command handler of the application. -/
structure Env where
  pb : Protobufc
  fsWrite : Option (List UInt8) → List UInt8 → Option (List UInt8)
  fsDel : Option (List UInt8) → Option (List UInt8)
  handleCommand : UInt8 → Command → UInt32

/-- A computation on the board that may fault on its way. -/
structure BoardIn (p t c : ℕ) (α : Type) where
  run : StateIn p t c → Except Fault α × StateIn p t c

abbrev BoardM : Type → Type := BoardIn 256 512 128

variable {p t c : ℕ}

instance : Monad (BoardIn p t c) where
  pure a := ⟨fun b => (.ok a, b)⟩
  bind x f := ⟨fun b =>
    match x.run b with
    | (.ok a, b') => (f a).run b'
    | (.error e, b') => (.error e, b')⟩

def board : BoardIn p t c (StateIn p t c) := ⟨fun b => (.ok b, b)⟩

def update (f : StateIn p t c → StateIn p t c) : BoardIn p t c Unit := ⟨fun b => (.ok (), f b)⟩

def fallible {α : Type} (r : Except Fault α) : BoardIn p t c α := ⟨fun b => (r, b)⟩

def request (r : Request) : BoardIn p t c Unit :=
  update fun b => { b with requests := b.requests ++ [r] }

def transmit (frame : List UInt8) : BoardIn p t c Unit :=
  update fun b => { b with sent := b.sent ++ [frame] }

section Run

variable {α β : Type}

@[simp] lemma pure_run (a : α) (b : StateIn p t c) : (pure a : BoardIn p t c α).run b = (.ok a, b) := rfl

@[simp] lemma board_run (b : StateIn p t c) : board.run b = (.ok b, b) := rfl

@[simp] lemma update_run (f : StateIn p t c → StateIn p t c) (b : StateIn p t c) : (update f).run b = (.ok (), f b) := rfl

@[simp] lemma fallible_run (r : Except Fault α) (b : StateIn p t c) : (fallible r).run b = (r, b) := rfl

@[simp] lemma request_run (r : Request) (b : StateIn p t c) :
    (request r).run b = (.ok (), { b with requests := b.requests ++ [r] }) := rfl

@[simp] lemma transmit_run (frame : List UInt8) (b : StateIn p t c) :
    (transmit frame).run b = (.ok (), { b with sent := b.sent ++ [frame] }) := rfl

@[simp] lemma bind_run (x : BoardIn p t c α) (f : α → BoardIn p t c β) (b : StateIn p t c) :
    (x >>= f).run b = match x.run b with
      | (.ok a, b') => (f a).run b'
      | (.error e, b') => (.error e, b') := rfl

end Run

section Transmit

variable (env : Env)

def bociaTcpSend (type : ProtoMsg) (data : Option Message) : BoardIn p t c Unit := do
  let (payload, protobuf) ← fallible (naisMarshall env.pb type data (← board).protobuf)
  update fun b => { b with protobuf := protobuf }
  transmit payload

/-- The length of an MQTT packet whose remaining length is `remLen`. -/
def mqttPacketLen (remLen : Nat) : Nat :=
  let remLen := remLen + 1
  if remLen < 128 then remLen + 1
  else if remLen < 16384 then remLen + 2
  else if remLen < 2097151 then remLen + 3
  else remLen + 4

/-- `MQTTSerialize_publishLength` at QoS 1. -/
def mqttPublishLength (topic : List UInt8) (payloadlen : Nat) : Nat :=
  2 + topic.length + payloadlen + 2

/-- A payload that is too long for the packet buffer is not published. The call of `sl_Send` with the
negative length that the serializer returned is left out here. -/
def mqttTransmitterHandler (topic : List UInt8) (type : ProtoMsg) (data : Option Message) :
    BoardIn p t c Unit := do
  let (payload, protobuf) ← fallible (naisMarshall env.pb type data (← board).protobuf)
  update fun b => { b with protobuf := protobuf }
  if mqttPacketLen (mqttPublishLength topic payload.length) ≤ 256 then transmit payload

/-- The payload is packed at the sixth byte of the buffer, whatever the header's length. -/
def protobufToUart (type : ProtoMsg) (obj : Option Message) : BoardIn p t c Unit := do
  match obj with
  | none => fallible (.error .nullPointer)
  | some m =>
    let blen := (env.pb.pack m).length
    let (hlen, txbuff) ← fallible (naisSetupHeader type blen (← board).txbuff)
    let txbuff ← fallible (store txbuff 6 (env.pb.pack m))
    update fun b => { b with txbuff := txbuff }
    transmit (txbuff.bytes.take (hlen + blen + 1))

def Channel.transmitter (rd : Channel) (type : ProtoMsg) (data : Option Message) : BoardIn p t c Unit :=
  match rd.send with
  | .bociaTcpSend => bociaTcpSend env type data
  | .mqttTransmitterHandler topic => mqttTransmitterHandler env topic type data
  | .protobufToUart => protobufToUart env type data

end Transmit

section Configuration

variable (env : Env)

def bociaWriteCfg (cfg : Config) : BoardIn p t c Unit := do
  let packed := env.pb.pack (.config cfg)
  let cfgBuff ← fallible (store (← board).cfgBuff 0 packed)
  update fun b => { b with cfgBuff := cfgBuff, flash := env.fsWrite b.flash packed }

def bociaReadCfg : BoardIn p t c (Option Config) := do
  match (← board).flash with
  | none => return none
  | some packed =>
    let cfgBuff ← fallible (store (← board).cfgBuff 0 packed)
    update fun b => { b with cfgBuff := cfgBuff }
    match env.pb.unpack .config packed with
    | some (.config cfg) => return some cfg
    | _ => return none

def bociaSetCfg (newConfig : Config) : BoardIn p t c Unit := do
  bociaWriteCfg env newConfig
  update fun b => { b with config := none }

def bociaGetConfig : BoardIn p t c (Option Config) := do
  match (← board).config with
  | some cfg => return some cfg
  | none =>
    let cfg ← bociaReadCfg env
    update fun b => { b with config := cfg }
    return cfg

end Configuration

/-! The casts of the handler: the object must be the struct it is used as. -/

def asCommand : Message → Except Fault Command
  | .command c => .ok c
  | _ => .error .typeConfusion

def asSecret : Message → Except Fault Secret
  | .secret s => .ok s
  | _ => .error .typeConfusion

def asConfig : Message → Except Fault Config
  | .config c => .ok c
  | _ => .error .typeConfusion

def asProfile : Message → Except Fault Profile
  | .profile p => .ok p
  | _ => .error .typeConfusion

section Handler

variable (env : Env)

def setRebootMode (mode : Nat) : BoardIn p t c Unit := do
  if mode = 1 then
    request .simplelinkToDefaultState
    update fun b => { b with flash := env.fsDel b.flash }
    request (.rebootRegister 0)
  else request (.rebootRegister 1)

def delayedReboot : BoardIn p t c Unit := request .reboot

def bociaCommand (rd : Channel) (cmd : Command) : BoardIn p t c Unit := do
  if cmd.id = REBOOT_CMD then delayedReboot
  else if cmd.id = TOGGLE_WIFI_MODE_CMD then
    setRebootMode env 0
    delayedReboot
  else if cmd.id = FACTORY_RESET_CMD then
    setRebootMode env 1
    delayedReboot
  else if cmd.id = GET_CONFIG_CMD then
    let config ← bociaGetConfig env
    rd.transmitter env ⟨CONFIG_TYPE, 0, 0⟩ (config.map .config)
  else pure ()

def bociaInputHandler (rd : Channel) (commandId : ProtoMsg) (obj : Message) : BoardIn p t c Unit := do
  let ackType : ProtoMsg := ⟨ACK_TYPE, commandId.dline, 0⟩
  let ack : Ack := ⟨commandId.type.toNat.toInt32, none, none⟩
  if commandId.type = COMMAND_TYPE then
    let cmd ← fallible (asCommand obj)
    bociaCommand env rd cmd
  else if commandId.type = SECRET_TYPE then
    let secret ← fallible (asSecret obj)
    request (.setApPassword secret.key)
    request .cc3200Reset
  else if commandId.type = CONFIG_TYPE then
    let cfg ← fallible (asConfig obj)
    bociaSetCfg env cfg
    rd.transmitter env ackType (some (.ack ack))
  else if commandId.type = PROFILE_TYPE then
    let profile ← fallible (asProfile obj)
    request (.addProfile profile.uid profile.pwd)
    rd.transmitter env ackType (some (.ack ack))
  else
    let cmd ← fallible (asCommand obj)
    let status := (env.handleCommand commandId.type cmd).toInt32
    rd.transmitter env ackType (some (.ack { ack with status := some status }))

end Handler

/-- The call of the handler that `bocia_unmarshall` makes: none when the payload does not
unpack. -/
def handlerCall (pb : Protobufc) (data : List UInt8) : Except Fault (Option (ProtoMsg × Message)) := do
  let r ← naisUnmarshall pb data
  .ok (r.obj.map fun obj => (r.ptype, obj))

/-- The result is the channel, which may have been set in debug mode. -/
def bociaUnmarshall (env : Env) (rd : Channel) (data : List UInt8) : BoardIn p t c Channel := do
  match ← fallible (handlerCall env.pb data) with
  | none => return rd
  | some (ptype, obj) =>
    let rd := if ptype.flags.toNat &&& 1 ≠ 0 then { rd with debug := true } else rd
    bociaInputHandler env rd ptype obj
    return rd

/-! A library, an environment and a board for concrete runs. Only `Command(id=5)` unpacks,
and only one configuration packs. -/

def sampleConfig : Config := ⟨[0x61], [0x62], [0x63], none, none, none⟩

def sampleProtobufc : Protobufc where
  unpack k bs :=
    if k = .command ∧ bs = [0x08, 0x05] then some (.command ⟨5, none, [], []⟩) else none
  unpack_kind := by
    intro k bs m h
    split_ifs at h with hk
    cases h
    exact hk.1.symm
  pack m :=
    if m = .config sampleConfig then [0x0A, 0x01, 0x61, 0x12, 0x01, 0x62, 0x1A, 0x01, 0x63] else []

def sampleEnv : Env := ⟨sampleProtobufc, fun _ bs => some bs, fun _ => none, fun _ _ => 0⟩

def sampleState : State := { State.initial with config := some sampleConfig }

end Nais.Board
