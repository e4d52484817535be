import Mathlib.Tactic.DeriveEncodable
import Nais.Host.Unmarshall

/-!
# The model classes

`Profile`, `Config` and `Ack` of `pynais/msg.py` and `Leds` of `commands/led.py` fill a
protobuf object and are built from one. The fields of a protobuf object are optional on the
wire: a getter returns the default of one that is absent, and only `Ack` asks `HasField`.
-/

namespace Nais.Host
open Nais.Lib

/-! ### The generated classes of `messages_pb2` -/

namespace Pb

structure Profile where
  uid : Option String := none
  pwd : Option String := none
  deriving DecidableEq

structure Config where
  network : Option String := none
  board : Option String := none
  host : Option String := none
  port : Option Int32 := none
  alivePeriod : Option Int32 := none
  secure : Option Bool := none
  deriving DecidableEq

structure Ack where
  id : Option Int32 := none
  seq : Option Int32 := none
  status : Option Int32 := none
  deriving DecidableEq

structure Command where
  id : Option Int32 := none
  seq : Option Int32 := none
  svals : List String := []
  ivals : List Int32 := []
  deriving DecidableEq

end Pb

inductive PbClass where
  | profile
  | config
  | ack
  | command
  deriving DecidableEq

inductive PbMessage where
  | profile (m : Pb.Profile)
  | config (m : Pb.Config)
  | ack (m : Pb.Ack)
  | command (m : Pb.Command)
  deriving DecidableEq

def PbMessage.cls : PbMessage → PbClass
  | profile _ => .profile
  | config _ => .config
  | ack _ => .ack
  | command _ => .command

/-- `ProtobufClass()`. -/
def PbClass.new : PbClass → PbMessage
  | profile => .profile {}
  | config => .config {}
  | ack => .ack {}
  | command => .command {}

/-- The required fields are set. -/
def PbMessage.IsInitialized : PbMessage → Prop
  | profile m => m.uid.isSome ∧ m.pwd.isSome
  | config m => m.network.isSome ∧ m.board.isSome ∧ m.host.isSome
  | ack m => m.id.isSome
  | command m => m.id.isSome

/-- The protobuf library: a message with its required fields is read back from its bytes. -/
structure PbLib where
  serializeToString : PbMessage → Except PyErr (List UInt8)
  parseFromString : PbClass → List UInt8 → Except PyErr PbMessage
  parse_serialize : ∀ m : PbMessage, m.IsInitialized →
    ∃ bs, serializeToString m = .ok bs ∧ parseFromString m.cls bs = .ok m

/-- An assignment to an `int32` field. -/
def setInt32 : Option Int → Except PyErr (Option Int32)
  | none => .error .typeError
  | some n => if -2147483648 ≤ n ∧ n ≤ 2147483647 then .ok (some (Int32.ofInt n)) else .error .valueError

/-- An assignment that is made under a condition only. -/
def setInt32If (cond : Bool) (old : Option Int32) (n : Option Int) : Except PyErr (Option Int32) :=
  if cond then setInt32 n else .ok old

/-- An assignment to a field of another type. -/
def setField {α : Type} : Option α → Except PyErr (Option α)
  | none => .error .typeError
  | some x => .ok (some x)

/-! ### The models -/

structure Profile where
  uid : Option String := none
  pwd : Option String := none

def Profile.setProtobuf (self : Profile) (obj : Pb.Profile) : Except PyErr Pb.Profile := do
  let uid ← setField self.uid
  let pwd ← setField self.pwd
  .ok { obj with uid, pwd }

def Profile.buildFromProtobuf (self : Profile) (obj : Pb.Profile) : Profile :=
  { self with uid := some (obj.uid.getD ""), pwd := some (obj.pwd.getD "") }

/-- Board configuration items and connection parameters. -/
structure Config where
  network : Option String := some "local"
  board : Option String := some ""
  host : Option String := some "localhost"
  port : Option Int := some 1883
  alivePeriod : Option Int := none
  secure : Option Bool := some false

def Config.setProtobuf (self : Config) (obj : Pb.Config) : Except PyErr Pb.Config := do
  let network ← setField self.network
  let board ← setField self.board
  let host ← setField self.host
  let port ← setInt32 self.port
  -- `if self.alive_period:` passes over None and 0
  let alivePeriod ← setInt32If (self.alivePeriod ≠ none && self.alivePeriod ≠ some 0) obj.alivePeriod
    self.alivePeriod
  let secure ← setField self.secure
  .ok { obj with network, board, host, port, alivePeriod, secure }

def Config.buildFromProtobuf (self : Config) (obj : Pb.Config) : Config :=
  { self with
    network := some (obj.network.getD "")
    host := some (obj.host.getD "")
    board := some (obj.board.getD "")
    port := some (obj.port.getD 1883).toInt
    alivePeriod := some (obj.alivePeriod.getD 0).toInt
    secure := some (obj.secure.getD false) }

/-- A message acknowledgement. -/
structure Ack where
  id : Option Int := none
  sts : Option Int := none

def Ack.setProtobuf (self : Ack) (obj : Pb.Ack) : Except PyErr Pb.Ack := do
  let id ← setInt32 self.id
  let status ← setInt32If (self.sts ≠ none) obj.status self.sts
  .ok { obj with id, status }

def Ack.buildFromProtobuf (self : Ack) (obj : Pb.Ack) : Ack :=
  { self with
    id := some (obj.id.getD 0).toInt
    sts := if obj.status.isSome then some (obj.status.getD 0).toInt else self.sts }

/-- An array of leds. `id` is an attribute that only `build_from_protobuf` gives it. -/
structure Leds where
  red : Option String := none
  green : Option String := none
  yellow : Option String := none
  id : Option Int := none

namespace Leds

def RED_BIT : Int32 := 0
def YELLOW_BIT : Int32 := 1
def GREEN_BIT : Int32 := 2

def RED : Int32 := 1 <<< RED_BIT
def YELLOW : Int32 := 1 <<< YELLOW_BIT
def GREEN : Int32 := 1 <<< GREEN_BIT

/-- `if attr`. -/
def truthy (attr : Option String) : Bool := attr ≠ none && attr ≠ some ""

/-- One turn of the loop over the leds. -/
def addLed (bits : Int32 × Int32) (led : Int32) (attr : Option String) : Int32 × Int32 :=
  if truthy attr then (bits.1 ||| led, bits.2 ||| if attr == some "on" then led else 0) else bits

/-- Encode the object into a protobuf binary array. -/
def setProtobuf (self : Leds) (obj : Pb.Command) : Except PyErr Pb.Command :=
  let obj := { obj with id := some 1 }
  let (mask, values) := [(RED, self.red), (YELLOW, self.yellow), (GREEN, self.green)].foldl
    (fun bits led => addLed bits led.1 led.2) (0, 0)
  if mask ≠ 0 then .ok { obj with ivals := obj.ivals ++ [mask, values] } else .ok obj

/-- The state of one led. -/
def switched (mask values led : Int32) (old : Option String) : Option String :=
  if mask &&& led ≠ 0 then some (if values &&& led ≠ 0 then "on" else "off") else old

def buildFromProtobuf (self : Leds) (obj : Pb.Command) : Leds :=
  let self := { self with id := some (obj.id.getD 0).toInt }
  match obj.ivals with
  | [mask, values] =>
    { self with
      red := switched mask values RED self.red
      yellow := switched mask values YELLOW self.yellow
      green := switched mask values GREEN self.green }
  | _ => self

end Leds

inductive ModelClass where
  | profile
  | config
  | ack
  | leds
  deriving DecidableEq

inductive Model where
  | profile (o : Profile)
  | config (o : Config)
  | ack (o : Ack)
  | leds (o : Leds)

namespace Model

def cls : Model → ModelClass
  | profile _ => .profile
  | config _ => .config
  | ack _ => .ack
  | leds _ => .leds

/-- A message of a class that is not the one registered for the model lacks its fields. -/
def setProtobuf : Model → PbMessage → Except PyErr PbMessage
  | profile o, .profile m => (o.setProtobuf m).map .profile
  | config o, .config m => (o.setProtobuf m).map .config
  | ack o, .ack m => (o.setProtobuf m).map .ack
  | leds o, .command m => (o.setProtobuf m).map .command
  | _, _ => .error .attributeError

def buildFromProtobuf : Model → PbMessage → Except PyErr Model
  | profile o, .profile m => .ok (.profile (o.buildFromProtobuf m))
  | config o, .config m => .ok (.config (o.buildFromProtobuf m))
  | ack o, .ack m => .ok (.ack (o.buildFromProtobuf m))
  | leds o, .command m => .ok (.leds (o.buildFromProtobuf m))
  | _, _ => .error .attributeError

end Model

/-- `ModelClass()`. -/
def ModelClass.new : ModelClass → Model
  | profile => .profile {}
  | config => .config {}
  | ack => .ack {}
  | leds => .leds {}

/-- A model with the attribute `dline`, if it has one. -/
structure ModelObj where
  model : Model
  dline : Option Int := none

def protoLib (pb : PbLib) : ProtoLib ModelClass PbClass ModelObj where
  typeOf o := o.model.cls
  dline o := o.dline
  serialize protobufClass o := do
    let protoObj ← o.model.setProtobuf protobufClass.new
    pb.serializeToString protoObj

def modelLib (pb : PbLib) : ModelLib ModelClass PbClass PbMessage ModelObj where
  parse := pb.parseFromString
  build modelClass pobj := do
    let model ← modelClass.new.buildFromProtobuf pobj
    .ok { model }

/-- The calls of `pynais/config.py` and `commands/__init__.py`. -/
def modelCalls : List (ModelCall ModelClass PbClass) :=
  [.addProtobufModel 1 .profile .profile, .addProtobufModel 2 .config .config,
    .addProtobufModel 3 .ack .ack, .setCommand 10 .leds]

def modelClasses : ProtoClasses PbClass := ⟨fun _ => true, .command⟩

/-- The protobuf class that a model class is registered with. -/
def ModelClass.pbClass : ModelClass → PbClass
  | profile => .profile
  | config => .config
  | ack => .ack
  | leds => .command

/-! ### What comes back -/

/-- The objects have the same field values. -/
def Model.Same : Model → Model → Prop
  | profile o, profile o' => o = o'
  | config o, config o' => o = o'
  | ack o, ack o' => o = o'
  | leds o, leds o' => o.red = o'.red ∧ o.green = o'.green ∧ o.yellow = o'.yellow
  | _, _ => False

/-- `unmarshall(marshall(o))` has the field values of `o`. -/
def RoundTrips (pb : PbLib) (o : ModelObj) : Prop :=
  ∃ packet o', marshall (protoLib pb) (registered modelClasses modelCalls) o = .ok packet ∧
    unmarshall (modelLib pb) (registered modelClasses modelCalls) packet = .ok o' ∧
    o.model.Same o'.model

/-- The value is `None` or in the range of an `int32`. -/
def FitsInt32 (n : Option Int) : Prop := ∀ v, n = some v → -2147483648 ≤ v ∧ v ≤ 2147483647

/-- The attribute is `None`, `'on'` or `'off'`. -/
def IsLed (attr : Option String) : Prop := attr = none ∨ attr = some "on" ∨ attr = some "off"

/-- Every field is `None` or has a value of its protobuf type, and `dline` is a byte. -/
def ModelObj.Representable (o : ModelObj) : Prop :=
  (∀ d, o.dline = some d → 0 ≤ d ∧ d < 256) ∧
    match o.model with
    | .profile _ => True
    | .config c => FitsInt32 c.port ∧ FitsInt32 c.alivePeriod
    | .ack a => FitsInt32 a.id ∧ FitsInt32 a.sts
    | .leds l => IsLed l.red ∧ IsLed l.green ∧ IsLed l.yellow

/-- No field is `None`, other than the status of an ack and the colour of a led. -/
def Model.Filled : Model → Prop
  | profile o => o.uid.isSome ∧ o.pwd.isSome
  | config o =>
    o.network.isSome ∧ o.board.isSome ∧ o.host.isSome ∧ o.port.isSome ∧ o.alivePeriod.isSome ∧
      o.secure.isSome
  | ack o => o.id.isSome
  | leds _ => True

/-- The model has its field values again when it is built from the message that it fills. -/
def Model.Survives (o : Model) : Prop :=
  ∃ m o', o.setProtobuf o.cls.pbClass.new = .ok m ∧ o.cls.new.buildFromProtobuf m = .ok o' ∧ o.Same o'

section Setters

lemma setField_ok_iff {α : Type} (x y : Option α) : setField x = .ok y ↔ x.isSome ∧ y = x := by
  cases x with
  | none => simp [setField]
  | some x => simp [setField, eq_comm]

lemma setInt32_ok_iff (x : Option Int) (y : Option Int32) :
    setInt32 x = .ok y ↔ (x.isSome ∧ FitsInt32 x) ∧ y = x.map Int32.ofInt := by
  cases x with
  | none => simp [setInt32]
  | some n =>
    by_cases h : -2147483648 ≤ n ∧ n ≤ 2147483647
    · simp [setInt32, FitsInt32, h, eq_comm]
    · simp [setInt32, FitsInt32, h]

lemma bind_ok_iff {α β : Type} (x : Except PyErr α) (f : α → Except PyErr β) (b : β) :
    (x >>= f) = .ok b ↔ ∃ a, x = .ok a ∧ f a = .ok b := by
  cases x with
  | error e => simp [Bind.bind, Except.bind]
  | ok a => simp [Bind.bind, Except.bind]

lemma map_ok_iff {α β : Type} (x : Except PyErr α) (f : α → β) (b : β) :
    x.map f = .ok b ↔ ∃ a, x = .ok a ∧ b = f a := by
  cases x with
  | error e => simp [Except.map]
  | ok a => simp [Except.map, eq_comm]

/-- The value of an `int32` field is the number that was assigned to it. -/
lemma toInt_ofInt {n : Option Int} (h : FitsInt32 n) (hsome : n.isSome) (default : Int32) :
    some ((n.map Int32.ofInt).getD default).toInt = n := by
  obtain ⟨v, rfl⟩ := Option.isSome_iff_exists.mp hsome
  obtain ⟨hlow, hhigh⟩ := h v rfl
  rw [Option.map_some, Option.getD_some, Int32.toInt_ofInt_of_le (by omega) (by omega)]

lemma some_getD {α : Type} {x : Option α} (h : x.isSome) (default : α) : some (x.getD default) = x := by
  obtain ⟨v, rfl⟩ := Option.isSome_iff_exists.mp h
  rfl

end Setters

section Classes

lemma Profile.setProtobuf_ok_iff (o : Profile) (m : Pb.Profile) :
    o.setProtobuf {} = .ok m ↔ (o.uid.isSome ∧ o.pwd.isSome) ∧ m = ⟨o.uid, o.pwd⟩ := by
  simp only [setProtobuf, bind_ok_iff, setField_ok_iff, Except.ok.injEq]
  constructor
  · rintro ⟨uid, ⟨huid, rfl⟩, pwd, ⟨hpwd, rfl⟩, rfl⟩
    exact ⟨⟨huid, hpwd⟩, rfl⟩
  · rintro ⟨⟨huid, hpwd⟩, rfl⟩
    exact ⟨_, ⟨huid, rfl⟩, _, ⟨hpwd, rfl⟩, rfl⟩

lemma survives_profile_iff (o : Profile) : (Model.profile o).Survives ↔ o.uid.isSome ∧ o.pwd.isSome := by
  constructor
  · rintro ⟨_, _, hset, -, -⟩
    obtain ⟨m, hm, -⟩ := (map_ok_iff ..).mp hset
    exact ((o.setProtobuf_ok_iff m).mp hm).1
  · intro hfilled
    have hm := (o.setProtobuf_ok_iff _).mpr ⟨hfilled, rfl⟩
    refine ⟨_, _, (map_ok_iff ..).mpr ⟨_, hm, rfl⟩, rfl, ?_⟩
    change o = Profile.buildFromProtobuf {} ⟨o.uid, o.pwd⟩
    simp only [Profile.buildFromProtobuf, some_getD hfilled.1, some_getD hfilled.2]

/-- The alive period that reaches the message: a 0 is left out. -/
def Config.sentAlivePeriod (o : Config) : Option Int32 :=
  if o.alivePeriod = some 0 then none else o.alivePeriod.map Int32.ofInt

lemma Config.setProtobuf_ok_iff (o : Config) (m : Pb.Config) :
    o.setProtobuf {} = .ok m ↔
      (o.network.isSome ∧ o.board.isSome ∧ o.host.isSome ∧ (o.port.isSome ∧ FitsInt32 o.port) ∧
        FitsInt32 o.alivePeriod ∧ o.secure.isSome) ∧
      m = ⟨o.network, o.board, o.host, o.port.map Int32.ofInt, o.sentAlivePeriod, o.secure⟩ := by
  have halive (y : Option Int32) :
      setInt32If (o.alivePeriod ≠ none && o.alivePeriod ≠ some 0) none o.alivePeriod = .ok y ↔
        FitsInt32 o.alivePeriod ∧ y = o.sentAlivePeriod := by
    unfold sentAlivePeriod setInt32If
    cases hp : o.alivePeriod with
    | none => simp [FitsInt32, eq_comm]
    | some n =>
      by_cases hn : n = 0
      · simp [FitsInt32, hn, eq_comm]
      · simp [setInt32_ok_iff, hn]
  simp only [setProtobuf, bind_ok_iff, setField_ok_iff, setInt32_ok_iff, halive, Except.ok.injEq]
  constructor
  · rintro ⟨network, ⟨h₁, rfl⟩, board, ⟨h₂, rfl⟩, host, ⟨h₃, rfl⟩, port, ⟨h₄, rfl⟩, alive, ⟨h₅, rfl⟩,
      secure, ⟨h₆, rfl⟩, rfl⟩
    exact ⟨⟨h₁, h₂, h₃, h₄, h₅, h₆⟩, rfl⟩
  · rintro ⟨⟨h₁, h₂, h₃, h₄, h₅, h₆⟩, rfl⟩
    exact ⟨_, ⟨h₁, rfl⟩, _, ⟨h₂, rfl⟩, _, ⟨h₃, rfl⟩, _, ⟨h₄, rfl⟩, _, ⟨h₅, rfl⟩, _, ⟨h₆, rfl⟩, rfl⟩

/-- An alive period comes back as a number, also where it was `None`. -/
lemma Config.sentAlivePeriod_back (o : Config) (h : FitsInt32 o.alivePeriod) :
    some (o.sentAlivePeriod.getD 0).toInt = o.alivePeriod ↔ o.alivePeriod.isSome := by
  constructor
  · intro hback
    rw [← hback]
    rfl
  · intro hsome
    unfold sentAlivePeriod
    by_cases hzero : o.alivePeriod = some 0
    · rw [if_pos hzero, hzero]
      rfl
    · rw [if_neg hzero, toInt_ofInt h hsome]

lemma survives_config_iff (o : Config) :
    (Model.config o).Survives ↔
      (FitsInt32 o.port ∧ FitsInt32 o.alivePeriod) ∧ (Model.config o).Filled := by
  constructor
  · rintro ⟨_, _, hset, hbuild, hsame⟩
    obtain ⟨m, hm, rfl⟩ := (map_ok_iff ..).mp hset
    obtain ⟨⟨h₁, h₂, h₃, ⟨h₄, hport⟩, halive, h₆⟩, rfl⟩ := (o.setProtobuf_ok_iff m).mp hm
    cases hbuild
    have hback := (o.sentAlivePeriod_back halive).mp (congrArg Config.alivePeriod hsame).symm
    exact ⟨⟨hport, halive⟩, h₁, h₂, h₃, h₄, hback, h₆⟩
  · rintro ⟨⟨hport, halive⟩, h₁, h₂, h₃, h₄, h₅, h₆⟩
    have hm := (o.setProtobuf_ok_iff _).mpr ⟨⟨h₁, h₂, h₃, ⟨h₄, hport⟩, halive, h₆⟩, rfl⟩
    refine ⟨_, _, (map_ok_iff ..).mpr ⟨_, hm, rfl⟩, rfl, ?_⟩
    change o = Config.buildFromProtobuf {} _
    simp only [Config.buildFromProtobuf, some_getD h₁, some_getD h₂, some_getD h₃, some_getD h₆,
      toInt_ofInt hport h₄, (o.sentAlivePeriod_back halive).mpr h₅]

lemma Ack.setProtobuf_ok_iff (o : Ack) (m : Pb.Ack) :
    o.setProtobuf {} = .ok m ↔
      ((o.id.isSome ∧ FitsInt32 o.id) ∧ FitsInt32 o.sts) ∧
        m = ⟨o.id.map Int32.ofInt, none, o.sts.map Int32.ofInt⟩ := by
  have hsts (y : Option Int32) :
      setInt32If (o.sts ≠ none) none o.sts = .ok y ↔
        FitsInt32 o.sts ∧ y = o.sts.map Int32.ofInt := by
    unfold setInt32If
    cases o.sts with
    | none => simp [FitsInt32, eq_comm]
    | some n => simp [setInt32_ok_iff]
  simp only [setProtobuf, bind_ok_iff, setInt32_ok_iff, hsts, Except.ok.injEq]
  constructor
  · rintro ⟨id, ⟨h₁, rfl⟩, status, ⟨h₂, rfl⟩, rfl⟩
    exact ⟨⟨h₁, h₂⟩, rfl⟩
  · rintro ⟨⟨h₁, h₂⟩, rfl⟩
    exact ⟨_, ⟨h₁, rfl⟩, _, ⟨h₂, rfl⟩, rfl⟩

lemma survives_ack_iff (o : Ack) :
    (Model.ack o).Survives ↔ (FitsInt32 o.id ∧ FitsInt32 o.sts) ∧ o.id.isSome := by
  constructor
  · rintro ⟨_, _, hset, -, -⟩
    obtain ⟨m, hm, rfl⟩ := (map_ok_iff ..).mp hset
    obtain ⟨⟨⟨hid, hfit⟩, hsts⟩, -⟩ := (o.setProtobuf_ok_iff m).mp hm
    exact ⟨⟨hfit, hsts⟩, hid⟩
  · rintro ⟨⟨hfit, hsts⟩, hid⟩
    have hm := (o.setProtobuf_ok_iff _).mpr ⟨⟨⟨hid, hfit⟩, hsts⟩, rfl⟩
    refine ⟨_, _, (map_ok_iff ..).mpr ⟨_, hm, rfl⟩, rfl, ?_⟩
    change o = Ack.buildFromProtobuf {} _
    have hback : (if (o.sts.map Int32.ofInt).isSome then some ((o.sts.map Int32.ofInt).getD 0).toInt
        else none) = o.sts := by
      cases h : o.sts with
      | none => rfl
      | some n =>
        rw [h] at hsts
        exact toInt_ofInt hsts rfl 0
    simp only [Ack.buildFromProtobuf, toInt_ofInt hfit hid, hback]

end Classes

section LedBits

namespace Leds

/-- What a led is after the trip. -/
def shown (attr : Option String) : Option String :=
  if truthy attr then some (if attr == some "on" then "on" else "off") else none

lemma shown_eq_iff (attr : Option String) : shown attr = attr ↔ IsLed attr := by
  unfold shown truthy IsLed
  cases attr with
  | none => simp
  | some s =>
    by_cases hon : s = "on"
    · simp [hon]
    · by_cases hempty : s = ""
      · simp [hempty]
      · simp only [hon, hempty, Option.some.injEq, beq_iff_eq, reduceCtorEq, ne_eq, not_false_eq_true,
          decide_true, Bool.and_true, if_true, if_false, false_or]
        exact eq_comm

/-- The mask and the values of three leds. -/
def bits (self : Leds) : Int32 × Int32 :=
  addLed (addLed (addLed (0, 0) RED self.red) YELLOW self.yellow) GREEN self.green

/-- Without a led in the mask nothing is switched, and with one every led is as it was sent. -/
lemma bits_switched (self : Leds) :
    (self.bits.1 = 0 → shown self.red = none ∧ shown self.yellow = none ∧ shown self.green = none) ∧
      switched self.bits.1 self.bits.2 RED none = shown self.red ∧
      switched self.bits.1 self.bits.2 YELLOW none = shown self.yellow ∧
      switched self.bits.1 self.bits.2 GREEN none = shown self.green := by
  unfold bits shown addLed switched
  -- only the truth of each attribute and its comparison with 'on' matter
  generalize truthy self.red = r
  generalize truthy self.yellow = y
  generalize truthy self.green = g
  generalize (self.red == some "on") = ron
  generalize (self.yellow == some "on") = yon
  generalize (self.green == some "on") = gon
  revert r y g ron yon gon
  decide

lemma setProtobuf_new (self : Leds) :
    self.setProtobuf {} =
      .ok { id := some 1, ivals := if self.bits.1 ≠ 0 then [self.bits.1, self.bits.2] else [] } := by
  have hcode : self.setProtobuf {} =
      if self.bits.1 ≠ 0 then .ok { id := some 1, ivals := [] ++ [self.bits.1, self.bits.2] }
      else .ok { id := some 1 } := rfl
  rw [hcode]
  by_cases hmask : self.bits.1 ≠ 0
  · rw [if_pos hmask, if_pos hmask, List.nil_append]
  · rw [if_neg hmask, if_neg hmask]

end Leds

lemma survives_leds_iff (o : Leds) :
    (Model.leds o).Survives ↔ IsLed o.red ∧ IsLed o.green ∧ IsLed o.yellow := by
  obtain ⟨hnone, hred, hyellow, hgreen⟩ := o.bits_switched
  have hback : ∀ m, o.setProtobuf {} = .ok m →
      let o' := Leds.buildFromProtobuf {} m
      o'.red = Leds.shown o.red ∧ o'.green = Leds.shown o.green ∧ o'.yellow = Leds.shown o.yellow := by
    intro m hm
    rw [o.setProtobuf_new] at hm
    cases hm
    by_cases hmask : o.bits.1 = 0
    · obtain ⟨hr, hy, hg⟩ := hnone hmask
      simp [Leds.buildFromProtobuf, hmask, hr, hy, hg]
    · simp [Leds.buildFromProtobuf, hmask, hred, hyellow, hgreen]
  rw [← Leds.shown_eq_iff, ← Leds.shown_eq_iff, ← Leds.shown_eq_iff]
  constructor
  · rintro ⟨_, _, hset, hbuild, hsame⟩
    obtain ⟨m, hm, rfl⟩ := (map_ok_iff ..).mp hset
    cases hbuild
    obtain ⟨hr, hg, hy⟩ := hsame
    obtain ⟨hr', hg', hy'⟩ := hback m hm
    exact ⟨hr'.symm.trans hr.symm, hg'.symm.trans hg.symm, hy'.symm.trans hy.symm⟩
  · rintro ⟨hr, hg, hy⟩
    obtain ⟨hr', hg', hy'⟩ := hback _ o.setProtobuf_new
    exact ⟨_, _, (map_ok_iff ..).mpr ⟨_, o.setProtobuf_new, rfl⟩, rfl, (hr'.trans hr).symm,
      (hg'.trans hg).symm, (hy'.trans hy).symm⟩

end LedBits

section RoundTrip

/-- A message that a model has filled has its required fields. -/
lemma setProtobuf_initialized {o : Model} {m : PbMessage} (h : o.setProtobuf o.cls.pbClass.new = .ok m) :
    m.IsInitialized ∧ m.cls = o.cls.pbClass := by
  cases o with
  | profile o =>
    obtain ⟨m, hm, rfl⟩ := (map_ok_iff ..).mp h
    obtain ⟨hfilled, rfl⟩ := (o.setProtobuf_ok_iff m).mp hm
    exact ⟨hfilled, rfl⟩
  | config o =>
    obtain ⟨m, hm, rfl⟩ := (map_ok_iff ..).mp h
    obtain ⟨⟨h₁, h₂, h₃, -⟩, rfl⟩ := (o.setProtobuf_ok_iff m).mp hm
    exact ⟨⟨h₁, h₂, h₃⟩, rfl⟩
  | ack o =>
    obtain ⟨m, hm, rfl⟩ := (map_ok_iff ..).mp h
    obtain ⟨⟨⟨hid, -⟩, -⟩, rfl⟩ := (o.setProtobuf_ok_iff m).mp hm
    exact ⟨Option.isSome_map.trans hid, rfl⟩
  | leds o =>
    obtain ⟨m, hm, rfl⟩ := (map_ok_iff ..).mp h
    rw [o.setProtobuf_new] at hm
    cases hm
    exact ⟨rfl, rfl⟩

lemma protoFromClass_modelCalls (c : ModelClass) :
    ∃ oid, (registered modelClasses modelCalls).protoFromClass c = some (oid, c.pbClass) ∧
      0 ≤ oid ∧ oid < 256 := by
  cases c with
  | profile => exact ⟨1, rfl, by decide, by decide⟩
  | config => exact ⟨2, rfl, by decide, by decide⟩
  | ack => exact ⟨3, rfl, by decide, by decide⟩
  | leds => exact ⟨10, rfl, by decide, by decide⟩

/-- What `set_protobuf` and `build_from_protobuf` do decides about the trip. -/
lemma roundTrips_iff_survives (pb : PbLib) (o : ModelObj) :
    RoundTrips pb o ↔ (∀ d, o.dline = some d → 0 ≤ d ∧ d < 256) ∧ o.model.Survives := by
  obtain ⟨oid, hoid, hrange⟩ := protoFromClass_modelCalls o.model.cls
  have hdline : (0 ≤ o.dline.getD 0 ∧ o.dline.getD 0 < 256) ↔
      ∀ d, o.dline = some d → 0 ≤ d ∧ d < 256 := by
    cases o.dline <;> simp
  constructor
  · rintro ⟨packet, o', hmarshall, hunmarshall, hsame⟩
    obtain ⟨_, _, _, -, -, hbyte, -, -⟩ := (marshall_ok_iff ..).mp hmarshall
    obtain ⟨_, protobufClass, payload, hreg, hser, hback, -⟩ :=
      unmarshall_marshall (protoLib pb) (modelLib pb) modelClasses modelCalls o packet hmarshall
    rw [show (protoLib pb).typeOf o = o.model.cls from rfl, hoid] at hreg
    cases hreg
    obtain ⟨m, hset, hbytes⟩ := (bind_ok_iff ..).mp hser
    obtain ⟨hinit, hcls⟩ := setProtobuf_initialized hset
    obtain ⟨bs, hbs, hparse⟩ := pb.parse_serialize m hinit
    rw [hbytes] at hbs
    cases hbs
    rw [hcls] at hparse
    rw [hunmarshall, show (modelLib pb).parse o.model.cls.pbClass payload = .ok m from hparse] at hback
    have hbuilt : (modelLib pb).build o.model.cls m = .ok o' := hback.symm
    obtain ⟨model, hbuild, hobj⟩ := (bind_ok_iff ..).mp hbuilt
    cases hobj
    exact ⟨hdline.mp hbyte, m, model, hset, hbuild, hsame⟩
  · rintro ⟨hbyte, m, model, hset, hbuild, hsame⟩
    obtain ⟨hinit, hcls⟩ := setProtobuf_initialized hset
    obtain ⟨bs, hbs, hparse⟩ := pb.parse_serialize m hinit
    have hser : (protoLib pb).serialize o.model.cls.pbClass o = .ok bs :=
      (bind_ok_iff ..).mpr ⟨m, hset, hbs⟩
    have hmarshall := (marshall_ok_iff (protoLib pb) (registered modelClasses modelCalls) o _).mpr
      ⟨oid, o.model.cls.pbClass, bs, hoid, hrange, hdline.mpr hbyte, hser, rfl⟩
    obtain ⟨_, protobufClass, payload, hreg, hser', hback, -⟩ :=
      unmarshall_marshall (protoLib pb) (modelLib pb) modelClasses modelCalls o _ hmarshall
    rw [show (protoLib pb).typeOf o = o.model.cls from rfl, hoid] at hreg
    cases hreg
    rw [hser] at hser'
    cases hser'
    refine ⟨_, { model }, hmarshall, ?_, hsame⟩
    rw [hcls] at hparse
    rw [hback, show (modelLib pb).parse o.model.cls.pbClass bs = .ok m from hparse]
    have hbuilt : (modelLib pb).build o.model.cls m = .ok { model } :=
      (bind_ok_iff ..).mpr ⟨model, hbuild, rfl⟩
    exact hbuilt

/-- An object of one of the four classes comes back with its field values exactly when they
are representable and none is `None`, other than the status of an ack and the colours. -/
theorem models_round_trip_iff (pb : PbLib) (o : ModelObj) :
    RoundTrips pb o ↔ o.Representable ∧ o.model.Filled := by
  rw [roundTrips_iff_survives]
  obtain ⟨model, dline⟩ := o
  unfold ModelObj.Representable Model.Filled
  cases model with
  | profile o => simp [survives_profile_iff]
  | config o => simp [survives_config_iff, Model.Filled, and_assoc]
  | ack o => simp [survives_ack_iff, and_assoc]
  | leds o => simp [survives_leds_iff]

end RoundTrip

section Sample

instance encodableChar : Encodable Char :=
  Encodable.ofLeftInverse Char.toNat Char.ofNat Char.ofNat_toNat

instance encodableString : Encodable String :=
  Encodable.ofLeftInverse String.toList String.ofList fun _ => String.ofList_toList

instance encodableInt32 : Encodable Int32 :=
  Encodable.ofLeftInverse Int32.toInt Int32.ofInt fun _ => Int32.ofInt_toInt ..

deriving instance Encodable for Pb.Profile
deriving instance Encodable for Pb.Config
deriving instance Encodable for Pb.Ack
deriving instance Encodable for Pb.Command
deriving instance Encodable for PbMessage

/-- What `Config()` fills. -/
def defaultMessage : PbMessage :=
  .config ⟨some "local", some "", some "localhost", some 1883, none, some false⟩

def defaultBytes : List UInt8 :=
  [0x0A, 5, 108, 111, 99, 97, 108, 0x12, 0, 0x1A, 9, 108, 111, 99, 97, 108, 104, 111, 115, 116, 0x20,
    0xDB, 0x0E, 0x30, 0]

/-- The bytes of the library for the message of `Config()`, and for any other message as many
zeros as its number. -/
def samplePb : PbLib where
  serializeToString m :=
    .ok (if m = defaultMessage then defaultBytes else List.replicate (Encodable.encode m) 0)
  parseFromString c bs :=
    if c = .config ∧ bs = defaultBytes then .ok defaultMessage
    else match Encodable.decode (α := PbMessage) bs.length with
      | some m => if m.cls = c then .ok m else .error .raised
      | none => .error .raised
  parse_serialize m _ := by
    refine ⟨_, rfl, ?_⟩
    by_cases hm : m = defaultMessage
    · subst hm
      rfl
    · have hzeros : List.replicate (Encodable.encode m) 0 ≠ defaultBytes := by
        intro h
        have hmem : (0x0A : UInt8) ∈ List.replicate (Encodable.encode m) 0 := by
          rw [h]
          decide
        have hzero := List.eq_of_mem_replicate hmem
        exact absurd hzero (by decide)
      rw [if_neg hm, if_neg fun h => hzeros h.2, List.length_replicate, Encodable.encodek]
      exact if_pos rfl

/-- `Config()` has no alive period, and comes back with an alive period of 0. -/
theorem alive_period_none_lost :
    ¬∀ (pb : PbLib) (c : Config), ({ model := .config c } : ModelObj).Representable →
      c.network.isSome → c.board.isSome → c.host.isSome → c.port.isSome → c.secure.isSome →
      RoundTrips pb { model := .config c } := by
  intro hall
  have hfits : ({ model := .config {} } : ModelObj).Representable := by
    refine ⟨by simp, ?_, by simp [FitsInt32]⟩
    rintro v ⟨⟩
    decide
  have hsurvives := ((roundTrips_iff_survives samplePb _).mp (hall samplePb {} hfits rfl rfl rfl rfl rfl)).2
  obtain ⟨-, -, -, -, -, halive, -⟩ := (survives_config_iff _).mp hsurvives
  cases halive

end Sample

end Nais.Host
