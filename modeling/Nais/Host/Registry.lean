import Nais.Lib.Run
import Nais.Host.Unmarshall

/-!
# The two maps of the registry

`msg_id` and `msg_type` of `pynais/nais.py` look a model up by its class and by its id.
`add_protobuf_model` writes both maps and checks one of the keys.
-/

namespace Nais.Host
open Nais.Lib.Run

/-- The model classes and their instances. Calling a class gives an instance of it. -/
structure ModelClasses (C O : Type) where
  typeOf : O → C
  new : C → O
  typeOf_new : ∀ modelClass, typeOf (new modelClass) = modelClass

section Lookup

variable {C P O : Type}

/-- Return the message identifier. -/
def msgId (models : ModelClasses C O) (reg : Registry C P) (message : O) : Except PyErr Int :=
  match reg.protoFromClass (models.typeOf message) with
  | none => .error .keyError
  | some (oid, _) => .ok oid

/-- Return the message type from `id`. -/
def msgType (reg : Registry C P) (id : Int) : Except PyErr C :=
  match reg.cidToClasses id with
  | none => .error .invalidObjectId
  | some (_, modelClass) => .ok modelClass

lemma msgId_ok_iff (models : ModelClasses C O) (reg : Registry C P) (message : O) (id : Int) :
    msgId models reg message = .ok id ↔
      ∃ protobufClass, reg.protoFromClass (models.typeOf message) = some (id, protobufClass) := by
  unfold msgId
  cases reg.protoFromClass (models.typeOf message) with
  | none => simp
  | some t => simp [Prod.ext_iff]

lemma msgType_ok_iff (reg : Registry C P) (id : Int) (modelClass : C) :
    msgType reg id = .ok modelClass ↔
      ∃ protobufClass, reg.cidToClasses id = some (protobufClass, modelClass) := by
  unfold msgType
  cases reg.cidToClasses id with
  | none => simp
  | some t => simp [Prod.ext_iff]

/-- `msg_id` and `msg_type` are inverse to each other on all that is registered. -/
structure Registry.Inverse (models : ModelClasses C O) (reg : Registry C P) : Prop where
  msgId_msgType : ∀ id modelClass, msgType reg id = .ok modelClass →
    ∀ message, models.typeOf message = modelClass → msgId models reg message = .ok id
  msgType_msgId : ∀ message id, msgId models reg message = .ok id →
    msgType reg id = .ok (models.typeOf message)

lemma Registry.inverse_empty (models : ModelClasses C O) :
    (Registry.empty : Registry C P).Inverse models := by
  constructor
  · intro id modelClass h
    cases h
  · intro message id h
    cases h

end Lookup

section Calls

variable {C P O : Type} [DecidableEq C]

/-- The maps with one more model. -/
def Registry.extend (reg : Registry C P) (oid : Int) (protobufClass : P) (modelClass : C) :
    Registry C P :=
  ⟨Function.update reg.cidToClasses oid (some (protobufClass, modelClass)),
    Function.update reg.protoFromClass modelClass (some (oid, protobufClass))⟩

namespace Registry

variable (reg : Registry C P) (oid : Int) (protobufClass : P) (modelClass : C)

@[simp] lemma extend_cid_self :
    (reg.extend oid protobufClass modelClass).cidToClasses oid = some (protobufClass, modelClass) :=
  Function.update_self ..

@[simp] lemma extend_class_self :
    (reg.extend oid protobufClass modelClass).protoFromClass modelClass = some (oid, protobufClass) :=
  Function.update_self ..

lemma extend_cid_of_ne {id : Int} (h : id ≠ oid) :
    (reg.extend oid protobufClass modelClass).cidToClasses id = reg.cidToClasses id :=
  Function.update_of_ne h ..

lemma extend_class_of_ne {modelClass' : C} (h : modelClass' ≠ modelClass) :
    (reg.extend oid protobufClass modelClass).protoFromClass modelClass' =
      reg.protoFromClass modelClass' :=
  Function.update_of_ne h ..

end Registry

/-- The statements of `add_protobuf_model`: what they return or raise, and the maps then. -/
def addProtobufModelStmts (classes : ProtoClasses P) (reg : Registry C P) (oid : Int)
    (protobufClass : P) (modelClass : C) : Except PyErr Unit × Registry C P :=
  if !classes.isGenerated protobufClass then (.error .invalidProtoclass, reg)
  else if (reg.cidToClasses oid).isSome then (.error .uniqueObjectId, reg)
  else
    let reg :=
      { reg with cidToClasses := Function.update reg.cidToClasses oid (some (protobufClass, modelClass)) }
    let reg :=
      { reg with protoFromClass := Function.update reg.protoFromClass modelClass (some (oid, protobufClass)) }
    (.ok (), reg)

/-- Nothing has been written when one of the two exceptions is raised. -/
lemma addProtobufModelStmts_eq (classes : ProtoClasses P) (reg : Registry C P) (oid : Int)
    (protobufClass : P) (modelClass : C) :
    addProtobufModelStmts classes reg oid protobufClass modelClass =
      match addProtobufModel classes reg oid protobufClass modelClass with
      | .ok reg' => (.ok (), reg')
      | .error e => (.error e, reg) := by
  unfold addProtobufModelStmts addProtobufModel
  split_ifs <;> rfl

namespace ModelCall

def oid : ModelCall C P → Int
  | addProtobufModel oid _ _ => oid
  | setCommand id _ => id

def modelClass : ModelCall C P → C
  | addProtobufModel _ _ modelClass => modelClass
  | setCommand _ model => model

def protobufClass (classes : ProtoClasses P) : ModelCall C P → P
  | addProtobufModel _ protobufClass _ => protobufClass
  | setCommand _ _ => classes.command

/-- What the call returns or raises, and the maps afterwards. -/
def exec (classes : ProtoClasses P) (reg : Registry C P) : ModelCall C P → Except PyErr Unit × Registry C P
  | addProtobufModel oid protobufClass modelClass =>
    addProtobufModelStmts classes reg oid protobufClass modelClass
  | setCommand id model => addProtobufModelStmts classes reg id classes.command model

/-- The model class is new where the call gets past the checks. -/
def NewModel (classes : ProtoClasses P) (reg : Registry C P) (c : ModelCall C P) : Prop :=
  classes.isGenerated (c.protobufClass classes) → reg.cidToClasses c.oid = none →
    reg.protoFromClass c.modelClass = none

lemma exec_eq (classes : ProtoClasses P) (reg : Registry C P) (c : ModelCall C P) :
    c.exec classes reg =
      match c.call classes reg with
      | .ok reg' => (.ok (), reg')
      | .error e => (.error e, reg) := by
  cases c with
  | addProtobufModel oid protobufClass modelClass => exact addProtobufModelStmts_eq ..
  | setCommand id model => exact addProtobufModelStmts_eq ..

lemma exec_snd (classes : ProtoClasses P) (reg : Registry C P) (c : ModelCall C P) :
    (c.exec classes reg).2 = c.after classes reg := by
  rw [exec_eq, after]
  cases c.call classes reg <;> rfl

lemma exec_of_rejected {classes : ProtoClasses P} {reg : Registry C P} {c : ModelCall C P} {e : PyErr}
    (h : (c.exec classes reg).1 = .error e) : (c.exec classes reg).2 = reg := by
  rw [exec_eq] at h ⊢
  cases hc : c.call classes reg with
  | ok reg' => simp [hc] at h
  | error e' => rfl

/-- A call is rejected and changes nothing, or its id is new and both maps are extended. -/
lemma exec_cases (classes : ProtoClasses P) (reg : Registry C P) (c : ModelCall C P) :
    (¬(classes.isGenerated (c.protobufClass classes) ∧ reg.cidToClasses c.oid = none) ∧
      (c.exec classes reg).2 = reg) ∨
    ((classes.isGenerated (c.protobufClass classes) ∧ reg.cidToClasses c.oid = none) ∧
      (c.exec classes reg).2 = reg.extend c.oid (c.protobufClass classes) c.modelClass) := by
  have hcall : c.call classes reg =
      Host.addProtobufModel classes reg c.oid (c.protobufClass classes) c.modelClass := by
    cases c <;> rfl
  rw [exec_snd, after, hcall, Host.addProtobufModel]
  by_cases hgen : classes.isGenerated (c.protobufClass classes)
  · cases hcid : reg.cidToClasses c.oid with
    | none => simp [hgen, Registry.extend]
    | some t => simp [hgen]
  · simp [hgen]

end ModelCall

/-- With a new id, the extended maps are inverse exactly when the class is new as well. -/
lemma inverse_extend_iff (models : ModelClasses C O) {reg : Registry C P} (hreg : reg.Inverse models)
    {oid : Int} {modelClass : C} (protobufClass : P) (hnew : reg.cidToClasses oid = none) :
    (reg.extend oid protobufClass modelClass).Inverse models ↔ reg.protoFromClass modelClass = none := by
  have hother : ∀ {message id}, msgId models reg message = .ok id → id ≠ oid := by
    rintro message id hid rfl
    obtain ⟨protobufClass', hcid⟩ := (msgType_ok_iff ..).mp (hreg.msgType_msgId _ _ hid)
    rw [hnew] at hcid
    cases hcid
  constructor
  · intro hinv
    by_contra hclass
    obtain ⟨⟨id, protobufClass'⟩, hentry⟩ := Option.ne_none_iff_exists'.mp hclass
    -- the old id still leads to the class, the class now leads to the new id
    have hnewType := models.typeOf_new modelClass
    have hid : msgId models reg (models.new modelClass) = .ok id :=
      (msgId_ok_iff ..).mpr ⟨protobufClass', by rw [hnewType, hentry]⟩
    obtain ⟨protobufClass'', hcid⟩ := (msgType_ok_iff ..).mp (hreg.msgType_msgId _ _ hid)
    have hback := hinv.msgId_msgType id modelClass
      ((msgType_ok_iff ..).mpr ⟨protobufClass'', by
        rw [reg.extend_cid_of_ne _ _ _ (hother hid), hcid, hnewType]⟩) _ hnewType
    obtain ⟨p, hp⟩ := (msgId_ok_iff ..).mp hback
    rw [hnewType, Registry.extend_class_self] at hp
    cases hp
    exact hother hid rfl
  · intro hclass
    constructor
    · intro id modelClass' htype message hmessage
      obtain ⟨p, hp⟩ := (msgType_ok_iff ..).mp htype
      rw [msgId_ok_iff, hmessage]
      by_cases heq : id = oid
      · subst heq
        rw [Registry.extend_cid_self] at hp
        cases hp
        exact ⟨_, reg.extend_class_self ..⟩
      · rw [reg.extend_cid_of_ne _ _ _ heq] at hp
        have hid := hreg.msgId_msgType id modelClass' ((msgType_ok_iff ..).mpr ⟨p, hp⟩) message hmessage
        obtain ⟨p', hp'⟩ := (msgId_ok_iff ..).mp hid
        rw [hmessage] at hp'
        have hne : modelClass' ≠ modelClass := by
          rintro rfl
          rw [hclass] at hp'
          cases hp'
        exact ⟨p', by rw [reg.extend_class_of_ne _ _ _ hne, hp']⟩
    · intro message id hid
      obtain ⟨p, hp⟩ := (msgId_ok_iff ..).mp hid
      rw [msgType_ok_iff]
      by_cases heq : models.typeOf message = modelClass
      · rw [heq, Registry.extend_class_self] at hp
        cases hp
        exact ⟨_, by rw [Registry.extend_cid_self, heq]⟩
      · rw [reg.extend_class_of_ne _ _ _ heq] at hp
        have hold : msgId models reg message = .ok id := (msgId_ok_iff ..).mpr ⟨p, hp⟩
        obtain ⟨p', hp'⟩ := (msgType_ok_iff ..).mp (hreg.msgType_msgId _ _ hold)
        exact ⟨p', by rw [reg.extend_cid_of_ne _ _ _ (hother hold), hp']⟩

lemma exec_inverse_iff (models : ModelClasses C O) (classes : ProtoClasses P) {reg : Registry C P}
    (hreg : reg.Inverse models) (c : ModelCall C P) :
    (c.exec classes reg).2.Inverse models ↔ c.NewModel classes reg := by
  obtain ⟨hrejected, hsame⟩ | ⟨⟨hgen, hnew⟩, hext⟩ := c.exec_cases classes reg
  · rw [hsame]
    exact iff_of_true hreg fun hgen hnew => absurd ⟨hgen, hnew⟩ hrejected
  · rw [hext, inverse_extend_iff models hreg _ hnew]
    exact ⟨fun hclass _ _ => hclass, fun h => h hgen hnew⟩

/-- Rejected calls change nothing, and the two maps stay inverse to each other exactly in the
runs in which every accepted call registers a new class. -/
theorem registry_inverse_iff (models : ModelClasses C O) (classes : ProtoClasses P)
    (calls : List (ModelCall C P)) :
    ((∀ reg, ∀ c ∈ calls, ∀ e, (c.exec classes reg).1 = .error e → (c.exec classes reg).2 = reg) ∧
      Throughout (fun reg c => (c.exec classes reg).2) (Registry.Inverse models) Registry.empty calls) ↔
      Meets (fun reg c => (c.exec classes reg).2) (fun reg c => c.NewModel classes reg) Registry.empty
        calls := by
  have hrejected : ∀ reg, ∀ c ∈ calls, ∀ e, (c.exec classes reg).1 = .error e →
      (c.exec classes reg).2 = reg := fun reg c _ e h => c.exec_of_rejected h
  rw [and_iff_right hrejected]
  exact throughout_iff_meets (fun reg c => c.NewModel classes reg) (fun _ => True)
    (Registry.Inverse models) (fun _ _ _ => trivial)
    (fun reg c _ hreg => exec_inverse_iff models classes hreg c) trivial
    (Registry.inverse_empty models)

/-- One class under two ids: `msg_id` of an instance of `msg_type(10)` is 11. -/
theorem two_ids_not_inverse :
    ¬∀ (models : ModelClasses Unit Unit) (classes : ProtoClasses Unit) (calls : List (ModelCall Unit Unit)),
      (∀ reg, ∀ c ∈ calls, ∀ e, (c.exec classes reg).1 = .error e → (c.exec classes reg).2 = reg) ∧
        Throughout (fun reg c => (c.exec classes reg).2) (Registry.Inverse models) Registry.empty
          calls := by
  intro hall
  obtain ⟨-, -, -, hinv⟩ := hall ⟨fun _ => (), fun _ => (), fun _ => rfl⟩ ⟨fun _ => true, ()⟩
    [.setCommand 10 (), .setCommand 11 ()]
  have hid := hinv.msgId_msgType 10 () rfl () rfl
  cases hid

end Calls

end Nais.Host
