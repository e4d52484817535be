import Nais.Host.Marshall

/-!
# The host's registry and frame decoder

`add_protobuf_model`, `setCommand` and `unmarshall` of `pynais/nais.py`. A model class is
found by the type byte of a frame, and the payload behind the continuation bits of its LEN.
-/

namespace Nais.Host
open Nais.Lib

/-- `M` are the protobuf objects. `parse` is `ParseFromString` on a fresh protobuf object, and
`build` is `build_from_protobuf` on a fresh object of the model class. -/
structure ModelLib (C P M O : Type) where
  parse : P → List UInt8 → Except PyErr M
  build : C → M → Except PyErr O

/-- `isGenerated` is the type test on a protobuf class, `command` is `messages_pb2.Command`. -/
structure ProtoClasses (P : Type) where
  isGenerated : P → Bool
  command : P

/-- The calls that register a model. -/
inductive ModelCall (C P : Type) where
  | addProtobufModel (oid : Int) (protobufClass : P) (modelClass : C)
  | setCommand (id : Int) (model : C)

section Registry

variable {C P : Type}

/-- Both maps are empty when the module is loaded. -/
def Registry.empty : Registry C P := ⟨fun _ => none, fun _ => none⟩

variable [DecidableEq C]

def addProtobufModel (classes : ProtoClasses P) (reg : Registry C P) (oid : Int)
    (protobufClass : P) (modelClass : C) : Except PyErr (Registry C P) :=
  if !classes.isGenerated protobufClass then .error .invalidProtoclass
  else if (reg.cidToClasses oid).isSome then .error .uniqueObjectId
  else .ok ⟨Function.update reg.cidToClasses oid (some (protobufClass, modelClass)),
    Function.update reg.protoFromClass modelClass (some (oid, protobufClass))⟩

def setCommand (classes : ProtoClasses P) (reg : Registry C P) (id : Int) (model : C) :
    Except PyErr (Registry C P) :=
  addProtobufModel classes reg id classes.command model

def ModelCall.call (classes : ProtoClasses P) (reg : Registry C P) :
    ModelCall C P → Except PyErr (Registry C P)
  | addProtobufModel oid protobufClass modelClass =>
    Host.addProtobufModel classes reg oid protobufClass modelClass
  | setCommand id model => Host.setCommand classes reg id model

/-- A rejected call leaves both maps alone. -/
def ModelCall.after (classes : ProtoClasses P) (reg : Registry C P) (c : ModelCall C P) :
    Registry C P :=
  match c.call classes reg with
  | .ok reg' => reg'
  | .error _ => reg

/-- The registry after a series of calls. -/
def registered (classes : ProtoClasses P) (calls : List (ModelCall C P)) : Registry C P :=
  calls.foldl (ModelCall.after classes) Registry.empty

end Registry

/-- The walk over the continuation bits, from `packet[i]` on: the header length. The loop
also sums up a length that nothing reads. -/
def walkLen : List UInt8 → Nat → Except PyErr Nat
  | [], _ => .error .indexError
  | c :: rest, hlen => if c.toNat &&& 128 ≠ 0 then walkLen rest (hlen + 1) else .ok hlen

section Unmarshall

variable {C P M O : Type}

/-- Return the object that a frame carries. -/
def unmarshall (models : ModelLib C P M O) (reg : Registry C P) (packet : List UInt8) :
    Except PyErr O :=
  match packet[1]? with
  | none => .error .indexError
  | some cid =>
    match reg.cidToClasses cid.toNat with
    | none => .error .keyError
    | some (protobufClass, modelClass) => do
      let hlen ← walkLen (packet.drop 5) 6
      -- packet[hlen:-1]
      let pobj ← models.parse protobufClass (packet.dropLast.drop hlen)
      models.build modelClass pobj

end Unmarshall

section Registry

variable {C P : Type}

/-- Every entry of the class map has its counterpart in the map of the ids. -/
def Registry.Coherent (reg : Registry C P) : Prop :=
  ∀ modelClass oid protobufClass, reg.protoFromClass modelClass = some (oid, protobufClass) →
    reg.cidToClasses oid = some (protobufClass, modelClass)

lemma Registry.coherent_empty : (Registry.empty : Registry C P).Coherent := by
  intro modelClass oid protobufClass h
  cases h

variable [DecidableEq C]

/-- An accepted id is new, so no entry of the class map is left behind. -/
lemma addProtobufModel_coherent {classes : ProtoClasses P} {reg reg' : Registry C P} {oid : Int}
    {protobufClass : P} {modelClass : C} (hreg : reg.Coherent)
    (h : addProtobufModel classes reg oid protobufClass modelClass = .ok reg') : reg'.Coherent := by
  unfold addProtobufModel at h
  split_ifs at h with hgen hdup
  simp only [Except.ok.injEq] at h
  subst h
  intro modelClass' oid' protobufClass' h'
  dsimp only at h' ⊢
  by_cases hc : modelClass' = modelClass
  · subst hc
    rw [Function.update_self] at h'
    cases h'
    rw [Function.update_self]
  · rw [Function.update_of_ne hc] at h'
    have hold := hreg _ _ _ h'
    have hne : oid' ≠ oid := by
      intro heq
      rw [heq] at hold
      simp [hold] at hdup
    rw [Function.update_of_ne hne, hold]

lemma ModelCall.after_coherent (classes : ProtoClasses P) {reg : Registry C P} (hreg : reg.Coherent)
    (c : ModelCall C P) : (c.after classes reg).Coherent := by
  unfold after
  cases h : c.call classes reg with
  | error e => exact hreg
  | ok reg' =>
    cases c with
    | addProtobufModel oid protobufClass modelClass => exact addProtobufModel_coherent hreg h
    | setCommand id model => exact addProtobufModel_coherent hreg h

/-- The two maps agree after every series of calls. -/
theorem registered_coherent (classes : ProtoClasses P) (calls : List (ModelCall C P)) :
    (registered classes calls).Coherent := by
  unfold registered
  have hrun : ∀ reg : Registry C P, reg.Coherent →
      (calls.foldl (ModelCall.after classes) reg).Coherent := by
    induction calls with
    | nil => exact fun reg hreg => hreg
    | cons c calls ih =>
      intro reg hreg
      rw [List.foldl_cons]
      exact ih _ (c.after_coherent classes hreg)
  exact hrun _ Registry.coherent_empty

end Registry

lemma walkLen_eq (bs : List UInt8) (hlen : Nat) :
    walkLen bs hlen = if Base128.continuations bs < bs.length then
      .ok (hlen + Base128.continuations bs) else .error .indexError := by
  induction bs generalizing hlen with
  | nil => rfl
  | cons c rest ih =>
    rw [walkLen]
    by_cases hc : 128 ≤ c.toNat
    · rw [if_pos ((Base128.and_128_ne_zero_iff c).mpr hc), ih]
      simp only [Base128.continuations, hc, ite_true, List.length_cons, Nat.add_lt_add_iff_right]
      split_ifs
      · congr 1
        omega
      · rfl
    · rw [if_neg (fun h => hc ((Base128.and_128_ne_zero_iff c).mp h))]
      simp [Base128.continuations, hc]

section Frame

variable {C P M O : Type} (models : ModelLib C P M O) (reg : Registry C P)

/-- A packet is decoded where its type is registered, its LEN ends inside the packet, and
the two library calls return. -/
lemma unmarshall_ok_iff (packet : List UInt8) (o : O) :
    unmarshall models reg packet = .ok o ↔
      ∃ cid protobufClass modelClass pobj, packet[1]? = some cid ∧
        reg.cidToClasses cid.toNat = some (protobufClass, modelClass) ∧
        Base128.continuations (packet.drop 5) < (packet.drop 5).length ∧
        models.parse protobufClass
          (packet.dropLast.drop (6 + Base128.continuations (packet.drop 5))) = .ok pobj ∧
        models.build modelClass pobj = .ok o := by
  unfold unmarshall
  cases htype : packet[1]? with
  | none => simp
  | some cid =>
    cases hreg : reg.cidToClasses cid.toNat with
    | none => simp [hreg]
    | some t =>
      obtain ⟨protobufClass, modelClass⟩ := t
      simp only [walkLen_eq, List.length_drop]
      by_cases hwalk : Base128.continuations (packet.drop 5) < packet.length - 5
      · cases hparse : models.parse protobufClass
          (packet.dropLast.drop (6 + Base128.continuations (packet.drop 5))) with
        | error e => simp [hreg, hwalk, hparse, Bind.bind, Except.bind]
        | ok pobj => simp [hreg, hwalk, hparse, Bind.bind, Except.bind]
      · simp [hreg, hwalk, Bind.bind, Except.bind]

/-- The LEN of a frame that the decoder can walk: a numeral, or none at all for an empty
payload, where the end byte is taken for it. -/
def Walkable (len payload : List UInt8) : Prop :=
  Base128.IsNumeral len ∨ len = [] ∧ payload = []

lemma walkable_lenBytes (payload : List UInt8) : Walkable (lenBytes payload.length) payload := by
  by_cases hp : payload = []
  · rw [hp]
    exact Or.inr ⟨lenBytes_zero, rfl⟩
  · rw [lenBytes_eq_encode _ (by simpa using hp)]
    exact Or.inl (Base128.encode_isNumeral payload.length)

/-- The header of a frame is as long as the decoder finds, and the payload lies behind it. -/
lemma walkLen_frameBytes {len payload : List UInt8} (h : Walkable len payload) :
    ∃ hlen, walkLen (len ++ payload ++ [SYNC_END]) 6 = .ok hlen ∧
      (len ++ payload).drop (hlen - 5) = payload ∧ 5 ≤ hlen := by
  obtain hnum | ⟨rfl, rfl⟩ := h
  · unfold Base128.IsNumeral at hnum
    have hcont : Base128.continuations (len ++ payload ++ [SYNC_END]) = Base128.continuations len := by
      rw [List.append_assoc, Base128.continuations_append, if_neg (by omega)]
    refine ⟨6 + Base128.continuations len, ?_, ?_, by omega⟩
    · rw [walkLen_eq, hcont, if_pos]
      rw [List.length_append, List.length_append]
      omega
    · exact List.drop_left' (by omega)
  · exact ⟨6, rfl, rfl, by omega⟩

/-- A frame is decoded by its type byte and its payload, whatever the other bytes are. -/
lemma unmarshall_frameBytes (type sline dline flags : UInt8) {len payload : List UInt8}
    (h : Walkable len payload) :
    unmarshall models reg (frameBytes type sline dline flags len payload) =
      match reg.cidToClasses type.toNat with
      | none => .error .keyError
      | some (protobufClass, modelClass) =>
        (models.parse protobufClass payload).bind (models.build modelClass) := by
  obtain ⟨hlen, hwalk, hpay, hle⟩ := walkLen_frameBytes h
  have htype : (frameBytes type sline dline flags len payload)[1]? = some type := rfl
  have hdrop : (frameBytes type sline dline flags len payload).drop 5 =
      len ++ payload ++ [SYNC_END] := rfl
  have hslice : (frameBytes type sline dline flags len payload).dropLast.drop hlen = payload := by
    have hinit : (frameBytes type sline dline flags len payload).dropLast =
        [SYNC_START, type, sline, dline, flags] ++ (len ++ payload) := by
      have hsplit : frameBytes type sline dline flags len payload =
          [SYNC_START, type, sline, dline, flags] ++ (len ++ payload) ++ [SYNC_END] := by
        simp [frameBytes]
      rw [hsplit, List.dropLast_concat]
    have hfive : hlen = 5 + (hlen - 5) := by omega
    rw [hinit, hfive, ← List.drop_drop]
    exact hpay
  rw [unmarshall, htype, hdrop, hwalk]
  dsimp only [Bind.bind, Except.bind]
  rw [hslice]

lemma frameBytes_set_sline (type sline dline flags : UInt8) (len payload : List UInt8) (b : UInt8) :
    (frameBytes type sline dline flags len payload).set SLINE b =
      frameBytes type b dline flags len payload := rfl

end Frame

section RoundTrip

variable {C P M O : Type} [DecidableEq C]

/-- A marshalled object comes back as an object of its class, built from the bytes that it
serialized to. -/
theorem unmarshall_marshall (lib : ProtoLib C P O) (models : ModelLib C P M O)
    (classes : ProtoClasses P) (calls : List (ModelCall C P)) (obj : O) (packet : List UInt8)
    (h : marshall lib (registered classes calls) obj = .ok packet) :
    ∃ oid protobufClass payload,
      (registered classes calls).protoFromClass (lib.typeOf obj) = some (oid, protobufClass) ∧
      lib.serialize protobufClass obj = .ok payload ∧
      unmarshall models (registered classes calls) packet =
        (models.parse protobufClass payload).bind (models.build (lib.typeOf obj)) ∧
      ∀ sline, unmarshall models (registered classes calls) (packet.set SLINE sline) =
        (models.parse protobufClass payload).bind (models.build (lib.typeOf obj)) := by
  obtain ⟨oid, protobufClass, payload, hreg, hoid, -, hser, rfl⟩ := (marshall_ok_iff ..).mp h
  have hcid := registered_coherent classes calls _ _ _ hreg
  have hbyte : ((UInt8.ofNat oid.toNat).toNat : Int) = oid := by
    rw [UInt8.toNat_ofNat']
    omega
  have hwalk := walkable_lenBytes payload
  refine ⟨oid, protobufClass, payload, hreg, hser, ?_, fun sline => ?_⟩
  · rw [unmarshall_frameBytes models _ _ _ _ _ hwalk, hbyte, hcid]
  · rw [frameBytes_set_sline, unmarshall_frameBytes models _ _ _ _ _ hwalk, hbyte, hcid]

end RoundTrip

section Sample

/-- Objects that are their own payload. -/
def sampleLib : ProtoLib Unit Unit (List UInt8) := ⟨fun _ => (), fun _ => none, fun _ bs => .ok bs⟩

def sampleModels : ModelLib Unit Unit (List UInt8) (List UInt8) :=
  ⟨fun _ bs => .ok bs, fun _ bs => .ok bs⟩

/-- The second call is rejected. -/
def sampleRegistry : Registry Unit Unit :=
  registered ⟨fun _ => true, ()⟩ [.setCommand 5 (), .addProtobufModel 5 () ()]

lemma sampleLib_marshall :
    marshall sampleLib sampleRegistry [8, 5] = .ok [0x1E, 5, 0, 0, 0, 2, 8, 5, 0x17] := by
  rw [marshall_ok_iff]
  refine ⟨5, (), [8, 5], rfl, by decide, by decide, rfl, ?_⟩
  rw [lenBytes_eq_encode _ (by decide), Base128.encode_small (by decide)]
  rfl

theorem unmarshall_marshall_command :
    unmarshall sampleModels sampleRegistry [0x1E, 5, 9, 0, 0, 2, 8, 5, 0x17] = .ok [8, 5] := by
  obtain ⟨oid, protobufClass, payload, -, hser, -, hstamped⟩ := unmarshall_marshall sampleLib
    sampleModels ⟨fun _ => true, ()⟩ [.setCommand 5 (), .addProtobufModel 5 () ()] _ _ sampleLib_marshall
  cases hser
  exact hstamped 9

end Sample

end Nais.Host
