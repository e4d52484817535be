import Nais.Lib.Json
import Nais.Host.Emission

/-!
# The texts of a websocket line

`Packet.to_json` of `pynais/packet.py` on the messages of a route without transform, and the
loop of `WSLine.dispatch` in `pynais/junction.py`. Unlike the loop of the other lines it
catches nothing but its cancellation.
-/

namespace Nais.Host
open Nais.Lib Nais.Lib.Base128

/-- The objects that a frame unmarshalls to: their `__dict__`, if they have one, and what
`decode()` returns or raises on the others. -/
structure ObjLib (O : Type) where
  attributes : O → Option (List (String × Json.Value))
  decode : O → Except PyErr (List UInt8)

section Objects

variable {C P M O : Type}

/-- `json.dumps(obj.__dict__)`, or `obj.decode()` where that is an `AttributeError`. -/
def ObjLib.dumps (objects : ObjLib O) (obj : O) : Except PyErr (List UInt8) :=
  match objects.attributes obj with
  | none => objects.decode obj
  | some attributes =>
    match Json.dumps (.dict (attributes.map fun a => (.str a.1, a.2))) with
    | none => .error .typeError
    | some text => .ok text.toUTF8.toList

def textLib (models : ModelLib C P M O) (reg : Registry C P) (objects : ObjLib O) :
    TextLib C P M O := ⟨models, reg, objects.dumps⟩

/-- A message of a route without transform, with the writers of the websocket line when it
leaves the queue. -/
structure WsMessage where
  writers : List Nat
  data : PyValue
  srcLine : Nat
  dstLine : Nat

def WsMessage.packet (m : WsMessage) : Packet := ⟨m.data, m.srcLine, none, m.dstLine⟩

/-- `WSLine.dispatch` on the messages of the queue: what it sends, and the exception that
ended the coroutine, if it has not come to the end of the queue. -/
def wsDispatch (lib : TextLib C P M O) : List WsMessage → List Emission × Option PyErr
  | [] => ([], none)
  | m :: queue =>
    match dispatchOne lib m.writers m.packet .ws with
    | (sent, some e) => (sent, some e)
    | (sent, none) =>
      let (rest, err) := wsDispatch lib queue
      (sent ++ rest, err)

/-- All attributes of the object have a JSON form. -/
def ObjLib.Showable (objects : ObjLib O) (obj : O) : Prop :=
  match objects.attributes obj with
  | none => ∃ text, objects.decode obj = .ok text
  | some attributes => ∀ a ∈ attributes, Json.Serializable a.2

/-- The bytes are UTF-8. -/
def IsUtf8 (bs : List UInt8) : Prop := (ByteArray.mk bs.toArray).validateUTF8 = true

/-- The frame has a registered type, a LEN that ends in it, and a payload that makes an
object with a JSON form. -/
def ShowableFrame (models : ModelLib C P M O) (reg : Registry C P) (objects : ObjLib O)
    (bs : List UInt8) : Prop :=
  ∃ cid protobufClass modelClass pobj obj, bs[1]? = some cid ∧
    reg.cidToClasses cid.toNat = some (protobufClass, modelClass) ∧
    continuations (bs.drop 5) < (bs.drop 5).length ∧
    models.parse protobufClass (bs.dropLast.drop (6 + continuations (bs.drop 5))) = .ok pobj ∧
    models.build modelClass pobj = .ok obj ∧ objects.Showable obj

/-- Data that `to_json` can make a text of. A frame is a bytearray, in which the line id is
written. -/
def Convertible (models : ModelLib C P M O) (reg : Registry C P) (objects : ObjLib O)
    (m : WsMessage) : Prop :=
  match m.data with
  | .pyNone => True
  | .bytes bs => bs.head? ≠ some SYNC_START ∧ IsUtf8 bs
  | .bytearray bs =>
    if bs.head? = some SYNC_START then m.srcLine < 256 ∧ ShowableFrame models reg objects bs
    else IsUtf8 bs

lemma ObjLib.dumps_ok_iff (objects : ObjLib O) (obj : O) :
    (∃ text, objects.dumps obj = .ok text) ↔ objects.Showable obj := by
  unfold dumps Showable
  cases objects.attributes obj with
  | none => exact Iff.rfl
  | some attributes =>
    change _ ↔ ∀ a ∈ attributes, Json.Serializable a.2
    have hdict : (Json.dumps (.dict (attributes.map fun a => (.str a.1, a.2)))).isSome ↔
        ∀ a ∈ attributes, Json.Serializable a.2 := by
      rw [Json.dumps_isSome_iff]
      constructor
      · rintro ⟨⟩ a ha
        rename_i hvalues
        exact hvalues _ (List.mem_map_of_mem ha)
      · intro h
        refine .dict ?_ ?_
        · intro e he
          obtain ⟨a, -, rfl⟩ := List.mem_map.mp he
          rintro ⟨⟩
        · intro e he
          obtain ⟨a, ha, rfl⟩ := List.mem_map.mp he
          exact h a ha
    rw [← hdict]
    dsimp only
    cases Json.dumps (.dict (attributes.map fun a => (.str a.1, a.2))) <;> simp

/-- The line id is no part of what `unmarshall` reads. -/
lemma unmarshall_set_sline_ok_iff (models : ModelLib C P M O) (reg : Registry C P) (bs : List UInt8)
    (b : UInt8) (obj : O) :
    unmarshall models reg (bs.set SLINE b) = .ok obj ↔ unmarshall models reg bs = .ok obj := by
  have htype : (bs.set SLINE b)[1]? = bs[1]? := List.getElem?_set_ne (by decide)
  have hlen : (bs.set SLINE b).drop 5 = bs.drop 5 := List.drop_set_of_lt (by decide)
  have hpayload (n : Nat) : (bs.set SLINE b).dropLast.drop (6 + n) = bs.dropLast.drop (6 + n) := by
    have hlt : SLINE < 6 + n := by
      unfold SLINE
      omega
    rw [List.dropLast_eq_take, List.dropLast_eq_take, List.length_set, List.take_set,
      List.drop_set_of_lt hlt]
  rw [unmarshall_ok_iff, unmarshall_ok_iff, htype, hlen]
  simp only [hpayload]

lemma showableFrame_iff (models : ModelLib C P M O) (reg : Registry C P) (objects : ObjLib O)
    (bs : List UInt8) :
    ShowableFrame models reg objects bs ↔
      ∃ obj, unmarshall models reg bs = .ok obj ∧ objects.Showable obj := by
  simp only [unmarshall_ok_iff]
  constructor
  · rintro ⟨cid, protobufClass, modelClass, pobj, obj, hcid, hreg, hlen, hparse, hbuild, hshow⟩
    exact ⟨obj, ⟨cid, protobufClass, modelClass, pobj, hcid, hreg, hlen, hparse, hbuild⟩, hshow⟩
  · rintro ⟨obj, ⟨cid, protobufClass, modelClass, pobj, hcid, hreg, hlen, hparse, hbuild⟩, hshow⟩
    exact ⟨cid, protobufClass, modelClass, pobj, obj, hcid, hreg, hlen, hparse, hbuild, hshow⟩

variable (models : ModelLib C P M O) (reg : Registry C P) (objects : ObjLib O)

lemma decode_ok_iff (bs : List UInt8) : (∃ text, decode bs = .ok text) ↔ IsUtf8 bs := by
  unfold decode IsUtf8
  split_ifs with h
  · exact iff_of_true ⟨bs, rfl⟩ h
  · exact iff_of_false (by simp) h

/-- The text of data that is no frame. -/
lemma text_of_no_start {bs : List UInt8} (h : bs.head? ≠ some SYNC_START) :
    (textLib models reg objects).text bs = decode bs := if_neg h

lemma text_of_start {bs : List UInt8} (h : bs.head? = some SYNC_START) :
    (∃ text, (textLib models reg objects).text bs = .ok text) ↔
      ∃ obj, unmarshall models reg bs = .ok obj ∧ objects.Showable obj := by
  have htext : (textLib models reg objects).text bs =
      (unmarshall models reg bs).bind objects.dumps := if_pos h
  rw [htext]
  cases unmarshall models reg bs with
  | error e => simp [Except.bind]
  | ok obj => simp [Except.bind, objects.dumps_ok_iff]

/-- `to_json` returns, a text or `None`, for the convertible messages. -/
lemma toJson_ok_iff (m : WsMessage) :
    (∃ jmsg, m.packet.toJson (textLib models reg objects) = .ok jmsg) ↔
      Convertible models reg objects m := by
  have htext (x : Except PyErr (List UInt8)) :
      (∃ jmsg, x.map some = .ok jmsg) ↔ ∃ text, x = .ok text := by
    cases x <;> simp [Except.map]
  obtain ⟨writers, data, srcLine, dstLine⟩ := m
  unfold Convertible Packet.toJson Packet.packet Packet.transformed WsMessage.packet
  cases data with
  | pyNone => exact iff_of_true ⟨none, rfl⟩ trivial
  | bytes bs =>
    by_cases hstart : bs.head? = some SYNC_START
    · refine iff_of_false ?_ (fun h => h.1 hstart)
      simp [isProtobuf, hstart, stampSline, Bind.bind, Except.bind]
    · simp only [isProtobuf, hstart, decide_false, Bool.false_eq_true, if_false, Bind.bind, Except.bind]
      rw [htext, text_of_no_start models reg objects hstart, decode_ok_iff]
      exact (and_iff_right hstart).symm
  | bytearray bs =>
    by_cases hstart : bs.head? = some SYNC_START
    · simp only [isProtobuf, hstart, decide_true, if_true, stampSline, Bind.bind, Except.bind]
      rw [showableFrame_iff]
      by_cases hshort : bs.length ≤ SLINE
      · have hnone : ∀ obj, unmarshall models reg bs ≠ .ok obj := by
          intro obj hobj
          obtain ⟨cid, protobufClass, modelClass, pobj, -, -, hlen, -, -⟩ :=
            (unmarshall_ok_iff models reg bs obj).mp hobj
          rw [List.length_drop] at hlen
          unfold SLINE at hshort
          omega
        refine iff_of_false (by simp [hshort]) ?_
        rintro ⟨-, obj, hobj, -⟩
        exact hnone obj hobj
      · by_cases hline : 256 ≤ srcLine
        · refine iff_of_false (by simp [hshort, hline]) ?_
          rintro ⟨hsmall, -⟩
          omega
        · have hstamped : (bs.set SLINE (UInt8.ofNat srcLine)).head? = some SYNC_START := by
            cases bs with
            | nil => cases hstart
            | cons c bs => exact hstart
          rw [if_neg hshort, if_neg hline]
          dsimp only
          rw [htext, text_of_start models reg objects hstamped, and_iff_right (by omega)]
          simp only [unmarshall_set_sline_ok_iff]
    · simp only [isProtobuf, hstart, decide_false, Bool.false_eq_true, if_false, Bind.bind, Except.bind]
      rw [htext, text_of_no_start models reg objects hstart, decode_ok_iff]

/-- The loop gets past a message exactly when `to_json` returns. -/
lemma dispatchOne_ws_none_iff (lib : TextLib C P M O) (writers : List Nat) (m : Packet) :
    (dispatchOne lib writers m .ws).2 = none ↔ ∃ jmsg, m.toJson lib = .ok jmsg := by
  unfold dispatchOne
  cases m.toJson lib with
  | error e => simp
  | ok jmsg =>
    cases jmsg with
    | none => simp
    | some jmsg => by_cases hempty : jmsg = [] <;> simp [hempty]

lemma wsDispatch_none_iff (lib : TextLib C P M O) (queue : List WsMessage) :
    (wsDispatch lib queue).2 = none ↔ ∀ m ∈ queue, ∃ jmsg, m.packet.toJson lib = .ok jmsg := by
  induction queue with
  | nil => exact iff_of_true rfl (by simp)
  | cons m queue ih =>
    rw [wsDispatch, List.forall_mem_cons, ← ih, ← dispatchOne_ws_none_iff lib m.writers]
    rcases dispatchOne lib m.writers m.packet .ws with ⟨sent, _ | e⟩ <;> simp

/-- `to_json` returns for every message, and the websocket dispatcher comes to the end of its
queue, exactly when all messages are convertible. -/
theorem ws_dispatch_iff (queue : List WsMessage) :
    ((∀ m ∈ queue, ∃ jmsg, m.packet.toJson (textLib models reg objects) = .ok jmsg) ∧
        (wsDispatch (textLib models reg objects) queue).2 = none) ↔
      ∀ m ∈ queue, Convertible models reg objects m := by
  rw [wsDispatch_none_iff, and_self]
  exact forall₂_congr fun m _ => toJson_ok_iff models reg objects m

/-- A frame of a type that is not registered ends the dispatcher. -/
theorem ws_dispatch_ends_at_unknown_type :
    ¬∀ queue : List WsMessage,
      let lib := textLib sampleModels sampleRegistry ⟨fun _ => some [], fun _ => .error .attributeError⟩
      (∀ m ∈ queue, ∃ jmsg, m.packet.toJson lib = .ok jmsg) ∧ (wsDispatch lib queue).2 = none := by
  intro hall
  obtain ⟨-, hend⟩ := hall [⟨[1], .bytearray [0x1E, 99, 0, 0, 0, 1, 8, 0x17], 1, 0⟩]
  cases hend

end Objects

end Nais.Host
