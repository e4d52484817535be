import Nais.Host.Framing

/-!
# Round trip of host records

The records of a host stream: ascii lines, and frames that `marshall` made of a registered
object. Successive receives cut their concatenation back into them exactly when every
frame is delimited.
-/

namespace Nais.Host
open Nais.Lib Nais.Lib.Cut Nais.Lib.Base128

variable {C P O : Type}

inductive Record (lib : ProtoLib C P O) (reg : Registry C P) where
  | line (text : List UInt8) (noStart : SYNC_START ∉ text) (noNewline : NEWLINE ∉ text)
  | frame (obj : O) (packet : List UInt8) (marshalled : marshall lib reg obj = .ok packet)

variable {lib : ProtoLib C P O} {reg : Registry C P}

def Record.bytes : Record lib reg → List UInt8
  | .line text _ _ => text ++ [NEWLINE]
  | .frame _ packet _ => packet

/-- A line always ends at its newline. A frame ends where it should if its bytes behind the
start byte are delimited. -/
def Record.SelfDelimiting : Record lib reg → Prop
  | .line _ _ _ => True
  | .frame _ packet _ => Delimited 0 packet.tail

lemma Record.accepts_iff (r : Record lib reg) : tapeCutter.Accepts r.bytes ↔ r.SelfDelimiting := by
  cases r with
  | line text noStart noNewline =>
    have hline := (tapeCutter_accepts_iff _).mpr (readTape_line noStart noNewline (t := {}) rfl)
    exact iff_of_true hline trivial
  | frame obj packet marshalled =>
    obtain ⟨oid, protobufClass, payload, -, -, -, -, rfl⟩ :=
      (marshall_ok_iff lib reg obj packet).mp marshalled
    exact accepts_frame_iff _

lemma msg_receive_cut_iff (arrived : Nat) (rs : List (Record lib reg)) :
    receiveMany (msgReceive false arrived) rs.length (rs.map Record.bytes).flatten =
      .ok (rs.map Record.bytes, []) ↔ ∀ r ∈ rs, r.SelfDelimiting := by
  have hiff := tapeCutter.receiveMany_flatten_iff (rs.map Record.bytes)
  rw [List.length_map] at hiff
  rw [msgReceive_eq_tapeCutter, hiff, List.forall_mem_map]
  exact forall₂_congr fun r _ => r.accepts_iff

/-- Successive calls of `msg_receive`, and equally of `receive_from`, return the records of
a stream byte for byte and in order exactly when every frame is delimited. -/
theorem msg_receive_records_iff (arrived : Nat) (rs : List (Record lib reg)) :
    (receiveMany (msgReceive false arrived) rs.length (rs.map Record.bytes).flatten =
        .ok (rs.map Record.bytes, []) ↔ ∀ r ∈ rs, r.SelfDelimiting) ∧
      (receiveMany (receiveFrom false arrived) rs.length (rs.map Record.bytes).flatten =
        .ok (rs.map Record.bytes, []) ↔ ∀ r ∈ rs, r.SelfDelimiting) := by
  rw [receiveFrom_eq_msgReceive]
  exact ⟨msg_receive_cut_iff arrived rs, msg_receive_cut_iff arrived rs⟩

/-- An `Ack` whose id is 30 carries the start byte in its payload. -/
theorem msg_receive_ack_30_fails :
    let lib : ProtoLib Unit Unit Unit := ⟨fun _ => (), fun _ => none, fun _ _ => .ok [0x08, 0x1E]⟩
    let reg : Registry Unit Unit := ⟨fun _ => none, fun _ => some (3, ())⟩
    let packet : List UInt8 := [0x1E, 3, 0, 0, 0, 2, 0x08, 0x1E, 0x17]
    marshall lib reg () = .ok packet ∧
      receiveMany (msgReceive false 0) 1 packet = .error .connectionClosed ∧
      receiveMany (receiveFrom false 0) 1 packet = .error .connectionClosed := by
  refine ⟨?_, rfl, rfl⟩
  rw [marshall_ok_iff]
  refine ⟨3, (), [0x08, 0x1E], rfl, by decide, by decide, rfl, ?_⟩
  rw [lenBytes_eq_encode _ (by decide), encode_small (by decide)]
  rfl

/-- A frame whose payload is not empty and that holds no second start byte is always cut
where it should be. -/
theorem selfDelimiting_of_no_start (obj : O) (packet : List UInt8)
    (marshalled : marshall lib reg obj = .ok packet) (hstart : SYNC_START ∉ packet.tail)
    (hlen : 6 < packet.length) : (Record.frame obj packet marshalled).SelfDelimiting := by
  obtain ⟨oid, protobufClass, payload, -, -, -, -, rfl⟩ :=
    (marshall_ok_iff lib reg obj packet).mp marshalled
  have hne : payload.length ≠ 0 := by
    intro h
    simp [frameBytes, h, lenBytes_zero] at hlen
  have hb := lenBytes_eq_encode _ hne
  apply delimited_of_no_start
  · rw [hb]
    exact encode_isNumeral _
  · rw [hb]
    exact number_encode _
  · intro hm
    exact hstart (List.mem_append_left _ hm)

end Nais.Host
