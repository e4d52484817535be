import Nais.Lib.Base128

/-!
# The host's frame encoder

`marshall` of `pynais/nais.py`, over the registry that maps a model class to its type id
and its protobuf class. The protobuf library and the model classes are a `ProtoLib`: what
an object's class and `dline` attribute are, and the bytes it serializes to.
-/

namespace Nais.Host
open Nais.Lib

/-- The exceptions that the modelled functions raise. -/
inductive PyErr where
  | uniqueObjectId
  | invalidProtoclass
  | invalidModel
  | invalidObjectId
  | connectionClosed
  | keyError
  | valueError
  | typeError
  | indexError
  | attributeError
  | raised
  deriving DecidableEq, Repr

def SYNC_START : UInt8 := 0x1E
def SYNC_END : UInt8 := 0x17

/-- 0-based positions of the line bytes in a frame. -/
def SLINE : Nat := 2
def DLINE : Nat := 3

/-- `C` are the model classes, `P` the generated protobuf classes, `O` the model objects.
`dline` is `none` where the object has no such attribute, and `serialize` is `set_protobuf`
on a fresh protobuf object followed by `SerializeToString`. -/
structure ProtoLib (C P O : Type) where
  typeOf : O → C
  dline : O → Option Int
  serialize : P → O → Except PyErr (List UInt8)

structure Registry (C P : Type) where
  cidToClasses : Int → Option (P × C)
  protoFromClass : C → Option (Int × P)

variable {C P O : Type}

/-- One item of a `bytearray([...])` display. -/
def byteOf (n : Int) : Except PyErr UInt8 :=
  if 0 ≤ n ∧ n < 256 then .ok (UInt8.ofNat n.toNat) else .error .valueError

/-- The loop that writes the LEN bytes of `marshall`: no byte at all for an empty payload. -/
def lenBytes (n : Nat) : List UInt8 :=
  if n = 0 then []
  else (if n / 128 ≠ 0 then UInt8.ofNat (128 + n % 128) else UInt8.ofNat n) :: lenBytes (n / 128)
termination_by n

/-- Return the binary buffer to be transported. -/
def marshall (lib : ProtoLib C P O) (reg : Registry C P) (obj : O) : Except PyErr (List UInt8) :=
  match reg.protoFromClass (lib.typeOf obj) with
  | none => .error .invalidModel
  | some (oid, protobufClass) => do
    let dline := (lib.dline obj).getD 0
    let typeByte ← byteOf oid
    let dlineByte ← byteOf dline
    let payload ← lib.serialize protobufClass obj
    .ok ([SYNC_START, typeByte, 0, dlineByte, 0] ++ lenBytes payload.length ++ payload ++ [SYNC_END])

lemma lenBytes_zero : lenBytes 0 = [] := by
  rw [lenBytes, if_pos rfl]

/-- Except for the empty payload, LEN is the shortest base 128 numeral. -/
lemma lenBytes_eq_encode (n : Nat) (hn : n ≠ 0) : lenBytes n = Base128.encode n := by
  induction n using Nat.strong_induction_on with
  | _ n ih =>
    rw [lenBytes, if_neg hn]
    by_cases hs : n < 128
    · have hd : n / 128 = 0 := Nat.div_eq_of_lt hs
      simp [hd, lenBytes_zero, Base128.encode_small hs]
    · have hd : n / 128 ≠ 0 := by omega
      rw [if_pos hd, ih (n / 128) (by omega) hd, Base128.encode_large (by omega : 128 ≤ n)]

/-- The bytes of a frame: `len` stands for the LEN field. -/
def frameBytes (type sline dline flags : UInt8) (len payload : List UInt8) : List UInt8 :=
  SYNC_START :: ([type, sline, dline, flags] ++ len ++ payload ++ [SYNC_END])

lemma marshall_ok_iff (lib : ProtoLib C P O) (reg : Registry C P) (obj : O) (packet : List UInt8) :
    marshall lib reg obj = .ok packet ↔
      ∃ oid protobufClass payload, reg.protoFromClass (lib.typeOf obj) = some (oid, protobufClass) ∧
        (0 ≤ oid ∧ oid < 256) ∧ (0 ≤ (lib.dline obj).getD 0 ∧ (lib.dline obj).getD 0 < 256) ∧
        lib.serialize protobufClass obj = .ok payload ∧
        packet = frameBytes (UInt8.ofNat oid.toNat) 0 (UInt8.ofNat ((lib.dline obj).getD 0).toNat) 0
          (lenBytes payload.length) payload := by
  unfold marshall byteOf
  cases hreg : reg.protoFromClass (lib.typeOf obj) with
  | none => simp
  | some t =>
    obtain ⟨oid, protobufClass⟩ := t
    by_cases ho : 0 ≤ oid ∧ oid < 256
    · by_cases hd : 0 ≤ (lib.dline obj).getD 0 ∧ (lib.dline obj).getD 0 < 256
      · cases hs : lib.serialize protobufClass obj with
        | error e => simp [ho, hd, hs, Bind.bind, Except.bind]
        | ok payload =>
          simp [ho, hd, hs, Bind.bind, Except.bind, frameBytes, eq_comm]
      · simp [ho, hd, Bind.bind, Except.bind]
    · simp [ho, Bind.bind, Except.bind]

end Nais.Host
