import Nais.Board.Tcp

/-!
# Memory safety of the receivers

What one TCP receive, or one MQTT publish that `is_nais_payload` accepts, does to memory:
the writes to the buffer, the bytes that the unmarshaller reads, the index into the
descriptor table and the struct the handler uses the object as.
-/

namespace Nais.Board
open Nais.Lib Nais.Lib.Memory

/-- The bytes that `sl_Recv` returns. -/
structure Received where
  bytes : List UInt8
  nonempty : 1 ≤ bytes.length
  bounded : bytes.length ≤ 256

/-- An MQTT publish in the packet buffer, and what lies behind that in memory, whose payload
`is_nais_payload` accepts. The payload ends with the packet, and its length is negative where the
packet identifier lies behind the packet. -/
structure Publish where
  buf : Buffer 256
  behind : List UInt8
  off : Nat
  len : Int
  inside : off + len ≤ 256
  accepted : isNaisPayload (buf.bytes ++ behind) off len = .ok true

def Publish.payload (p : Publish) : List UInt8 := (p.buf.bytes.drop p.off).take p.len.toNat

section Property

variable (env : Env)

end Property

section Confusion

variable {α β : Type}

def NoConfusion (x : BoardM α) : Prop := ∀ b, (x.run b).1 ≠ .error .typeConfusion

lemma NoConfusion.bind {x : BoardM α} {f : α → BoardM β} (hx : NoConfusion x)
    (hf : ∀ a, NoConfusion (f a)) : NoConfusion (x >>= f) := by
  intro b
  have hb := hx b
  rw [bind_run]
  generalize x.run b = out at hb ⊢
  obtain ⟨r, b'⟩ := out
  cases r with
  | ok a => exact hf a b'
  | error e => simpa using hb

variable (env : Env)

end Confusion

end Nais.Board
