import Mathlib.Data.Fintype.Basic
import Mathlib.Tactic

/-!
# The channel table

`fd_map` of `sys/bocia/eventloop.c`, with `bocia_register_handlers` as one operation. A slot
whose `fd` is zero is free.
-/

namespace Nais.Board

/-- An index of `fd_map`, which has `SBAPI_SOCKETS` entries. -/
abbrev Slot := Fin 8

/-- The receive functions of the channels. -/
inductive Handler where
  | bociaTcpAccept
  | bociaTcpReceive
  | mqttReceiverHandler
  deriving DecidableEq, Repr

inductive TxHandler where
  | bociaTcpSend
  | mqttTransmitterHandler
  deriving DecidableEq, Repr

structure BociaChannel where
  targetPid : ℕ
  fd : ℤ
  handler : Option Handler
  send : Option TxHandler
  closePending : Bool
  debug : Bool
  deriving DecidableEq, Repr

/-- `fd_map`. -/
abbrev FdMap := Slot → BociaChannel

def FdMap.empty : FdMap := fun _ => ⟨0, 0, none, none, false, false⟩

/-- The arguments of `bocia_register_handlers`. -/
structure Registration where
  sock : ℤ
  threadId : ℕ
  handler : Handler
  txHandler : Option TxHandler
  deriving DecidableEq, Repr

/-- What a registration writes to its slot. -/
def BociaChannel.register (ch : BociaChannel) (r : Registration) : BociaChannel :=
  { ch with fd := r.sock, targetPid := r.threadId, handler := some r.handler, send := r.txHandler }

def availableSlot (fdMap : FdMap) : Option Slot := (List.finRange 8).find? fun i => (fdMap i).fd = 0

def bociaRegisterHandlers (fdMap : FdMap) (r : Registration) : Option Slot × FdMap :=
  match availableSlot fdMap with
  | some i => (some i, Function.update fdMap i ((fdMap i).register r))
  | none => (none, fdMap)

lemma availableSlot_eq_some_iff {fdMap : FdMap} {i : Slot} :
    availableSlot fdMap = some i ↔ (fdMap i).fd = 0 ∧ ∀ j < i, (fdMap j).fd ≠ 0 := by
  rw [availableSlot, List.find?_eq_some_iff_getElem]
  constructor
  · rintro ⟨hfree, k, hk, rfl, hbefore⟩
    rw [List.getElem_finRange] at hfree ⊢
    refine ⟨of_decide_eq_true hfree, ?_⟩
    intro j hj
    have hnot := hbefore j.val hj
    rw [List.getElem_finRange] at hnot
    simpa using hnot
  · rintro ⟨hfree, hbefore⟩
    refine ⟨decide_eq_true hfree, i.val, by simp, by simp, ?_⟩
    intro k hk
    rw [List.getElem_finRange]
    simpa using hbefore ⟨k, by omega⟩ hk

lemma availableSlot_eq_none_iff {fdMap : FdMap} :
    availableSlot fdMap = none ↔ ∀ i, (fdMap i).fd ≠ 0 := by
  rw [availableSlot, List.find?_eq_none]
  simp

end Nais.Board
