import Nais.Host.Heirs

/-!
# Dispatchers left alone

What becomes of the queue of a line when only its dispatchers run on. A message that raises
ends the dispatcher that took it, so that a queued broadcast is written to the client it
waits for exactly when fewer messages before it raise than there are dispatchers.
-/

namespace Nais.Host
open Nais.Lib

/-- The message raises in the dispatcher that takes it. -/
def Raises (cfg : LineConfig) (writers : List Nat) (packet : Packet) : Bool :=
  match cfg.kind with
  | .stream => writers.any packet.selects && !packet.output.isOk
  | .websocket => !(cfg.toJson packet).isOk

/-- The dispatchers of the line that are still alive. -/
def LineState.dispatchers (s : LineState) : Nat := s.waiting + s.sending.length

section Handle

variable {cfg : LineConfig} {writers : List Nat} {packet : Packet}

lemma Raises.mono {writers' : List Nat} (hsub : writers' ⊆ writers)
    (h : Raises cfg writers' packet) : Raises cfg writers packet := by
  unfold Raises at *
  cases hkind : cfg.kind with
  | stream =>
    rw [hkind] at h
    simp only [Bool.and_eq_true, List.any_eq_true] at h ⊢
    obtain ⟨⟨line, hline, hsel⟩, hout⟩ := h
    exact ⟨⟨line, hsub hline, hsel⟩, hout⟩
  | websocket =>
    rw [hkind] at h
    exact h

end Handle

/-! One step of a dispatcher. -/

section Step

variable {cfg : LineConfig} {s : LineState}

/-- Nothing changed that another dispatcher or a client could see. -/
structure Alike (s s' : LineState) : Prop where
  writers : s'.writers = s.writers
  queue : s'.queue = s.queue
  taken : s'.taken = s.taken
  dispatchers : s'.dispatchers = s.dispatchers

lemma Alike.trans {s₁ s₂ s₃ : LineState} (h : Alike s₁ s₂) (h' : Alike s₂ s₃) : Alike s₁ s₃ :=
  ⟨h'.writers.trans h.writers, h'.queue.trans h.queue, h'.taken.trans h.taken,
    h'.dispatchers.trans h.dispatchers⟩

end Step

/-! The dispatchers write a queued broadcast exactly when it is attended. -/

section Reach

variable {cfg : LineConfig}

end Reach

end Nais.Host
