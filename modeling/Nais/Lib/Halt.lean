import Mathlib.Tactic

/-!
# Programs that halt

A deterministic program is a step function on states with a set of final states. It halts from
a state when some number of steps leads to a final one. A measure that every step before that
lowers shows that it does, an invariant without final states that it does not.
-/

namespace Nais.Lib.Halt

variable {σ : Type} {step : σ → σ} {final : σ → Prop} {s : σ}

variable (step final) in
def Halts (s : σ) : Prop := ∃ n, final (step^[n] s)

lemma halts_of_final (h : final s) : Halts step final s := ⟨0, h⟩

lemma halts_step_iff (h : ¬final s) : Halts step final s ↔ Halts step final (step s) := by
  constructor
  · rintro ⟨n, hn⟩
    cases n with
    | zero => exact absurd hn h
    | succ n => exact ⟨n, hn⟩
  · rintro ⟨n, hn⟩
    exact ⟨n + 1, hn⟩

/-- Steps that pass no final state neither make a program halt nor keep it from halting. -/
lemma halts_iterate_iff {n : ℕ} (h : ∀ m < n, ¬final (step^[m] s)) :
    Halts step final s ↔ Halts step final (step^[n] s) := by
  induction n with
  | zero => rfl
  | succ n ih =>
    rw [ih fun m hm => h m (hm.trans n.lt_succ_self), Function.iterate_succ_apply',
      halts_step_iff (h n n.lt_succ_self)]

theorem halts_of_measure (inv : σ → Prop) (measure : σ → ℕ)
    (hstep : ∀ s, inv s → ¬final s → inv (step s) ∧ measure (step s) < measure s) (hs : inv s) :
    Halts step final s := by
  induction hn : measure s using Nat.strong_induction_on generalizing s with
  | _ n ih =>
    by_cases hfinal : final s
    · exact halts_of_final hfinal
    · obtain ⟨hinv, hless⟩ := hstep s hs hfinal
      exact (halts_step_iff hfinal).mpr (ih _ (hn ▸ hless) hinv rfl)

theorem not_halts_of_invariant (inv : σ → Prop) (hfinal : ∀ s, inv s → ¬final s)
    (hstep : ∀ s, inv s → inv (step s)) (hs : inv s) : ¬Halts step final s := by
  rintro ⟨n, hn⟩
  refine hfinal _ ?_ hn
  clear hn
  induction n with
  | zero => exact hs
  | succ n ih =>
    rw [Function.iterate_succ_apply']
    exact hstep _ ih

end Nais.Lib.Halt
