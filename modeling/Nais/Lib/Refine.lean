import Mathlib.Tactic

/-!
# Programs that compute a partial function

A program ends with a value or with an error. It refines a partial function when it returns the
value of the function, and when its only error is `giveUp`, where the function has no value or
where a resource ran short. So it has no other error.
-/

namespace Nais.Lib.Refine

variable {ε α β σ : Type} {giveUp : ε} {enough : Prop}

lemma bind_eq_ok_iff {x : Except ε α} {f : α → Except ε β} {b : β} :
    x >>= f = .ok b ↔ ∃ a, x = .ok a ∧ f a = .ok b := by
  cases x with
  | error e => simp [Bind.bind, Except.bind]
  | ok a => simp [Bind.bind, Except.bind]

/-- `enough` says that no resource runs short. -/
def Refines (giveUp : ε) (enough : Prop) (x : Except ε α) (spec : Option α) : Prop :=
  match x with
  | .ok a => spec = some a
  | .error e => e = giveUp ∧ (enough → spec = none)

@[simp]
lemma refines_ok_iff {a : α} {spec : Option α} :
    Refines giveUp enough (.ok a) spec ↔ spec = some a := Iff.rfl

lemma refines_giveUp {spec : Option α} (h : enough → spec = none) :
    Refines giveUp enough (.error giveUp) spec := ⟨rfl, h⟩

lemma Refines.ok {x : Except ε α} {spec : Option α} (h : Refines giveUp enough x spec) {a : α}
    (hx : x = .ok a) : spec = some a := by
  rw [hx] at h
  exact h

lemma Refines.error {x : Except ε α} {spec : Option α} (h : Refines giveUp enough x spec) {e : ε}
    (hx : x = .error e) : e = giveUp := by
  rw [hx] at h
  exact h.1

/-- Programs in sequence compute the composition. -/
lemma Refines.bind {x : Except ε α} {spec : Option α} {f : α → Except ε β} {g : α → Option β}
    (h : Refines giveUp enough x spec)
    (hf : ∀ a, spec = some a → Refines giveUp enough (f a) (g a)) :
    Refines giveUp enough (x >>= f) (spec.bind g) := by
  cases x with
  | ok a =>
    have ha : spec = some a := h
    rw [ha]
    exact hf a ha
  | error e =>
    refine ⟨h.1, fun henough => ?_⟩
    rw [h.2 henough]
    rfl

/-- What comes behind cannot fail. -/
lemma Refines.bind_map {x : Except ε α} {spec : Option α} {f : α → Except ε β} {g : α → β}
    (h : Refines giveUp enough x spec) (hf : ∀ a, spec = some a → f a = .ok (g a)) :
    Refines giveUp enough (x >>= f) (spec.map g) := by
  rw [Option.map_eq_bind]
  refine h.bind fun a ha => ?_
  rw [hf a ha]
  rfl

end Nais.Lib.Refine
