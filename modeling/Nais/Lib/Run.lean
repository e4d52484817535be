import Mathlib.Tactic

/-!
# Runs of a machine

A machine is a step function on states and events. `Meets` says that every step of a run
satisfies a condition on its event and the state before it, `Throughout` that every state
the run passes through satisfies a property. The rules get the second from the first.
-/

namespace Nais.Lib.Run

variable {σ ε : Type} (step : σ → ε → σ)

/-- The state that the events lead to. -/
def run (s : σ) (es : List ε) : σ := es.foldl step s

def Meets (ok : σ → ε → Prop) : σ → List ε → Prop
  | _, [] => True
  | s, e :: es => ok s e ∧ Meets ok (step s e) es

def Throughout (P : σ → Prop) : σ → List ε → Prop
  | s, [] => P s
  | s, e :: es => P s ∧ Throughout P (step s e) es

variable {step}

instance Meets.decidable (ok : σ → ε → Prop) [∀ s e, Decidable (ok s e)] :
    ∀ (s : σ) (es : List ε), Decidable (Meets step ok s es)
  | _, [] => isTrue trivial
  | s, e :: es =>
    have := Meets.decidable ok (step s e) es
    inferInstanceAs (Decidable (ok s e ∧ Meets step ok (step s e) es))

/-- An invariant of the steps that meet `ok` holds throughout the runs whose steps meet it. -/
theorem throughout_of_meets (ok : σ → ε → Prop) (P : σ → Prop)
    (hstep : ∀ s e, P s → ok s e → P (step s e)) {s : σ} (hs : P s) {es : List ε}
    (h : Meets step ok s es) : Throughout step P s es := by
  induction es generalizing s with
  | nil => exact hs
  | cons e es ih => exact ⟨hs, ih (hstep s e hs h.1) h.2⟩

theorem throughout_of_step (P : σ → Prop) (hstep : ∀ s e, P s → P (step s e)) {s : σ} (hs : P s)
    (es : List ε) : Throughout step P s es := by
  induction es generalizing s with
  | nil => exact hs
  | cons e es ih => exact ⟨hs, ih (hstep s e hs)⟩

/-- A run whose steps meet `ok`, and with it an invariant from which `ok'` follows, meets `ok'`. -/
theorem Meets.of_invariant {ok ok' : σ → ε → Prop} (P : σ → Prop)
    (hstep : ∀ s e, P s → ok s e → P (step s e)) (hok : ∀ s e, P s → ok s e → ok' s e) {s : σ}
    (hs : P s) {es : List ε} (h : Meets step ok s es) : Meets step ok' s es := by
  induction es generalizing s with
  | nil => trivial
  | cons e es ih => exact ⟨hok s e hs h.1, ih (hstep s e hs h.1) h.2⟩

/-- In the runs whose steps meet `legal`, two conditions that agree on the states of an invariant
are the same, if one of them keeps it. -/
theorem Meets.iff_of_invariant {legal ok ok' : σ → ε → Prop} (P : σ → Prop)
    (hstep : ∀ s e, P s → legal s e → ok s e → P (step s e))
    (hok : ∀ s e, P s → legal s e → (ok' s e ↔ ok s e)) {s : σ} (hs : P s) {es : List ε}
    (h : Meets step legal s es) : Meets step ok' s es ↔ Meets step ok s es := by
  induction es generalizing s with
  | nil => rfl
  | cons e es ih =>
    constructor
    · rintro ⟨hfirst, hrest⟩
      have hfirst := (hok s e hs h.1).mp hfirst
      exact ⟨hfirst, (ih (hstep s e hs h.1 hfirst) h.2).mp hrest⟩
    · rintro ⟨hfirst, hrest⟩
      exact ⟨(hok s e hs h.1).mpr hfirst, (ih (hstep s e hs h.1 hfirst) h.2).mpr hrest⟩

/-- Where a step from a state with `inv` and `P` keeps `inv`, and keeps `P` exactly when it
meets `ok`, the runs with `P` throughout are those whose steps meet `ok`. -/
theorem throughout_iff_meets_while (ok : σ → ε → Prop) (inv P : σ → Prop)
    (hinv : ∀ s e, inv s → P s → inv (step s e))
    (hstep : ∀ s e, inv s → P s → (P (step s e) ↔ ok s e)) {s : σ} (hs : inv s) (hP : P s)
    {es : List ε} : Throughout step P s es ↔ Meets step ok s es := by
  induction es generalizing s with
  | nil => exact iff_of_true hP trivial
  | cons e es ih =>
    constructor
    · rintro ⟨-, h⟩
      have hnext : P (step s e) := by
        cases es with
        | nil => exact h
        | cons e' es => exact h.1
      exact ⟨(hstep s e hs hP).mp hnext, (ih (hinv s e hs hP) hnext).mp h⟩
    · rintro ⟨hok, h⟩
      have hnext := (hstep s e hs hP).mpr hok
      exact ⟨hP, (ih (hinv s e hs hP) hnext).mpr h⟩

/-- Where `inv` holds of every state, and a step from a state with `P` leads to one with `P`
exactly when it meets `ok`, the runs with `P` throughout are those whose steps meet `ok`. -/
theorem throughout_iff_meets (ok : σ → ε → Prop) (inv P : σ → Prop)
    (hinv : ∀ s e, inv s → inv (step s e)) (hstep : ∀ s e, inv s → P s → (P (step s e) ↔ ok s e))
    {s : σ} (hs : inv s) (hP : P s) {es : List ε} :
    Throughout step P s es ↔ Meets step ok s es :=
  throughout_iff_meets_while ok inv P (fun s e h _ => hinv s e h) hstep hs hP

lemma Meets.last {ok : σ → ε → Prop} {s : σ} {es : List ε} {e : ε}
    (h : Meets step ok s (es ++ [e])) : ok (run step s es) e := by
  induction es generalizing s with
  | nil => exact h.1
  | cons e' es ih => exact ih h.2

lemma Throughout.last {P : σ → Prop} {s : σ} {es : List ε} (h : Throughout step P s es) :
    P (run step s es) := by
  induction es generalizing s with
  | nil => exact h
  | cons e es ih => exact ih h.2

theorem Throughout.mono {P Q : σ → Prop} (hPQ : ∀ s, P s → Q s) {s : σ} {es : List ε}
    (h : Throughout step P s es) : Throughout step Q s es := by
  induction es generalizing s with
  | nil => exact hPQ s h
  | cons e es ih => exact ⟨hPQ s h.1, ih h.2⟩

end Nais.Lib.Run
