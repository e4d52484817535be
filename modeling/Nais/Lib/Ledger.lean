import Mathlib.Data.Finset.Basic
import Mathlib.Tactic

/-!
# Ledgers of resources

An environment hands out resources under names, and may use a name again once it was
released. A ledger says which names are live, which were released, and whether one was
released when it was not live.
-/

namespace Nais.Lib

structure Ledger (R : Type) where
  live : Finset R
  released : Finset R
  twice : Bool
  deriving DecidableEq

namespace Ledger

variable {R : Type} [DecidableEq R]

def empty : Ledger R := ⟨∅, ∅, false⟩

def handOut (l : Ledger R) (r : R) : Ledger R := { l with live := insert r l.live }

/-- The release of a name that was never handed out is without effect. -/
def release (l : Ledger R) (r : R) : Ledger R :=
  if r ∈ l.live then { l with live := l.live.erase r, released := insert r l.released }
  else if r ∈ l.released then { l with twice := true }
  else l

/-- A number of releases of one name. -/
def releases (l : Ledger R) (r : R) : ℕ → Ledger R
  | 0 => l
  | n + 1 => (l.releases r n).release r

variable {l : Ledger R} {r x : R}

@[simp] lemma mem_live_handOut : x ∈ (l.handOut r).live ↔ x = r ∨ x ∈ l.live := Finset.mem_insert

@[simp] lemma released_handOut : (l.handOut r).released = l.released := rfl

@[simp] lemma twice_handOut : (l.handOut r).twice = l.twice := rfl

lemma mem_live_release : x ∈ (l.release r).live ↔ x ∈ l.live ∧ x ≠ r := by
  rw [release]
  split_ifs with hlive hreleased
  · rw [Finset.mem_erase, and_comm]
  · refine ⟨fun h => ⟨h, ?_⟩, And.left⟩
    rintro rfl
    exact hlive h
  · refine ⟨fun h => ⟨h, ?_⟩, And.left⟩
    rintro rfl
    exact hlive h

lemma mem_released_release :
    x ∈ (l.release r).released ↔ x ∈ l.released ∨ x = r ∧ r ∈ l.live := by
  rw [release]
  split_ifs with hlive hreleased
  · rw [Finset.mem_insert]
    tauto
  · tauto
  · tauto

lemma twice_release :
    (l.release r).twice = true ↔ l.twice = true ∨ r ∉ l.live ∧ r ∈ l.released := by
  rw [release]
  split_ifs with hlive hreleased
  · simp [hlive]
  · simp [hlive, hreleased]
  · simp [hlive, hreleased]

lemma releases_add (l : Ledger R) (r : R) (m n : ℕ) : l.releases r (m + n) = (l.releases r m).releases r n := by
  induction n with
  | zero => rfl
  | succ n ih => rw [← Nat.add_assoc, releases, releases, ih]

/-- The first of them makes the name free, and the others are releases of a free name. -/
lemma mem_live_releases {n : ℕ} :
    x ∈ (l.releases r n).live ↔ x ∈ l.live ∧ (x = r → n = 0) := by
  induction n with
  | zero => simp [releases]
  | succ n ih =>
    rw [releases, mem_live_release, ih]
    tauto

lemma mem_released_releases (h : r ∈ l.live) {n : ℕ} :
    x ∈ (l.releases r n).released ↔ x ∈ l.released ∨ x = r ∧ n ≠ 0 := by
  induction n with
  | zero => simp [releases]
  | succ n ih =>
    rw [releases, mem_released_release, ih, mem_live_releases]
    simp only [h, true_and]
    tauto

lemma twice_releases (h : r ∈ l.live) {n : ℕ} :
    (l.releases r n).twice = true ↔ l.twice = true ∨ 2 ≤ n := by
  induction n with
  | zero => simp [releases]
  | succ n ih =>
    rw [releases, twice_release, ih, mem_live_releases, mem_released_releases h]
    have hsucc : 2 ≤ n + 1 ↔ 2 ≤ n ∨ n = 1 := by omega
    rw [hsucc]
    simp only [h, true_and, forall_const]
    constructor
    · rintro ((htwice | hn) | ⟨hn, -⟩)
      · exact Or.inl htwice
      · exact Or.inr (Or.inl hn)
      · obtain rfl | hlarge : n = 1 ∨ 2 ≤ n := by omega
        · exact Or.inr (Or.inr rfl)
        · exact Or.inr (Or.inl hlarge)
    · rintro (htwice | hn | rfl)
      · exact Or.inl (Or.inl htwice)
      · exact Or.inl (Or.inr hn)
      · exact Or.inr ⟨by norm_num, Or.inr (by norm_num)⟩

end Ledger

end Nais.Lib
