import Mathlib.Tactic

/-!
# Walking a list that changes

A `for` loop over a list by position, while elements are appended to the list and removed
from it between two rounds. No element is met twice. An element that is there from the
start of the loop to its end is met, unless the removal of an element that was passed moves
it behind the cursor.
-/

namespace Nais.Lib

variable {α : Type}

/-- The list at the start of the loop, the next position, and the elements met so far. -/
structure Cursor (α : Type) where
  start : List α
  index : Nat
  seen : List α

namespace Cursor

def begin (xs : List α) : Cursor α := ⟨xs, 0, []⟩

/-- One round of the loop, or its end. -/
def next (c : Cursor α) (xs : List α) : Option (Cursor α) :=
  xs[c.index]?.map fun a => { c with index := c.index + 1, seen := c.seen ++ [a] }

/-- What was met is not met again. -/
structure Sound (c : Cursor α) (xs : List α) : Prop where
  nodup : c.seen.Nodup
  apart : ∀ a ∈ c.seen, a ∉ xs.drop c.index

/-- Whoever was there at the start and is there now was met or lies ahead. -/
def Fair (c : Cursor α) (xs : List α) : Prop :=
  ∀ a ∈ c.start, a ∈ xs → a ∈ c.seen ∨ a ∈ xs.drop c.index

/-- The removal of `a` moves no element behind the cursor that was there at the start. -/
def Spares (c : Cursor α) (xs : List α) (a : α) : Prop :=
  a ∈ xs.take c.index → ∀ b, xs[c.index]? = some b → b ∉ c.start

variable {c c' : Cursor α} {xs : List α} {a : α}

lemma sound_begin (xs : List α) : (begin xs).Sound xs :=
  ⟨List.nodup_nil, fun _ h => absurd h List.not_mem_nil⟩

lemma fair_begin (xs : List α) : (begin xs).Fair xs := fun _ _ hmem => Or.inr hmem

lemma next_eq_some_iff : c.next xs = some c' ↔ ∃ a, xs[c.index]? = some a ∧
    c' = ⟨c.start, c.index + 1, c.seen ++ [a]⟩ := by
  unfold next
  rw [Option.map_eq_some_iff]
  simp only [eq_comm]

lemma drop_of_getElem? {i : Nat} (h : xs[i]? = some a) : xs.drop i = a :: xs.drop (i + 1) := by
  obtain ⟨hlt, rfl⟩ := List.getElem?_eq_some_iff.mp h
  exact List.drop_eq_getElem_cons hlt

lemma Sound.next (h : c.Sound xs) (hxs : xs.Nodup) (hnext : c.next xs = some c') : c'.Sound xs := by
  obtain ⟨a, ha, rfl⟩ := next_eq_some_iff.mp hnext
  have hdrop := drop_of_getElem? ha
  have hnodup : (a :: xs.drop (c.index + 1)).Nodup := by
    rw [← hdrop]
    exact hxs.sublist (List.drop_sublist _ _)
  rw [List.nodup_cons] at hnodup
  have hnew : a ∉ c.seen := by
    intro hmem
    apply h.apart a hmem
    rw [hdrop]
    exact List.mem_cons_self
  constructor
  · dsimp only
    rw [List.nodup_append]
    refine ⟨h.nodup, List.nodup_singleton _, ?_⟩
    intro b hb d hd hbd
    rw [List.mem_singleton] at hd
    exact hnew (hd ▸ hbd ▸ hb)
  · intro b hb
    rw [List.mem_append, List.mem_singleton] at hb
    obtain hb | rfl := hb
    · intro hmem
      apply h.apart b hb
      rw [hdrop]
      exact List.mem_cons_of_mem _ hmem
    · exact hnodup.1

lemma Fair.next (h : c.Fair xs) (hnext : c.next xs = some c') : c'.Fair xs := by
  obtain ⟨a, ha, rfl⟩ := next_eq_some_iff.mp hnext
  have hdrop := drop_of_getElem? ha
  intro b hb hmem
  dsimp only
  rw [List.mem_append, List.mem_singleton]
  obtain hseen | hahead := h b hb hmem
  · exact Or.inl (Or.inl hseen)
  · rw [hdrop, List.mem_cons] at hahead
    obtain rfl | hahead := hahead
    · exact Or.inl (Or.inr rfl)
    · exact Or.inr hahead

/-- At the end of a fair loop, whoever stayed was met. -/
lemma Fair.at_end (h : c.Fair xs) (hnext : c.next xs = none) : ∀ a ∈ c.start, a ∈ xs → a ∈ c.seen := by
  intro a ha hmem
  unfold Cursor.next at hnext
  rw [Option.map_eq_none_iff, List.getElem?_eq_none_iff] at hnext
  obtain hseen | hahead := h a ha hmem
  · exact hseen
  · rw [List.drop_eq_nil_of_le hnext] at hahead
    cases hahead

lemma Sound.append (h : c.Sound xs) (ha : a ∉ c.seen) : c.Sound (xs ++ [a]) := by
  refine ⟨h.nodup, fun b hb hmem => ?_⟩
  rw [List.drop_append, List.mem_append] at hmem
  obtain hmem | hmem := hmem
  · exact h.apart b hb hmem
  · have hba := List.mem_singleton.mp (List.mem_of_mem_drop hmem)
    exact ha (hba ▸ hb)

lemma Fair.append (h : c.Fair xs) (ha : a ∉ c.start) : c.Fair (xs ++ [a]) := by
  intro b hb hmem
  rw [List.mem_append, List.mem_singleton] at hmem
  rw [List.drop_append, List.mem_append]
  obtain hmem | rfl := hmem
  · exact (h b hb hmem).imp_right Or.inl
  · exact absurd hb ha

variable [DecidableEq α]

/-- A removal behind the cursor moves it by one, a removal ahead leaves it. -/
lemma drop_erase (xs : List α) (a : α) (k : Nat) :
    (xs.erase a).drop k = if a ∈ xs.take k then xs.drop (k + 1) else (xs.drop k).erase a := by
  have hsplit : xs.erase a = (xs.take k ++ xs.drop k).erase a := by
    rw [List.take_append_drop]
  rw [hsplit, List.erase_append]
  split_ifs with hmem
  · have hpos := List.length_pos_of_mem hmem
    have hlen := List.length_erase_of_mem hmem
    rw [List.length_take] at hpos hlen
    by_cases hk : k ≤ xs.length
    · rw [List.drop_append, List.drop_eq_nil_of_le (by omega), List.nil_append, List.drop_drop]
      congr 1
      omega
    · rw [List.drop_eq_nil_of_le (by omega : xs.length ≤ k), List.append_nil,
        List.drop_eq_nil_of_le (by omega), List.drop_eq_nil_of_le (by omega)]
  · by_cases hk : k ≤ xs.length
    · exact List.drop_left' (List.length_take_of_le hk)
    · rw [List.drop_eq_nil_of_le (by omega : xs.length ≤ k), List.erase_nil, List.append_nil,
        List.drop_eq_nil_of_le (by rw [List.length_take]; omega)]

lemma Sound.erase (h : c.Sound xs) (a : α) : c.Sound (xs.erase a) := by
  refine ⟨h.nodup, fun b hb hmem => h.apart b hb ?_⟩
  rw [drop_erase] at hmem
  split_ifs at hmem
  · rw [← List.drop_drop] at hmem
    exact List.mem_of_mem_drop hmem
  · exact List.mem_of_mem_erase hmem

lemma Fair.erase (h : c.Fair xs) (hxs : xs.Nodup) (hspares : c.Spares xs a) : c.Fair (xs.erase a) := by
  intro b hb hmem
  have hne : b ≠ a := fun heq => hxs.not_mem_erase (heq ▸ hmem)
  obtain hseen | hahead := h b hb (List.mem_of_mem_erase hmem)
  · exact Or.inl hseen
  · right
    rw [drop_erase]
    split_ifs with hpassed
    · cases hi : xs[c.index]? with
      | none =>
        rw [List.drop_eq_nil_of_le (List.getElem?_eq_none_iff.mp hi)] at hahead
        cases hahead
      | some d =>
        rw [drop_of_getElem? hi, List.mem_cons] at hahead
        obtain rfl | hahead := hahead
        · exact absurd hb (hspares hpassed b hi)
        · exact hahead
    · exact (List.mem_erase_of_ne hne).mpr hahead

end Cursor

end Nais.Lib
