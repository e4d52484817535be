import Mathlib.Data.List.Perm.Basic
import Mathlib.Tactic

/-!
# Stocks of names

A fixed stock of different names, of which some are free and the others taken. A name is taken
from the free ones and put back when it is no longer in use.
-/

namespace Nais.Lib.Stock

variable {α : Type}

/-- Every name is free or taken, and no name is both. -/
structure Shared (names free taken : List α) : Prop where
  nodup : names.Nodup
  perm : (free ++ taken).Perm names

namespace Shared

variable {names free taken : List α} {x : α}

lemma all_free (h : names.Nodup) (hfree : free.Perm names) : Shared names free [] :=
  ⟨h, by rwa [List.append_nil]⟩

lemma nodup_append (h : Shared names free taken) : (free ++ taken).Nodup :=
  h.perm.nodup_iff.mpr h.nodup

lemma nodup_taken (h : Shared names free taken) : taken.Nodup :=
  (List.nodup_append.mp h.nodup_append).2.1

lemma mem_of_free (h : Shared names free taken) (hx : x ∈ free) : x ∈ names :=
  h.perm.mem_iff.mp (List.mem_append_left _ hx)

lemma mem_of_taken (h : Shared names free taken) (hx : x ∈ taken) : x ∈ names :=
  h.perm.mem_iff.mp (List.mem_append_right _ hx)

lemma not_free_of_taken (h : Shared names free taken) (hx : x ∈ taken) : x ∉ free := fun hfree =>
  (List.nodup_append.mp h.nodup_append).2.2 x hfree x hx rfl

lemma length_add (h : Shared names free taken) : free.length + taken.length = names.length := by
  rw [← List.length_append, h.perm.length_eq]

lemma exhausted_iff (h : Shared names free taken) : free = [] ↔ names.length ≤ taken.length := by
  have hlen := h.length_add
  rw [← List.length_eq_zero_iff]
  omega

lemma take (h : Shared names (x :: free) taken) : Shared names free (x :: taken) :=
  ⟨h.nodup, List.perm_middle.trans h.perm⟩

lemma putBack [DecidableEq α] (h : Shared names free taken) (hx : x ∈ taken) :
    Shared names (x :: free) (taken.erase x) := by
  refine ⟨h.nodup, ?_⟩
  calc List.Perm (x :: free ++ taken.erase x) (free ++ x :: taken.erase x) := List.perm_middle.symm
    List.Perm _ (free ++ taken) := (List.perm_cons_erase hx).symm.append_left free
    List.Perm _ names := h.perm

end Shared

end Nais.Lib.Stock
