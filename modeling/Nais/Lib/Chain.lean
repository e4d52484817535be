import Mathlib.Data.Fintype.Card
import Mathlib.Tactic

/-!
# Lists linked through their own nodes

The links are a head and, for each node, the link to the next one. A slot is a place that
holds a link, as a pointer to a pointer denotes it. `Path` follows links from one to
another and names the nodes it passes; `Links.Holds` says which list the head leads to.
-/

namespace Nais.Lib.Chain

variable {ι : Type}

structure Links (ι : Type) where
  head : Option ι
  next : ι → Option ι

inductive Slot (ι : Type) where
  | head
  | next (x : ι)

def Links.get (g : Links ι) : Slot ι → Option ι
  | .head => g.head
  | .next x => g.next x

def Path (next : ι → Option ι) : Option ι → List ι → Option ι → Prop
  | p, [], q => p = q
  | p, x :: l, q => p = some x ∧ Path next (next x) l q

def Links.Holds (g : Links ι) (l : List ι) : Prop := Path g.next g.head l none

/-- The slot one comes to from `slot` by passing the nodes `l`. -/
def behind : Slot ι → List ι → Slot ι
  | slot, [] => slot
  | _, x :: l => behind (.next x) l

section Path

variable {next : ι → Option ι} {p q : Option ι} {a b l : List ι} {x : ι}

lemma path_append : Path next p (a ++ b) q ↔ ∃ r, Path next p a r ∧ Path next r b q := by
  induction a generalizing p with
  | nil => simp [Path]
  | cons y a ih => simp [Path, ih, and_assoc]

lemma Path.congr {next' : ι → Option ι} (h : Path next p l q)
    (hl : ∀ y ∈ l, next' y = next y) : Path next' p l q := by
  induction l generalizing p with
  | nil => exact h
  | cons y l ih =>
    refine ⟨h.1, ?_⟩
    rw [hl y List.mem_cons_self]
    exact ih h.2 fun z hz => hl z (List.mem_cons_of_mem y hz)

/-- Links lead to one list only. -/
lemma Path.unique {l' : List ι} (h : Path next p l none) (h' : Path next p l' none) :
    l = l' := by
  induction l generalizing p l' with
  | nil => cases l' with
    | nil => rfl
    | cons y l' => exact absurd (h.symm.trans h'.1) (by simp)
  | cons x l ih => cases l' with
    | nil => exact absurd (h.1.symm.trans h') (by simp)
    | cons y l' =>
      obtain rfl : x = y := by simpa using h.1.symm.trans h'.1
      rw [ih h.2 h'.2]

/-- A list that ends passes no node twice: it would go on from there as it did before. -/
lemma Path.nodup (h : Path next p l none) : l.Nodup := by
  induction l generalizing p with
  | nil => exact List.nodup_nil
  | cons x l ih =>
    refine List.nodup_cons.mpr ⟨fun hx => ?_, ih h.2⟩
    obtain ⟨a, b, rfl⟩ := List.append_of_mem hx
    obtain ⟨r, -, hr⟩ := path_append.mp h.2
    have hlen := congrArg List.length (h.2.unique hr.2)
    simp only [List.length_append, List.length_cons] at hlen
    omega

/-- A node that links to itself ends no list. -/
lemma not_path_of_loop (h : next x = some x) : ¬Path next (some x) l none := fun hl => by
  induction l with
  | nil => exact absurd hl (by simp [Path])
  | cons y l ih =>
    obtain rfl : x = y := by simpa using hl.1
    exact ih (h ▸ hl.2)

lemma Path.tail {y : ι} (h : Path next p l none) (hp : p = some y) :
    ∃ b, l = y :: b ∧ Path next (next y) b none := by
  subst hp
  cases l with
  | nil => exact absurd h (by simp [Path])
  | cons z b =>
    obtain rfl : y = z := by simpa using h.1
    exact ⟨b, rfl, h.2⟩

/-- A node that the links lead to is in the list. -/
lemma Path.mem_of_path (h : Path next p l none) (ha : Path next p a (some x)) : x ∈ l := by
  induction a generalizing p l with
  | nil =>
    obtain ⟨b, rfl, -⟩ := h.tail ha
    exact List.mem_cons_self
  | cons y a ih =>
    obtain ⟨b, rfl, hb⟩ := h.tail ha.1
    exact List.mem_cons_of_mem y (ih hb ha.2)

lemma Path.eq_head? (h : Path next p l none) : p = l.head? := by
  cases l with
  | nil => exact h
  | cons x l => exact h.1

/-- What a loop over a sorted list leaves comes at or after a node that stopped it. -/
lemma exists_stop_of_mem_dropWhile {R : ι → ι → Prop} {f : ι → Bool} (hl : l.Pairwise R)
    {y : ι} (hy : y ∈ l.dropWhile f) :
    ∃ z ∈ l.dropWhile f, f z = false ∧ (z = y ∨ R z y) := by
  have hsorted := hl.sublist (List.dropWhile_sublist f)
  have hstop := List.head?_dropWhile_not f l
  cases hr : l.dropWhile f with
  | nil => simp [hr] at hy
  | cons z r =>
    rw [hr] at hy hsorted hstop
    refine ⟨z, List.mem_cons_self, hstop, ?_⟩
    rcases List.mem_cons.mp hy with rfl | hy
    · exact Or.inl rfl
    · exact Or.inr ((List.pairwise_cons.mp hsorted).1 y hy)

lemma Path.get_behind {g : Links ι} {slot : Slot ι} (h : Path g.next (g.get slot) a p) :
    g.get (behind slot a) = p := by
  induction a generalizing slot with
  | nil => exact h
  | cons x a ih => exact ih h.2

end Path

lemma behind_append (slot : Slot ι) (a b : List ι) :
    behind slot (a ++ b) = behind (behind slot a) b := by
  induction a generalizing slot with
  | nil => rfl
  | cons x a ih => exact ih (.next x)

lemma behind_ne {a : List ι} {x : ι} (hx : x ∉ a) : behind .head a ≠ .next x := by
  rcases List.eq_nil_or_concat a with rfl | ⟨a, y, rfl⟩
  · simp [behind]
  · have hxy : y ≠ x := fun h => hx (by simp [h])
    simp [behind_append, behind, hxy]

section Fixed

variable {g : Links ι} {l : List ι}

lemma Links.Holds.length_le [Fintype ι] (h : g.Holds l) : l.length ≤ Fintype.card ι :=
  h.nodup.length_le_card

/-- No node of a list that ends links back to its head. -/
lemma Links.Holds.head_ne_next {x : ι} (h : g.Holds l) (hx : x ∈ l) : g.head ≠ g.next x := by
  intro heq
  obtain ⟨a, b, rfl⟩ := List.append_of_mem hx
  obtain ⟨r, -, -, hb⟩ := path_append.mp h
  have hlen := congrArg List.length (Path.unique h (heq ▸ hb))
  simp only [List.length_append, List.length_cons] at hlen
  omega

/-- The loop that moves a slot on while it holds a node with `p`, for at most `n` nodes. -/
def Links.seek (g : Links ι) (p : ι → Bool) : ℕ → Slot ι → Option (Slot ι)
  | 0, _ => none
  | n + 1, slot =>
    match g.get slot with
    | none => some slot
    | some x => if p x then g.seek p n (.next x) else some slot

theorem seek_eq (slot : Slot ι) {p : ι → Bool} {n : ℕ} (h : Path g.next (g.get slot) l none)
    (hn : l.length < n) : g.seek p n slot = some (behind slot (l.takeWhile p)) := by
  induction l generalizing n slot with
  | nil =>
    obtain ⟨n, rfl⟩ := Nat.exists_eq_succ_of_ne_zero (Nat.ne_zero_of_lt hn)
    have hnone : g.get slot = none := h
    simp [Links.seek, hnone, behind]
  | cons x l ih =>
    obtain ⟨n, rfl⟩ := Nat.exists_eq_succ_of_ne_zero (Nat.ne_zero_of_lt hn)
    have hnext := ih (.next x) (n := n) h.2 (by simpa using hn)
    by_cases hp : p x = true
    · simp [Links.seek, h.1, hp, hnext, behind]
    · simp [Links.seek, h.1, hp, behind]

/-- A second loop goes on where the first one stopped. -/
lemma seek_seek {p q : ι → Bool} {n : ℕ} (h : g.Holds l) (hn : l.length < n) :
    g.seek q n (behind .head (l.takeWhile p)) =
      some (behind .head (l.takeWhile p ++ (l.dropWhile p).takeWhile q)) := by
  have hcut : l.takeWhile p ++ l.dropWhile p = l := List.takeWhile_append_dropWhile
  have hholds : Path g.next g.head (l.takeWhile p ++ l.dropWhile p) none := hcut.symm ▸ h
  obtain ⟨r, hr, hrest⟩ := path_append.mp hholds
  have hget : Path g.next (g.get (behind .head (l.takeWhile p))) (l.dropWhile p) none := by
    rw [Path.get_behind hr]
    exact hrest
  rw [behind_append]
  exact seek_eq _ hget ((List.dropWhile_sublist p).length_le.trans_lt hn)

end Fixed

variable [DecidableEq ι]

def Links.set (g : Links ι) : Slot ι → Option ι → Links ι
  | .head, p => { g with head := p }
  | .next x, p => { g with next := Function.update g.next x p }

/-- `x->next = *slot; *slot = x`. -/
def Links.insertAt (g : Links ι) (slot : Slot ι) (x : ι) : Links ι :=
  (g.set (.next x) (g.get slot)).set slot (some x)

/-- `*slot = x->next`. -/
def Links.unlinkAt (g : Links ι) (slot : Slot ι) (x : ι) : Links ι := g.set slot (g.next x)

section Write

variable {g : Links ι} {slot : Slot ι} {a b : List ι} {x y : ι} {p q r : Option ι}

lemma set_next_of_ne (h : slot ≠ .next y) : (g.set slot r).next y = g.next y := by
  cases slot with
  | head => rfl
  | next z => exact Function.update_of_ne (fun hyz => h (by rw [hyz])) _ _

lemma Path.set (h : Path g.next p b q) (hslot : ∀ y ∈ b, slot ≠ .next y) :
    Path (g.set slot r).next p b q := h.congr fun y hy => set_next_of_ne (hslot y hy)

/-- Writing the slot behind `a` leads the path through `a` elsewhere. -/
lemma Path.redirect (h : Path g.next g.head a q) (ha : a.Nodup) :
    Path (g.set (behind .head a) r).next (g.set (behind .head a) r).head a r := by
  rcases List.eq_nil_or_concat a with rfl | ⟨a, z, rfl⟩
  · rfl
  · rw [List.concat_eq_append] at h ha ⊢
    obtain ⟨s, hs, hz⟩ := path_append.mp h
    have hza : z ∉ a := fun hz => (List.nodup_append.mp ha).2.2 z hz z (by simp) rfl
    have hslot : behind .head (a ++ [z]) = .next z := by rw [behind_append]; rfl
    rw [hslot]
    refine path_append.mpr ⟨s, ?_, hz.1, ?_⟩
    · exact hs.set fun y hy hyz => hza (by cases hyz; exact hy)
    · simp [Links.set, Path]

theorem Links.Holds.insertAt (h : g.Holds (a ++ b)) (hx : x ∉ a ++ b) :
    (g.insertAt (behind .head a) x).Holds (a ++ x :: b) := by
  have hnodup := List.nodup_append.mp h.nodup
  obtain ⟨q, ha, hb⟩ := path_append.mp h
  have hget : g.get (behind .head a) = q := Path.get_behind ha
  have hxa : x ∉ a := fun h => hx (by simp [h])
  have hxb : x ∉ b := fun h => hx (by simp [h])
  have hne : ∀ y ∈ b, behind .head a ≠ .next y := fun y hy =>
    behind_ne fun hya => hnodup.2.2 y hya y hy rfl
  have hx' : ∀ l : List ι, x ∉ l → ∀ y ∈ l, Slot.next x ≠ .next y := fun l hl y hy hxy =>
    hl (by cases hxy; exact hy)
  refine path_append.mpr ⟨some x, ?_, rfl, ?_⟩
  · exact Path.redirect (g := g.set (.next x) _) (ha.set (hx' a hxa)) hnodup.1
  · have hnext : (g.insertAt (behind .head a) x).next x = q := by
      rw [Links.insertAt, set_next_of_ne (behind_ne hxa), hget]
      simp [Links.set]
    rw [hnext]
    exact (hb.set (hx' b hxb)).set hne

theorem Links.Holds.unlinkAt (h : g.Holds (a ++ x :: b)) :
    (g.unlinkAt (behind .head a) x).Holds (a ++ b) := by
  have hnodup := List.nodup_append.mp h.nodup
  obtain ⟨q, ha, -, hb⟩ := path_append.mp h
  refine path_append.mpr ⟨g.next x, Path.redirect ha hnodup.1, hb.set fun y hy => ?_⟩
  exact behind_ne fun hya => hnodup.2.2 y hya y (List.mem_cons_of_mem x hy) rfl

end Write

end Nais.Lib.Chain
