import Mathlib.Tactic

/-!
# Cutting a stream into records

A cutter takes the first record off a stream and leaves the rest. It returns what it
consumed, and whether a record ends depends on nothing that comes after it. Then a
concatenation of records is cut back into these records exactly when each of them is
accepted on its own. A symbol automaton that remembers what it has read is a cutter.
-/

namespace Nais.Lib.Cut

variable {α σ ε : Type}

structure Cutter (α ε : Type) where
  receive : List α → Except ε (List α × List α)
  consumes : ∀ {xs r rest}, receive xs = .ok (r, rest) → xs = r ++ rest
  determined : ∀ {r rest} (rest'), receive (r ++ rest) = .ok (r, rest) →
    receive (r ++ rest') = .ok (r, rest')

/-- `c` takes all of `r` as one record. -/
def Cutter.Accepts (c : Cutter α ε) (r : List α) : Prop := c.receive r = .ok (r, [])

/-- The records returned by `n` successive calls, and what is left of the stream. -/
def receiveMany (receive : List α → Except ε (List α × List α)) :
    Nat → List α → Except ε (List (List α) × List α)
  | 0, xs => .ok ([], xs)
  | n + 1, xs =>
    match receive xs with
    | .error e => .error e
    | .ok (r, rest) =>
      match receiveMany receive n rest with
      | .error e => .error e
      | .ok (rs, left) => .ok (r :: rs, left)

lemma receiveMany_succ_iff {receive : List α → Except ε (List α × List α)} {n : Nat}
    {xs left : List α} {rs : List (List α)} :
    receiveMany receive (n + 1) xs = .ok (rs, left) ↔
      ∃ r rest rs', rs = r :: rs' ∧ receive xs = .ok (r, rest) ∧
        receiveMany receive n rest = .ok (rs', left) := by
  rw [receiveMany]
  cases h : receive xs with
  | error e => simp
  | ok p =>
    obtain ⟨r, rest⟩ := p
    cases hm : receiveMany receive n rest with
    | error e => simp [hm]
    | ok q =>
      obtain ⟨rs', left'⟩ := q
      simp only [hm, Except.ok.injEq, Prod.mk.injEq]
      constructor
      · rintro ⟨rfl, rfl⟩
        exact ⟨r, rest, rs', rfl, ⟨rfl, rfl⟩, by rw [hm]⟩
      · rintro ⟨_, _, rs'', rfl, ⟨rfl, rfl⟩, hq⟩
        rw [hm, Except.ok.injEq, Prod.mk.injEq] at hq
        exact ⟨by rw [hq.1], hq.2⟩

lemma receiveMany_succ_of_ok {receive : List α → Except ε (List α × List α)} {xs r rest : List α}
    (h : receive xs = .ok (r, rest)) {n : Nat} {rs : List (List α)} {left : List α} :
    receiveMany receive (n + 1) xs = .ok (r :: rs, left) ↔
      receiveMany receive n rest = .ok (rs, left) := by
  rw [receiveMany_succ_iff, h]
  constructor
  · rintro ⟨_, _, _, hcons, hok, hrest⟩
    cases hcons
    cases hok
    exact hrest
  · exact fun hrest => ⟨r, rest, rs, rfl, rfl, hrest⟩

lemma receiveMany_one_iff {receive : List α → Except ε (List α × List α)} {xs r rest : List α} :
    receiveMany receive 1 xs = .ok ([r], rest) ↔ receive xs = .ok (r, rest) := by
  rw [receiveMany_succ_iff]
  constructor
  · rintro ⟨_, _, _, hcons, hok, hrest⟩
    cases hcons
    cases hrest
    exact hok
  · exact fun hok => ⟨r, rest, [], rfl, hok, rfl⟩

lemma Cutter.receive_append_iff (c : Cutter α ε) (r rest : List α) :
    c.receive (r ++ rest) = .ok (r, rest) ↔ c.Accepts r := by
  constructor
  · intro h
    have h' := c.determined [] h
    rwa [List.append_nil] at h'
  · intro h
    have h' : c.receive (r ++ []) = .ok (r, []) := by rwa [List.append_nil]
    exact c.determined rest h'

lemma Cutter.receiveMany_consumes (c : Cutter α ε) {n : Nat} {xs left : List α} {rs : List (List α)}
    (h : receiveMany c.receive n xs = .ok (rs, left)) : xs = rs.flatten ++ left := by
  induction n generalizing xs rs with
  | zero =>
    cases h
    rfl
  | succ n ih =>
    obtain ⟨r, rest, rs', rfl, hr, hm⟩ := receiveMany_succ_iff.mp h
    rw [c.consumes hr, ih hm, List.flatten_cons, List.append_assoc]

lemma Cutter.receiveMany_cons_iff (c : Cutter α ε) (r : List α) (rs : List (List α)) (n : Nat)
    (xs : List α) :
    receiveMany c.receive (n + 1) (r ++ xs) = .ok (r :: rs, []) ↔
      c.Accepts r ∧ receiveMany c.receive n xs = .ok (rs, []) := by
  rw [← c.receive_append_iff r xs, receiveMany_succ_iff]
  constructor
  · rintro ⟨r', rest, rs', hcons, hr, hm⟩
    cases hcons
    have hrest : rest = xs := List.append_cancel_left (c.consumes hr).symm
    subst hrest
    exact ⟨hr, hm⟩
  · rintro ⟨hr, hm⟩
    exact ⟨r, xs, rs, rfl, hr, hm⟩

/-- Records are recovered from their concatenation exactly when each is accepted. -/
theorem Cutter.receiveMany_flatten_iff (c : Cutter α ε) (rs : List (List α)) :
    receiveMany c.receive rs.length rs.flatten = .ok (rs, []) ↔ ∀ r ∈ rs, c.Accepts r := by
  induction rs with
  | nil => simp [receiveMany]
  | cons r rs ih =>
    rw [List.length_cons, List.flatten_cons, c.receiveMany_cons_iff, ih, List.forall_mem_cons]

section Same

variable {ε' : Type}

/-- Two readers return the same records, call by call. -/
def SameRecords (receive : List α → Except ε (List α × List α))
    (receive' : List α → Except ε' (List α × List α)) (xs : List α) : Prop :=
  ∀ n rs left, receiveMany receive n xs = .ok (rs, left) ↔ receiveMany receive' n xs = .ok (rs, left)

variable {receive : List α → Except ε (List α × List α)}
  {receive' : List α → Except ε' (List α × List α)} {xs : List α}

lemma SameRecords.receive_iff (h : SameRecords receive receive' xs) (r rest : List α) :
    receive xs = .ok (r, rest) ↔ receive' xs = .ok (r, rest) := by
  rw [← receiveMany_one_iff, ← receiveMany_one_iff, h]

/-- After one record that both return, the readers have to agree on the rest. -/
lemma sameRecords_cons_iff {r rest : List α} (h : receive xs = .ok (r, rest))
    (h' : receive' xs = .ok (r, rest)) :
    SameRecords receive receive' xs ↔ SameRecords receive receive' rest := by
  constructor
  · intro hsame n rs left
    rw [← receiveMany_succ_of_ok h, ← receiveMany_succ_of_ok h', hsame]
  · intro hsame n rs left
    cases n with
    | zero => simp [receiveMany]
    | succ n =>
      rw [receiveMany_succ_iff, receiveMany_succ_iff, h, h']
      simp only [Except.ok.injEq, Prod.mk.injEq]
      constructor
      · rintro ⟨_, _, rs', rfl, ⟨rfl, rfl⟩, hrest⟩
        exact ⟨_, _, rs', rfl, ⟨rfl, rfl⟩, (hsame n rs' left).mp hrest⟩
      · rintro ⟨_, _, rs', rfl, ⟨rfl, rfl⟩, hrest⟩
        exact ⟨_, _, rs', rfl, ⟨rfl, rfl⟩, (hsame n rs' left).mpr hrest⟩

/-- Readers that both fail agree. -/
lemma sameRecords_of_error {e : ε} {e' : ε'} (h : receive xs = .error e) (h' : receive' xs = .error e') :
    SameRecords receive receive' xs := by
  intro n rs left
  cases n with
  | zero => simp [receiveMany]
  | succ n => simp [receiveMany, h, h']

end Same

/-- Reads symbols until `step` answers that the record is complete. -/
def readUntil (step : σ → α → σ × Bool) (eof : ε) : σ → List α → Except ε (σ × List α)
  | _, [] => .error eof
  | s, a :: rest =>
    if (step s a).2 then readUntil step eof (step s a).1 rest else .ok ((step s a).1, rest)

section Automaton

variable (step : σ → α → σ × Bool) (eof : ε) (output : σ → List α)
  (hout : ∀ s a, output (step s a).1 = output s ++ [a])

lemma readUntil_length_lt {s s' : σ} {xs rest : List α}
    (h : readUntil step eof s xs = .ok (s', rest)) : rest.length < xs.length := by
  induction xs generalizing s with
  | nil => simp [readUntil] at h
  | cons a xs ih =>
    rw [readUntil] at h
    split at h
    · have hi := ih h
      simp only [List.length_cons]
      omega
    · cases h
      simp

lemma readUntil_determined {s s' : σ} {xs rest : List α} (rest' : List α)
    (h : readUntil step eof s (xs ++ rest) = .ok (s', rest)) :
    readUntil step eof s (xs ++ rest') = .ok (s', rest') := by
  induction xs generalizing s with
  | nil => exact absurd (readUntil_length_lt step eof h) (by simp)
  | cons a xs ih =>
    simp only [List.cons_append, readUntil] at h ⊢
    by_cases hs : (step s a).2
    · rw [if_pos hs] at h ⊢
      exact ih h
    · rw [if_neg hs, Except.ok.injEq, Prod.mk.injEq] at h
      obtain ⟨hst, hrest⟩ := h
      have hxs : xs = [] := by simpa using congrArg List.length hrest
      rw [if_neg hs, hst, hxs, List.nil_append]

include hout in
lemma readUntil_consumes {s s' : σ} {xs rest : List α}
    (h : readUntil step eof s xs = .ok (s', rest)) : output s ++ xs = output s' ++ rest := by
  induction xs generalizing s with
  | nil => simp [readUntil] at h
  | cons a xs ih =>
    rw [readUntil] at h
    split at h
    · have hi := ih h
      rw [hout] at hi
      simpa using hi
    · cases h
      rw [hout]
      simp

/-- The cutter that reads each record from the state `s`, where nothing is read yet. -/
def automaton (s : σ) (hs : output s = []) : Cutter α ε where
  receive xs := (readUntil step eof s xs).map (fun p => (output p.1, p.2))
  consumes := by
    intro xs r rest h
    cases hr : readUntil step eof s xs with
    | error e => simp [hr, Except.map] at h
    | ok p =>
      have hc := readUntil_consumes step eof output hout hr
      simp only [hr, Except.map, Except.ok.injEq, Prod.mk.injEq] at h
      simpa [hs, h.1, h.2] using hc
  determined := by
    intro r rest rest' h
    cases hr : readUntil step eof s (r ++ rest) with
    | error e => simp [hr, Except.map] at h
    | ok p =>
      simp only [hr, Except.map, Except.ok.injEq, Prod.mk.injEq] at h
      have hp : readUntil step eof s (r ++ rest) = .ok (p.1, rest) := by rw [hr, ← h.2]
      rw [readUntil_determined step eof rest' hp, Except.map, h.1]

lemma automaton_accepts_iff (s : σ) (hs : output s = []) (r : List α) :
    (automaton step eof output hout s hs).Accepts r ↔ ∃ s', readUntil step eof s r = .ok (s', []) := by
  unfold Cutter.Accepts automaton
  dsimp only
  constructor
  · intro h
    cases hr : readUntil step eof s r with
    | error e => simp [hr, Except.map] at h
    | ok p =>
      simp only [hr, Except.map, Except.ok.injEq, Prod.mk.injEq] at h
      exact ⟨p.1, by rw [← h.2]⟩
  · rintro ⟨s', h⟩
    have hc := readUntil_consumes step eof output hout h
    rw [hs, List.nil_append, List.append_nil] at hc
    rw [h, hc, Except.map]

end Automaton

end Nais.Lib.Cut
