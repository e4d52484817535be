import Mathlib.Tactic

/-!
# Items sorted by key

A stream of items, each of which changes the component of a state that its key names, or no
component. Component by component, the whole stream does what the items of that key do.
-/

namespace Nais.Lib.Route

/-- A fold whose items are read first and then taken in. -/
lemma foldlM_map_eq {α β γ : Type} (g : α → Option β) (h : γ → β → γ) (as : List α) (c : γ) :
    as.foldlM (fun c a => (g a).map (h c)) c = (as.mapM g).map fun bs => bs.foldl h c := by
  induction as generalizing c with
  | nil => rfl
  | cons a as ih =>
    rw [List.foldlM_cons, List.mapM_cons]
    cases g a with
    | none => rfl
    | some b =>
      simp only [Option.map_some, Option.bind_eq_bind, Option.bind_some, ih]
      cases as.mapM g <;> rfl

lemma mapM_length {α β : Type} {g : α → Option β} {as : List α} {bs : List β}
    (h : as.mapM g = some bs) : bs.length = as.length := by
  induction as generalizing bs with
  | nil =>
    cases h
    rfl
  | cons a as ih =>
    rw [List.mapM_cons, Option.bind_eq_bind, Option.bind_eq_some_iff] at h
    obtain ⟨b, -, h⟩ := h
    rw [Option.bind_eq_bind, Option.bind_eq_some_iff] at h
    obtain ⟨bs', hbs, h⟩ := h
    cases h
    rw [List.length_cons, List.length_cons, ih hbs]

lemma exists_of_mapM {α β : Type} {g : α → Option β} {as : List α} {bs : List β}
    (h : as.mapM g = some bs) {a : α} (ha : a ∈ as) : ∃ b, g a = some b := by
  induction as generalizing bs with
  | nil => cases ha
  | cons c as ih =>
    rw [List.mapM_cons, Option.bind_eq_bind, Option.bind_eq_some_iff] at h
    obtain ⟨b, hb, h⟩ := h
    rw [Option.bind_eq_bind, Option.bind_eq_some_iff] at h
    obtain ⟨bs', hbs, -⟩ := h
    obtain rfl | ha := List.mem_cons.mp ha
    · exact ⟨b, hb⟩
    · exact ih hbs ha

lemma sum_mapM_le {α : Type} {g : α → Option ℕ} {w : α → ℕ} {as : List α} {ns : List ℕ}
    (h : as.mapM g = some ns) (hle : ∀ a ∈ as, ∀ n, g a = some n → n ≤ w a) :
    ns.sum ≤ (as.map w).sum := by
  induction as generalizing ns with
  | nil =>
    cases h
    simp
  | cons a as ih =>
    rw [List.mapM_cons, Option.bind_eq_bind, Option.bind_eq_some_iff] at h
    obtain ⟨n, hn, h⟩ := h
    rw [Option.bind_eq_bind, Option.bind_eq_some_iff] at h
    obtain ⟨ns', hns, h⟩ := h
    cases h
    have hfirst := hle a List.mem_cons_self n hn
    have hrest := ih hns fun b hb => hle b (List.mem_cons_of_mem _ hb)
    simp only [List.sum_cons, List.map_cons]
    omega

variable {α ι : Type} [DecidableEq ι] {σ : ι → Type} (key : α → Option ι)
  (absorb : (i : ι) → α → σ i → Option (σ i))

/-- One item. -/
def route (s : ∀ i, σ i) (a : α) : Option (∀ i, σ i) :=
  match key a with
  | none => some s
  | some i => (absorb i a (s i)).map (Function.update s i)

/-- The items of a key. -/
def itemsOf (i : ι) (as : List α) : List α := as.filter fun a => key a = some i

omit [DecidableEq ι] in
lemma itemsOf_append [DecidableEq ι] (i : ι) (as bs : List α) :
    itemsOf key i (as ++ bs) = itemsOf key i as ++ itemsOf key i bs :=
  List.filter_append ..

/-- A stream that is put together from the items of each key has these items. -/
lemma itemsOf_flatMap {g : ι → List α} (hg : ∀ i, ∀ a ∈ g i, key a = some i) {is : List ι}
    (hnodup : is.Nodup) {i : ι} (hi : i ∈ is) : itemsOf key i (is.flatMap g) = g i := by
  have hother : ∀ j, j ≠ i → itemsOf key i (g j) = [] := by
    intro j hj
    rw [itemsOf, List.filter_eq_nil_iff]
    intro a ha
    simp [hg j a ha, hj]
  have hself : itemsOf key i (g i) = g i := by
    rw [itemsOf, List.filter_eq_self]
    intro a ha
    simp [hg i a ha]
  induction is with
  | nil => cases hi
  | cons j is ih =>
    obtain ⟨hj, hnodup⟩ := List.nodup_cons.mp hnodup
    rw [List.flatMap_cons, itemsOf_append]
    by_cases hij : i = j
    · subst hij
      have hrest : itemsOf key i (is.flatMap g) = [] := by
        rw [itemsOf, List.filter_eq_nil_iff]
        intro a ha
        obtain ⟨k, hk, ha⟩ := List.mem_flatMap.mp ha
        have hne : k ≠ i := fun h => hj (h ▸ hk)
        simp [hg k a ha, hne]
      rw [hself, hrest, List.append_nil]
    · rw [hother j fun h => hij h.symm, List.nil_append,
        ih hnodup ((List.mem_cons.mp hi).resolve_left hij)]

variable {key absorb} {s s' : ∀ i, σ i} {a : α}

lemma route_of_key {i : ι} (h : key a = some i) :
    route key absorb s a = some s' ↔
      absorb i a (s i) = some (s' i) ∧ ∀ j, j ≠ i → s' j = s j := by
  unfold route
  rw [h]
  simp only [Option.map_eq_some_iff]
  constructor
  · rintro ⟨v, hv, rfl⟩
    rw [Function.update_self]
    exact ⟨hv, fun j hj => Function.update_of_ne hj ..⟩
  · rintro ⟨hv, hother⟩
    refine ⟨s' i, hv, funext fun j => ?_⟩
    by_cases hj : j = i
    · subst hj
      rw [Function.update_self]
    · rw [Function.update_of_ne hj, hother j hj]

variable (key absorb) in
/-- A stream succeeds when it does for every key on its own, and with the same results. -/
theorem foldlM_route_iff (as : List α) :
    as.foldlM (route key absorb) s = some s' ↔
      ∀ i, (itemsOf key i as).foldlM (fun v a => absorb i a v) (s i) = some (s' i) := by
  induction as generalizing s with
  | nil =>
    simp only [List.foldlM_nil, Option.pure_def, itemsOf, List.filter_nil, Option.some.injEq]
    exact funext_iff
  | cons a as ih =>
    rw [List.foldlM_cons]
    cases hk : key a with
    | none =>
      have hroute : route key absorb s a = some s := by rw [route, hk]
      have hitems : ∀ i, itemsOf key i (a :: as) = itemsOf key i as := by
        intro i
        simp [itemsOf, hk]
      rw [hroute, Option.bind_eq_bind, Option.bind_some, ih]
      simp only [hitems]
    | some k =>
      have hitems : ∀ i, itemsOf key i (a :: as) =
          if i = k then a :: itemsOf key i as else itemsOf key i as := by
        intro i
        by_cases hi : i = k
        · simp [itemsOf, hk, hi]
        · have hne : k ≠ i := fun h => hi h.symm
          simp [itemsOf, hk, hi, hne]
      rw [Option.bind_eq_bind, Option.bind_eq_some_iff]
      constructor
      · rintro ⟨s₁, hroute, hrest⟩ i
        obtain ⟨hv, hother⟩ := (route_of_key hk).mp hroute
        have hi := ih.mp hrest i
        rw [hitems]
        by_cases hik : i = k
        · subst hik
          rw [if_pos rfl, List.foldlM_cons, hv]
          exact hi
        · rw [if_neg hik, ← hother i hik]
          exact hi
      · intro h
        have hkey := h k
        rw [hitems, if_pos rfl, List.foldlM_cons, Option.bind_eq_bind, Option.bind_eq_some_iff] at hkey
        obtain ⟨v, hv, hrest⟩ := hkey
        refine ⟨Function.update s k v, ?_, ih.mpr fun i => ?_⟩
        · rw [route, hk]
          simp [hv]
        · by_cases hik : i = k
          · subst hik
            rw [Function.update_self]
            exact hrest
          · have hi := h i
            rw [hitems, if_neg hik] at hi
            rw [Function.update_of_ne hik]
            exact hi

end Nais.Lib.Route
