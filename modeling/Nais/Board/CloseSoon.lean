import Nais.Board.Wakeup

/-!
# Close requests

A request to close a channel is a flag in its slot, and the slot keeps it when the connection
ends. The flag means the connection in the slot as long as no registration takes a slot with
the flag set.
-/

namespace Nais.Board.EventLoop

open Nais.Lib.Run

variable {mx : Mutex}

/-- The loop closes for their `close_pending` only connections that `bocia_close_soon` was
called for, and when it has gone through the table behind an `sl_Select`, all that were called
for before that. -/
def State.HitsRight (s : State mx) : Prop :=
  (∀ c ∈ s.history.swept, c ∈ s.history.requested) ∧
    (¬s.loop.Handling → ∀ c ∈ s.history.due, c ∈ s.history.closed)

/-- A descriptor is registered in a slot that is still free and has no request left. -/
def TakesClean (s : State mx) : Call → Prop
  | .register _ _ (.writeFd i) => (s.fdMap i).fd = 0 ∧ (s.fdMap i).closePending = false
  | _ => True

/-- A handler that drops a connection without closing it has none to close. -/
def DropsUnasked (s : State mx) : Loop → Prop
  | .handler i _ false => (s.fdMap i).closePending = false
  | _ => True

/-- Besides, `sl_Select` reports a ready descriptor whenever a request is pending. -/
def NoStaleRequest (s : State mx) : Event → Prop
  | .call c => TakesClean s (s.calls c)
  | .selected rc =>
    s.loop = .select → (∃ i, (s.fdMap i).fd ≠ 0 ∧ (s.fdMap i).closePending = true) → 0 < rc
  | .handlerDropped => DropsUnasked s s.loop
  | _ => True

instance (s : State mx) (call : Call) : Decidable (TakesClean s call) :=
  match call with
  | .register _ _ (.writeFd i) =>
    inferInstanceAs (Decidable ((s.fdMap i).fd = 0 ∧ (s.fdMap i).closePending = false))
  | .register _ _ (.find _) | .register _ _ (.writeTargetPid _) | .register _ _ (.writeHandler _)
  | .register _ _ (.writeSend _) | .register _ _ (.unlock _) | .register _ _ (.returned _)
  | .idle | .mqttInit | .closeSoon _ _ | .mqttConnect | .done => isTrue trivial

instance (s : State mx) (l : Loop) : Decidable (DropsUnasked s l) :=
  match l with
  | .handler i _ false => inferInstanceAs (Decidable ((s.fdMap i).closePending = false))
  | .handler _ _ true | .scan _ _ | .lock | .locking | .select | .sweep _ | .close _ _ | .zero _ _
  | .clear _ _ | .dispatch _ _ => isTrue trivial

instance (s : State mx) (e : Event) : Decidable (NoStaleRequest s e) :=
  match e with
  | .call c => inferInstanceAs (Decidable (TakesClean s (s.calls c)))
  | .selected rc => inferInstanceAs (Decidable (s.loop = .select →
      (∃ i, (s.fdMap i).fd ≠ 0 ∧ (s.fdMap i).closePending = true) → 0 < rc))
  | .handlerDropped => inferInstanceAs (Decidable (DropsUnasked s s.loop))
  | .loop | .dispatched _ | .handlerClosed | .handlerReturned | .registerHandlers _ _
  | .closeSoon _ _ | .mqttInit _ | .connected _ _ _ => isTrue trivial

/-- The loop has not passed slot `i` yet. -/
def Loop.Ahead (i : Slot) : Loop → Prop
  | .sweep rest => i ∈ rest
  | .close j rest => i = j ∨ i ∈ rest
  | .zero _ rest | .clear _ rest | .dispatch _ rest | .handler _ rest _ => i ∈ rest
  | _ => False

/-- What holds of the slot the loop is at. -/
def State.AtLoop (s : State mx) : Loop → Prop
  | .close i _ => (s.fdMap i).closePending = true
  | .zero i _ =>
    (s.fdMap i).closePending = true ∧ ∀ c, s.history.conn i = some c → c ∈ s.history.closed
  | .clear i _ => (s.fdMap i).closePending = true ∧ s.history.conn i = none
  | .handler i _ closed =>
    (s.fdMap i).fd ≠ 0 ∧ (closed = true → ∀ c, s.history.conn i = some c → c ∈ s.history.closed)
  | _ => True

/-- Connection `c` is in slot `i`, and to be closed. -/
def State.Flagged (s : State mx) (c : ℕ) (i : Slot) : Prop :=
  s.history.conn i = some c ∧ (s.fdMap i).closePending = true

structure Kept (s : State mx) : Prop where
  asked : ∀ i c, s.Flagged c i → c ∈ s.history.requested
  pending : ∀ c ∈ s.history.requested, c ∈ s.history.closed ∨ ∃ i, s.Flagged c i
  due : ∀ c ∈ s.history.due, c ∈ s.history.closed ∨ ∃ i, s.Flagged c i ∧ s.loop.Ahead i
  swept : ∀ c ∈ s.history.swept, c ∈ s.history.requested
  atLoop : s.AtLoop s.loop

lemma kept_initial (mx : Mutex) : Kept (State.initial mx) where
  asked i c h := by cases h.1
  pending c h := by cases h
  due c h := by cases h
  swept c h := by cases h
  atLoop := trivial

lemma Kept.hitsRight {s : State mx} (h : Kept s) : s.HitsRight := by
  refine ⟨h.swept, ?_⟩
  intro hhead c hc
  apply (h.due c hc).resolve_right
  rintro ⟨i, -, hahead⟩
  cases hl : s.loop <;> simp [hl, Loop.Ahead, Loop.Handling] at hahead hhead

section Preservation

variable {s s' : State mx}

/-- `Kept` reads no more of a state than this. -/
lemma Kept.congr (h : Kept s) (hfd : ∀ i, (s'.fdMap i).fd = (s.fdMap i).fd)
    (hflag : ∀ i, (s'.fdMap i).closePending = (s.fdMap i).closePending)
    (hhistory : s'.history = s.history) (hloop : s'.loop = s.loop) : Kept s' := by
  have hflagged : ∀ c i, s'.Flagged c i ↔ s.Flagged c i := by
    intro c i
    rw [State.Flagged, State.Flagged, hhistory, hflag i]
  refine ⟨?_, ?_, ?_, ?_, ?_⟩
  · intro i c hc
    rw [hhistory]
    exact h.asked i c ((hflagged c i).mp hc)
  · simp only [hhistory, hflagged]
    exact h.pending
  · simp only [hhistory, hflagged, hloop]
    exact h.due
  · rw [hhistory]
    exact h.swept
  · have hat : ∀ l, s'.AtLoop l ↔ s.AtLoop l := by
      intro l
      cases l <;> simp only [State.AtLoop, hfd, hflag, hhistory]
    rw [hloop, hat]
    exact h.atLoop

lemma Kept.write (h : Kept s) (i : Slot) {f : BociaChannel → BociaChannel}
    (hfd : ∀ ch, (f ch).fd = ch.fd) (hflag : ∀ ch, (f ch).closePending = ch.closePending) :
    Kept (s.write i f) := by
  refine h.congr ?_ ?_ rfl rfl
  · intro j
    by_cases hj : j = i
    · subst hj
      simp [State.write, hfd]
    · simp [State.write, hj]
  · intro j
    by_cases hj : j = i
    · subst hj
      simp [State.write, hflag]
    · simp [State.write, hj]

/-- The loop goes on, and passes no connection that is due. -/
lemma Kept.goto (h : Kept s) {l : Loop}
    (hahead : ∀ c i, s.Flagged c i → s.loop.Ahead i → l.Ahead i) (hat : s.AtLoop l) :
    Kept (s.goto l) where
  asked := h.asked
  pending := h.pending
  due c hc := by
    obtain hclosed | ⟨i, hflagged, hi⟩ := h.due c hc
    · exact Or.inl hclosed
    · exact Or.inr ⟨i, hflagged, hahead c i hflagged hi⟩
  swept := h.swept
  atLoop := hat

/-- A descriptor is written to a slot whose connection, if it has one, is closed or not to be
closed. What the loop stands at must be seen to anew. -/
lemma Kept.writeFd (h : Kept s) {i : Slot} {fd : ℤ} {conn : Option ℕ} {l : Loop}
    (hold : ∀ c, s.Flagged c i → c ∈ s.history.closed)
    (hnew : ∀ c, conn = some c → (s.fdMap i).closePending = false)
    (hahead : ∀ j, s.loop.Ahead j → l.Ahead j) (hat : (s.writeFd i fd conn).AtLoop l) :
    Kept ((s.writeFd i fd conn).goto l) := by
  have hback : ∀ c j, (s.writeFd i fd conn).Flagged c j → s.Flagged c j := by
    intro c j hc
    by_cases hj : j = i
    · subst hj
      obtain ⟨hconn, hflag⟩ := hc
      simp only [State.writeFd, State.write, Function.update_self] at hconn hflag
      rw [hnew c hconn] at hflag
      cases hflag
    · simpa [State.Flagged, State.writeFd, State.write, hj] using hc
  have hkeep : ∀ c j, s.Flagged c j →
      c ∈ s.history.closed ∨ (s.writeFd i fd conn).Flagged c j := by
    intro c j hc
    by_cases hj : j = i
    · subst hj
      exact Or.inl (hold c hc)
    · exact Or.inr (by simpa [State.Flagged, State.writeFd, State.write, hj] using hc)
  refine ⟨fun j c hc => h.asked j c (hback c j hc), ?_, ?_, h.swept, hat⟩
  · intro c hc
    obtain hclosed | ⟨j, hj⟩ := h.pending c hc
    · exact Or.inl hclosed
    · exact (hkeep c j hj).imp_right fun hj' => ⟨j, hj'⟩
  · intro c hc
    obtain hclosed | ⟨j, hj, hjahead⟩ := h.due c hc
    · exact Or.inl hclosed
    · exact (hkeep c j hj).imp_right fun hj' => ⟨j, hj', hahead j hjahead⟩

lemma Kept.register (h : Kept s) (hnamed : ∀ i, (s.fdMap i).fd = 0 ↔ s.history.conn i = none)
    {i : Slot} (fd : ℤ) (conn : Option ℕ) (hfree : (s.fdMap i).fd = 0)
    (hflag : (s.fdMap i).closePending = false) : Kept (s.writeFd i fd conn) := by
  refine h.writeFd (l := s.loop) ?_ (fun _ _ => hflag) (fun _ hj => hj) ?_
  · intro c hc
    rw [State.Flagged, (hnamed i).mp hfree] at hc
    cases hc.1
  · have hne : ∀ j, ((s.fdMap j).closePending = true ∨ (s.fdMap j).fd ≠ 0) → j ≠ i := by
      rintro j hj rfl
      rw [hflag] at hj
      exact hj.elim (fun hf => by cases hf) (fun hfd => hfd hfree)
    have hat := h.atLoop
    cases hl : s.loop with
    | close j rest =>
      rw [hl] at hat
      have hj := hne j (Or.inl hat)
      simpa [State.AtLoop, State.writeFd, State.write, hj] using hat
    | zero j rest =>
      rw [hl] at hat
      have hj := hne j (Or.inl hat.1)
      simpa [State.AtLoop, State.writeFd, State.write, hj] using hat
    | clear j rest =>
      rw [hl] at hat
      have hj := hne j (Or.inl hat.1)
      simpa [State.AtLoop, State.writeFd, State.write, hj] using hat
    | handler j rest closed =>
      rw [hl] at hat
      have hj := hne j (Or.inr hat.1)
      simpa [State.AtLoop, State.writeFd, State.write, hj] using hat
    | _ => trivial

lemma Kept.requestClose (h : Kept s) (i : Slot) : Kept (s.requestClose i) := by
  have hgrow : ∀ c j, s.Flagged c j → (s.requestClose i).Flagged c j := by
    rintro c j ⟨hconn, hflag⟩
    refine ⟨hconn, ?_⟩
    by_cases hj : j = i
    · subst hj
      simp [State.requestClose, State.write]
    · simpa [State.requestClose, State.write, hj] using hflag
  have hnew : ∀ c j, (s.requestClose i).Flagged c j → s.Flagged c j ∨ s.history.conn i = some c := by
    rintro c j ⟨hconn, hflag⟩
    by_cases hj : j = i
    · subst hj
      exact Or.inr hconn
    · exact Or.inl ⟨hconn, by simpa [State.requestClose, State.write, hj] using hflag⟩
  have hmem : ∀ c, c ∈ (s.requestClose i).history.requested ↔
      s.history.conn i = some c ∨ c ∈ s.history.requested := by
    intro c
    simp [State.requestClose]
  refine ⟨?_, ?_, ?_, ?_, ?_⟩
  · intro j c hc
    rw [hmem]
    exact (hnew c j hc).symm.imp_right (h.asked j c)
  · intro c hc
    obtain hconn | hc := (hmem c).mp hc
    · refine Or.inr ⟨i, hconn, ?_⟩
      simp [State.requestClose, State.write]
    · exact (h.pending c hc).imp_right (Exists.imp fun j hj => hgrow c j hj)
  · intro c hc
    exact (h.due c hc).imp_right (Exists.imp fun j hj => ⟨hgrow c j hj.1, hj.2⟩)
  · intro c hc
    exact (hmem c).mpr (Or.inr (h.swept c hc))
  · have hflag : ∀ j, (s.fdMap j).closePending = true →
        ((s.requestClose i).fdMap j).closePending = true := by
      intro j hj
      by_cases hij : j = i
      · subst hij
        simp [State.requestClose, State.write]
      · simpa [State.requestClose, State.write, hij] using hj
    have hfd : ∀ j, ((s.requestClose i).fdMap j).fd = (s.fdMap j).fd := by
      intro j
      by_cases hij : j = i
      · subst hij
        simp [State.requestClose, State.write]
      · simp [State.requestClose, State.write, hij]
    have hat := h.atLoop
    have hloop : (s.requestClose i).loop = s.loop := rfl
    rw [hloop]
    cases hl : s.loop with
    | close j rest => exact hflag j (by rw [hl] at hat; exact hat)
    | zero j rest =>
      rw [hl] at hat
      exact ⟨hflag j hat.1, hat.2⟩
    | clear j rest =>
      rw [hl] at hat
      exact ⟨hflag j hat.1, hat.2⟩
    | handler j rest closed =>
      rw [hl] at hat
      exact ⟨by rw [hfd]; exact hat.1, hat.2⟩
    | _ => trivial

lemma Kept.slClose (h : Kept s) {i : Slot} {l : Loop} (hahead : ∀ j, s.loop.Ahead j → j = i ∨ l.Ahead j)
    (hat : (s.slClose i).AtLoop l) : Kept ((s.slClose i).goto l) := by
  have hmem : ∀ c, c ∈ (s.slClose i).history.closed ↔
      s.history.conn i = some c ∨ c ∈ s.history.closed := by
    intro c
    simp [State.slClose]
  refine ⟨h.asked, ?_, ?_, h.swept, hat⟩
  · intro c hc
    obtain hclosed | ⟨j, hj⟩ := h.pending c hc
    · exact Or.inl ((hmem c).mpr (Or.inr hclosed))
    · exact Or.inr ⟨j, hj⟩
  · intro c hc
    obtain hclosed | ⟨j, hj, hjahead⟩ := h.due c hc
    · exact Or.inl ((hmem c).mpr (Or.inr hclosed))
    · obtain rfl | hl := hahead j hjahead
      · exact Or.inl ((hmem c).mpr (Or.inl hj.1))
      · exact Or.inr ⟨j, hj, hl⟩

lemma kept_stepRegister (h : Kept s) (hnamed : ∀ i, (s.fdMap i).fd = 0 ↔ s.history.conn i = none)
    {c : ℕ} {r : Registration} {m : Bool} {at_ : Registering} (hc : s.calls c = .register r m at_)
    (hok : NoStaleRequest s (.call c)) : Kept (s.stepRegister c r m at_) := by
  have hgo : ∀ {t : State mx} {call : Call}, Kept t → Kept (t.goOn c call) := fun ht =>
    ht.congr (fun _ => rfl) (fun _ => rfl) rfl rfl
  cases at_ with
  | find rest =>
    cases rest with
    | nil => exact hgo h
    | cons i rest =>
      rw [State.stepRegister]
      split_ifs
      · exact hgo h
      · exact hgo h
  | writeFd i =>
    rw [NoStaleRequest, hc] at hok
    obtain ⟨hfree, hflag⟩ := hok
    exact hgo (h.register hnamed _ _ hfree hflag)
  | writeTargetPid i => exact hgo (h.write i (fun _ => rfl) (fun _ => rfl))
  | writeHandler i => exact hgo (h.write i (fun _ => rfl) (fun _ => rfl))
  | writeSend i => exact hgo (h.write i (fun _ => rfl) (fun _ => rfl))
  | unlock i => exact h.congr (fun _ => rfl) (fun _ => rfl) rfl rfl
  | returned i => exact h.congr (fun _ => rfl) (fun _ => rfl) rfl rfl

lemma kept_stepCall (h : Kept s) (hnamed : ∀ i, (s.fdMap i).fd = 0 ↔ s.history.conn i = none)
    {c : ℕ} (hok : NoStaleRequest s (.call c)) : Kept (s.stepCall c (s.calls c)) := by
  have hgo : ∀ {t : State mx} {call : Call}, Kept t → Kept (t.goOn c call) := fun ht =>
    ht.congr (fun _ => rfl) (fun _ => rfl) rfl rfl
  cases hc : s.calls c with
  | mqttInit =>
    rw [State.stepCall]
    split
    · split_ifs
      · exact hgo h
      · exact hgo h
    · exact hgo h
  | closeSoon i m => exact hgo (h.requestClose i)
  | register r m at_ => exact kept_stepRegister h hnamed hc hok
  | _ => exact h

/-- The loop goes on where it had no slot to come to. -/
lemma Kept.leave (h : Kept s) {l : Loop} (hnone : ∀ i, ¬s.loop.Ahead i) (hat : s.AtLoop l) :
    Kept (s.goto l) :=
  h.goto (fun _ i _ hi => absurd hi (hnone i)) hat

lemma kept_close (h : Kept s) {i : Slot} {rest : List Slot} (hl : s.loop = .close i rest) :
    Kept (s.stepLoop (.close i rest)) := by
  have hat := h.atLoop
  rw [hl] at hat
  have hclose : Kept ((s.slClose i).goto (.zero i rest)) := by
    refine h.slClose (fun j hj => by rw [hl] at hj; exact hj) ⟨hat, ?_⟩
    intro c hc
    have hconn : s.history.conn i = some c := hc
    simp [State.slClose, hconn]
  refine ⟨hclose.asked, hclose.pending, hclose.due, ?_, hclose.atLoop⟩
  intro c hc
  simp only [State.stepLoop, List.mem_append, Option.mem_toList] at hc
  obtain hc | hc := hc
  · exact h.asked i c ⟨hc, hat⟩
  · exact h.swept c hc

/-- The connection of the slot was taken out before, so that clearing the flag forgets none. -/
lemma kept_clear (h : Kept s) {i : Slot} {rest : List Slot} (hl : s.loop = .clear i rest) :
    Kept (s.stepLoop (.clear i rest)) := by
  have hat := h.atLoop
  rw [hl] at hat
  have hconn : ∀ c j, s.history.conn j = some c → j ≠ i := by
    rintro c j hc rfl
    rw [hat.2] at hc
    cases hc
  have hiff : ∀ c j, ((s.write i fun ch => { ch with closePending := false }).goto
      (.dispatch i rest)).Flagged c j ↔ s.Flagged c j := by
    intro c j
    refine and_congr_right (fun hc => ?_)
    simp [State.goto, State.write, hconn c j hc]
  have hpending := h.pending
  have hdue := h.due
  refine ⟨?_, ?_, ?_, h.swept, trivial⟩
  · intro j c hc
    exact h.asked j c ((hiff c j).mp hc)
  · intro c hc
    exact (hpending c hc).imp_right (Exists.imp fun j hj => (hiff c j).mpr hj)
  · intro c hc
    apply (hdue c hc).imp_right
    rintro ⟨j, hj, hahead⟩
    rw [hl] at hahead
    exact ⟨j, (hiff c j).mpr hj, hahead⟩

lemma kept_stepLoop (h : Kept s) : Kept (s.stepLoop s.loop) := by
  have hat := h.atLoop
  cases hl : s.loop with
  | scan rest rc =>
    have hnone : ∀ i, ¬s.loop.Ahead i := fun i hi => by rw [hl] at hi; exact hi
    cases rest with
    | nil =>
      refine h.leave hnone ?_
      split_ifs <;> trivial
    | cons j rest => exact h.leave hnone trivial
  | lock =>
    have hgo : Kept (s.goto .locking) :=
      h.leave (fun i hi => by rw [hl] at hi; exact hi) trivial
    exact hgo.congr (fun _ => rfl) (fun _ => rfl) rfl rfl
  | locking =>
    rw [State.stepLoop]
    split_ifs
    · exact h
    · exact h.leave (fun i hi => by rw [hl] at hi; exact hi) trivial
  | select => exact h
  | sweep rest =>
    cases rest with
    | nil => exact h.leave (fun i hi => by rw [hl] at hi; exact List.not_mem_nil hi) trivial
    | cons j rest =>
      rw [State.stepLoop]
      split_ifs with hflag
      · refine h.goto (fun c i _ hi => ?_) hflag
        rw [hl] at hi
        exact List.mem_cons.mp hi
      · refine h.goto (fun c i hi hahead => ?_) trivial
        rw [hl] at hahead
        obtain rfl | hmem := List.mem_cons.mp hahead
        · exact absurd hi.2 hflag
        · exact hmem
  | close i rest => exact kept_close h hl
  | zero i rest =>
    rw [hl] at hat
    refine h.writeFd (fun c hc => hat.2 c hc.1) (fun c hc => by cases hc) ?_ ?_
    · intro j hj
      rw [hl] at hj
      exact hj
    · simpa [State.AtLoop, State.writeFd, State.write] using hat.1
  | clear i rest => exact kept_clear h hl
  | dispatch i rest => exact h
  | handler i rest closed =>
    rw [hl] at hat
    cases closed with
    | false => exact h
    | true =>
      refine h.writeFd (fun c hc => hat.2 rfl c hc.1) (fun c hc => by cases hc) ?_ trivial
      intro j hj
      rw [hl] at hj
      exact hj

/-- What is due when `sl_Select` returns is still flagged. -/
lemma kept_selected (h : Kept s) (hnamed : ∀ i, (s.fdMap i).fd = 0 ↔ s.history.conn i = none)
    {rc : ℤ} (hok : NoStaleRequest s (.selected rc)) : Kept (step s (.selected rc)) := by
  rw [step]
  split_ifs with hl hrc
  · -- No request is pending, so that nothing is due.
    have hnone : ∀ c i, ¬s.Flagged c i := by
      rintro c i ⟨hconn, hflag⟩
      have hfd : (s.fdMap i).fd ≠ 0 := by
        intro hzero
        rw [(hnamed i).mp hzero] at hconn
        cases hconn
      have hpos := hok hl ⟨i, hfd, hflag⟩
      omega
    refine ⟨h.asked, h.pending, ?_, h.swept, trivial⟩
    intro c hc
    obtain hclosed | ⟨i, hi⟩ := h.pending c (List.mem_filter.mp hc).1
    · exact Or.inl hclosed
    · exact absurd hi (hnone c i)
  · refine ⟨h.asked, h.pending, ?_, h.swept, trivial⟩
    intro c hc
    exact (h.pending c (List.mem_filter.mp hc).1).imp_right
      (Exists.imp fun i hi => ⟨hi, List.mem_finRange i⟩)
  · exact h

lemma kept_step (h : Kept s) (hawake : Awake s) {e : Event} (hok : NoStaleRequest s e) :
    Kept (step s e) := by
  have hgo : ∀ {c : ℕ} {call : Call}, Kept (s.goOn c call) :=
    h.congr (fun _ => rfl) (fun _ => rfl) rfl rfl
  cases e with
  | loop => exact kept_stepLoop h
  | selected rc => exact kept_selected h hawake.named hok
  | dispatched isSet =>
    rw [step]
    split
    · next i rest hl =>
      split_ifs with hset
      · exact h.goto (fun c j _ hj => by rw [hl] at hj; exact hj)
          ⟨hset.1, fun hclosed => by cases hclosed⟩
      · exact h.goto (fun c j _ hj => by rw [hl] at hj; exact hj) trivial
    · exact h
  | handlerClosed =>
    rw [step]
    split
    · next i rest hl =>
      have hat := h.atLoop
      rw [hl] at hat
      refine h.slClose (fun j hj => by rw [hl] at hj; exact Or.inr hj) ⟨hat.1, ?_⟩
      intro _ c hc
      have hconn : s.history.conn i = some c := hc
      simp [State.slClose, hconn]
    · exact h
  | handlerDropped =>
    rw [step]
    split
    · next i rest hl =>
      rw [NoStaleRequest, hl, DropsUnasked] at hok
      refine h.writeFd (fun c hc => ?_) (fun c hc => by cases hc) ?_ trivial
      · rw [State.Flagged, hok] at hc
        cases hc.2
      · intro j hj
        rw [hl] at hj
        exact hj
    · exact h
  | handlerReturned =>
    rw [step]
    split
    · next i rest closed hl =>
      exact h.goto (fun c j _ hj => by rw [hl] at hj; exact hj) trivial
    · exact h
  | registerHandlers c r =>
    rw [step]
    split_ifs
    · exact hgo
    · exact h
  | closeSoon c i =>
    rw [step]
    split_ifs
    · exact hgo
    · exact h
  | mqttInit c =>
    rw [step]
    split_ifs
    · exact hgo
    · exact h
  | connected c sock pid =>
    rw [step]
    split_ifs
    · exact hgo
    · exact h.congr (fun _ => rfl) (fun _ => rfl) rfl rfl
    · exact h
  | call c => exact kept_stepCall h hawake.named hok

end Preservation

/-- In every interleaving in which no registration meets a request that is not its own, and
no `sl_Select` returns without a ready descriptor while a request is pending, the close
requests hit the connections they were made for, and none is late. -/
theorem close_soon_hits_right (mx : Mutex) (es : List Event)
    (h : Meets step NoStaleRequest (State.initial mx) es) :
    Throughout step State.HitsRight (State.initial mx) es := by
  have hkept : Throughout step (fun s => Awake s ∧ Kept s) (State.initial mx) es := by
    refine throughout_of_meets NoStaleRequest _ ?_ ⟨awake_initial mx, kept_initial mx⟩ h
    rintro s e ⟨hawake, hk⟩ hok
    exact ⟨awake_step hawake e, kept_step hk hawake hok⟩
  exact hkept.mono fun s hs => hs.2.hitsRight

/-- `bocia_mqtt_init` as call `c`, which finds no connection, up to its end. -/
def mqttInitRun (c : ℕ) (sock : ℤ) : List Event :=
  [.connected c sock 1] ++ List.replicate 7 (.call c)

/-- The loop from the head to the return of `sl_Select`. -/
def selectRun (rc : ℤ) : List Event := List.replicate 9 .loop ++ [.selected rc]

/-- The connection in slot 0 is closed as it was asked for. -/
theorem close_soon_hits_right_request : Throughout step State.HitsRight (State.initial riotMutex)
    ([.mqttInit 0, .call 0] ++ mqttInitRun 0 5 ++ [.closeSoon 1 0, .call 1] ++ selectRun 1 ++
      List.replicate 5 .loop) :=
  close_soon_hits_right riotMutex _ (by decide +kernel)

/-- The broker closes its connection while `bocia_mqtt_init` is about to ask for that. The
request stays in the slot, and the new connection is closed for it. -/
theorem close_soon_hits_next_connection : ¬∀ (mx : Mutex) (es : List Event),
    Throughout step State.HitsRight (State.initial mx) es := by
  intro h
  have hlast := Throughout.last (h riotMutex (List.flatten [[.mqttInit 0, .call 0],
    mqttInitRun 0 5, selectRun 1,
    [.loop, .dispatched true, .mqttInit 1, .call 1, .handlerClosed, .loop, .call 1],
    mqttInitRun 1 6, (List.replicate 7 [.loop, .dispatched false]).flatten, [.loop],
    selectRun 1, [.loop, .loop]]))
  exact absurd (hlast.1 1 (by decide +kernel)) (by decide +kernel)

end Nais.Board.EventLoop
