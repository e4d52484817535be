import Nais.Board.EventLoop

/-!
# No lost wake-up

While the mutex is locked, the scan still has in front of it every slot whose registration is
over: a registration that comes behind the scan leaves the mutex unlocked.
-/

namespace Nais.Board.EventLoop

open Nais.Lib.Run

variable {mx : Mutex}

/-- The call has written to a slot. -/
def Call.Wrote : Call → Prop
  | .register _ _ (.find _) | .register _ _ (.writeFd _) | .register _ _ (.returned none) => False
  | .register _ _ _ | .done => True
  | _ => False

/-- Before it locks the mutex again, the loop finds a channel in slot `i`. -/
def Loop.Sees (i : Slot) : Loop → Prop
  | .scan rest rc => rc = true ∨ i ∈ rest
  | .lock => False
  | _ => True

/-- The loop thread sleeps in `mutex_lock`. -/
def State.Blocked (s : State mx) : Prop := s.loop = .locking ∧ mx.waiting s.mutex = true

structure Awake (s : State mx) : Prop where
  asleep : mx.waiting s.mutex = true → s.loop = .locking
  named : ∀ i, (s.fdMap i).fd = 0 ↔ s.history.conn i = none
  wrote : ∀ i c, s.history.conn i = some c → (s.calls c).Wrote
  seen : ∀ i c, (s.fdMap i).fd ≠ 0 → s.history.conn i = some c → (s.calls c).Registered →
    mx.locked s.mutex = true → mx.waiting s.mutex = false ∧ s.loop.Sees i

lemma awake_initial (mx : Mutex) : Awake (State.initial mx) where
  asleep h := by
    have hlocked := mx.locked_of_waiting _ h
    rw [State.initial, mx.locked_init] at hlocked
    cases hlocked
  named i := iff_of_true rfl rfl
  wrote i c h := by cases h
  seen i c _ h := by cases h

section Preservation

variable {s s' : State mx}

/-- `Awake` reads no more of a state than this. -/
lemma Awake.congr (h : Awake s) (hfd : ∀ i, (s'.fdMap i).fd = (s.fdMap i).fd)
    (hconn : s'.history.conn = s.history.conn) (hcalls : s'.calls = s.calls)
    (hmutex : s'.mutex = s.mutex) (hloop : s'.loop = s.loop) : Awake s' where
  asleep := by
    rw [hmutex, hloop]
    exact h.asleep
  named i := by
    rw [hfd i, hconn]
    exact h.named i
  wrote := by
    rw [hconn, hcalls]
    exact h.wrote
  seen i c := by
    rw [hfd i, hconn, hcalls, hmutex, hloop]
    exact h.seen i c

lemma Awake.write (h : Awake s) (i : Slot) {f : BociaChannel → BociaChannel}
    (hf : ∀ ch, (f ch).fd = ch.fd) : Awake (s.write i f) := by
  refine h.congr ?_ rfl rfl rfl rfl
  intro j
  by_cases hj : j = i
  · subst hj
    simp [State.write, hf]
  · simp [State.write, hj]

/-- A call that goes on is over only if it was, or has written nothing. -/
lemma Awake.goOn (h : Awake s) {c : ℕ} {call : Call} (hwrote : (s.calls c).Wrote → call.Wrote)
    (hover : call.Registered → (s.calls c).Registered ∨ ¬(s.calls c).Wrote) :
    Awake (s.goOn c call) where
  asleep := h.asleep
  named := h.named
  wrote i c' hconn := by
    have hold := h.wrote i c' hconn
    by_cases hc : c' = c
    · subst hc
      simpa [State.goOn] using hwrote hold
    · simpa [State.goOn, hc] using hold
  seen i c' hfd hconn hreg := by
    apply h.seen i c' hfd hconn
    by_cases hc : c' = c
    · subst hc
      simp only [State.goOn, Function.update_self] at hreg
      exact (hover hreg).resolve_right (fun hnot => hnot (h.wrote i c' hconn))
    · simpa [State.goOn, hc] using hreg

/-- A call fills in another field of its slot. -/
lemma Awake.fill (h : Awake s) (i : Slot) (c : ℕ) {f : BociaChannel → BociaChannel} {call : Call}
    (hf : ∀ ch, (f ch).fd = ch.fd) (hwrote : call.Wrote) (hreg : ¬call.Registered) :
    Awake ((s.write i f).goOn c call) :=
  (h.write i hf).goOn (fun _ => hwrote) (fun hr => absurd hr hreg)

lemma Awake.goto (h : Awake s) {l : Loop} (hwait : mx.waiting s.mutex = true → l = .locking)
    (hsees : ∀ i, (s.fdMap i).fd ≠ 0 → s.loop.Sees i → l.Sees i) : Awake (s.goto l) where
  asleep := hwait
  named := h.named
  wrote := h.wrote
  seen i c hfd hconn hreg hlocked := by
    obtain ⟨hw, hl⟩ := h.seen i c hfd hconn hreg hlocked
    exact ⟨hw, hsees i hfd hl⟩

lemma Awake.not_waiting (h : Awake s) (hl : s.loop ≠ .locking) : mx.waiting s.mutex ≠ true :=
  fun hw => hl (h.asleep hw)

lemma Awake.named_writeFd (h : Awake s) (i : Slot) {fd : ℤ} {conn : Option ℕ}
    (hiff : fd = 0 ↔ conn = none) (j : Slot) :
    ((s.writeFd i fd conn).fdMap j).fd = 0 ↔ (s.writeFd i fd conn).history.conn j = none := by
  by_cases hj : j = i
  · subst hj
    simpa [State.writeFd, State.write] using hiff
  · simpa [State.writeFd, State.write, hj] using h.named j

/-- A slot is zeroed. -/
lemma Awake.zero (h : Awake s) (i : Slot) : Awake (s.writeFd i 0 none) where
  asleep := h.asleep
  named := h.named_writeFd i (iff_of_true rfl rfl)
  wrote j c hconn := by
    by_cases hj : j = i
    · subst hj
      simp [State.writeFd] at hconn
    · exact h.wrote j c (by simpa [State.writeFd, hj] using hconn)
  seen j c hfd hconn := by
    by_cases hj : j = i
    · subst hj
      simp [State.writeFd] at hconn
    · refine h.seen j c ?_ (by simpa [State.writeFd, hj] using hconn)
      simpa [State.writeFd, State.write, hj] using hfd

lemma ne_of_conn_writeFd {c c' : ℕ} {i j : Slot} (fd : ℤ) {conn : Option ℕ}
    (hconn : conn = none ∨ conn = some c) (hc : c' ≠ c)
    (h : (s.writeFd i fd conn).history.conn j = some c') : j ≠ i := by
  rintro rfl
  simp only [State.writeFd, Function.update_self] at h
  obtain rfl | rfl := hconn
  · cases h
  · exact hc (Option.some.inj h).symm

/-- The descriptor is written, whatever the slot held. -/
lemma Awake.register (h : Awake s) {c : ℕ} {i : Slot} {call : Call} (fd : ℤ) {conn : Option ℕ}
    (hiff : fd = 0 ↔ conn = none) (hconn : conn = none ∨ conn = some c) (hwrote : call.Wrote)
    (hreg : ¬call.Registered) : Awake ((s.writeFd i fd conn).goOn c call) where
  asleep := h.asleep
  named := h.named_writeFd i hiff
  wrote j c' hc' := by
    by_cases hc : c' = c
    · subst hc
      simpa [State.goOn] using hwrote
    · have hj : j ≠ i := ne_of_conn_writeFd fd hconn hc hc'
      have hold := h.wrote j c' (by simpa [State.writeFd, State.goOn, hj] using hc')
      simpa [State.goOn, State.writeFd, State.write, hc] using hold
  seen j c' hfd hc' hover hlocked := by
    have hc : c' ≠ c := by
      rintro rfl
      simp only [State.goOn, Function.update_self] at hover
      exact hreg hover
    have hj : j ≠ i := ne_of_conn_writeFd fd hconn hc hc'
    refine h.seen j c' ?_ (by simpa [State.writeFd, State.goOn, hj] using hc') ?_ hlocked
    · simpa [State.writeFd, State.write, State.goOn, hj] using hfd
    · simpa [State.writeFd, State.write, State.goOn, hc] using hover

/-- An unlock leaves the mutex free, or the loop on its way to a new scan. -/
lemma Awake.unlock (h : Awake s) (c : ℕ) {call : Call} (hwrote : call.Wrote) :
    Awake ({ s with mutex := mx.unlock s.mutex }.goOn c call) where
  asleep hw := by
    rw [State.goOn, mx.waiting_unlock] at hw
    cases hw
  named := h.named
  wrote i c' hconn := by
    by_cases hc : c' = c
    · subst hc
      simpa [State.goOn] using hwrote
    · simpa [State.goOn, hc] using h.wrote i c' hconn
  seen i c' _ _ _ hlocked := by
    rw [State.goOn, mx.locked_unlock] at hlocked
    refine ⟨mx.waiting_unlock _, ?_⟩
    rw [State.goOn, h.asleep hlocked]
    trivial

/-- The loop sleeps in `mutex_lock` only when no slot has a channel it has not seen. -/
lemma Awake.lock (h : Awake s) (hl : s.loop = .lock) :
    Awake { s with mutex := mx.lock s.mutex, loop := .locking } where
  asleep _ := rfl
  named := h.named
  wrote := h.wrote
  seen i c hfd hconn hreg _ := by
    refine ⟨?_, trivial⟩
    rw [mx.waiting_lock]
    by_contra hlocked
    rw [Bool.not_eq_false] at hlocked
    obtain ⟨-, hsees⟩ := h.seen i c hfd hconn hreg hlocked
    rw [hl] at hsees
    exact hsees

lemma start_sees (i : Slot) : Loop.start.Sees i := Or.inr (List.mem_finRange i)

lemma awake_stepRegister (h : Awake s) {c : ℕ} {r : Registration} {m : Bool} {at_ : Registering}
    (hc : s.calls c = .register r m at_) : Awake (s.stepRegister c r m at_) := by
  cases at_ with
  | find rest =>
    cases rest with
    | nil =>
      rw [State.stepRegister]
      exact h.goOn (by rw [hc]; exact id) (fun _ => Or.inr (by rw [hc]; exact id))
    | cons i rest =>
      rw [State.stepRegister]
      split_ifs
      · exact h.goOn (by rw [hc]; exact id) False.elim
      · exact h.goOn (by rw [hc]; exact id) False.elim
  | writeFd i =>
    rw [State.stepRegister]
    refine h.register r.sock ?_ ?_ trivial id
    · split_ifs with hsock <;> simp [hsock]
    · split_ifs
      · exact Or.inl rfl
      · exact Or.inr rfl
  | writeTargetPid i =>
    rw [State.stepRegister]
    exact h.fill i c (fun _ => rfl) trivial id
  | writeHandler i =>
    rw [State.stepRegister]
    exact h.fill i c (fun _ => rfl) trivial id
  | writeSend i =>
    rw [State.stepRegister]
    exact h.fill i c (fun _ => rfl) trivial id
  | unlock i =>
    rw [State.stepRegister]
    exact h.unlock c trivial
  | returned i =>
    have hm : Awake { s with mqttHandler := if m then i else s.mqttHandler } :=
      h.congr (fun _ => rfl) rfl rfl rfl rfl
    rw [State.stepRegister]
    refine hm.goOn (fun _ => trivial) (fun _ => Or.inl ?_)
    change (s.calls c).Registered
    rw [hc]
    trivial

lemma awake_stepCall (h : Awake s) (c : ℕ) : Awake (s.stepCall c (s.calls c)) := by
  cases hc : s.calls c with
  | mqttInit =>
    have hgo : ∀ call : Call, ¬call.Registered → Awake (s.goOn c call) := by
      intro call hreg
      exact h.goOn (by rw [hc]; exact False.elim) (fun hreg' => absurd hreg' hreg)
    rw [State.stepCall]
    split
    · split_ifs
      · exact hgo _ id
      · exact hgo _ id
    · exact hgo _ id
  | closeSoon i m =>
    have hset : Awake (s.write i fun ch => { ch with closePending := true }) :=
      h.write i fun _ => rfl
    have hw : Awake (s.requestClose i) := hset.congr (fun _ => rfl) rfl rfl rfl rfl
    have hcalls : (s.requestClose i).calls = s.calls := rfl
    exact hw.goOn (by rw [hcalls, hc]; exact False.elim)
      (fun _ => Or.inr (by rw [hcalls, hc]; exact id))
  | register r m at_ => exact awake_stepRegister h hc
  | _ => exact h

lemma awake_stepLoop (h : Awake s) : Awake (s.stepLoop s.loop) := by
  cases hl : s.loop with
  | scan rest rc =>
    have hw := h.not_waiting (by rw [hl]; simp)
    cases rest with
    | nil =>
      apply h.goto (fun hw' => absurd hw' hw)
      intro i _ hsees
      rw [hl] at hsees
      have hrc : rc = true := hsees.resolve_right (by simp)
      rw [if_pos hrc]
      trivial
    | cons j rest =>
      apply h.goto (fun hw' => absurd hw' hw)
      intro i hfd hsees
      rw [hl] at hsees
      obtain hrc | hmem := hsees
      · exact Or.inl (by rw [hrc, Bool.true_or])
      · obtain rfl | hmem := List.mem_cons.mp hmem
        · exact Or.inl (by simp [hfd])
        · exact Or.inr hmem
  | lock => exact h.lock hl
  | locking =>
    rw [State.stepLoop]
    split_ifs with hw
    · exact h
    · exact h.goto (fun hw' => absurd hw' hw) (fun i _ _ => start_sees i)
  | select => exact h
  | sweep rest =>
    have hw := h.not_waiting (by rw [hl]; simp)
    cases rest with
    | nil => exact h.goto (fun hw' => absurd hw' hw) (fun i _ _ => start_sees i)
    | cons i rest =>
      apply h.goto (fun hw' => absurd hw' hw)
      intro j _ _
      split_ifs <;> trivial
  | close i rest =>
    have hw := h.not_waiting (by rw [hl]; simp)
    have hgo : Awake (s.goto (.zero i rest)) :=
      h.goto (fun hw' => absurd hw' hw) (fun _ _ _ => trivial)
    exact hgo.congr (fun _ => rfl) rfl rfl rfl rfl
  | zero i rest =>
    have hw := h.not_waiting (by rw [hl]; simp)
    exact (h.zero i).goto (fun hw' => absurd hw' hw) (fun _ _ _ => trivial)
  | clear i rest =>
    have hw := h.not_waiting (by rw [hl]; simp)
    have hclear : Awake (s.write i fun ch => { ch with closePending := false }) :=
      h.write i fun _ => rfl
    exact hclear.goto (fun hw' => absurd hw' hw) (fun _ _ _ => trivial)
  | dispatch i rest => exact h
  | handler i rest closed =>
    have hw := h.not_waiting (by rw [hl]; simp)
    cases closed with
    | false => exact h
    | true => exact (h.zero i).goto (fun hw' => absurd hw' hw) (fun _ _ _ => trivial)

/-- A new call has neither written nor returned. -/
lemma Awake.start (h : Awake s) {c : ℕ} {call : Call} (hc : ¬(s.calls c).Wrote)
    (hreg : ¬call.Registered) : Awake (s.goOn c call) :=
  h.goOn (fun hw => absurd hw hc) (fun hr => absurd hr hreg)

lemma awake_step (h : Awake s) (e : Event) : Awake (step s e) := by
  have hgoto : ∀ l : Loop, s.loop ≠ .locking → (∀ i, l.Sees i) → Awake (s.goto l) :=
    fun l hl hsees => h.goto (fun hw => absurd hw (h.not_waiting hl)) (fun i _ _ => hsees i)
  cases e with
  | loop => exact awake_stepLoop h
  | selected rc =>
    rw [step]
    split_ifs with hl hrc
    · exact (hgoto .start (by simp [hl]) start_sees).congr (fun _ => rfl) rfl rfl rfl rfl
    · exact (hgoto (.sweep (List.finRange 8)) (by simp [hl]) fun _ => trivial).congr
        (fun _ => rfl) rfl rfl rfl rfl
    · exact h
  | dispatched isSet =>
    rw [step]
    split
    · next i rest hl =>
      apply hgoto _ (by simp [hl])
      intro j
      split_ifs <;> trivial
    · exact h
  | handlerClosed =>
    rw [step]
    split
    · next i rest hl =>
      exact (hgoto (.handler i rest true) (by simp [hl]) fun _ => trivial).congr
        (fun _ => rfl) rfl rfl rfl rfl
    · exact h
  | handlerDropped =>
    rw [step]
    split
    · next i rest hl =>
      exact (h.zero i).goto (fun hw => absurd hw (h.not_waiting (by simp [hl])))
        (fun _ _ _ => trivial)
    · exact h
  | handlerReturned =>
    rw [step]
    split
    · next i rest closed hl => exact hgoto _ (by simp [hl]) fun _ => trivial
    · exact h
  | registerHandlers c r =>
    rw [step]
    split_ifs with hc
    · exact h.start (by rw [hc]; exact id) id
    · exact h
  | closeSoon c i =>
    rw [step]
    split_ifs with hc
    · exact h.start (by rw [hc]; exact id) id
    · exact h
  | mqttInit c =>
    rw [step]
    split_ifs with hc
    · exact h.start (by rw [hc]; exact id) id
    · exact h
  | connected c sock pid =>
    rw [step]
    split_ifs with hc hsock
    · exact h.start (by rw [hc]; exact id) id
    · have hm : Awake { s with mqttHandler := none } := h.congr (fun _ => rfl) rfl rfl rfl rfl
      exact hm.goOn (fun _ => trivial) (fun _ => Or.inr (by rw [hc]; exact id))
    · exact h
  | call c => exact awake_stepCall h c

end Preservation

/-- Whatever the calls and the loop do in whatever order, a slot with a descriptor names the
call that registered it, and the loop does not sleep once such a call has returned. -/
theorem no_lost_wakeup (mx : Mutex) (es : List Event) :
    let s := run step (State.initial mx) es
    (∀ i, (s.fdMap i).fd ≠ 0 ↔ ∃ c, s.history.conn i = some c) ∧
      ¬∃ i c, s.Blocked ∧ (s.fdMap i).fd ≠ 0 ∧ s.history.conn i = some c ∧ (s.calls c).Registered := by
  have hrun : Throughout step Awake (State.initial mx) es :=
    throughout_of_step Awake (fun _ e h => awake_step h e) (awake_initial mx) es
  have hlast := hrun.last
  intro s
  refine ⟨?_, ?_⟩
  · intro i
    rw [← Option.ne_none_iff_exists', not_iff_not]
    exact hlast.named i
  · rintro ⟨i, c, ⟨-, hwait⟩, hfd, hconn, hreg⟩
    obtain ⟨hnot, -⟩ := hlast.seen i c hfd hconn hreg (mx.locked_of_waiting _ hwait)
    rw [hwait] at hnot
    cases hnot

end Nais.Board.EventLoop
