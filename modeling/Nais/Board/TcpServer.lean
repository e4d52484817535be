import Nais.Board.Connections

/-!
# Starting the TCP server again

`server_fd` of `sys/bocia/bocia_tcp.c` is 0 as long as there is no server, and holds the error
code when one could not be created. `bocia_tcp_server` creates a server if it finds a 0 there,
and registers whatever the variable holds.
-/

namespace Nais.Board.Connections

open Nais.Lib Nais.Lib.Run

def State.bociaDestroyTcpServer (s : State) : State :=
  { s with serverFd := 0, sockets := s.sockets.release s.serverFd }

namespace TcpServer

/-- A call, with what `sl_Socket`, `sl_Bind` and `sl_Listen` return if they are called. -/
inductive Call where
  | server (pid : ℕ) (sock bind listen : ℤ)
  | destroy

def call (s : State) : Call → State
  | .server pid sock bind listen => s.bociaTcpServer pid sock bind listen
  | .destroy => s.bociaDestroyTcpServer

/-- `bocia_tcp_server` returns a negative result. -/
def Fails (s : State) : Call → Prop
  | .server _ sock bind listen =>
    s.serverFd = 0 ∧ (bociaCreateTcpServer s.sockets sock bind listen).1 < 0
  | .destroy => False

/-- What is to hold of a call: one that fails leaves nothing behind, one without a server creates
it, no descriptor in the table is negative and the listening one is in one slot at most. -/
structure Retryable (s : State) (c : Call) : Prop where
  failed : Fails s c → (call s c).serverFd = 0 ∧ (call s c).sockets.live = s.sockets.live ∧
    (call s c).fdMap = s.fdMap
  retries : ∀ pid sock bind listen, c = .server pid sock bind listen →
    s.serverFd ∉ s.sockets.live → s.serverFd = 0
  nonneg : ∀ i, 0 ≤ ((call s c).fdMap i).fd
  single : ∀ i j, ((call s c).fdMap i).fd = (call s c).serverFd →
    ((call s c).fdMap j).fd = (call s c).serverFd → (call s c).serverFd ≠ 0 → i = j

/-- Registering `fd` puts it in no second slot. -/
def Unlisted (s : State) (fd : ℤ) : Prop :=
  fd = 0 ∨ availableSlot s.fdMap = none ∨ ∀ i, (s.fdMap i).fd ≠ fd

/-- The socket calls succeed, and what is registered is in no slot yet. -/
def Starts (s : State) : Call → Prop
  | .server _ sock bind listen =>
    if s.serverFd = 0 then (0 ≤ sock ∧ 0 ≤ bind ∧ 0 ≤ listen) ∧ Unlisted s sock
    else Unlisted s s.serverFd
  | .destroy => True

/-- No descriptor is negative or in two slots, and that of a server is open. -/
structure Sound (s : State) : Prop where
  serverFd : 0 ≤ s.serverFd
  live : s.serverFd ≠ 0 → s.serverFd ∈ s.sockets.live
  nonneg : ∀ i, 0 ≤ (s.fdMap i).fd
  single : ∀ i j, (s.fdMap i).fd = (s.fdMap j).fd → (s.fdMap i).fd ≠ 0 → i = j

lemma sound_initial : Sound State.initial :=
  ⟨le_rfl, fun h => absurd rfl h, fun _ => le_rfl, fun _ _ _ h => absurd rfl h⟩

section Register

variable {s : State} {r : Registration}

/-- A registration writes its descriptor to a slot that was free, if there is one. -/
lemma register_cases (s : State) (r : Registration) :
    availableSlot s.fdMap = none ∧ (s.register r).fdMap = s.fdMap ∨
    ∃ i, availableSlot s.fdMap = some i ∧ (s.fdMap i).fd = 0 ∧ ((s.register r).fdMap i).fd = r.sock ∧
      ∀ j, j ≠ i → (s.register r).fdMap j = s.fdMap j := by
  unfold State.register bociaRegisterHandlers
  cases hslot : availableSlot s.fdMap with
  | none => exact Or.inl ⟨rfl, rfl⟩
  | some i =>
    refine Or.inr ⟨i, rfl, (availableSlot_eq_some_iff.mp hslot).1, ?_, fun j hj => ?_⟩
    · simp [BociaChannel.register]
    · simp [hj]

lemma register_nonneg (hs : Sound s) (hr : 0 ≤ r.sock) (i : Slot) :
    0 ≤ ((s.register r).fdMap i).fd := by
  rcases register_cases s r with ⟨-, hsame⟩ | ⟨k, -, -, hk, hother⟩
  · rw [hsame]
    exact hs.nonneg i
  · by_cases hik : i = k
    · rw [hik, hk]
      exact hr
    · rw [hother i hik]
      exact hs.nonneg i

/-- All descriptors are in one slot at most when the registered one was in none. -/
lemma register_single (hs : Sound s) (hr : Unlisted s r.sock) (i j : Slot)
    (hij : ((s.register r).fdMap i).fd = ((s.register r).fdMap j).fd)
    (hne : ((s.register r).fdMap i).fd ≠ 0) : i = j := by
  rcases register_cases s r with ⟨-, hsame⟩ | ⟨k, hslot, -, hk, hother⟩
  · rw [hsame] at hij hne
    exact hs.single i j hij hne
  · have hnot : ∀ x, x ≠ k → ((s.register r).fdMap x).fd = r.sock → r.sock = 0 := by
      intro x hx hfd
      rw [hother x hx] at hfd
      rcases hr with hzero | hfull | hfree
      · exact hzero
      · rw [hslot] at hfull
        cases hfull
      · exact absurd hfd (hfree x)
    by_cases hik : i = k
    · by_cases hjk : j = k
      · rw [hik, hjk]
      · rw [hik, hk] at hij hne
        exact absurd (hnot j hjk hij.symm) hne
    · by_cases hjk : j = k
      · rw [hjk, hk] at hij
        exact absurd (hij.trans (hnot i hik hij)) hne
      · rw [hother i hik, hother j hjk] at hij
        rw [hother i hik] at hne
        exact hs.single i j hij hne

lemma unlisted_of_single (h : ∀ i j, ((s.register r).fdMap i).fd = r.sock →
    ((s.register r).fdMap j).fd = r.sock → r.sock ≠ 0 → i = j) : Unlisted s r.sock := by
  by_cases hzero : r.sock = 0
  · exact Or.inl hzero
  · rcases register_cases s r with ⟨hslot, -⟩ | ⟨k, -, hfree, hk, hother⟩
    · exact Or.inr (Or.inl hslot)
    · refine Or.inr (Or.inr fun i hi => ?_)
      have hik : i ≠ k := fun hik => hzero (by rw [← hi, hik, hfree])
      exact hik (h i k (by rw [hother i hik]; exact hi) hk hzero)

end Register

section Step

variable {s : State}

lemma create_eq (sockets : Mqtt.Sockets) (sock bind listen : ℤ) :
    (0 ≤ (bociaCreateTcpServer sockets sock bind listen).1 ↔ 0 ≤ sock ∧ 0 ≤ bind ∧ 0 ≤ listen) ∧
      (0 ≤ sock ∧ 0 ≤ bind ∧ 0 ≤ listen →
        bociaCreateTcpServer sockets sock bind listen = (sock, sockets.handOut sock)) := by
  unfold bociaCreateTcpServer
  dsimp only
  split_ifs with hsock hbind hlisten
  · exact ⟨iff_of_false (by omega) (by omega), by omega⟩
  · exact ⟨iff_of_false (by omega) (by omega), by omega⟩
  · exact ⟨iff_of_false (by omega) (by omega), by omega⟩
  · refine ⟨by dsimp only; omega, fun _ => ?_⟩
    rw [handOut, if_neg hsock]

lemma server_of_running (h : s.serverFd ≠ 0) (pid : ℕ) (sock bind listen : ℤ) :
    call s (.server pid sock bind listen) =
      s.register ⟨s.serverFd, pid, .bociaTcpAccept, none⟩ := by
  rw [call, State.bociaTcpServer, if_neg h]

lemma server_of_created (h : s.serverFd = 0) (pid : ℕ) {sock bind listen : ℤ}
    (hok : 0 ≤ sock ∧ 0 ≤ bind ∧ 0 ≤ listen) :
    call s (.server pid sock bind listen) =
      { s with serverFd := sock, sockets := s.sockets.handOut sock }.register
        ⟨sock, pid, .bociaTcpAccept, none⟩ := by
  rw [call, State.bociaTcpServer, if_pos h, (create_eq s.sockets sock bind listen).2 hok]
  dsimp only
  rw [if_neg (by omega)]

lemma server_of_failed (h : s.serverFd = 0) (pid : ℕ) {sock bind listen : ℤ}
    (hfail : ¬(0 ≤ sock ∧ 0 ≤ bind ∧ 0 ≤ listen)) :
    (call s (.server pid sock bind listen)).serverFd < 0 := by
  have hneg := mt (create_eq s.sockets sock bind listen).1.mp hfail
  rw [call, State.bociaTcpServer, if_pos h]
  dsimp only
  rw [if_pos (not_le.mp hneg)]
  exact not_le.mp hneg

/-- A call that registers its server is judged by whether the descriptor was in a slot. -/
lemma retryable_iff_unlisted (hs : Sound s) {created : State} (hcreated : Sound created) {c : Call}
    {r : Registration} (hcall : call s c = created.register r) (hfd : created.serverFd = r.sock)
    (hfails : ¬Fails s c) : Retryable s c ↔ Unlisted created r.sock := by
  have hserver : (call s c).serverFd = r.sock := by
    rw [hcall]
    exact hfd
  constructor
  · intro h
    have hsingle := h.single
    rw [hserver, hcall] at hsingle
    exact unlisted_of_single hsingle
  · intro h
    refine ⟨fun hfailed => absurd hfailed hfails, fun _ _ _ _ _ hopen => ?_, fun i => ?_,
      fun i j hi hj hne => ?_⟩
    · by_contra hne
      exact hopen (hs.live hne)
    · rw [hcall]
      exact register_nonneg hcreated (by rw [← hfd]; exact hcreated.serverFd) i
    · rw [hserver] at hi hj hne
      rw [hcall] at hi hj
      exact register_single hcreated h i j (hi.trans hj.symm) (by rw [hi]; exact hne)

lemma sound_register {r : Registration} (hs : Sound s) (hfd : s.serverFd = r.sock)
    (h : Unlisted s r.sock) : Sound (s.register r) :=
  ⟨hs.serverFd, hs.live, register_nonneg hs (by rw [← hfd]; exact hs.serverFd),
    register_single hs h⟩

lemma sound_created (hs : Sound s) {sock : ℤ} (hsock : 0 ≤ sock) :
    Sound { s with serverFd := sock, sockets := s.sockets.handOut sock } :=
  ⟨hsock, fun _ => by simp, hs.nonneg, hs.single⟩

lemma retryable_iff_starts (hs : Sound s) (c : Call) : Retryable s c ↔ Starts s c := by
  cases c with
  | destroy =>
    refine iff_of_true ⟨fun h => h.elim, (fun _ _ _ _ h => by cases h), hs.nonneg, ?_⟩ trivial
    exact fun i j _ _ h => absurd rfl h
  | server pid sock bind listen =>
    rw [Starts]
    by_cases hfd : s.serverFd = 0
    · rw [if_pos hfd]
      have hcreates := (create_eq s.sockets sock bind listen).1
      by_cases hok : 0 ≤ sock ∧ 0 ≤ bind ∧ 0 ≤ listen
      · have hfails : ¬Fails s (.server pid sock bind listen) :=
          fun hfailed => absurd hfailed.2 (not_lt.mpr (hcreates.mpr hok))
        rw [and_iff_right hok]
        exact retryable_iff_unlisted hs (sound_created hs hok.1) (server_of_created hfd pid hok) rfl
          hfails
      · refine iff_of_false (fun h => ?_) (fun h => hok h.1)
        have hneg := server_of_failed hfd pid hok
        have hfails : Fails s (.server pid sock bind listen) :=
          ⟨hfd, not_le.mp (mt hcreates.mp hok)⟩
        rw [(h.failed hfails).1] at hneg
        exact absurd hneg (lt_irrefl 0)
    · rw [if_neg hfd]
      exact retryable_iff_unlisted hs hs (server_of_running hfd pid sock bind listen) rfl
        fun hfailed => hfd hfailed.1

lemma sound_call (hs : Sound s) {c : Call} (h : Starts s c) : Sound (call s c) := by
  cases c with
  | destroy => exact ⟨le_rfl, fun h => absurd rfl h, hs.nonneg, hs.single⟩
  | server pid sock bind listen =>
    rw [Starts] at h
    by_cases hfd : s.serverFd = 0
    · rw [if_pos hfd] at h
      rw [server_of_created hfd pid h.1]
      exact sound_register (sound_created hs h.1.1) rfl h.2
    · rw [if_neg hfd] at h
      rw [server_of_running hfd]
      exact sound_register hs rfl h

end Step

/-- A sequence of calls retries as it should exactly if no creation fails, and no descriptor that
is registered is in a slot already. -/
theorem tcp_server_retryable_iff {s : State} (hs : Sound s) (calls : List Call) :
    Meets call Retryable s calls ↔ Meets call Starts s calls := by
  constructor
  · exact Meets.of_invariant Sound
      (fun s c hs h => sound_call hs ((retryable_iff_starts hs c).mp h))
      (fun s c hs h => (retryable_iff_starts hs c).mp h) hs
  · exact Meets.of_invariant Sound (fun s c hs h => sound_call hs h)
      (fun s c hs h => (retryable_iff_starts hs c).mpr h) hs

lemma sample_calls_retry :
    Meets call Retryable State.initial [.server 1 5 0 0, .destroy, .server 1 6 0 0] := by
  refine (tcp_server_retryable_iff sound_initial _).mpr ?_
  refine ⟨?_, trivial, ?_, trivial⟩
  · rw [Starts, if_pos (by decide)]
    exact ⟨by decide, Or.inr (Or.inr (by decide))⟩
  · rw [Starts, if_pos (by decide)]
    exact ⟨by decide, Or.inr (Or.inr (by decide +kernel))⟩

/-- The error code stays in `server_fd`, and the next call registers it. -/
theorem tcp_server_registers_error : ¬∀ calls, Meets call Retryable State.initial calls := by
  intro h
  have hsecond := (h [.server 1 5 (-1) 0, .server 1 6 0 0]).2.1
  have hslot := hsecond.nonneg 0
  revert hslot
  decide +kernel

end TcpServer

end Nais.Board.Connections
