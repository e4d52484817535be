import Nais.Board.Connections

/-!
# Who owns a socket

A descriptor that `sl_Socket` or `sl_Accept` hands out is to be in one slot of the channel
table, or in `server_fd`, until it is closed.
-/

namespace Nais.Board.Connections

open Nais.Lib Nais.Lib.Run Mqtt

/-- What the slots hold. -/
def fds (fdMap : FdMap) (i : Slot) : ℤ := (fdMap i).fd

/-- One live slot holds the descriptor, or `server_fd` does, and at most one slot with it. -/
def Held (fds : Slot → ℤ) (serverFd fd : ℤ) : Prop :=
  fd ≠ 0 ∧ ((∃ i, fds i = fd) ∨ serverFd = fd) ∧ ∀ i j, fds i = fd → fds j = fd → i = j

/-- Every open descriptor is held, every held one is open, and none was closed twice. -/
structure Ownership (fds : Slot → ℤ) (serverFd : ℤ) (sockets : Sockets) : Prop where
  held : ∀ fd ∈ sockets.live, Held fds serverFd fd
  live : ∀ i, 0 < fds i → fds i ∈ sockets.live
  server : 0 < serverFd → serverFd ∈ sockets.live
  once : sockets.twice = false

def Owned (s : State) : Prop := Ownership (fds s.fdMap) s.serverFd s.sockets

/-- There is a free slot. -/
def Room (fdMap : FdMap) : Prop := ∃ i, (fdMap i).fd = 0

instance (fdMap : FdMap) : Decidable (Room fdMap) := inferInstanceAs (Decidable (∃ _, _))

/-- What the channel asks of the answers when the loop handles it. -/
def HandleKeeps (s : State) (ch : BociaChannel) (sock : ℤ) (answers : List Recv) : Prop :=
  match ch.handler with
  | some .bociaTcpAccept => 0 ≤ sock → sock ≠ 0 ∧ Room s.fdMap
  | some .mqttReceiverHandler =>
    packetEnds answers = if (wholePacket answers).isSome then 0 else 1
  | _ => True

/-- A descriptor is not zero and finds a slot; the listening one is not registered a second
time nor closed with its channel; an MQTT packet ends the stream once where it does not come
whole, and not at all where it does. -/
def Keeps (s : State) : Event → Prop
  | .tcpInit _ sock sts => 0 ≤ sock → 0 ≤ sts → sock ≠ 0 ∧ Room s.fdMap
  | .tcpServer _ sock bind listen =>
    if s.serverFd = 0 then sock = 0 → bind < 0 ∨ listen < 0
    else 0 < s.serverFd → (∀ i, (s.fdMap i).fd ≠ s.serverFd) ∨ ¬Room s.fdMap
  | .mqttInit _ sock sts answers stale => 0 ≤ sock → 0 ≤ sts →
    packetEnds answers = if Accepted answers stale ∧ ¬(0 < sock ∧ Room s.fdMap) then 1 else 0
  | .select _ => True
  | .sweep isSet sock answers =>
    match s.rest with
    | [] => True
    | i :: _ =>
      if (s.fdMap i).closePending then
        if (s.fdMap i).fd = 0 then 0 ∉ s.sockets.released
        else 0 < (s.fdMap i).fd → (s.fdMap i).fd ≠ s.serverFd
      else (s.fdMap i).fd ≠ 0 → isSet → HandleKeeps s (s.fdMap i) sock answers

section Descriptors

variable {f : Slot → ℤ} {server sock : ℤ} {sockets : Sockets} {n : ℕ}

lemma update_eq_iff {i j : Slot} {v x : ℤ} :
    Function.update f i v j = x ↔ j = i ∧ v = x ∨ j ≠ i ∧ f j = x := by
  rw [Function.update_apply]
  split_ifs with hj <;> simp [hj]

lemma Ownership.not_held (o : Ownership f server sockets) (hsock : sock ∉ sockets.live)
    (hpos : 0 < sock) : (∀ i, f i ≠ sock) ∧ server ≠ sock := by
  constructor
  · rintro i rfl
    exact hsock (o.live i hpos)
  · rintro rfl
    exact hsock (o.server hpos)

/-- An open descriptor is not closed twice. -/
lemma Ownership.released_once (h : Ownership f server (sockets.releases sock n))
    (hsock : sock ∈ sockets.live) : ¬2 ≤ n := fun hn =>
  absurd (h.once.symm.trans ((Ledger.twice_releases hsock).mpr (Or.inr hn))) Bool.false_ne_true

/-- What a free slot takes does not touch the holder of a descriptor. -/
lemma held_update {i : Slot} {v fd : ℤ} (hi : f i = 0) (hfd : fd ≠ 0)
    (h : (∃ j, f j = fd) ∨ server = fd) :
    (∃ j, Function.update f i v j = fd) ∨ server = fd := by
  obtain ⟨j, hj⟩ | heq := h
  · refine Or.inl ⟨j, update_eq_iff.mpr (Or.inr ⟨?_, hj⟩)⟩
    rintro rfl
    exact hfd (hj.symm.trans hi)
  · exact Or.inr heq

/-- A new descriptor that goes nowhere is to be closed, once. -/
lemma Ownership.dropped_iff (o : Ownership f server sockets) (hsock : sock ∉ sockets.live)
    (hnonneg : 0 ≤ sock) :
    Ownership f server ((sockets.handOut sock).releases sock n) ↔ n = 1 := by
  have hnew : sock ∈ (sockets.handOut sock).live := Ledger.mem_live_handOut.mpr (Or.inl rfl)
  have hlive : ∀ fd, fd ∈ ((sockets.handOut sock).releases sock n).live ↔
      (fd = sock ∨ fd ∈ sockets.live) ∧ (fd = sock → n = 0) := by
    intro fd
    rw [Ledger.mem_live_releases, Ledger.mem_live_handOut]
  have htwice := Ledger.twice_releases hnew (n := n)
  rw [Ledger.twice_handOut, o.once] at htwice
  constructor
  · intro h
    have hn := h.released_once hnew
    have hzero : n ≠ 0 := by
      rintro rfl
      obtain ⟨hne, hheld, -⟩ := h.held sock hnew
      obtain ⟨hslots, hserver⟩ := o.not_held hsock (lt_of_le_of_ne hnonneg (Ne.symm hne))
      obtain ⟨i, hi⟩ | heq := hheld
      · exact hslots i hi
      · exact hserver heq
    omega
  · rintro rfl
    have hsame : ∀ fd, fd ∈ ((sockets.handOut sock).releases sock 1).live ↔ fd ∈ sockets.live := by
      intro fd
      rw [hlive]
      constructor
      · rintro ⟨rfl | hfd, hne⟩
        · exact absurd (hne rfl) (by norm_num)
        · exact hfd
      · intro hfd
        refine ⟨Or.inr hfd, ?_⟩
        rintro rfl
        exact absurd hfd hsock
    refine ⟨fun fd hfd => o.held fd ((hsame fd).mp hfd), fun i hi => (hsame _).mpr (o.live i hi),
      fun hi => (hsame _).mpr (o.server hi), ?_⟩
    by_contra hne
    rw [Bool.not_eq_false, htwice] at hne
    simp at hne

/-- A new descriptor that a free slot takes is to be left open. -/
lemma Ownership.taken_iff (o : Ownership f server sockets) (hsock : sock ∉ sockets.live)
    (hpos : 0 < sock) {i : Slot} (hi : f i = 0) :
    Ownership (Function.update f i sock) server ((sockets.handOut sock).releases sock n) ↔
      n = 0 := by
  obtain ⟨hslots, hserver⟩ := o.not_held hsock hpos
  constructor
  · intro h
    have hlive := h.live i (by rwa [Function.update_self])
    rw [Function.update_self, Ledger.mem_live_releases] at hlive
    exact hlive.2 rfl
  · rintro rfl
    refine ⟨?_, ?_, ?_, o.once⟩
    · intro fd hfd
      obtain rfl | hfd := Ledger.mem_live_handOut.mp hfd
      · refine ⟨hpos.ne', Or.inl ⟨i, Function.update_self ..⟩, ?_⟩
        intro j k hj hk
        obtain ⟨rfl, -⟩ | ⟨-, hj⟩ := update_eq_iff.mp hj
        · obtain ⟨rfl, -⟩ | ⟨-, hk⟩ := update_eq_iff.mp hk
          · rfl
          · exact absurd hk (hslots k)
        · exact absurd hj (hslots j)
      · obtain ⟨hne, hheld, hone⟩ := o.held fd hfd
        have hother : sock ≠ fd := by
          rintro rfl
          exact hsock hfd
        refine ⟨hne, held_update hi hne hheld, fun j k hj hk => ?_⟩
        obtain ⟨-, heq⟩ | ⟨-, hj⟩ := update_eq_iff.mp hj
        · exact absurd heq hother
        · obtain ⟨-, heq⟩ | ⟨-, hk⟩ := update_eq_iff.mp hk
          · exact absurd heq hother
          · exact hone j k hj hk
    · intro j hj
      obtain ⟨-, heq⟩ | ⟨-, heq⟩ := update_eq_iff.mp rfl
      · rw [← heq]
        exact Ledger.mem_live_handOut.mpr (Or.inl rfl)
      · rw [← heq] at hj ⊢
        exact Ledger.mem_live_handOut.mpr (Or.inr (o.live j hj))
    · intro hs
      exact Ledger.mem_live_handOut.mpr (Or.inr (o.server hs))

/-- A new descriptor that `server_fd` takes. -/
lemma Ownership.serving (o : Ownership f 0 sockets) (hsock : sock ∉ sockets.live)
    (hpos : 0 < sock) : Ownership f sock (sockets.handOut sock) := by
  obtain ⟨hslots, -⟩ := o.not_held hsock hpos
  refine ⟨?_, fun i hi => Ledger.mem_live_handOut.mpr (Or.inr (o.live i hi)),
    fun _ => Ledger.mem_live_handOut.mpr (Or.inl rfl), o.once⟩
  intro fd hfd
  obtain rfl | hfd := Ledger.mem_live_handOut.mp hfd
  · exact ⟨hpos.ne', Or.inr rfl, fun i _ hi => absurd hi (hslots i)⟩
  · obtain ⟨hne, hheld, hone⟩ := o.held fd hfd
    exact ⟨hne, Or.inl (hheld.resolve_right (Ne.symm hne)), hone⟩

/-- An error code in `server_fd` is no descriptor. -/
lemma Ownership.unserved (o : Ownership f 0 sockets) (hserver : server ≤ 0) :
    Ownership f server sockets := by
  refine ⟨?_, o.live, fun h => absurd hserver (not_le.mpr h), o.once⟩
  intro fd hfd
  obtain ⟨hne, hheld, hone⟩ := o.held fd hfd
  exact ⟨hne, Or.inl (hheld.resolve_right (Ne.symm hne)), hone⟩

/-- The listening descriptor can be registered once. -/
lemma Ownership.registered_iff (o : Ownership f server sockets)
    (hnonneg : ∀ fd ∈ sockets.live, 0 ≤ fd) {i : Slot} (hi : f i = 0) :
    Ownership (Function.update f i server) server sockets ↔ (0 < server → ∀ j, f j ≠ server) := by
  constructor
  · rintro h hpos j hj
    have hij : j ≠ i := by
      rintro rfl
      omega
    exact hij ((h.held server (o.server hpos)).2.2 j i (update_eq_iff.mpr (Or.inr ⟨hij, hj⟩))
      (update_eq_iff.mpr (Or.inl ⟨rfl, rfl⟩)))
  · intro h
    refine ⟨?_, ?_, o.server, o.once⟩
    · intro fd hfd
      obtain ⟨hne, hheld, hone⟩ := o.held fd hfd
      have hpos : 0 < fd := lt_of_le_of_ne (hnonneg fd hfd) (Ne.symm hne)
      refine ⟨hne, held_update hi hne hheld, fun j k hj hk => ?_⟩
      obtain ⟨rfl, rfl⟩ | ⟨-, hj⟩ := update_eq_iff.mp hj
      · obtain ⟨rfl, -⟩ | ⟨-, hk⟩ := update_eq_iff.mp hk
        · rfl
        · exact absurd hk (h hpos k)
      · obtain ⟨-, rfl⟩ | ⟨-, hk⟩ := update_eq_iff.mp hk
        · exact absurd hj (h hpos j)
        · exact hone j k hj hk
    · intro j hj
      obtain ⟨-, heq⟩ | ⟨-, heq⟩ := update_eq_iff.mp rfl
      · rw [← heq] at hj ⊢
        exact o.server hj
      · rw [← heq] at hj ⊢
        exact o.live j hj

/-- The descriptor of a slot is to be closed once if the slot is cleared, and left open
otherwise; and it is not to be cleared while `server_fd` holds it. -/
lemma Ownership.cleared_iff (o : Ownership f server sockets) {i : Slot} (hpos : 0 < f i) :
    Ownership (Function.update f i 0) server (sockets.releases (f i) n) ↔
      n = 1 ∧ f i ≠ server ∨ n = 0 ∧ f i = server := by
  have hopen := o.live i hpos
  have hat : ∀ j fd, fd ≠ 0 → (Function.update f i 0 j = fd ↔ j ≠ i ∧ f j = fd) := by
    intro j fd hfd
    rw [Function.update_apply]
    split_ifs with hj <;> simp [hj, Ne.symm hfd]
  have hlive : ∀ fd, fd ∈ (sockets.releases (f i) n).live ↔
      fd ∈ sockets.live ∧ (fd = f i → n = 0) := fun fd => Ledger.mem_live_releases
  have htwice := Ledger.twice_releases hopen (n := n)
  rw [o.once] at htwice
  constructor
  · intro h
    have hn := h.released_once hopen
    obtain rfl | rfl : n = 0 ∨ n = 1 := by omega
    · refine Or.inr ⟨rfl, ?_⟩
      obtain ⟨-, ⟨j, hj⟩ | heq, -⟩ := h.held (f i) ((hlive _).mpr ⟨hopen, fun _ => rfl⟩)
      · obtain ⟨hne, hj⟩ := (hat j _ hpos.ne').mp hj
        exact absurd ((o.held _ hopen).2.2 j i hj rfl) hne
      · exact heq.symm
    · refine Or.inl ⟨rfl, ?_⟩
      intro heq
      have hserver := h.server (heq ▸ hpos)
      rw [hlive] at hserver
      exact absurd (hserver.2 heq.symm) (by norm_num)
  · intro hn
    have hsmall : ¬2 ≤ n := by
      obtain ⟨rfl, -⟩ | ⟨rfl, -⟩ := hn <;> norm_num
    refine ⟨?_, ?_, ?_, ?_⟩
    · intro fd hfd
      obtain ⟨hfd, hzero⟩ := (hlive fd).mp hfd
      obtain ⟨hne, hheld, hone⟩ := o.held fd hfd
      refine ⟨hne, ?_, ?_⟩
      · obtain ⟨j, hj⟩ | heq := hheld
        · by_cases hji : j = i
          · subst hji
            obtain ⟨rfl, -⟩ | ⟨-, heq⟩ := hn
            · exact absurd (hzero hj.symm) (by norm_num)
            · exact Or.inr (heq.symm.trans hj)
          · exact Or.inl ⟨j, (hat j fd hne).mpr ⟨hji, hj⟩⟩
        · exact Or.inr heq
      · intro j k hj hk
        exact hone j k ((hat j fd hne).mp hj).2 ((hat k fd hne).mp hk).2
    · intro j hj
      obtain ⟨hji, heq⟩ := (hat j _ hj.ne').mp rfl
      rw [← heq] at hj ⊢
      refine (hlive _).mpr ⟨o.live j hj, fun hfd => ?_⟩
      exact absurd ((o.held _ hopen).2.2 j i hfd rfl) hji
    · intro hs
      refine (hlive _).mpr ⟨o.server hs, fun heq => ?_⟩
      obtain ⟨-, hne⟩ | ⟨rfl, -⟩ := hn
      · exact absurd heq.symm hne
      · rfl
    · by_contra hne
      rw [Bool.not_eq_false, htwice] at hne
      obtain hfalse | hlarge := hne
      · exact absurd hfalse Bool.false_ne_true
      · exact hsmall hlarge

/-- A slot that holds no open descriptor can be cleared. -/
lemma Ownership.cleared (o : Ownership f server sockets) (hnonneg : ∀ fd ∈ sockets.live, 0 ≤ fd)
    {i : Slot} (hi : f i ≤ 0) : Ownership (Function.update f i 0) server sockets := by
  have hat : ∀ j fd, 0 < fd → (Function.update f i 0 j = fd ↔ f j = fd) := by
    intro j fd hfd
    rw [Function.update_apply]
    split_ifs with hj
    · subst hj
      exact iff_of_false hfd.ne (by omega)
    · exact Iff.rfl
  refine ⟨?_, ?_, o.server, o.once⟩
  · intro fd hfd
    obtain ⟨hne, hheld, hone⟩ := o.held fd hfd
    have hpos : 0 < fd := lt_of_le_of_ne (hnonneg fd hfd) (Ne.symm hne)
    refine ⟨hne, hheld.imp_left (Exists.imp fun j hj => (hat j fd hpos).mpr hj), ?_⟩
    intro j k hj hk
    exact hone j k ((hat j fd hpos).mp hj) ((hat k fd hpos).mp hk)
  · intro j hj
    have heq := (hat j _ hj).mp rfl
    rw [← heq] at hj ⊢
    exact o.live j hj

lemma Ownership.kept_iff (o : Ownership f server sockets) {i : Slot} (hpos : 0 < f i) :
    Ownership f server (sockets.releases (f i) n) ↔ n = 0 := by
  constructor
  · intro h
    have hlive := h.live i hpos
    rw [Ledger.mem_live_releases] at hlive
    exact hlive.2 rfl
  · rintro rfl
    exact o

end Descriptors

section Table

variable {m : FdMap} {r : Registration} {server : ℤ} {sockets : Sockets} {n : ℕ}

lemma fds_update (m : FdMap) (i : Slot) (ch : BociaChannel) :
    fds (Function.update m i ch) = Function.update (fds m) i ch.fd := by
  funext j
  rw [fds, Function.update_apply, Function.update_apply]
  split_ifs <;> rfl

lemma register_cases (m : FdMap) (r : Registration) :
    (∃ i, (m i).fd = 0 ∧
      bociaRegisterHandlers m r = (some i, Function.update m i ((m i).register r))) ∨
    ¬Room m ∧ bociaRegisterHandlers m r = (none, m) := by
  rw [bociaRegisterHandlers]
  cases hslot : availableSlot m with
  | some i => exact Or.inl ⟨i, (availableSlot_eq_some_iff.mp hslot).1, rfl⟩
  | none =>
    refine Or.inr ⟨?_, rfl⟩
    rintro ⟨i, hi⟩
    exact availableSlot_eq_none_iff.mp hslot i hi

/-- A new descriptor goes into the table if it is not zero and there is room, and is to be
closed otherwise. -/
lemma Ownership.register_iff (o : Ownership (fds m) server sockets) (hsock : r.sock ∉ sockets.live)
    (hnonneg : 0 ≤ r.sock) :
    Ownership (fds (bociaRegisterHandlers m r).2) server
      ((sockets.handOut r.sock).releases r.sock n) ↔ n = if 0 < r.sock ∧ Room m then 0 else 1 := by
  obtain ⟨i, hi, heq⟩ | ⟨hfull, heq⟩ := register_cases m r
  · rw [heq, fds_update]
    have hfd : ((m i).register r).fd = r.sock := rfl
    rw [hfd]
    by_cases hpos : 0 < r.sock
    · rw [if_pos ⟨hpos, i, hi⟩]
      exact o.taken_iff hsock hpos hi
    · have hzero : r.sock = fds m i := by
        rw [fds, hi]
        omega
      rw [if_neg (fun h => hpos h.1)]
      conv_lhs => rw [hzero, Function.update_eq_self, ← hzero]
      exact o.dropped_iff hsock hnonneg
  · rw [heq, if_neg (fun h => hfull h.2)]
    exact o.dropped_iff hsock hnonneg

/-- The channels that receive hold descriptors, and not the listening one. -/
def Receiving (m : FdMap) (server : ℤ) : Prop :=
  ∀ i, (m i).handler ≠ some .bociaTcpAccept → 0 ≤ (m i).fd ∧ ((m i).fd ≠ 0 → (m i).fd ≠ server)

lemma Receiving.update (h : Receiving m server) {i : Slot} {ch : BociaChannel}
    (hch : ch.handler ≠ some .bociaTcpAccept → 0 ≤ ch.fd ∧ (ch.fd ≠ 0 → ch.fd ≠ server)) :
    Receiving (Function.update m i ch) server := by
  intro j
  rw [Function.update_apply]
  split_ifs
  · exact hch
  · exact h j

lemma Receiving.register (h : Receiving m server)
    (hr : r.handler ≠ .bociaTcpAccept → 0 ≤ r.sock ∧ (r.sock ≠ 0 → r.sock ≠ server)) :
    Receiving (bociaRegisterHandlers m r).2 server := by
  obtain ⟨i, -, heq⟩ | ⟨-, heq⟩ := register_cases m r
  · rw [heq]
    exact h.update fun hch => hr (fun heq => hch (congrArg some heq))
  · rw [heq]
    exact h

lemma Receiving.unserved (h : Receiving m 0) (hserver : server < 0) : Receiving m server := by
  intro i hi
  obtain ⟨hnonneg, -⟩ := h i hi
  exact ⟨hnonneg, fun _ => by omega⟩

/-- The socket layer hands out no negative descriptor. -/
structure NonNeg (sockets : Sockets) : Prop where
  live : ∀ fd ∈ sockets.live, 0 ≤ fd
  released : ∀ fd ∈ sockets.released, 0 ≤ fd

lemma NonNeg.handOut (h : NonNeg sockets) (sock : ℤ) : NonNeg (handOut sockets sock) := by
  rw [Connections.handOut]
  split_ifs with hsock
  · exact h
  · refine ⟨?_, h.released⟩
    intro fd hfd
    obtain rfl | hfd := Ledger.mem_live_handOut.mp hfd
    · exact not_lt.mp hsock
    · exact h.live fd hfd

lemma NonNeg.release (h : NonNeg sockets) (fd : ℤ) : NonNeg (sockets.release fd) := by
  refine ⟨fun x hx => h.live x (Ledger.mem_live_release.mp hx).1, ?_⟩
  intro x hx
  obtain hx | ⟨rfl, hlive⟩ := Ledger.mem_released_release.mp hx
  · exact h.released x hx
  · exact h.live x hlive

lemma NonNeg.releases (h : NonNeg sockets) (fd : ℤ) (n : ℕ) : NonNeg (sockets.releases fd n) := by
  induction n with
  | zero => exact h
  | succ n ih => exact ih.release fd

end Table

/-- What is true of every state reached while the descriptors are owned. -/
structure Known (s : State) : Prop where
  nonneg : NonNeg s.sockets
  receiving : Receiving s.fdMap s.serverFd

section Operations

variable {s : State}

lemma handOut_of_nonneg {sock : ℤ} (h : 0 ≤ sock) (sockets : Sockets) :
    handOut sockets sock = sockets.handOut sock := if_neg (not_lt.mpr h)

/-- A new descriptor that is closed on the spot changes nothing. -/
lemma Owned.closed (o : Owned s) {sock : ℤ} (hsock : sock ∉ s.sockets.live) (hnonneg : 0 ≤ sock) :
    Ownership (fds s.fdMap) s.serverFd ((s.sockets.handOut sock).release sock) :=
  (o.dropped_iff hsock hnonneg (n := 1)).mpr rfl

/-- A descriptor that `server_fd` does not hold yet. -/
lemma Owned.new (o : Owned s) {sock : ℤ} (hsock : sock ∉ s.sockets.live) (hne : sock ≠ 0)
    (hnonneg : 0 ≤ sock) : sock ≠ s.serverFd :=
  Ne.symm (o.not_held hsock (lt_of_le_of_ne hnonneg hne.symm)).2

/-- A new descriptor that is registered is to be no zero and to find a slot. -/
lemma registerNew_spec (k : Known s) (o : Owned s) (r : Registration)
    (hsock : r.sock ∉ s.sockets.live) (hnonneg : 0 ≤ r.sock) :
    Known (({ s with sockets := s.sockets.handOut r.sock } : State).register r) ∧
      (Owned (({ s with sockets := s.sockets.handOut r.sock } : State).register r) ↔
        r.sock ≠ 0 ∧ Room s.fdMap) := by
  have hnew := k.nonneg.handOut r.sock
  rw [handOut_of_nonneg hnonneg] at hnew
  refine ⟨⟨hnew, k.receiving.register fun _ => ⟨hnonneg, fun hne => o.new hsock hne hnonneg⟩⟩, ?_⟩
  apply Iff.trans (o.register_iff (n := 0) hsock hnonneg)
  have hpos : 0 < r.sock ↔ r.sock ≠ 0 := by omega
  rw [← hpos]
  split_ifs with hroom
  · exact iff_of_true rfl hroom
  · exact iff_of_false (by norm_num) hroom

lemma tcpInit_spec (k : Known s) (o : Owned s) (pid : ℕ) {sock : ℤ} (sts : ℤ)
    (hsock : sock ∉ s.sockets.live) :
    Known (s.bociaTcpInit pid sock sts) ∧
      (Owned (s.bociaTcpInit pid sock sts) ↔ Keeps s (.tcpInit pid sock sts)) := by
  rw [State.bociaTcpInit, bociaTcpConnect, Keeps]
  by_cases hneg : sock < 0
  · rw [if_pos hneg]
    dsimp only
    rw [if_pos hneg]
    exact ⟨k, iff_of_true o fun h => absurd hneg (not_lt.mpr h)⟩
  · have hnonneg := not_lt.mp hneg
    have hnew := k.nonneg.handOut sock
    rw [if_neg hneg]
    rw [handOut_of_nonneg hnonneg] at hnew ⊢
    by_cases hsts : sts < 0
    · rw [if_pos hsts]
      dsimp only
      rw [if_pos hsts]
      refine ⟨⟨hnew.release sock, k.receiving⟩, iff_of_true (o.closed hsock hnonneg) ?_⟩
      exact fun _ h => absurd hsts (not_lt.mpr h)
    · rw [if_neg hsts]
      dsimp only
      rw [if_neg hneg]
      obtain ⟨hknown, hiff⟩ := registerNew_spec k o
        ⟨sock, pid, .bociaTcpReceive, some .bociaTcpSend⟩ hsock hnonneg
      exact ⟨hknown, hiff.trans ⟨fun h _ _ => h, fun h => h hnonneg (not_lt.mp hsts)⟩⟩

/-- The descriptor that `bocia_tcp_server` registers is the one in `server_fd`. -/
lemma registerServer_spec (k : Known s) (o : Owned s) (pid : ℕ) :
    Known (s.register ⟨s.serverFd, pid, .bociaTcpAccept, none⟩) ∧
      (Owned (s.register ⟨s.serverFd, pid, .bociaTcpAccept, none⟩) ↔
        (0 < s.serverFd → (∀ i, (s.fdMap i).fd ≠ s.serverFd) ∨ ¬Room s.fdMap)) := by
  refine ⟨⟨k.nonneg, k.receiving.register fun h => absurd rfl h⟩, ?_⟩
  rw [Owned, State.register]
  obtain ⟨i, hi, heq⟩ | ⟨hfull, heq⟩ :=
    register_cases s.fdMap ⟨s.serverFd, pid, .bociaTcpAccept, none⟩
  · rw [heq, fds_update]
    apply Iff.trans (o.registered_iff k.nonneg.live hi)
    refine forall_congr' fun _ => ?_
    exact (or_iff_left (not_not.mpr ⟨i, hi⟩)).symm
  · rw [heq]
    exact iff_of_true o fun _ => Or.inr hfull

/-- A new listening descriptor is registered, or held by `server_fd` alone. -/
lemma serve_spec (k : Known s) (o : Ownership (fds s.fdMap) 0 s.sockets) (pid : ℕ) {sock : ℤ}
    (hsock : sock ∉ s.sockets.live) (hnonneg : 0 ≤ sock) :
    Known (({ s with serverFd := sock, sockets := s.sockets.handOut sock } : State).register
        ⟨sock, pid, .bociaTcpAccept, none⟩) ∧
      (Owned (({ s with serverFd := sock, sockets := s.sockets.handOut sock } : State).register
        ⟨sock, pid, .bociaTcpAccept, none⟩) ↔ sock ≠ 0) := by
  have hnew := k.nonneg.handOut sock
  rw [handOut_of_nonneg hnonneg] at hnew
  by_cases hzero : sock = 0
  · have hreceiving : Receiving s.fdMap sock := fun i hi =>
      ⟨(k.receiving i hi).1, fun hne => by rwa [hzero]⟩
    refine ⟨⟨hnew, hreceiving.register fun h => absurd rfl h⟩, iff_of_false ?_ (not_not.mpr hzero)⟩
    have hiff := o.register_iff (r := ⟨sock, pid, .bociaTcpAccept, none⟩) (n := 0) hsock hnonneg
    have hnot : ¬(0 < sock ∧ Room s.fdMap) := fun h => h.1.ne' hzero
    intro howned
    rw [Owned, State.register] at howned
    dsimp only at howned
    rw [hzero] at howned hiff hnot
    have hn := hiff.mp howned
    rw [if_neg hnot] at hn
    exact absurd hn (by norm_num)
  · have hpos : 0 < sock := lt_of_le_of_ne hnonneg (Ne.symm hzero)
    obtain ⟨hslots, -⟩ := o.not_held hsock hpos
    have hreceiving : Receiving s.fdMap sock := fun i hi => ⟨(k.receiving i hi).1, fun _ => hslots i⟩
    obtain ⟨hknown, hiff⟩ := registerServer_spec
      (s := { s with serverFd := sock, sockets := s.sockets.handOut sock }) ⟨hnew, hreceiving⟩
      (o.serving hsock hpos) pid
    exact ⟨hknown, hiff.trans (iff_of_true (fun _ => Or.inl hslots) hzero)⟩

lemma tcpServer_spec (k : Known s) (o : Owned s) (pid : ℕ) {sock : ℤ} (bind listen : ℤ)
    (hsock : sock ∉ s.sockets.live) :
    Known (s.bociaTcpServer pid sock bind listen) ∧
      (Owned (s.bociaTcpServer pid sock bind listen) ↔
        Keeps s (.tcpServer pid sock bind listen)) := by
  rw [State.bociaTcpServer, Keeps]
  by_cases hserver : s.serverFd = 0
  · have hreceiving : Receiving s.fdMap 0 := hserver ▸ k.receiving
    have o₀ : Ownership (fds s.fdMap) 0 s.sockets := hserver ▸ o
    rw [if_pos hserver, if_pos hserver, bociaCreateTcpServer]
    by_cases hneg : sock < 0
    · rw [if_pos hneg]
      dsimp only
      rw [if_pos hneg]
      exact ⟨⟨k.nonneg, hreceiving.unserved hneg⟩,
        iff_of_true (o₀.unserved hneg.le) fun h => absurd h hneg.ne⟩
    · have hnonneg := not_lt.mp hneg
      have hnew := k.nonneg.handOut sock
      have hclosed : Ownership (fds s.fdMap) 0 ((s.sockets.handOut sock).release sock) :=
        (o₀.dropped_iff hsock hnonneg (n := 1)).mpr rfl
      rw [if_neg hneg]
      rw [handOut_of_nonneg hnonneg] at hnew ⊢
      by_cases hbind : bind < 0
      · rw [if_pos hbind]
        dsimp only
        rw [if_pos hbind]
        exact ⟨⟨hnew.release sock, hreceiving.unserved hbind⟩,
          iff_of_true (hclosed.unserved hbind.le) fun _ => Or.inl hbind⟩
      · rw [if_neg hbind]
        by_cases hlisten : listen < 0
        · rw [if_pos hlisten]
          dsimp only
          rw [if_pos hlisten]
          exact ⟨⟨hnew.release sock, hreceiving.unserved hlisten⟩,
            iff_of_true (hclosed.unserved hlisten.le) fun _ => Or.inr hlisten⟩
        · rw [if_neg hlisten]
          dsimp only
          rw [if_neg hneg]
          obtain ⟨hknown, hiff⟩ := serve_spec k o₀ pid hsock hnonneg
          refine ⟨hknown, hiff.trans ⟨fun hne hzero => absurd hzero hne, fun h hzero => ?_⟩⟩
          obtain hlt | hlt := h hzero
          · exact hbind hlt
          · exact hlisten hlt
  · rw [if_neg hserver, if_neg hserver]
    exact registerServer_spec k o pid

lemma modify_fds (s : State) (i : Slot) {g : BociaChannel → BociaChannel}
    (hfd : (g (s.fdMap i)).fd = (s.fdMap i).fd) : fds (s.modify i g).fdMap = fds s.fdMap := by
  rw [State.modify, fds_update, hfd]
  exact Function.update_eq_self i (fds s.fdMap)

/-- A request to close moves no descriptor. -/
lemma disconnect_spec (k : Known s) (o : Owned s) : Known s.disconnect ∧ Owned s.disconnect ∧
    s.disconnect.sockets = s.sockets ∧ (Room s.disconnect.fdMap ↔ Room s.fdMap) := by
  have hclose : ∀ i, Known (s.bociaCloseSoon i) ∧ Owned (s.bociaCloseSoon i) ∧
      (s.bociaCloseSoon i).sockets = s.sockets ∧
      (Room (s.bociaCloseSoon i).fdMap ↔ Room s.fdMap) := by
    intro i
    have hfds : fds (s.bociaCloseSoon i).fdMap = fds s.fdMap := modify_fds s i rfl
    refine ⟨⟨k.nonneg, k.receiving.update fun h => k.receiving i h⟩, ?_, rfl, ?_⟩
    · rw [Owned, hfds]
      exact o
    · exact exists_congr fun j => by rw [← fds, ← fds, hfds]
  rw [State.disconnect]
  cases s.mqttHandler with
  | none => exact ⟨k, o, rfl, Iff.rfl⟩
  | some i =>
    dsimp only
    split_ifs
    · exact hclose i
    · exact ⟨k, o, rfl, Iff.rfl⟩

lemma mqttInit_spec (k : Known s) (o : Owned s) (pid : ℕ) {sock : ℤ} (sts : ℤ)
    (answers : List Recv) (stale : UInt8) (hsock : sock ∉ s.sockets.live) :
    Known (s.bociaMqttInit pid sock sts answers stale) ∧
      (Owned (s.bociaMqttInit pid sock sts answers stale) ↔
        Keeps s (.mqttInit pid sock sts answers stale)) := by
  obtain ⟨k', o', hsockets, hroom⟩ := disconnect_spec k o
  rw [State.bociaMqttInit, Keeps]
  simp only [← hroom]
  rw [← hsockets] at hsock
  generalize s.disconnect = s' at *
  by_cases hneg : sock < 0
  · rw [mqttConnect, if_pos hneg]
    dsimp only
    rw [if_neg (by omega)]
    exact ⟨⟨k'.nonneg, k'.receiving⟩, iff_of_true o' fun h => absurd hneg (not_lt.mpr h)⟩
  · have hnonneg := not_lt.mp hneg
    have hnew := k'.nonneg.handOut sock
    rw [handOut_of_nonneg hnonneg] at hnew
    have hdropped : ∀ n, Owned ({ s' with
        sockets := (s'.sockets.handOut sock).releases sock n, mqttHandler := none } : State) ↔
          n = 1 := fun n => o'.dropped_iff hsock hnonneg
    rw [mqttConnect_eq s'.sockets answers stale hnonneg]
    by_cases hsts : sts < 0
    · rw [if_pos hsts]
      dsimp only
      rw [if_neg (lt_irrefl 0)]
      exact ⟨⟨hnew.releases sock 1, k'.receiving⟩,
        iff_of_true ((hdropped 1).mpr rfl) fun _ h => absurd hsts (not_lt.mpr h)⟩
    · rw [if_neg hsts]
      have hkeeps : ∀ p : Prop, (0 ≤ sock → 0 ≤ sts → p) ↔ p :=
        fun p => ⟨fun h => h hnonneg (not_lt.mp hsts), fun h _ _ => h⟩
      rw [hkeeps]
      by_cases hacc : Accepted answers stale
      · rw [if_pos hacc]
        dsimp only
        by_cases hpos : 0 < sock
        · rw [if_pos hpos]
          refine ⟨⟨hnew.releases sock _, k'.receiving.register fun _ =>
            ⟨hnonneg, fun hne => o'.new hsock hne hnonneg⟩⟩, ?_⟩
          have hiff := o'.register_iff (r := ⟨sock, pid, .mqttReceiverHandler,
            some .mqttTransmitterHandler⟩) (n := packetEnds answers) hsock hnonneg
          apply Iff.trans hiff
          by_cases hfree : Room s'.fdMap
          · simp [hpos, hfree]
          · simp [hacc, hfree]
        · rw [if_neg hpos, if_pos ⟨hacc, fun h => hpos h.1⟩]
          exact ⟨⟨hnew.releases sock _, k'.receiving⟩, hdropped _⟩
      · rw [if_neg hacc]
        dsimp only
        rw [if_neg (lt_irrefl 0)]
        refine ⟨⟨hnew.releases sock _, k'.receiving⟩, (hdropped _).trans ?_⟩
        rw [if_neg (fun h : _ ∧ _ => hacc h.1)]
        exact Nat.succ_inj

lemma tcpAccept_spec (k : Known s) (o : Owned s) (i : Slot) {sock : ℤ}
    (hsock : sock ∉ s.sockets.live) :
    Known (s.bociaTcpAccept i sock) ∧
      (Owned (s.bociaTcpAccept i sock) ↔ (0 ≤ sock → sock ≠ 0 ∧ Room s.fdMap)) := by
  rw [State.bociaTcpAccept]
  by_cases hneg : sock < 0
  · rw [handOut, if_pos hneg, if_neg (by omega)]
    exact ⟨k, iff_of_true o fun h => absurd hneg (not_lt.mpr h)⟩
  · have hnonneg := not_lt.mp hneg
    have hnew := k.nonneg.handOut sock
    rw [handOut_of_nonneg hnonneg] at hnew ⊢
    by_cases hpos : 0 < sock
    · rw [if_pos hpos]
      obtain ⟨hknown, hiff⟩ := registerNew_spec k o
        ⟨sock, (s.fdMap i).targetPid, .bociaTcpReceive, some .bociaTcpSend⟩ hsock hnonneg
      exact ⟨hknown, hiff.trans ⟨fun h _ => h, fun h => h hnonneg⟩⟩
    · rw [if_neg hpos]
      refine ⟨⟨hnew, k.receiving⟩, iff_of_false ?_ fun h => (h hnonneg).1 (by omega)⟩
      intro howned
      exact absurd ((o.dropped_iff hsock hnonneg (n := 0)).mp howned) (by norm_num)

lemma modify_fds_fd (s : State) (i : Slot) {g : BociaChannel → BociaChannel} {fd : ℤ}
    (hfd : (g (s.fdMap i)).fd = fd) :
    fds (s.modify i g).fdMap = Function.update (fds s.fdMap) i fd := by
  rw [State.modify, fds_update, hfd]

lemma tcpReceive_spec (k : Known s) (o : Owned s) {i : Slot} (answers : List Recv)
    (hhandler : (s.fdMap i).handler = some .bociaTcpReceive) (hfd : (s.fdMap i).fd ≠ 0) :
    Known (s.bociaTcpReceive i answers) ∧ Owned (s.bociaTcpReceive i answers) := by
  obtain ⟨hnonneg, hserver⟩ := k.receiving i (by rw [hhandler]; simp)
  rw [State.bociaTcpReceive]
  split_ifs
  · refine ⟨⟨k.nonneg.release _, k.receiving.update fun _ => ⟨le_rfl, fun h => absurd rfl h⟩⟩, ?_⟩
    rw [Owned, modify_fds_fd s i rfl]
    exact (o.cleared_iff (n := 1) (lt_of_le_of_ne hnonneg hfd.symm)).mpr
      (Or.inl ⟨rfl, hserver hfd⟩)
  · exact ⟨k, o⟩

lemma mqttReceive_spec (k : Known s) (o : Owned s) {i : Slot} (answers : List Recv)
    (hhandler : (s.fdMap i).handler = some .mqttReceiverHandler) (hfd : (s.fdMap i).fd ≠ 0) :
    Known (s.mqttReceiverHandler i answers) ∧
      (Owned (s.mqttReceiverHandler i answers) ↔
        packetEnds answers = if (wholePacket answers).isSome then 0 else 1) := by
  obtain ⟨hnonneg, hserver⟩ := k.receiving i (by rw [hhandler]; simp)
  have hpos : 0 < fds s.fdMap i := lt_of_le_of_ne hnonneg hfd.symm
  obtain ⟨hnext, hsockets⟩ := mqttReceive_eq (s.fdMap i).fd ⟨s.sockets, answers⟩
  rw [State.mqttReceiverHandler]
  generalize mqttReceive (s.fdMap i).fd ⟨s.sockets, answers⟩ = received at hnext hsockets
  obtain ⟨packet, fd, l⟩ := received
  dsimp only at hnext hsockets ⊢
  rw [hsockets]
  refine ⟨⟨k.nonneg.releases _ _, k.receiving.update fun h => ?_⟩, ?_⟩
  · dsimp only
    rw [hnext]
    split_ifs
    · exact ⟨hnonneg, hserver⟩
    · exact ⟨le_rfl, fun h => absurd rfl h⟩
  · rw [Owned, modify_fds_fd s i rfl, hnext]
    split_ifs
    · rw [← fds, Function.update_eq_self]
      exact o.kept_iff hpos
    · apply (o.cleared_iff hpos).trans
      constructor
      · rintro (⟨hn, -⟩ | ⟨-, heq⟩)
        · exact hn
        · exact absurd heq (hserver hfd)
      · exact fun hn => Or.inl ⟨hn, hserver hfd⟩

lemma handle_spec (k : Known s) (o : Owned s) {i : Slot} {sock : ℤ} (answers : List Recv)
    (hfd : (s.fdMap i).fd ≠ 0) (hsock : sock ∉ s.sockets.live) :
    Known (s.handle i sock answers) ∧
      (Owned (s.handle i sock answers) ↔ HandleKeeps s (s.fdMap i) sock answers) := by
  rw [State.handle, HandleKeeps]
  cases hhandler : (s.fdMap i).handler with
  | none => exact ⟨k, iff_of_true o trivial⟩
  | some handler =>
    cases handler with
    | bociaTcpAccept => exact tcpAccept_spec k o i hsock
    | bociaTcpReceive =>
      obtain ⟨hknown, howned⟩ := tcpReceive_spec k o answers hhandler hfd
      exact ⟨hknown, iff_of_true howned trivial⟩
    | mqttReceiverHandler => exact mqttReceive_spec k o answers hhandler hfd

lemma closePending_spec (k : Known s) (o : Owned s) {i : Slot}
    (hpending : (s.fdMap i).closePending = true) :
    Known (s.closePending i) ∧ (Owned (s.closePending i) ↔
      if (s.fdMap i).fd = 0 then 0 ∉ s.sockets.released
      else 0 < (s.fdMap i).fd → (s.fdMap i).fd ≠ s.serverFd) := by
  have hzero : (0 : ℤ) ∉ s.sockets.live := fun h => (o.held 0 h).1 rfl
  rw [State.closePending, if_pos hpending]
  refine ⟨⟨k.nonneg.release _, k.receiving.update fun _ => ⟨le_rfl, fun h => absurd rfl h⟩⟩, ?_⟩
  rw [Owned, modify_fds_fd s i rfl]
  dsimp only
  obtain hneg | hfd | hpos := lt_trichotomy (s.fdMap i).fd 0
  · have hlive : (s.fdMap i).fd ∉ s.sockets.live := fun h => absurd (k.nonneg.live _ h) (by omega)
    have hreleased : (s.fdMap i).fd ∉ s.sockets.released := fun h =>
      absurd (k.nonneg.released _ h) (by omega)
    rw [if_neg hneg.ne, Ledger.release, if_neg hlive, if_neg hreleased]
    exact iff_of_true (o.cleared k.nonneg.live hneg.le) fun h => absurd h (by omega)
  · rw [if_pos hfd, hfd, Ledger.release, if_neg hzero]
    have hsame := o.cleared k.nonneg.live (i := i) hfd.le
    by_cases hreleased : (0 : ℤ) ∈ s.sockets.released
    · rw [if_pos hreleased]
      exact iff_of_false (fun h => absurd h.once (by simp)) (not_not.mpr hreleased)
    · rw [if_neg hreleased]
      exact iff_of_true hsame hreleased
  · rw [if_neg hpos.ne']
    apply (o.cleared_iff (i := i) (n := 1) hpos).trans
    constructor
    · rintro (⟨-, hne⟩ | ⟨hn, -⟩) -
      · exact hne
      · exact absurd hn (by norm_num)
    · exact fun hne => Or.inl ⟨rfl, hne hpos⟩

lemma sweep_spec (k : Known s) (o : Owned s) (isSet : Bool) {sock : ℤ} (answers : List Recv)
    (hsock : sock ∉ s.sockets.live) : Known (s.sweep isSet sock answers) ∧
      (Owned (s.sweep isSet sock answers) ↔ Keeps s (.sweep isSet sock answers)) := by
  rw [State.sweep, Keeps]
  cases s.rest with
  | nil => exact ⟨k, iff_of_true o trivial⟩
  | cons i rest =>
    dsimp only
    by_cases hpending : (s.fdMap i).closePending
    · obtain ⟨hknown, howned⟩ := closePending_spec k o hpending
      have hcleared : ((s.closePending i).fdMap i).fd = 0 := by
        rw [State.closePending, if_pos hpending]
        dsimp only [State.modify]
        rw [Function.update_self]
      rw [if_pos hpending, if_neg (fun h => h.1 hcleared)]
      exact ⟨⟨hknown.nonneg, hknown.receiving⟩, howned⟩
    · have hsame : s.closePending i = s := by
        rw [State.closePending, if_neg hpending]
      rw [if_neg hpending, hsame]
      split_ifs with hset
      · obtain ⟨hknown, howned⟩ := handle_spec (s := { s with rest := rest })
          ⟨k.nonneg, k.receiving⟩ o answers hset.1 hsock
        exact ⟨hknown, howned.trans ⟨fun h _ _ => h, fun h => h hset.1 hset.2⟩⟩
      · exact ⟨⟨k.nonneg, k.receiving⟩, iff_of_true o fun hfd his => absurd ⟨hfd, his⟩ hset⟩

lemma select_spec (k : Known s) (o : Owned s) (rc : ℤ) :
    Known (s.select rc) ∧ Owned (s.select rc) := by
  rw [State.select]
  split_ifs
  · exact ⟨⟨k.nonneg, k.receiving⟩, o⟩
  · exact ⟨k, o⟩

/-- An operation keeps the descriptors owned exactly when it meets the condition. -/
lemma step_spec (k : Known s) (o : Owned s) (e : Event) :
    Known (step s e) ∧ (Owned (step s e) ↔ (e.sock ∉ s.sockets.live → Keeps s e)) := by
  rw [step]
  split_ifs with hsock
  · exact ⟨k, iff_of_true o fun h => absurd hsock h⟩
  · suffices h : Known (perform s e) ∧ (Owned (perform s e) ↔ Keeps s e) from
      ⟨h.1, h.2.trans (forall_prop_of_true (q := fun _ => Keeps s e) hsock).symm⟩
    cases e with
    | tcpInit pid sock sts => exact tcpInit_spec k o pid sts hsock
    | tcpServer pid sock bind listen => exact tcpServer_spec k o pid bind listen hsock
    | mqttInit pid sock sts answers stale => exact mqttInit_spec k o pid sts answers stale hsock
    | select rc =>
      obtain ⟨hknown, howned⟩ := select_spec k o rc
      exact ⟨hknown, iff_of_true howned trivial⟩
    | sweep isSet sock answers => exact sweep_spec k o isSet answers hsock

end Operations

lemma known_initial : Known .initial :=
  ⟨⟨fun _ h => absurd h (Finset.notMem_empty _), fun _ h => absurd h (Finset.notMem_empty _)⟩,
    fun _ _ => ⟨le_rfl, fun h => absurd rfl h⟩⟩

lemma owned_initial : Owned .initial :=
  ⟨fun _ h => absurd h (Finset.notMem_empty _), fun _ h => absurd h (lt_irrefl 0),
    fun h => absurd h (lt_irrefl 0), rfl⟩

/-- Every descriptor is owned in every state of a run exactly when every operation of the run
meets the condition. -/
theorem sockets_owned_iff (es : List Event) : Throughout step Owned .initial es ↔
    Meets step (fun s e => e.sock ∉ s.sockets.live → Keeps s e) .initial es :=
  throughout_iff_meets_while _ Known Owned (fun _ e k o => (step_spec k o e).1)
    (fun _ e k o => (step_spec k o e).2) known_initial owned_initial

instance (fds : Slot → ℤ) (serverFd fd : ℤ) : Decidable (Held fds serverFd fd) :=
  inferInstanceAs (Decidable (_ ∧ _ ∧ _))

/-- The broker accepts, and a read of the next packet fails: the slot is cleared, and the
socket stays open. -/
theorem failed_read_drops_socket : ¬∀ es, Throughout step Owned .initial es := by
  intro h
  have hrun := Throughout.last (h [.mqttInit 1 5 0 [.data [0x20], .data [2], .data [0, 0]] 0,
    .select 1, .sweep true (-1) [.error]])
  exact absurd (hrun.held 5 (by decide +kernel)) (by decide +kernel)

end Nais.Board.Connections
