import Nais.Host.Line

/-!
# The heirs of the messages of a line

A broadcast that is queued while a line has no client is for the client that connects next.
That client, while it is connected, is the first of the writers.
-/

namespace Nais.Host
open Nais.Lib

section Heirs

variable {cfg : LineConfig}

/-- Line ids are given out once. A pending message means an idle line, and the heir of a
message, while connected, is the first of the writers. -/
structure HeirInv (s : HostedLine) : Prop where
  nodup : s.line.writers.Nodup
  bounded : ∀ client ∈ s.line.writers, client ≤ s.sid
  pending : ∀ q ∈ s.line.queue, q.heir = .pending → s.line.writers = []
  first : ∀ q ∈ s.line.queue, ∀ client, q.heir = .next client → client ≤ s.sid ∧
    (client ∈ s.line.writers → s.line.writers.head? = some client)

lemma heirInv_connect {s : HostedLine} (h : HeirInv s) : HeirInv (lineStep cfg s .connect) := by
  have hfresh : s.sid + 1 ∉ s.line.writers := fun hmem => absurd (h.bounded _ hmem) (by omega)
  refine ⟨nodup_connect h.nodup hfresh, ?_, ?_, ?_⟩
  · intro client hmem
    simp only [lineStep, LineState.connect, List.mem_append, List.mem_singleton] at hmem ⊢
    obtain hmem | rfl := hmem
    · exact (h.bounded client hmem).trans (Nat.le_succ _)
    · exact le_rfl
  · intro q hq hp
    simp only [lineStep, LineState.connect, List.mem_map] at hq
    obtain ⟨q', -, rfl⟩ := hq
    cases hheir : q'.heir <;> simp [hheir, Heir.settle] at hp
  · intro q hq client hnext
    simp only [lineStep, LineState.connect, List.mem_map, List.mem_append,
      List.mem_singleton] at hq ⊢
    obtain ⟨q', hq', rfl⟩ := hq
    obtain ⟨hheir, rfl⟩ | hheir := Heir.settle_eq_next.mp hnext
    · rw [h.pending q' hq' hheir]
      exact ⟨le_rfl, fun _ => rfl⟩
    · obtain ⟨hle, hfirst⟩ := h.first q' hq' client hheir
      refine ⟨hle.trans (Nat.le_succ _), ?_⟩
      rintro (hmem | rfl)
      · rw [List.head?_append, hfirst hmem]
        rfl
      · omega

lemma heirInv_disconnect {s : HostedLine} (h : HeirInv s) (client : Nat) :
    HeirInv (lineStep cfg s (.disconnect client)) := by
  refine ⟨h.nodup.erase client, fun c hc => h.bounded c (List.mem_of_mem_erase hc), ?_, ?_⟩
  · intro q hq hp
    simp only [lineStep, LineState.disconnect]
    rw [h.pending q hq hp]
    rfl
  · intro q hq c hnext
    obtain ⟨hle, hfirst⟩ := h.first q hq c hnext
    refine ⟨hle, fun hmem => ?_⟩
    simp only [lineStep, LineState.disconnect] at hmem ⊢
    have hne : c ≠ client := fun heq => h.nodup.not_mem_erase (heq ▸ hmem)
    have hhead := hfirst (List.mem_of_mem_erase hmem)
    cases hw : s.line.writers with
    | nil =>
      rw [hw] at hhead
      cases hhead
    | cons d rest =>
      rw [hw, List.head?_cons, Option.some.injEq] at hhead
      rw [hhead, List.erase_cons_tail (by simpa using hne)]
      rfl

lemma heirInv_put {s : HostedLine} (h : HeirInv s) (packet : Packet) :
    HeirInv (lineStep cfg s (.put packet)) := by
  refine ⟨h.nodup, h.bounded, ?_, ?_⟩
  · intro q hq hp
    simp only [lineStep, LineState.put, List.mem_append, List.mem_singleton] at hq ⊢
    obtain hq | rfl := hq
    · exact h.pending q hq hp
    · by_contra hne
      simp [hne] at hp
  · intro q hq c hnext
    simp only [lineStep, LineState.put, List.mem_append, List.mem_singleton] at hq ⊢
    obtain hq | rfl := hq
    · exact h.first q hq c hnext
    · dsimp only at hnext
      split_ifs at hnext

/-- Steps that leave the writers alone and add nothing to the queue. -/
lemma heirInv_of_suffix {s s' : HostedLine} (h : HeirInv s) (hsid : s.sid ≤ s'.sid)
    (hwriters : s'.line.writers = s.line.writers) (hqueue : ∀ q ∈ s'.line.queue, q ∈ s.line.queue) :
    HeirInv s' := by
  refine ⟨?_, ?_, ?_, ?_⟩
  · rw [hwriters]
    exact h.nodup
  · rw [hwriters]
    exact fun c hc => (h.bounded c hc).trans hsid
  · rw [hwriters]
    exact fun q hq => h.pending q (hqueue q hq)
  · rw [hwriters]
    intro q hq c hnext
    obtain ⟨hle, hfirst⟩ := h.first q (hqueue q hq) c hnext
    exact ⟨hle.trans hsid, hfirst⟩

lemma take_queue_subset (s : LineState) : ∀ q ∈ (s.take cfg).queue, q ∈ s.queue := by
  intro q hq
  by_cases hw : s.waiting = 0 ∨ s.queue = []
  · rwa [take_blocked cfg s hw] at hq
  · rw [not_or] at hw
    cases hqueue : s.queue with
    | nil => exact absurd hqueue hw.2
    | cons q' queue =>
      rw [(take_cons cfg s hqueue (by omega)).1] at hq
      exact List.mem_cons_of_mem _ hq

lemma heirInv_step {s : HostedLine} (h : HeirInv s) (e : LineEvent) : HeirInv (lineStep cfg s e) := by
  cases e with
  | alloc => exact heirInv_of_suffix h (Nat.le_succ _) rfl fun q hq => hq
  | connect => exact heirInv_connect h
  | disconnect client => exact heirInv_disconnect h client
  | put packet => exact heirInv_put h packet
  | take => exact heirInv_of_suffix h le_rfl (take_writers cfg s.line) (take_queue_subset s.line)
  | resume i =>
    obtain ⟨hwriters, hqueue, -⟩ := resume_eq s.line i
    refine heirInv_of_suffix h le_rfl hwriters fun q hq => ?_
    rwa [← hqueue]
  | sendFailed i => exact heirInv_of_suffix h le_rfl rfl fun q hq => hq

lemma heirInv_init : HeirInv .init :=
  ⟨List.nodup_nil, by simp [HostedLine.init, LineState.init],
    by simp [HostedLine.init, LineState.init], by simp [HostedLine.init, LineState.init]⟩

end Heirs

end Nais.Host
