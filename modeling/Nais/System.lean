import Nais.Board.Answers
import Nais.Host.Junction
import Nais.Protobuf.Messages

/-!
# Boards behind a junction

A junction whose stream lines have boards for clients. A board that gets in one piece what a line
wrote to it answers with one frame at most. Whatever line this frame comes back on, and whatever has
been routed meanwhile, an acknowledgement is written to the client whose message it answers, and to
nobody else. A configuration answers a command only, and is for every client of the line.
-/

namespace Nais.System
open Nais.Lib Nais.Lib.Memory Nais.Board Nais.Host

section Route

variable {ι : Type} {cfg : JunctionConfig ι}

/-- Wherever the reply to a message of `t` was routed, an acknowledgement has gone to the client of
`t` alone. -/
def GoesHome (cfg : JunctionConfig ι) (s : JunctionState ι) (t : Taken) (message reply : List UInt8) :
    Prop :=
  ∀ l, (cfg.line l).kind = .stream → ∀ r ∈ (s.lines l).taken, Frame r reply →
    (reply[1]? = some ACK_TYPE ∧ (∀ w ∈ r.writes, w.1 = t.packet.srcLine) ∧
      (t.packet.srcLine ∈ r.writers →
        r.writes = [(t.packet.srcLine, reply.set SLINE (UInt8.ofNat r.packet.srcLine))])) ∨
    (message[1]? = some COMMAND_TYPE ∧ reply[1]? = some CONFIG_TYPE ∧ r.packet.dstLine = 0)

/-- A frame that a stream line wrote to a client. -/
structure Written (s : JunctionState ι) (l : ι) (client : ℕ) (p : Taken × List UInt8) : Prop where
  taken : p.1 ∈ (s.lines l).taken
  frame : ∃ bs, Frame p.1 bs
  write : (client, p.2) ∈ p.1.writes

/-- A board that gets frames of its line one by one answers each with one frame at most, in this
order, and the answers go home. -/
def AnswersGoHome (cfg : JunctionConfig ι) (env : Env) (s : JunctionState ι) : Prop :=
  ∀ l client, (cfg.line l).kind = .stream → ∀ written, (∀ p ∈ written, Written s l client p) →
    ∀ debug buff, SendsEach (fun p => GoesHome cfg s p.1 p.2) written
      (tcpReceives env debug buff (written.map Prod.snd))

/-- The frame names the client whose message it is. -/
lemma Written.sline {s : JunctionState ι} (h : JunctionInv cfg s) {l : ι} {client : ℕ}
    (hkind : (cfg.line l).kind = .stream) {p : Taken × List UInt8} (hp : Written s l client p) :
    p.2[SLINE]? = some (UInt8.ofNat p.1.packet.srcLine) := by
  obtain ⟨t, message⟩ := p
  obtain ⟨ht, ⟨bs, hf⟩, hwrite⟩ := hp
  obtain ⟨hgood, -, hw⟩ := (h l).taken hkind t ht
  obtain ⟨hlen, -, hwrites⟩ := frame_writes hgood hw hf
  rw [hwrites, List.mem_map] at hwrite
  obtain ⟨line, -, hline⟩ := hwrite
  cases hline
  exact List.getElem?_set_self hlen

/-- A message with DLINE 0 is for every client. -/
lemma dstLine_of_dline {s : JunctionState ι} (h : JunctionInv cfg s) {l : ι}
    (hkind : (cfg.line l).kind = .stream) {r : Taken} (hr : r ∈ (s.lines l).taken) {bs : List UInt8}
    (hf : Frame r bs) (hdline : bs[Host.DLINE]? = some 0) : r.packet.dstLine = 0 := by
  obtain ⟨hgood, -, -⟩ := (h l).taken hkind r hr
  obtain ⟨b, hb, hd⟩ := hgood.dst bs hf.data hf.start
  rw [hdline, Option.some.injEq] at hb
  rw [hd, ← hb]
  rfl

lemma goesHome_of_answers {s : JunctionState ι} (h : JunctionInv cfg s) {l : ι} {client : ℕ}
    (hkind : (cfg.line l).kind = .stream) {p : Taken × List UInt8} (hp : Written s l client p)
    {reply : List UInt8} (hreply : Answers (p.2.getD 1 0) (p.2.getD 2 0) reply) :
    GoesHome cfg s p.1 p.2 reply := by
  intro l' hkind' r hr hf'
  obtain hack | ⟨htype, hconfig⟩ := hreply
  · obtain ⟨bs, hf⟩ := hp.frame
    have hdline : reply[Host.DLINE]? = some (UInt8.ofNat p.1.packet.srcLine) := by
      have hack' : reply[Host.DLINE]? = some (p.2.getD SLINE 0) := hack.dline
      rw [hack', List.getD_eq_getElem?_getD, hp.sline h hkind, Option.getD_some]
    exact .inl ⟨hack.type,
      (routesBack_of_inv h).reply l l' hkind hkind' p.1 hp.taken bs hf r hr reply hf' hdline⟩
  · refine .inr ⟨?_, hconfig.type, dstLine_of_dline h hkind' hr hf' hconfig.dline⟩
    rw [List.getD_eq_getElem?_getD] at htype
    cases hone : p.2[1]? with
    | none =>
      rw [hone] at htype
      exact absurd htype (by decide)
    | some type =>
      rw [hone] at htype
      exact congrArg some htype

lemma answersGoHome_of_inv (env : Env) {s : JunctionState ι} (h : JunctionInv cfg s) :
    AnswersGoHome cfg env s := by
  intro l client hkind written hwritten debug buff
  exact (sendsEach_tcpReceives env debug buff _).mono_map fun p hp reply hreply =>
    goesHome_of_answers h hkind (hwritten p hp) hreply

end Route

/-- In a run in which every line can stamp what is routed to it, the answers of the boards find
their way in every state. -/
theorem board_answers_go_home {ι : Type} [DecidableEq ι] (cfg : JunctionConfig ι) (env : Env)
    (es : List (JunctionEvent ι)) (h : Run.Meets (junctionStep cfg) (TakesStamp cfg) .init es) :
    Run.Throughout (junctionStep cfg) (AnswersGoHome cfg env) .init es := by
  have hinv := Run.throughout_of_meets (TakesStamp cfg) (JunctionInv cfg)
    (fun s e hs hok => junctionInv_step hs hok) junctionInv_init h
  exact hinv.mono fun s hs => answersGoHome_of_inv env hs

/-- A board with the library, and files that can be written. -/
def sampleBoard : Env :=
  ⟨Protobuf.protobufc fun _ => true, fun _ bs => some bs, fun _ => none, fun _ _ => 0⟩

/-- A profile that client 1 sends to the board, and the acknowledgement of the board, client 2. -/
def sampleProfileRun : List (JunctionEvent Bool) :=
  [.connect true, .connect false, .receive true 1 (frameBytes 1 0 0 0 [6] [10, 1, 97, 18, 1, 98]),
    .take false, .receive false 2 (frameBytes 3 0 1 0 [2] [8, 1]), .take true]

theorem sample_profile_goes_home :
    Run.Throughout (junctionStep sampleJunction) (AnswersGoHome sampleJunction sampleBoard) .init
      sampleProfileRun ∧
    framesSent (tcpReceives sampleBoard false (Buffer.fill 256 0)
        [frameBytes 1 1 0 0 [6] [10, 1, 97, 18, 1, 98]]) State.initial =
      [frameBytes 3 0 1 0 [2] [8, 1]] := by
  have hmeets : Run.Meets (junctionStep sampleJunction) (TakesStamp sampleJunction) .init
      sampleProfileRun := by
    refine ⟨trivial, trivial, ?_, trivial, ?_, trivial, trivial⟩ <;>
    · intro target _ _ packet hp
      exact renders_of_packetFor hp rfl rfl (by decide) (by decide)
  exact ⟨board_answers_go_home sampleJunction sampleBoard sampleProfileRun hmeets, by decide +kernel⟩

end Nais.System
