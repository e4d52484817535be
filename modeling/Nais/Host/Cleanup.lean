import Nais.Host.Packet
import Nais.Host.Tape

/-!
# How a connection ends

`Line.line_handler` and `Line.reader_handler` of `pynais/junction.py` for one connection,
from its first read to the end of the handler. Only the end of the stream and a cancellation
lead to the lines that close the writer and take it off the list. On a websocket the call of
`close` makes a coroutine that nobody awaits.
-/

namespace Nais.Host
open Nais.Lib Nais.Lib.Cut

/-- What `reader.read(2048)` returns before the end of the stream. -/
abbrev Chunk := {c : List UInt8 // c ≠ []}

/-- A text is given by its UTF-8 bytes. -/
inductive WsFrame where
  | text (bs : List UInt8)
  | binary (bs : List UInt8)
  deriving DecidableEq

/-- A connection: its line, and what arrives on it. -/
inductive Served where
  | tcp (remoteIsServer expectJson : Bool) (chunks : List Chunk)
  | serial (chunks : List Chunk)
  | ws (remoteIsServer : Bool) (frames : List WsFrame)

/-- What a read meets behind all that arrives: the end of the stream, a cancellation of the
task, or any other exception of the transport. -/
inductive Ending where
  | closed
  | cancelled
  | raises
  deriving DecidableEq

/-- How `reader_handler` ends: at an empty message, at the end of the stream, or by an exception. -/
inductive Exit where
  | nullMessage
  | closed
  | cancelled
  | raised (e : PyErr)
  deriving DecidableEq

lemma msgReceive_rest_lt {stream msg rest : List UInt8} (h : msgReceive false 0 stream = .ok (msg, rest)) :
    rest.length < stream.length := by
  simp only [msgReceive, Bool.false_eq_true, if_false, readTape_eq_readUntil] at h
  cases hr : readUntil MessageTape.addChar PyErr.connectionClosed {} stream with
  | error e => simp [hr, Bind.bind, Except.bind] at h
  | ok p =>
    simp only [hr, Bind.bind, Except.bind, Except.ok.injEq, Prod.mk.injEq] at h
    rw [← h.2]
    exact readUntil_length_lt _ _ hr

/-- The messages that successive calls of `msg_receive` return. -/
def tapeMessages (stream : List UInt8) : List (List UInt8) :=
  match h : msgReceive false 0 stream with
  | .ok (msg, rest) =>
    have := msgReceive_rest_lt h
    msg :: tapeMessages rest
  | .error _ => []
termination_by stream.length

/-- `bytes(msg, 'utf-8')`. -/
def WsFrame.readMsg : WsFrame → Except PyErr PyValue
  | .text bs => .ok (.bytes bs)
  | .binary _ => .error .typeError

/-- The results of `read_msg`. -/
def Served.reads : Served → List (Except PyErr PyValue)
  | .tcp _ true chunks => chunks.map fun c => .ok (.bytes c.1)
  | .tcp _ false chunks => (tapeMessages (chunks.map Subtype.val).flatten).map fun m => .ok (.bytearray m)
  | .serial chunks => (tapeMessages (chunks.map Subtype.val).flatten).map fun m => .ok (.bytearray m)
  | .ws _ frames => frames.map WsFrame.readMsg

def Served.remoteIsServer : Served → Bool
  | .tcp remoteIsServer _ _ => remoteIsServer
  | .serial _ => false
  | .ws remoteIsServer _ => remoteIsServer

/-- `not message`. -/
def PyValue.isNull : PyValue → Bool
  | .bytearray bs => bs.isEmpty
  | .bytes bs => bs.isEmpty
  | .pyNone => true

/-- The part of `deliver_to_peers` that can raise: neither the queues of the peers nor the
packets, which look at the same byte, do. -/
def readDline (message : PyValue) : Except PyErr UInt8 :=
  if isProtobuf message then getByte message DLINE else .ok 0

def readerHandler : List (Except PyErr PyValue) → Ending → Exit
  | [], .closed => .closed
  | [], .cancelled => .cancelled
  | [], .raises => .raised .raised
  | .error e :: _, _ => .raised e
  | .ok message :: reads, ending =>
    if message.isNull then .nullMessage
    else match readDline message with
      | .error e => .raised e
      | .ok _ => readerHandler reads ending

/-- What other connections of the line do to the list of writers meanwhile. -/
inductive OtherStep where
  | joins (writer : Nat)
  | leaves (writer : Nat)
  deriving DecidableEq

def OtherStep.writer : OtherStep → Nat
  | .joins writer => writer
  | .leaves writer => writer

def OtherStep.apply (writers : List Nat) : OtherStep → List Nat
  | .joins writer => writers ++ [writer]
  | .leaves writer => writers.erase writer

/-- What a handler leaves behind. -/
structure Handled where
  writers : List Nat
  closed : Bool
  reopens : Bool
  deriving DecidableEq

/-- The library closes a websocket when its peer did, and, on a server line, when the
handler has ended. -/
def Served.closes (s : Served) (exit : Exit) : Bool :=
  match s with
  | .ws remoteIsServer _ => exit = .closed || !remoteIsServer
  | _ => true

/-- `line_handler` of a connection whose writer is `client`. -/
def lineHandler (s : Served) (ending : Ending) (before : List Nat) (client : Nat)
    (others : List OtherStep) : Handled :=
  let writers := others.foldl OtherStep.apply (before ++ [client])
  match readerHandler s.reads ending with
  | .raised e => ⟨writers, match s with | .ws _ _ => s.closes (.raised e) | _ => false, false⟩
  | .cancelled => ⟨writers.erase client, s.closes .cancelled, false⟩
  | exit => ⟨writers.erase client, s.closes exit, s.remoteIsServer⟩

def Handled.CleanedUp (h : Handled) (client : Nat) : Prop := h.closed = true ∧ client ∉ h.writers

/-- A message that starts like a frame and ends before its DLINE byte. -/
def ShortFrame (bs : List UInt8) : Prop := bs.head? = some SYNC_START ∧ bs.length ≤ DLINE

def WsFrame.Readable : WsFrame → Prop
  | .text bs => ¬ShortFrame bs
  | .binary _ => False

/-- The transport raises nothing, a line that reads raw chunks gets no short frame, and up to
the first empty text a websocket gets texts that are no short frames. The websocket of a
client line has to be closed by its peer. -/
def Harmless : Served → Ending → Prop
  | .tcp _ true chunks, ending => (∀ c ∈ chunks, ¬ShortFrame c.1) ∧ ending ≠ .raises
  | .tcp _ false _, ending => ending ≠ .raises
  | .serial _, ending => ending ≠ .raises
  | .ws remoteIsServer frames, ending =>
    (∀ f ∈ frames.takeWhile (· ≠ .text []), f.Readable) ∧
      if .text [] ∈ frames then remoteIsServer = false
      else ending ≠ .raises ∧ (remoteIsServer = true → ending = .closed)

section Tape

/-- A tape that has seen no start byte, or is inside a frame of at least six more bytes. -/
structure TapeInv (t : MessageTape) : Prop where
  clean : t.sts = .aStream → SYNC_START ∉ t.msg
  inside : t.sts = .bStream → t.cursor < t.msg.length
  expectedLen : 6 ≤ t.expectedLen
  hlen : 6 ≤ t.hlen

lemma tapeInv_initial : TapeInv {} :=
  ⟨fun _ => List.not_mem_nil, nofun, by decide, by decide⟩

lemma advance_facts {t : MessageTape} (h : TapeInv t) (c : UInt8) :
    (t.advance c).sts = t.sts ∧ (t.advance c).cursor ≤ t.cursor + 1 ∧
      6 ≤ (t.advance c).expectedLen ∧ 6 ≤ (t.advance c).hlen := by
  have hexp := h.expectedLen
  have hhlen := h.hlen
  unfold MessageTape.advance
  dsimp only
  split_ifs
  · exact ⟨rfl, le_rfl, hexp, hhlen.trans (Nat.le_succ _)⟩
  · refine ⟨rfl, le_rfl, ?_, hhlen⟩
    dsimp only
    omega
  · exact ⟨rfl, le_rfl, hexp, hhlen⟩
  · exact ⟨rfl, Nat.le_succ _, hexp, hhlen⟩

lemma addChar_tapeInv {t t' : MessageTape} (h : TapeInv t) {c : UInt8}
    (hstep : t.addChar c = (t', true)) : TapeInv t' := by
  obtain ⟨hsts, hcursor, hexp, hhlen⟩ := advance_facts h c
  have hmsg := advance_msg t c
  unfold MessageTape.addChar MessageTape.endRecord at hstep
  dsimp only at hstep
  rw [hmsg] at hstep
  split_ifs at hstep with hstart hend hsync hline
  · cases hstep
    exact ⟨nofun, fun _ => by simp, hexp, hhlen⟩
  · cases hstep
  · cases hstep
    refine ⟨fun hs => ?_, fun hs => ?_, hexp, hhlen⟩
    · rw [hend.1] at hs
      cases hs
    · have hin := h.inside (hsts ▸ hs)
      simp only [List.length_append, List.length_singleton]
      omega
  · cases hstep
  · cases hstep
    refine ⟨fun hs => ?_, fun hs => ?_, hexp, hhlen⟩
    · rw [List.mem_append, not_or, List.mem_singleton]
      exact ⟨h.clean (hsts ▸ hs), fun heq => hstart heq.symm⟩
    · have hin := h.inside (hsts ▸ hs)
      simp only [List.length_append, List.length_singleton]
      omega

/-- A record that ends is no short frame. -/
lemma addChar_ends {t t' : MessageTape} (h : TapeInv t) {c : UInt8}
    (hstep : t.addChar c = (t', false)) : t'.msg ≠ [] ∧ ¬ShortFrame t'.msg := by
  obtain ⟨hsts, hcursor, hexp, hhlen⟩ := advance_facts h c
  have hmsg := addChar_msg t c
  rw [hstep] at hmsg
  rw [hmsg]
  refine ⟨by simp, ?_⟩
  rintro ⟨hhead, hshort⟩
  rw [List.length_append, List.length_singleton, DLINE] at hshort
  unfold MessageTape.addChar MessageTape.endRecord at hstep
  dsimp only at hstep
  split_ifs at hstep with hstart hend hsync hline
  · cases hstep
  · have hin := h.inside (hsts ▸ hend.1)
    have hfull := hend.2
    omega
  · cases hstep
  · have hclean := h.clean (hsts ▸ hline.1)
    cases hm : t.msg with
    | nil =>
      rw [hm] at hhead
      simp only [List.nil_append, List.head?_cons, Option.some.injEq] at hhead
      exact hstart hhead
    | cons b rest =>
      rw [hm] at hhead hclean
      simp only [List.cons_append, List.head?_cons, Option.some.injEq] at hhead
      exact hclean (by rw [hhead]; exact List.mem_cons_self)
  · cases hstep

lemma readTape_ends {t t' : MessageTape} {stream rest : List UInt8} (h : TapeInv t)
    (hread : readTape t stream = .ok (t', rest)) : t'.msg ≠ [] ∧ ¬ShortFrame t'.msg := by
  induction stream generalizing t with
  | nil => cases hread
  | cons c stream ih =>
    rw [readTape] at hread
    cases hstep : t.addChar c with
    | mk u more =>
      rw [hstep] at hread
      cases more with
      | true => exact ih (addChar_tapeInv h hstep) hread
      | false =>
        cases hread
        exact addChar_ends h hstep

lemma tapeMessages_sound (stream : List UInt8) :
    ∀ msg ∈ tapeMessages stream, msg ≠ [] ∧ ¬ShortFrame msg := by
  induction stream using tapeMessages.induct with
  | case1 stream msg rest hread hlt ih =>
    rw [tapeMessages]
    split
    · next msg' rest' hread' =>
      rw [hread] at hread'
      cases hread'
      rw [List.forall_mem_cons]
      refine ⟨?_, ih⟩
      simp only [msgReceive, Bool.false_eq_true, if_false] at hread
      cases hr : readTape {} stream with
      | error e => simp [hr, Bind.bind, Except.bind] at hread
      | ok p =>
        simp only [hr, Bind.bind, Except.bind, Except.ok.injEq, Prod.mk.injEq] at hread
        rw [← hread.1]
        exact readTape_ends tapeInv_initial hr
    · intro msg' hmem
      cases hmem
  | case2 stream e hread =>
    rw [tapeMessages]
    split
    · next msg rest hread' =>
      rw [hread] at hread'
      cases hread'
    · intro msg' hmem
      cases hmem

end Tape

section Reader

variable {m : PyValue} {bs : List UInt8} (reads : List (Except PyErr PyValue)) (ending : Ending)

def Exit.Raises (exit : Exit) : Prop := ∃ e, exit = .raised e

lemma isNull_iff (h : m.bytes? = some bs) : m.isNull = true ↔ bs = [] := by
  cases m with
  | pyNone => cases h
  | _ =>
    cases h
    exact List.isEmpty_iff

lemma readDline_error_iff (h : m.bytes? = some bs) : (∃ e, readDline m = .error e) ↔ ShortFrame bs := by
  unfold readDline ShortFrame
  cases m with
  | pyNone => cases h
  | _ =>
    cases h
    by_cases hf : bs.head? = some SYNC_START
    · cases hb : bs[DLINE]? with
      | none => simp [isProtobuf, hf, getByte, List.getElem?_eq_none_iff.mp hb]
      | some b =>
        obtain ⟨hlt, -⟩ := List.getElem?_eq_some_iff.mp hb
        simp [isProtobuf, hf, getByte, hlt]
    · simp [isProtobuf, hf]

lemma readerHandler_short (h : m.bytes? = some bs) (hshort : ShortFrame bs) :
    (readerHandler (.ok m :: reads) ending).Raises := by
  have hne : bs ≠ [] := by
    rintro rfl
    cases hshort.1
  obtain ⟨e, he⟩ := (readDline_error_iff h).mpr hshort
  rw [readerHandler, if_neg (fun hnull => hne ((isNull_iff h).mp hnull)), he]
  exact ⟨e, rfl⟩

lemma readerHandler_goes_on (h : m.bytes? = some bs) (hne : bs ≠ []) (hshort : ¬ShortFrame bs) :
    readerHandler (.ok m :: reads) ending = readerHandler reads ending := by
  rw [readerHandler, if_neg (fun hnull => hne ((isNull_iff h).mp hnull))]
  cases hd : readDline m with
  | error e => exact absurd ((readDline_error_iff h).mp ⟨e, hd⟩) hshort
  | ok b => rfl

lemma ending_raises_iff : (readerHandler [] ending).Raises ↔ ending = .raises := by
  cases ending <;> simp [readerHandler, Exit.Raises]

/-- What the tape returns never makes the reader raise. -/
lemma readerHandler_tape (stream : List UInt8) :
    readerHandler ((tapeMessages stream).map fun m => .ok (.bytearray m)) ending =
      readerHandler [] ending := by
  have hsound := tapeMessages_sound stream
  generalize tapeMessages stream = msgs at hsound
  induction msgs with
  | nil => rfl
  | cons msg msgs ih =>
    rw [List.forall_mem_cons] at hsound
    rw [List.map_cons, readerHandler_goes_on _ _ rfl hsound.1.1 hsound.1.2]
    exact ih hsound.2

lemma readerHandler_chunks_raises_iff (chunks : List Chunk) :
    (readerHandler (chunks.map fun c => .ok (.bytes c.1)) ending).Raises ↔
      (∃ c ∈ chunks, ShortFrame c.1) ∨ ending = .raises := by
  induction chunks with
  | nil => simp [ending_raises_iff]
  | cons c chunks ih =>
    rw [List.map_cons, List.exists_mem_cons_iff]
    by_cases hshort : ShortFrame c.1
    · exact iff_of_true (readerHandler_short _ _ rfl hshort) (Or.inl (Or.inl hshort))
    · rw [readerHandler_goes_on _ _ rfl c.2 hshort, ih]
      simp [hshort]

/-- The reader of a websocket ends in order, and the socket is closed. -/
lemma readerHandler_frames_iff (remoteIsServer : Bool) (frames : List WsFrame) :
    (¬(readerHandler (frames.map WsFrame.readMsg) ending).Raises ∧
      (readerHandler (frames.map WsFrame.readMsg) ending = .closed ∨ remoteIsServer = false)) ↔
      Harmless (.ws remoteIsServer frames) ending := by
  induction frames with
  | nil =>
    rw [List.map_nil, ending_raises_iff]
    cases ending <;> cases remoteIsServer <;> simp [readerHandler, Harmless]
  | cons f frames ih =>
    cases f with
    | binary bs =>
      refine iff_of_false (fun h => h.1 ⟨.typeError, rfl⟩) (fun h => ?_)
      have hread := h.1 (.binary bs)
      simp [WsFrame.Readable] at hread
    | text bs =>
      rw [List.map_cons]
      by_cases hnull : bs = []
      · subst hnull
        simp [WsFrame.readMsg, readerHandler, PyValue.isNull, Harmless, Exit.Raises]
      · by_cases hshort : ShortFrame bs
        · refine iff_of_false (fun h => h.1 (readerHandler_short _ _ rfl hshort)) (fun h => ?_)
          have hread := h.1 (.text bs)
          simp [hnull, WsFrame.Readable, hshort] at hread
        · rw [WsFrame.readMsg, readerHandler_goes_on _ _ rfl hnull hshort, ih]
          simp [Harmless, hnull, WsFrame.Readable, hshort, eq_comm]

end Reader

section Handler

variable {before : List Nat} {client : Nat} {others : List OtherStep}

/-- Other connections leave the number of entries of a writer alone. -/
lemma count_others (hothers : ∀ o ∈ others, o.writer ≠ client) (writers : List Nat) :
    (others.foldl OtherStep.apply writers).count client = writers.count client := by
  induction others generalizing writers with
  | nil => rfl
  | cons o others ih =>
    rw [List.forall_mem_cons] at hothers
    rw [List.foldl_cons, ih hothers.2]
    cases o with
    | joins w =>
      have hne : w ≠ client := hothers.1
      simp [OtherStep.apply, hne]
    | leaves w => exact List.count_erase_of_ne (Ne.symm hothers.1)

/-- A handler cleans up unless its reader raises, or its websocket stays open. -/
lemma lineHandler_cleanedUp_iff (s : Served) (ending : Ending) (hfresh : client ∉ before)
    (hothers : ∀ o ∈ others, o.writer ≠ client) :
    (lineHandler s ending before client others).CleanedUp client ↔
      ¬(readerHandler s.reads ending).Raises ∧ s.closes (readerHandler s.reads ending) = true := by
  have hcount : (others.foldl OtherStep.apply (before ++ [client])).count client = 1 := by
    rw [count_others hothers, List.count_append, List.count_eq_zero.mpr hfresh]
    simp
  have hmem : client ∈ others.foldl OtherStep.apply (before ++ [client]) := by
    rw [← List.count_pos_iff, hcount]
    exact Nat.one_pos
  have hgone : client ∉ (others.foldl OtherStep.apply (before ++ [client])).erase client := by
    rw [← List.count_eq_zero, List.count_erase_self, hcount]
  unfold lineHandler Handled.CleanedUp
  cases hexit : readerHandler s.reads ending with
  | raised e => simp [Exit.Raises, hmem]
  | _ => simp [Exit.Raises, hgone]

/-- Whatever arrives on a connection and whatever the others of its line do meanwhile, its
handler closes the writer and takes it off the list exactly when what arrives is harmless. -/
theorem line_handler_cleans_up_iff (s : Served) (ending : Ending) (hfresh : client ∉ before)
    (hothers : ∀ o ∈ others, o.writer ≠ client) :
    (lineHandler s ending before client others).CleanedUp client ↔ Harmless s ending := by
  rw [lineHandler_cleanedUp_iff s ending hfresh hothers]
  cases s with
  | tcp remoteIsServer expectJson chunks =>
    cases expectJson with
    | true =>
      rw [Served.reads, readerHandler_chunks_raises_iff]
      simp [Served.closes, Harmless]
    | false =>
      rw [Served.reads, readerHandler_tape, ending_raises_iff]
      simp [Served.closes, Harmless]
  | serial chunks =>
    rw [Served.reads, readerHandler_tape, ending_raises_iff]
    simp [Served.closes, Harmless]
  | ws remoteIsServer frames =>
    rw [← readerHandler_frames_iff, Served.closes, Bool.or_eq_true, decide_eq_true_iff,
      Bool.not_eq_true']
    rfl

/-- A client that leaves without further ado. -/
theorem line_handler_cleans_up_at_end :
    (lineHandler (.tcp false false [⟨[0x61, 0x0A], by decide⟩]) .closed [1] 2 [.leaves 1]).CleanedUp 2 :=
  (line_handler_cleans_up_iff (.tcp false false [⟨[0x61, 0x0A], by decide⟩]) .closed (by decide)
    (by decide)).mpr (by rw [Harmless]; decide)

/-- One binary frame, and the writer stays on the list. -/
theorem line_handler_keeps_ws_writer :
    ¬∀ (s : Served) (ending : Ending) (before : List Nat) (client : Nat) (others : List OtherStep),
      client ∉ before → (∀ o ∈ others, o.writer ≠ client) →
      (lineHandler s ending before client others).CleanedUp client := by
  intro h
  have hclean := h (.ws false [.binary [1]]) .closed [] 1 [] (by decide) (by decide)
  exact hclean.2 List.mem_cons_self

end Handler

end Nais.Host
