import Nais.Board.Bocia

/-!
# The TCP receiver

`bocia_tcp_receive` of `sys/bocia/bocia_tcp.c`. It takes what one call of `sl_Recv` returns
for a frame. The buffer is static, so bytes of earlier calls are still in it.
-/

namespace Nais.Board
open Nais.Lib Nais.Lib.Memory

/-- `sl_Recv` into the buffer, and the terminator behind what it returned. -/
def tcpFill (buff : Buffer 256) (received : List UInt8) : Except Fault (Buffer 256) := do
  let buff ← store buff 0 received
  store buff received.length [0]

/-- `calls` are the invocations of `bocia_input_handler`. -/
structure TcpReceiver where
  buff : Buffer 256
  calls : List (ProtoMsg × Message)

/-- Nothing received is a closed connection. -/
def bociaTcpReceive (pb : Protobufc) (s : TcpReceiver) (received : List UInt8) :
    Except Fault TcpReceiver := do
  if received = [] then .ok s
  else
    let buff ← tcpFill s.buff received
    let call ← handlerCall pb (buff.bytes.drop 1)
    .ok ⟨buff, s.calls ++ call.toList⟩

/-- Successive calls, one for each chunk of the stream. -/
def receives (pb : Protobufc) : TcpReceiver → List (List UInt8) → Except Fault TcpReceiver
  | s, [] => .ok s
  | s, chunk :: chunks => do
    let s ← bociaTcpReceive pb s chunk
    receives pb s chunks

/-- A frame that fits the receive buffer and whose payload unpacks. -/
structure TcpFrame (pb : Protobufc) where
  type : UInt8
  sline : UInt8
  dline : UInt8
  flags : UInt8
  payload : List UInt8
  obj : Message
  typed : type ≠ 0
  unpacks : pb.unpack (kindOf type) payload = some obj
  size : (frameMemory type sline dline flags payload [RECORD_END]).length < 256

variable {pb : Protobufc}

def TcpFrame.bytes (f : TcpFrame pb) : List UInt8 :=
  RECORD_START :: frameMemory f.type f.sline f.dline f.flags f.payload [RECORD_END]

/-- The invocation that a frame asks for. -/
def TcpFrame.call (f : TcpFrame pb) : ProtoMsg × Message := (⟨f.type, f.sline, f.flags⟩, f.obj)

/-- One invocation for each frame, in order. -/
def Delivers (s : TcpReceiver) (frames : List (TcpFrame pb)) (chunks : List (List UInt8)) : Prop :=
  ∃ s', receives pb s chunks = .ok s' ∧ s'.calls = s.calls ++ frames.map TcpFrame.call

/-- The chunk is one whole frame, with room for the terminator. -/
def WholeFrame (f : TcpFrame pb) (chunk : List UInt8) : Prop :=
  chunk = f.bytes ∧ chunk.length < 256

lemma tcpFill_ok_iff {buff buff' : Buffer 256} {received : List UInt8} :
    tcpFill buff received = .ok buff' ↔ received.length < 256 ∧
      buff'.bytes = received ++ 0 :: buff.bytes.drop (received.length + 1) := by
  have hadj := store_adjacent buff 0 received [0]
  rw [Nat.zero_add] at hadj
  rw [tcpFill, Bind.bind]
  change Except.bind _ _ = _ ↔ _
  rw [hadj, store_eq_ok_iff, Buffer.write_eq_some_iff]
  simp

/-- A whole frame in one chunk is one invocation, whatever the buffer held before. -/
lemma bociaTcpReceive_wholeFrame (s : TcpReceiver) {f : TcpFrame pb} {chunk : List UInt8}
    (h : WholeFrame f chunk) :
    ∃ buff', bociaTcpReceive pb s chunk = .ok ⟨buff', s.calls ++ [f.call]⟩ := by
  obtain ⟨rfl, hlen⟩ := h
  obtain ⟨buff', hfill⟩ : ∃ buff', tcpFill s.buff f.bytes = .ok buff' := by
    obtain ⟨buff', hw⟩ : ∃ buff', s.buff.write 0 (f.bytes ++ [0]) = some buff' :=
      s.buff.exists_write (by rw [List.length_append, List.length_singleton]; omega)
    refine ⟨buff', tcpFill_ok_iff.mpr ⟨hlen, ?_⟩⟩
    rw [Buffer.write_zero hw]
    simp
  obtain ⟨-, hbytes⟩ := tcpFill_ok_iff.mp hfill
  have hmem : buff'.bytes.drop 1 = frameMemory f.type f.sline f.dline f.flags f.payload
      (RECORD_END :: 0 :: s.buff.bytes.drop (f.bytes.length + 1)) := by
    rw [hbytes]
    simp [TcpFrame.bytes, frameMemory]
  have hsize : (buff'.bytes.drop 1).length < 2 ^ 16 := by
    rw [List.length_drop, buff'.size]
    omega
  have hcall : handlerCall pb (buff'.bytes.drop 1) = .ok (some f.call) := by
    rw [hmem] at hsize ⊢
    rw [handlerCall, naisUnmarshall_frameMemory _ _ _ _ _ _ pb f.typed (by simp) hsize, f.unpacks]
    rfl
  refine ⟨buff', ?_⟩
  rw [bociaTcpReceive, if_neg (by simp [TcpFrame.bytes]), hfill]
  simp only [Bind.bind, Except.bind, hcall, Option.toList_some]

/-- One call of the receiver makes at most one invocation. -/
lemma bociaTcpReceive_calls_length {s s' : TcpReceiver} {received : List UInt8}
    (h : bociaTcpReceive pb s received = .ok s') : s'.calls.length ≤ s.calls.length + 1 := by
  rw [bociaTcpReceive] at h
  split_ifs at h
  · cases h
    omega
  · cases hfill : tcpFill s.buff received with
    | error e => simp [hfill, Bind.bind, Except.bind] at h
    | ok buff =>
      cases hcall : handlerCall pb (buff.bytes.drop 1) with
      | error e => simp only [hfill, hcall, Bind.bind, Except.bind, reduceCtorEq] at h
      | ok call =>
        simp only [hfill, hcall, Bind.bind, Except.bind, Except.ok.injEq] at h
        cases call <;> simp [← h]

lemma receives_cons (s : TcpReceiver) (chunk : List UInt8) (chunks : List (List UInt8)) :
    receives pb s (chunk :: chunks) = (bociaTcpReceive pb s chunk).bind (receives pb · chunks) := rfl

lemma receives_calls_length {s s' : TcpReceiver} {chunks : List (List UInt8)}
    (h : receives pb s chunks = .ok s') : s'.calls.length ≤ s.calls.length + chunks.length := by
  induction chunks generalizing s with
  | nil =>
    cases h
    simp
  | cons chunk chunks ih =>
    rw [receives_cons] at h
    cases hc : bociaTcpReceive pb s chunk with
    | error e => simp [hc, Except.bind] at h
    | ok s₁ =>
      rw [hc] at h
      have hone := bociaTcpReceive_calls_length hc
      have hrest := ih h
      rw [List.length_cons]
      omega

lemma delivers_of_wholeFrames (s : TcpReceiver) {frames : List (TcpFrame pb)}
    {chunks : List (List UInt8)} (h : List.Forall₂ WholeFrame frames chunks) :
    Delivers s frames chunks := by
  induction h generalizing s with
  | nil => exact ⟨s, rfl, by simp⟩
  | @cons f chunk frames chunks hf hrest ih =>
    obtain ⟨buff', hone⟩ := bociaTcpReceive_wholeFrame s hf
    obtain ⟨s', hrun, hcalls⟩ := ih ⟨buff', s.calls ++ [f.call]⟩
    refine ⟨s', ?_, ?_⟩
    · rw [receives_cons, hone]
      exact hrun
    · rw [hcalls]
      simp

/-- Where each call of `sl_Recv` returns one whole frame that leaves room for the terminator,
the invocations after every call are those of the frames received so far. A run with fewer
calls than frames always loses a frame. -/
theorem tcp_delivers_whole_frames (s : TcpReceiver) (frames : List (TcpFrame pb))
    (chunks : List (List UInt8)) :
    (List.Forall₂ WholeFrame frames chunks → ∀ k, Delivers s (frames.take k) (chunks.take k)) ∧
      (chunks.length < frames.length → ¬Delivers s frames chunks) := by
  constructor
  · intro h k
    exact delivers_of_wholeFrames s (List.forall₂_take k h)
  · rintro hfew ⟨s', hrun, hcalls⟩
    have hle := receives_calls_length hrun
    rw [hcalls, List.length_append, List.length_map] at hle
    omega

/-- A `GET_CONFIG_CMD` from line 7. -/
def sampleTcpFrame : TcpFrame sampleProtobufc :=
  ⟨COMMAND_TYPE, 7, 0, 0, [0x08, 0x05], .command ⟨5, none, [], []⟩, by decide, by decide,
    by decide +kernel⟩

def sampleTcpReceiver : TcpReceiver := ⟨Buffer.fill 256 0, []⟩

theorem tcp_delivers_two_frames :
    Delivers sampleTcpReceiver [sampleTcpFrame, sampleTcpFrame]
      [sampleTcpFrame.bytes, sampleTcpFrame.bytes] :=
  (tcp_delivers_whole_frames sampleTcpReceiver [sampleTcpFrame, sampleTcpFrame]
    [sampleTcpFrame.bytes, sampleTcpFrame.bytes]).1
    (.cons ⟨rfl, by decide +kernel⟩ (.cons ⟨rfl, by decide +kernel⟩ .nil)) 2

/-- A frame that is cut after its fourth byte is not delivered. -/
theorem tcp_loses_split_frame :
    ¬∀ (frames : List (TcpFrame sampleProtobufc)) (chunks : List (List UInt8)),
      chunks.flatten = (frames.map TcpFrame.bytes).flatten →
      (∀ chunk ∈ chunks, chunk ≠ [] ∧ chunk.length ≤ 256) →
      Delivers sampleTcpReceiver frames chunks := by
  intro h
  obtain ⟨s', hrun, hcalls⟩ := h [sampleTcpFrame]
    [sampleTcpFrame.bytes.take 4, sampleTcpFrame.bytes.drop 4] (by decide +kernel)
    (by decide +kernel)
  have hnone : (receives sampleProtobufc sampleTcpReceiver
      [sampleTcpFrame.bytes.take 4, sampleTcpFrame.bytes.drop 4]).map TcpReceiver.calls = .ok [] := by
    decide +kernel
  rw [hrun, Except.map, hcalls] at hnone
  cases hnone

end Nais.Board
