import Nais.Board.Reply
import Nais.Board.Tcp

/-!
# What a TCP board answers

Whatever the bytes are that a board takes for a message, over TCP it answers with one frame at
most. An acknowledgement goes to the line that the bytes name, a configuration to the line 0.
-/

namespace Nais.Board
open Nais.Lib Nais.Lib.Memory

variable {α β γ : Type} {P : List UInt8 → Prop}

/-- Nothing is handed to the channel. -/
def Silent (x : BoardM α) : Prop := ∀ b, (x.run b).2.sent = b.sent

/-- One frame at most is handed to the channel, and it has the property. -/
def Sends (P : List UInt8 → Prop) (x : BoardM α) : Prop :=
  ∀ b, ∃ frames, (x.run b).2.sent = b.sent ++ frames ∧ frames.length ≤ 1 ∧ ∀ frame ∈ frames, P frame

lemma silent_pure (a : α) : Silent (pure a : BoardM α) := fun _ => rfl

lemma silent_board : Silent board := fun _ => rfl

lemma silent_fallible (r : Except Fault α) : Silent (fallible r) := fun _ => rfl

lemma silent_request (r : Request) : Silent (request r) := fun _ => rfl

lemma silent_update {f : State → State} (hf : ∀ b, (f b).sent = b.sent) : Silent (update f) := hf

lemma Silent.bind {x : BoardM α} {f : α → BoardM β} (hx : Silent x) (hf : ∀ a, Silent (f a)) :
    Silent (x >>= f) := by
  intro b
  have hb := hx b
  rw [bind_run]
  rcases h : x.run b with ⟨e | a, b'⟩
  · rw [h] at hb
    exact hb
  · rw [h] at hb
    exact (hf _ b').trans hb

lemma Silent.sends {x : BoardM α} (hx : Silent x) : Sends P x := fun b =>
  ⟨[], by rw [hx b, List.append_nil], by simp, by simp⟩

lemma Sends.mono {Q : List UInt8 → Prop} {x : BoardM α} (hx : Sends P x) (h : ∀ frame, P frame → Q frame) :
    Sends Q x := by
  intro b
  obtain ⟨frames, hsent, hone, hall⟩ := hx b
  exact ⟨frames, hsent, hone, fun frame hframe => h frame (hall frame hframe)⟩

/-- A computation that sends nothing, in front of another one. -/
lemma Silent.bind_sends {x : BoardM α} {f : α → BoardM β} (hx : Silent x) (hf : ∀ a, Sends P (f a)) :
    Sends P (x >>= f) := by
  intro b
  have hb := hx b
  rw [bind_run]
  rcases h : x.run b with ⟨e | a, b'⟩
  · rw [h] at hb
    exact ⟨[], by rw [List.append_nil]; exact hb, by simp, by simp⟩
  · rw [h] at hb
    obtain ⟨frames, hsent, hframes⟩ := hf a b'
    exact ⟨frames, by rw [hsent]; exact congrArg (· ++ frames) hb, hframes⟩

/-- A computation that sends nothing, behind another one. -/
lemma Sends.bind {x : BoardM α} {f : α → BoardM β} (hx : Sends P x) (hf : ∀ a, Silent (f a)) :
    Sends P (x >>= f) := by
  intro b
  obtain ⟨frames, hsent, hframes⟩ := hx b
  rw [bind_run]
  rcases h : x.run b with ⟨e | a, b'⟩
  · rw [h] at hsent
    exact ⟨frames, hsent, hframes⟩
  · rw [h] at hsent
    exact ⟨frames, (hf a b').trans hsent, hframes⟩

section Each

variable {P : γ → List UInt8 → Prop}

/-- Nothing or one frame is sent for each item in turn, and what is sent has the property. -/
def SendsEach (P : γ → List UInt8 → Prop) (items : List γ) (x : BoardM α) : Prop :=
  ∀ b, ∃ replies : List (List (List UInt8)), (x.run b).2.sent = b.sent ++ replies.flatten ∧
    List.Forall₂ (fun item frames => frames.length ≤ 1 ∧ ∀ frame ∈ frames, P item frame) items replies

lemma SendsEach.of_silent {x : BoardM α} (hx : Silent x) : SendsEach P [] x := fun b =>
  ⟨[], by rw [hx b, List.flatten_nil, List.append_nil], .nil⟩

/-- Where a computation faults, nothing is sent for the items behind it. -/
lemma SendsEach.cons {item : γ} {items : List γ} {x : BoardM α} {f : α → BoardM β}
    (hx : Sends (P item) x) (hf : ∀ a, SendsEach P items (f a)) :
    SendsEach P (item :: items) (x >>= f) := by
  intro b
  obtain ⟨frames, hsent, hframes⟩ := hx b
  rw [bind_run]
  rcases h : x.run b with ⟨e | a, b'⟩
  · rw [h] at hsent
    refine ⟨frames :: items.map fun _ => [], ?_, .cons hframes ?_⟩
    · have hnone : (items.map fun _ => ([] : List (List UInt8))).flatten = [] := by
        simp
      rw [List.flatten_cons, hnone, List.append_nil]
      exact hsent
    · rw [List.forall₂_map_right_iff, List.forall₂_same]
      simp
  · rw [h] at hsent
    obtain ⟨replies, hsent', hreplies⟩ := hf a b'
    refine ⟨frames :: replies, ?_, .cons hframes hreplies⟩
    rw [List.flatten_cons, ← List.append_assoc, ← hsent]
    exact hsent'

lemma SendsEach.mono_map {δ : Type} {Q : δ → List UInt8 → Prop} {g : δ → γ} {items : List δ}
    {x : BoardM α} (hx : SendsEach P (items.map g) x)
    (h : ∀ item ∈ items, ∀ frame, P (g item) frame → Q item frame) : SendsEach Q items x := by
  intro b
  obtain ⟨replies, hsent, hreplies⟩ := hx b
  refine ⟨replies, hsent, ?_⟩
  rw [List.forall₂_map_left_iff] at hreplies
  refine ((List.forall₂_and_left items replies).mpr ⟨h, hreplies⟩).imp fun item frames hframes => ?_
  obtain ⟨himp, hone, hall⟩ := hframes
  exact ⟨hone, fun frame hframe => himp frame (hall frame hframe)⟩

end Each

/-- A frame with this type and destination, from the line 0. -/
structure Addressed (type dline : UInt8) (frame : List UInt8) : Prop where
  start : frame.head? = some RECORD_START
  type : frame[1]? = some type
  sline : frame[2]? = some 0
  dline : frame[DLINE]? = some dline

lemma sends_bociaTcpSend (env : Env) (type : ProtoMsg) (data : Option Message) :
    Sends (Addressed type.type type.dline) (bociaTcpSend env type data) := by
  intro b
  cases data with
  | none => exact ⟨[], by simp [bociaTcpSend, naisMarshall], by simp, by simp⟩
  | some m =>
    obtain ⟨-, p, hm⟩ | ⟨-, e, hm⟩ := naisMarshall_ok_or_error env.pb type m b.protobuf
    · refine ⟨[headerBytes type (env.pb.pack m).length ++ env.pb.pack m ++ [RECORD_END]], ?_, by simp, ?_⟩
      · simp [bociaTcpSend, hm]
      · intro frame hframe
        rw [List.mem_singleton] at hframe
        subst hframe
        exact ⟨rfl, rfl, rfl, rfl⟩
    · exact ⟨[], by simp [bociaTcpSend, hm], by simp, by simp⟩

section Handler

variable (env : Env) (debug : Bool)

lemma silent_bociaGetConfig : Silent (bociaGetConfig env) := fun b => (bociaGetConfig_run env b).1

lemma silent_bociaSetCfg (cfg : Config) : Silent (bociaSetCfg env cfg) := by
  refine Silent.bind (Silent.bind silent_board fun b => ?_) fun _ => silent_update fun _ => rfl
  exact (silent_fallible _).bind fun _ => silent_update fun _ => rfl

lemma silent_setRebootMode (mode : Nat) : Silent (setRebootMode env mode) := by
  unfold setRebootMode
  split_ifs
  · refine (silent_request _).bind fun _ => Silent.bind (silent_update ?_) fun _ => silent_request _
    exact fun _ => rfl
  · exact silent_request _

lemma sends_bociaCommand (cmd : Command) :
    Sends (Addressed CONFIG_TYPE 0) (bociaCommand env ⟨.bociaTcpSend, debug⟩ cmd) := by
  unfold bociaCommand
  split_ifs
  · exact (silent_request _).sends
  · exact ((silent_setRebootMode env 0).bind fun _ => silent_request _).sends
  · exact ((silent_setRebootMode env 1).bind fun _ => silent_request _).sends
  · exact (silent_bociaGetConfig env).bind_sends fun config => sends_bociaTcpSend env ⟨CONFIG_TYPE, 0, 0⟩ _
  · exact (silent_pure ()).sends

/-- An acknowledgement for the line of the message, or a configuration for a command. -/
def Answers (type dline : UInt8) (frame : List UInt8) : Prop :=
  Addressed ACK_TYPE dline frame ∨ (type = COMMAND_TYPE ∧ Addressed CONFIG_TYPE 0 frame)

lemma sends_bociaInputHandler (commandId : ProtoMsg) (obj : Message) :
    Sends (Answers commandId.type commandId.dline)
      (bociaInputHandler env ⟨.bociaTcpSend, debug⟩ commandId obj) := by
  have hack : ∀ ack, Sends (Answers commandId.type commandId.dline)
      (bociaTcpSend env ⟨ACK_TYPE, commandId.dline, 0⟩ (some (.ack ack))) := fun ack =>
    (sends_bociaTcpSend env _ _).mono fun frame h => .inl h
  unfold bociaInputHandler
  dsimp only
  split_ifs with hcommand hsecret
  · refine (silent_fallible _).bind_sends fun cmd => ?_
    exact (sends_bociaCommand env debug cmd).mono fun frame h => .inr ⟨hcommand, h⟩
  · exact ((silent_fallible _).bind fun _ => (silent_request _).bind fun _ => silent_request _).sends
  · refine (silent_fallible _).bind_sends fun cfg => ?_
    exact (silent_bociaSetCfg env cfg).bind_sends fun _ => hack _
  · refine (silent_fallible _).bind_sends fun profile => ?_
    exact (silent_request _).bind_sends fun _ => hack _
  · exact (silent_fallible _).bind_sends fun cmd => hack _

/-- Whatever lies in the receive buffer, one frame at most is sent, and it answers the type and the
line that are read there. -/
theorem sends_bociaUnmarshall {data : List UInt8} (hsize : data.length < 2 ^ 16) :
    Sends (fun frame => typeByte data ≠ 0 ∧ Answers (typeByte data) (data.getD 1 0) frame)
      (bociaUnmarshall env ⟨.bociaTcpSend, debug⟩ data) := by
  intro b
  cases h : naisUnmarshall env.pb data with
  | error e =>
    have hcall : handlerCall env.pb data = .error e := by
      rw [handlerCall, h]
      rfl
    refine ⟨[], ?_, by simp, by simp⟩
    rw [bociaUnmarshall, hcall, List.append_nil]
    rfl
  | ok r =>
    obtain ⟨-, -, htype, rfl⟩ := (naisUnmarshall_ok_iff env.pb hsize r).mp h
    have hcall : handlerCall env.pb data = .ok ((unmarshalled data env.pb).obj.map fun obj =>
        ((unmarshalled data env.pb).ptype, obj)) := by
      rw [handlerCall, h]
      rfl
    rw [bociaUnmarshall, hcall, bind_run, fallible_run]
    cases (unmarshalled data env.pb).obj with
    | none => exact (silent_pure _).sends b
    | some obj =>
      refine Sends.bind ?_ (fun _ => silent_pure _) b
      have hanswers : ∀ debug, Sends (fun frame => typeByte data ≠ 0 ∧
          Answers (typeByte data) (data.getD 1 0) frame)
          (bociaInputHandler env ⟨.bociaTcpSend, debug⟩ (unmarshalled data env.pb).ptype obj) := fun debug =>
        (sends_bociaInputHandler env debug _ obj).mono fun frame hframe => ⟨htype, hframe⟩
      split_ifs
      · exact hanswers true
      · exact hanswers debug

/-- `bocia_tcp_receive` with what the input handler does. The debug mode of the channel stays on. -/
def tcpReceive (buff : Buffer 256) (received : List UInt8) : BoardM (Bool × Buffer 256) :=
  if received = [] then pure (debug, buff)
  else do
    let buff ← fallible (tcpFill buff received)
    let rd ← bociaUnmarshall env ⟨.bociaTcpSend, debug⟩ (buff.bytes.drop 1)
    pure (rd.debug, buff)

/-- Successive calls on a channel, one for each chunk of the stream. -/
def tcpReceives (env : Env) : Bool → Buffer 256 → List (List UInt8) → BoardM (Bool × Buffer 256)
  | debug, buff, [] => pure (debug, buff)
  | debug, buff, chunk :: chunks => do
    let (debug, buff) ← tcpReceive env debug buff chunk
    tcpReceives env debug buff chunks

/-- The input handler runs on the call that `bociaTcpReceive` makes. -/
theorem tcpReceive_run {s s' : TcpReceiver} {received : List UInt8}
    (h : bociaTcpReceive env.pb s received = .ok s') (b : State) :
    (s'.calls = s.calls ∧ (tcpReceive env debug s.buff received).run b = (.ok (debug, s'.buff), b)) ∨
    ∃ ptype obj debug', s'.calls = s.calls ++ [(ptype, obj)] ∧
      (tcpReceive env debug s.buff received).run b =
        (bociaInputHandler env ⟨.bociaTcpSend, debug'⟩ ptype obj >>= fun _ =>
          pure (debug', s'.buff)).run b := by
  unfold bociaTcpReceive at h
  unfold tcpReceive
  split_ifs at h ⊢ with hnil
  · cases h
    exact .inl ⟨rfl, rfl⟩
  · cases hfill : tcpFill s.buff received with
    | error e => simp [hfill, Bind.bind, Except.bind] at h
    | ok buff =>
      cases hcall : handlerCall env.pb (buff.bytes.drop 1) with
      | error e => simp only [hfill, hcall, Bind.bind, Except.bind, reduceCtorEq] at h
      | ok call =>
        simp only [hfill, hcall, Bind.bind, Except.bind, Except.ok.injEq] at h
        subst h
        cases call with
        | none =>
          refine .inl ⟨List.append_nil _, ?_⟩
          simp only [bociaUnmarshall, hcall, bind_run, fallible_run, pure_run]
        | some call =>
          obtain ⟨ptype, obj⟩ := call
          by_cases hflag : ptype.flags.toNat &&& 1 ≠ 0
          · refine .inr ⟨ptype, obj, true, rfl, ?_⟩
            simp only [bociaUnmarshall, hcall, if_pos hflag, bind_run, fallible_run]
            rcases (bociaInputHandler env ⟨.bociaTcpSend, true⟩ ptype obj).run b with ⟨e | u, b'⟩ <;> rfl
          · refine .inr ⟨ptype, obj, debug, rfl, ?_⟩
            simp only [bociaUnmarshall, hcall, if_neg hflag, bind_run, fallible_run]
            rcases (bociaInputHandler env ⟨.bociaTcpSend, debug⟩ ptype obj).run b with ⟨e | u, b'⟩ <;> rfl

/-- What is sent answers the bytes that came, whatever the buffer held before. -/
lemma sends_tcpReceive (buff : Buffer 256) (received : List UInt8) :
    Sends (Answers (received.getD 1 0) (received.getD 2 0)) (tcpReceive env debug buff received) := by
  unfold tcpReceive
  split_ifs with hnil
  · exact (silent_pure _).sends
  · cases hfill : tcpFill buff received with
    | error e => exact fun b => ⟨[], (List.append_nil _).symm, by simp, by simp⟩
    | ok buff' =>
      obtain ⟨-, hbytes⟩ := tcpFill_ok_iff.mp hfill
      have hsize : (buff'.bytes.drop 1).length < 2 ^ 16 := by
        rw [List.length_drop, buff'.size]
        decide
      have hanswers : Sends (Answers (received.getD 1 0) (received.getD 2 0))
          (bociaUnmarshall env ⟨.bociaTcpSend, debug⟩ (buff'.bytes.drop 1)) := by
        refine (sends_bociaUnmarshall env debug hsize).mono fun frame ⟨htype, hframe⟩ => ?_
        rw [hbytes] at htype hframe
        -- a byte that did not come is the terminator, and a frame of type 0 is not handled
        obtain ⟨start, rest, rfl⟩ := List.exists_cons_of_ne_nil hnil
        match rest with
        | [] => exact absurd rfl htype
        | [_] => exact hframe
        | _ :: _ :: _ => exact hframe
      intro b
      rw [bind_run, fallible_run]
      exact hanswers.bind (fun _ => silent_pure _) b

lemma sendsEach_tcpReceives (buff : Buffer 256) (chunks : List (List UInt8)) :
    SendsEach (fun chunk => Answers (chunk.getD 1 0) (chunk.getD 2 0)) chunks
      (tcpReceives env debug buff chunks) := by
  induction chunks generalizing debug buff with
  | nil => exact .of_silent (silent_pure _)
  | cons chunk chunks ih => exact .cons (sends_tcpReceive env debug buff chunk) fun out => ih out.1 out.2

end Handler

end Nais.Board
