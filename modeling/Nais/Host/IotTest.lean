import Nais.Host.RecordKind
import Nais.Host.Records

/-!
# The reader of the serial tests

`msg_receive` of `pynais/iottest.py`, which ends a frame at the first end byte behind a start
byte. `msg_receive` of `pynais/junction.py` counts the bytes that LEN announces. The two cut a
stream into the same records exactly when these are the same place in every record.
-/

namespace Nais.Host.IotTest
open Nais.Lib Nais.Lib.Cut Nais.Lib.Base128

inductive SerialErr where
  | serialReadTimeout
  deriving DecidableEq, Repr

/-- The local variables of `msg_receive`. -/
structure Reading where
  sts : StreamSts := .aStream
  msg : List UInt8 := []
  deriving DecidableEq, Repr

/-- The body of the loop. The answer is false at its `break`. -/
def Reading.addChar (s : Reading) (ch : UInt8) : Reading × Bool :=
  let s := { s with msg := s.msg ++ [ch] }
  if ch = SYNC_START then ({ s with sts := .bStream }, true)
  else if ch = SYNC_END ∧ s.sts = .bStream then ({ s with sts := .aStream }, false)
  else if s.sts = .aStream ∧ ch = NEWLINE then (s, false)
  else (s, true)

/-- The `while` loop: an empty read is a timeout. -/
def readSerial (s : Reading) : List UInt8 → Except SerialErr (Reading × List UInt8)
  | [] => .error .serialReadTimeout
  | ch :: stream =>
    match s.addChar ch with
    | (s, true) => readSerial s stream
    | (s, false) => .ok (s, stream)

/-- A message from a UART channel, and the unread bytes. -/
def msgReceive (stream : List UInt8) : Except SerialErr (List UInt8 × List UInt8) := do
  let (s, stream) ← readSerial {} stream
  .ok (s.msg, stream)

/-- In each record that has a start byte, the first end byte behind it is where the LEN of the
last start byte before that end byte announces it, or there is none. -/
inductive FirstEndCloses : List UInt8 → Prop
  | text {text : List UInt8} : SYNC_START ∉ text → NEWLINE ∉ text → FirstEndCloses text
  | line {text rest : List UInt8} : SYNC_START ∉ text → NEWLINE ∉ text → FirstEndCloses rest →
      FirstEndCloses (text ++ NEWLINE :: rest)
  | unended {text p : List UInt8} : SYNC_START ∉ text → NEWLINE ∉ text → SYNC_END ∉ p →
      FirstEndCloses (text ++ SYNC_START :: p)
  | frame {text p rest : List UInt8} : SYNC_START ∉ text → NEWLINE ∉ text → SYNC_END ∉ p →
      Delimited 0 (p ++ [SYNC_END]) → FirstEndCloses rest →
      FirstEndCloses (text ++ SYNC_START :: (p ++ SYNC_END :: rest))

section Cutter

lemma addChar_msg (s : Reading) (ch : UInt8) : (s.addChar ch).1.msg = s.msg ++ [ch] := by
  unfold Reading.addChar
  dsimp only
  split_ifs <;> rfl

lemma readSerial_eq_readUntil (s : Reading) (stream : List UInt8) :
    readSerial s stream = readUntil Reading.addChar .serialReadTimeout s stream := by
  induction stream generalizing s with
  | nil => rfl
  | cons ch stream ih =>
    rw [readSerial, readUntil]
    rcases h : s.addChar ch with ⟨s', _ | _⟩
    · simp
    · simp [ih]

/-- The reader of the serial tests as a cutter of byte streams. -/
def serialCutter : Cutter UInt8 SerialErr :=
  automaton Reading.addChar .serialReadTimeout Reading.msg addChar_msg {} rfl

lemma msgReceive_eq_serialCutter : msgReceive = serialCutter.receive := by
  funext stream
  unfold msgReceive serialCutter automaton
  simp only [readSerial_eq_readUntil]
  cases readUntil Reading.addChar SerialErr.serialReadTimeout {} stream <;> rfl

end Cutter

section Stream

/-- Outside a frame the reader collects text. -/
lemma readSerial_text {text : List UInt8} (hstart : SYNC_START ∉ text) (hnl : NEWLINE ∉ text)
    {s : Reading} (hs : s.sts = .aStream) (tail : List UInt8) :
    readSerial s (text ++ tail) = readSerial { s with msg := s.msg ++ text } tail := by
  induction text generalizing s with
  | nil => rw [List.nil_append, List.append_nil]
  | cons ch text ih =>
    simp only [List.mem_cons, not_or] at hstart hnl
    have hstep : s.addChar ch = ({ s with msg := s.msg ++ [ch] }, true) := by
      simp [Reading.addChar, hs, Ne.symm hstart.1, Ne.symm hnl.1]
    rw [List.cons_append, readSerial, hstep]
    dsimp only
    rw [ih hstart.2 hnl.2 (s := { s with msg := s.msg ++ [ch] }) hs, List.append_assoc,
      List.singleton_append]

/-- Inside a frame it reads on to the first end byte. -/
lemma readSerial_frame {p : List UInt8} (hend : SYNC_END ∉ p) {s : Reading} (hs : s.sts = .bStream)
    (tail : List UInt8) :
    readSerial s (p ++ tail) = readSerial { s with msg := s.msg ++ p } tail := by
  induction p generalizing s with
  | nil => rw [List.nil_append, List.append_nil]
  | cons ch p ih =>
    simp only [List.mem_cons, not_or] at hend
    have hstep : s.addChar ch = ({ s with msg := s.msg ++ [ch] }, true) := by
      by_cases hstart : ch = SYNC_START
      · simp [Reading.addChar, hstart, hs]
      · simp [Reading.addChar, hstart, hs, Ne.symm hend.1]
    rw [List.cons_append, readSerial, hstep]
    dsimp only
    rw [ih hend.2 (s := { s with msg := s.msg ++ [ch] }) hs, List.append_assoc, List.singleton_append]

lemma msgReceive_of_readSerial {stream rest : List UInt8} {s : Reading}
    (h : readSerial {} stream = .ok (s, rest)) : msgReceive stream = .ok (s.msg, rest) := by
  rw [msgReceive, h]
  rfl

lemma msgReceive_of_timeout {stream : List UInt8}
    (h : readSerial {} stream = .error .serialReadTimeout) :
    msgReceive stream = .error .serialReadTimeout := by
  rw [msgReceive, h]
  rfl

/-- What both readers make of a stream, by its text up to the first newline or start byte. -/
lemma both_text {text : List UInt8} (hstart : SYNC_START ∉ text) (hnl : NEWLINE ∉ text)
    (arrived : Nat) :
    Host.msgReceive false arrived text = .error .connectionClosed ∧
      msgReceive text = .error .serialReadTimeout := by
  have hgoes : Goes {} text { msg := text } := goes_text hstart hnl rfl
  have htape := hgoes []
  have hserial := readSerial_text hstart hnl (s := {}) rfl []
  rw [List.append_nil] at htape hserial
  constructor
  · unfold Host.msgReceive
    rw [htape]
    rfl
  · exact msgReceive_of_timeout hserial

lemma both_line {text : List UInt8} (hstart : SYNC_START ∉ text) (hnl : NEWLINE ∉ text)
    (arrived : Nat) (rest : List UInt8) :
    Host.msgReceive false arrived (text ++ NEWLINE :: rest) = .ok (text ++ [NEWLINE], rest) ∧
      msgReceive (text ++ NEWLINE :: rest) = .ok (text ++ [NEWLINE], rest) := by
  constructor
  · exact msgReceive_eq_ok_iff.mpr ⟨_, (readTape_newline hstart hnl rest).1, rfl⟩
  · have hserial := readSerial_text hstart hnl (s := {}) rfl (NEWLINE :: rest)
    exact msgReceive_of_readSerial hserial

/-- The tape takes `q` for the rest of a frame exactly when its end is where LEN says. -/
lemma tape_frame_iff {text : List UInt8} (hstart : SYNC_START ∉ text) (hnl : NEWLINE ∉ text)
    (arrived : Nat) (q rest : List UInt8) :
    Host.msgReceive false arrived (text ++ SYNC_START :: (q ++ rest)) =
      .ok (text ++ SYNC_START :: q, rest) ↔ Delimited 0 q := by
  obtain ⟨t₀, hstep, harmed, -⟩ := addChar_first_start text
  have hgoes : Goes {} text { msg := text } := goes_text hstart hnl rfl
  rw [msgReceive_eq_tapeCutter, ← List.cons_append, ← List.append_assoc,
    tapeCutter.receive_append_iff, tapeCutter_accepts_iff, hgoes, readTape_goes hstep,
    readTape_armed_iff harmed]

lemma serial_frame {text p : List UInt8} (hstart : SYNC_START ∉ text) (hnl : NEWLINE ∉ text)
    (hend : SYNC_END ∉ p) (rest : List UInt8) :
    msgReceive (text ++ SYNC_START :: (p ++ SYNC_END :: rest)) =
      .ok (text ++ SYNC_START :: (p ++ [SYNC_END]), rest) := by
  have htext := readSerial_text hstart hnl (s := {}) rfl (SYNC_START :: (p ++ SYNC_END :: rest))
  have hframe := readSerial_frame hend (s := ⟨.bStream, text ++ [SYNC_START]⟩) rfl (SYNC_END :: rest)
  have hall := msgReceive_of_readSerial (htext.trans hframe)
  rw [hall]
  simp

lemma end_mem_of_delimited {k : Nat} {bs : List UInt8} (h : Delimited k bs) : SYNC_END ∈ bs := by
  induction h with
  | closes _ _ hlast => exact List.mem_of_getLast? hlast
  | resync _ _ _ ih => exact List.mem_append_right _ (List.mem_cons_of_mem _ ih)

/-- Without an end byte behind the start byte both readers wait for ever. -/
lemma both_unended {text p : List UInt8} (hstart : SYNC_START ∉ text) (hnl : NEWLINE ∉ text)
    (hend : SYNC_END ∉ p) (arrived : Nat) :
    (∃ e, Host.msgReceive false arrived (text ++ SYNC_START :: p) = .error e) ∧
      msgReceive (text ++ SYNC_START :: p) = .error .serialReadTimeout := by
  constructor
  · cases h : Host.msgReceive false arrived (text ++ SYNC_START :: p) with
    | error e => exact ⟨e, rfl⟩
    | ok r =>
      obtain ⟨t, hread, hmsg⟩ := msgReceive_eq_ok_iff.mp h
      obtain ⟨-, frame, hframe⟩ := readTape_start hstart hnl hread
      have hconsumes := (readTape_record hread).1
      rw [hframe, List.append_assoc, List.cons_append] at hconsumes
      have hp : p = frame ++ r.2 := (List.cons.inj (List.append_cancel_left hconsumes)).2
      rw [hp] at h hend
      have hrecord : r = (text ++ SYNC_START :: frame, r.2) := by rw [← hframe, hmsg]
      rw [hrecord] at h
      have hmem := end_mem_of_delimited ((tape_frame_iff hstart hnl arrived frame r.2).mp h)
      exact absurd (List.mem_append_left _ hmem) hend
  · have htext := readSerial_text hstart hnl (s := {}) rfl (SYNC_START :: p)
    have hframe := readSerial_frame hend (s := ⟨.bStream, text ++ [SYNC_START]⟩) rfl []
    rw [List.append_nil] at hframe
    exact msgReceive_of_timeout (htext.trans hframe)

/-- The two readers cut a stream into the same records exactly when the first end byte of each
frame is where its LEN says. -/
theorem sameRecords_iff (arrived : Nat) (stream : List UInt8) :
    SameRecords (Host.msgReceive false arrived) msgReceive stream ↔ FirstEndCloses stream := by
  constructor
  · intro h
    induction hn : stream.length using Nat.strong_induction_on generalizing stream with
    | _ n ih =>
      obtain ⟨text, tail, rfl, hstart, hnl, rfl | ⟨rest, rfl⟩ | ⟨after, rfl⟩⟩ :=
        exists_text_split stream
      · rw [List.append_nil]
        exact .text hstart hnl
      · obtain ⟨htape, hserial⟩ := both_line hstart hnl arrived rest
        refine .line hstart hnl (ih rest.length ?_ rest ((sameRecords_cons_iff htape hserial).mp h) rfl)
        rw [← hn, List.length_append, List.length_cons]
        omega
      · by_cases hend : SYNC_END ∈ after
        · obtain ⟨p, rest, rfl, hp⟩ := List.eq_append_cons_of_mem hend
          have hserial := serial_frame hstart hnl hp rest
          have htape := (h.receive_iff _ _).mpr hserial
          have hrest := (sameRecords_cons_iff htape hserial).mp h
          rw [← List.singleton_append (l := rest), ← List.append_assoc p, tape_frame_iff hstart hnl] at htape
          refine .frame hstart hnl hp htape (ih rest.length ?_ rest hrest rfl)
          rw [← hn, List.length_append, List.length_cons, List.length_append, List.length_cons]
          omega
        · exact .unended hstart hnl hend
  · intro h
    induction h with
    | text hstart hnl =>
      obtain ⟨htape, hserial⟩ := both_text hstart hnl arrived
      exact sameRecords_of_error htape hserial
    | line hstart hnl _ ih =>
      obtain ⟨htape, hserial⟩ := both_line hstart hnl arrived _
      exact (sameRecords_cons_iff htape hserial).mpr ih
    | unended hstart hnl hend =>
      obtain ⟨⟨e, htape⟩, hserial⟩ := both_unended hstart hnl hend arrived
      exact sameRecords_of_error htape hserial
    | @frame text p rest hstart hnl hend hdelimited _ ih =>
      have hserial := serial_frame hstart hnl hend rest
      have htape := (tape_frame_iff hstart hnl arrived (p ++ [SYNC_END]) rest).mpr hdelimited
      rw [List.append_assoc, List.singleton_append] at htape
      exact (sameRecords_cons_iff htape hserial).mpr ih

end Stream

section Records

variable {C P O : Type} {lib : ProtoLib C P O} {reg : Registry C P}

/-- A frame with no end byte but its last one. -/
def OneEnd : Record lib reg → Prop
  | .line _ _ _ => True
  | .frame _ packet _ => SYNC_END ∉ packet.dropLast

lemma serial_accepts_iff (r : Record lib reg) : serialCutter.Accepts r.bytes ↔ OneEnd r := by
  unfold Cutter.Accepts
  rw [← msgReceive_eq_serialCutter]
  cases r with
  | line text noStart noNewline =>
    exact iff_of_true (both_line noStart noNewline 0 []).2 trivial
  | frame obj packet marshalled =>
    obtain ⟨oid, protobufClass, payload, -, -, -, -, rfl⟩ :=
      (marshall_ok_iff lib reg obj packet).mp marshalled
    unfold OneEnd Record.bytes frameBytes
    dsimp only
    generalize [UInt8.ofNat oid.toNat, 0, UInt8.ofNat ((lib.dline obj).getD 0).toNat, 0] ++
      lenBytes payload.length ++ payload = q
    rw [← List.cons_append, List.dropLast_concat, List.cons_append]
    have hne : SYNC_END ≠ SYNC_START := by decide
    by_cases hend : SYNC_END ∈ q
    · obtain ⟨p, rest, rfl, hp⟩ := List.eq_append_cons_of_mem hend
      refine iff_of_false ?_ (by simp)
      rw [List.append_assoc, List.cons_append]
      have hserial := serial_frame List.not_mem_nil List.not_mem_nil hp (rest ++ [SYNC_END])
      rw [List.nil_append] at hserial
      rw [hserial, Except.ok.injEq, Prod.mk.injEq]
      rintro ⟨-, hrest⟩
      simp at hrest
    · have hserial := serial_frame List.not_mem_nil List.not_mem_nil hend []
      exact iff_of_true hserial (by simp [hne, hend])

/-- Of a stream of lines and marshalled frames the two readers return the same records exactly
when the first end byte of each frame they meet is where its LEN says. They return the lines
and frames themselves exactly when each frame is delimited and has no end byte inside. -/
theorem iottest_agrees_iff (arrived : Nat) (rs : List (Record lib reg)) :
    let stream := (rs.map Record.bytes).flatten
    (SameRecords (Host.msgReceive false arrived) msgReceive stream ↔ FirstEndCloses stream) ∧
      (receiveMany (Host.msgReceive false arrived) rs.length stream = .ok (rs.map Record.bytes, []) ∧
          receiveMany msgReceive rs.length stream = .ok (rs.map Record.bytes, []) ↔
        ∀ r ∈ rs, r.SelfDelimiting ∧ OneEnd r) := by
  intro stream
  refine ⟨sameRecords_iff arrived stream, ?_⟩
  have hserial := serialCutter.receiveMany_flatten_iff (rs.map Record.bytes)
  rw [List.length_map, List.forall_mem_map] at hserial
  rw [(msg_receive_cut_iff arrived rs), msgReceive_eq_serialCutter, hserial, ← forall₂_and]
  exact forall₂_congr fun r _ => and_congr_right fun _ => serial_accepts_iff r

/-- A command whose id is 23 carries the end byte in its payload. -/
theorem iottest_cuts_command_short :
    ¬∀ rs : List (Record sampleLib sampleRegistry), SameRecords (Host.msgReceive false 0) msgReceive
      (rs.map Record.bytes).flatten := by
  have hpacket : marshall sampleLib sampleRegistry [0x08, 0x17] =
      .ok [0x1E, 5, 0, 0, 0, 2, 0x08, 0x17, 0x17] := by
    rw [marshall_ok_iff]
    refine ⟨5, (), [0x08, 0x17], rfl, by decide, by decide, rfl, ?_⟩
    rw [lenBytes_eq_encode _ (by decide), encode_small (by decide)]
    rfl
  intro hall
  have hsame := hall [.frame _ _ hpacket]
  have hwhole : Host.msgReceive false 0 [0x1E, 5, 0, 0, 0, 2, 0x08, 0x17, 0x17] =
      .ok ([0x1E, 5, 0, 0, 0, 2, 0x08, 0x17, 0x17], []) := rfl
  have hshort := (hsame.receive_iff _ _).mp hwhole
  have hserial : msgReceive [0x1E, 5, 0, 0, 0, 2, 0x08, 0x17, 0x17] =
      .ok ([0x1E, 5, 0, 0, 0, 2, 0x08, 0x17], [0x17]) := rfl
  exact absurd (hserial.symm.trans hshort) (by decide)

end Records

end Nais.Host.IotTest
