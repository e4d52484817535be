import Nais.Host.Cleanup
import Nais.Host.Framing
import Nais.Host.Unmarshall

/-!
# What a record is

The tape of `pynais/junction.py` knows from its running state what it has read: an ascii
line, or a frame with the LEN that it summed up byte by byte. Those who get the record
find this out again: `is_protobuf` looks at the first byte, and `unmarshall` walks LEN. They
agree with the tape on LEN, and on the kind of the record where no text without a newline
comes before a frame.
-/

namespace Nais.Host
open Nais.Lib Nais.Lib.Cut Nais.Lib.Base128

section Text

/-- The tape behind the first start byte of a record. -/
lemma addChar_first_start (text : List UInt8) :
    ∃ t', MessageTape.addChar { msg := text } SYNC_START = (t', true) ∧ Armed 0 t' ∧
      t'.msg = text ++ [SYNC_START] := by
  have hlen : 6 ≤ 65536 := by decide
  exact ⟨{ sts := .bStream, msg := text ++ [SYNC_START] }, rfl, ⟨⟨rfl, rfl, rfl, hlen⟩, rfl, rfl, rfl⟩, rfl⟩

/-- A stream begins with text up to the first newline or start byte. -/
lemma exists_text_split (stream : List UInt8) :
    ∃ text tail, stream = text ++ tail ∧ SYNC_START ∉ text ∧ NEWLINE ∉ text ∧
      (tail = [] ∨ (∃ rest, tail = NEWLINE :: rest) ∨ ∃ rest, tail = SYNC_START :: rest) := by
  induction stream with
  | nil => exact ⟨[], [], rfl, List.not_mem_nil, List.not_mem_nil, .inl rfl⟩
  | cons c stream ih =>
    by_cases hnl : c = NEWLINE
    · exact ⟨[], c :: stream, rfl, List.not_mem_nil, List.not_mem_nil, .inr (.inl ⟨stream, by rw [hnl]⟩)⟩
    by_cases hs : c = SYNC_START
    · exact ⟨[], c :: stream, rfl, List.not_mem_nil, List.not_mem_nil, .inr (.inr ⟨stream, by rw [hs]⟩)⟩
    obtain ⟨text, tail, rfl, hstart, hnewline, htail⟩ := ih
    refine ⟨c :: text, tail, rfl, ?_, ?_, htail⟩
    · rw [List.mem_cons, not_or]
      exact ⟨Ne.symm hs, hstart⟩
    · rw [List.mem_cons, not_or]
      exact ⟨Ne.symm hnl, hnewline⟩

end Text

section Header

lemma msgReceive_eq_ok_iff {arrived : Nat} {stream record rest : List UInt8} :
    msgReceive false arrived stream = .ok (record, rest) ↔
      ∃ t, readTape {} stream = .ok (t, rest) ∧ t.msg = record := by
  simp only [msgReceive, Bool.false_eq_true, ite_false]
  cases h : readTape {} stream with
  | error e => simp [Bind.bind, Except.bind]
  | ok p =>
    obtain ⟨t, unread⟩ := p
    simp only [Bind.bind, Except.bind, Except.ok.injEq, Prod.mk.injEq]
    constructor
    · rintro ⟨rfl, rfl⟩
      exact ⟨t, ⟨rfl, rfl⟩, rfl⟩
    · rintro ⟨t', ⟨rfl, rfl⟩, rfl⟩
      exact ⟨rfl, rfl⟩

/-- What the tape reads of a stream is its message, and it would read no more of it if
nothing followed. -/
lemma readTape_record {stream rest : List UInt8} {t : MessageTape}
    (h : readTape {} stream = .ok (t, rest)) :
    stream = t.msg ++ rest ∧ readTape {} t.msg = .ok (t, []) := by
  rw [readTape_eq_readUntil] at h
  have hconsumes := readUntil_consumes MessageTape.addChar PyErr.connectionClosed MessageTape.msg
    addChar_msg h
  rw [show MessageTape.msg {} = [] from rfl, List.nil_append] at hconsumes
  rw [hconsumes] at h
  have hdet := readUntil_determined MessageTape.addChar PyErr.connectionClosed [] h
  rw [List.append_nil] at hdet
  exact ⟨hconsumes, by rw [readTape_eq_readUntil, hdet]⟩

/-- The end of a record that is a single piece, with the position and the header length that
the tape has found. -/
lemma readTape_single_piece {carry : Nat} {p : List UInt8} (hp : SYNC_START ∉ p) {t t' : MessageTape}
    (h : Armed carry t) (hread : readTape t p = .ok (t', [])) :
    endOf carry p = some p.length ∧ p.getLast? = some SYNC_END ∧ t'.expectedLen = p.length ∧
      t'.hlen = 6 + carry + continuations (p.drop 4) := by
  obtain ⟨hends, hgoes⟩ := readTape_piece hp h
  by_cases hin : EndsInside carry p
  · obtain ⟨e, he, hbyte⟩ := hin
    obtain ⟨u, ⟨hexpected, hhlen⟩, hu⟩ := hends e he hbyte
    have hall := hu []
    rw [List.append_nil, List.append_nil, hread, Except.ok.injEq, Prod.mk.injEq] at hall
    obtain ⟨rfl, hdrop⟩ := hall
    have hlt := (List.getElem?_eq_some_iff.mp hbyte).1
    have hlast : e = p.length := by
      have := List.drop_eq_nil_iff.mp hdrop.symm
      omega
    refine ⟨by rw [he, hlast], ?_, by rw [hexpected, hlast], hhlen⟩
    rw [List.getLast?_eq_getElem?, ← hlast, hbyte]
  · obtain ⟨u, hgo, -⟩ := hgoes hin
    have hall := hgo []
    rw [List.append_nil, hread] at hall
    cases hall

variable {C P M O : Type}

/-- A record of the tape that begins with its only start byte: the header that the decoder
walks ends where the tape's LEN says, and only the end byte is behind the payload. -/
theorem tape_agrees_with_unmarshall (models : ModelLib C P M O) (reg : Registry C P) (arrived : Nat)
    {stream record rest : List UInt8} (h : msgReceive false arrived stream = .ok (record, rest))
    (hfirst : record.head? = some SYNC_START) (honly : SYNC_START ∉ record.tail) :
    ∃ t hlen type, readTape {} stream = .ok (t, rest) ∧ t.msg = record ∧
      walkLen (record.drop 5) 6 = .ok hlen ∧ record[1]? = some type ∧
      let payload := record.dropLast.drop hlen
      t.hlen = hlen ∧ t.expectedLen = t.hlen + payload.length ∧
      payload.length = number ((record.take hlen).drop 5) ∧
      record = record.take hlen ++ payload ++ [SYNC_END] ∧
      unmarshall models reg record =
        match reg.cidToClasses type.toNat with
        | none => .error .keyError
        | some (protobufClass, modelClass) =>
          (models.parse protobufClass payload).bind (models.build modelClass) := by
  obtain ⟨t, hread, rfl⟩ := msgReceive_eq_ok_iff.mp h
  obtain ⟨p, hp⟩ := List.head?_eq_some_iff.mp hfirst
  rw [hp, List.tail_cons] at honly
  obtain ⟨t₀, hstep, harmed, -⟩ := addChar_first_start []
  have hrecord := (readTape_record hread).2
  rw [hp, readTape_goes hstep] at hrecord
  obtain ⟨he, hlast, hexpected, hhlen⟩ := readTape_single_piece honly harmed hrecord
  simp only [endOf, Nat.add_zero, pow_zero, one_mul] at he hhlen
  generalize hm : continuations (p.drop 4) = m at he hhlen
  split_ifs at he with hlt
  rw [Option.some.injEq] at he
  rw [List.length_drop] at hlt
  have hsplit : p = p.dropLast ++ [SYNC_END] := (List.dropLast_append_getLast? _ hlast).symm
  have hne : p ≠ [] := by
    rintro rfl
    cases hlast
  have hwhole : t.msg = (SYNC_START :: p.dropLast) ++ [SYNC_END] := by
    rw [hp, List.cons_append, ← hsplit]
  have hinit : t.msg.dropLast = SYNC_START :: p.dropLast := by
    rw [hwhole, List.dropLast_concat]
  have hlen : p.dropLast.length = p.length - 1 := List.length_dropLast
  have hwalk : walkLen (t.msg.drop 5) 6 = .ok (6 + m) := by
    rw [hp, List.drop_succ_cons, walkLen_eq, hm, if_pos (by rw [List.length_drop]; exact hlt)]
  have hpayload : (t.msg.dropLast.drop (6 + m)).length = number ((p.drop 4).take (m + 1)) := by
    rw [hinit, List.length_drop, List.length_cons, hlen]
    omega
  have hfield : (t.msg.take (6 + m)).drop 5 = (p.drop 4).take (m + 1) := by
    rw [hp, show 6 + m = 5 + m + 1 by omega, List.take_succ_cons, List.drop_succ_cons,
      List.drop_take]
    congr 1
    omega
  have htype : t.msg[1]? = some p[0] := by
    rw [hp]
    simp
  refine ⟨t, 6 + m, p[0], hread, rfl, hwalk, htype, hhlen, ?_, ?_, ?_, ?_⟩
  · omega
  · rw [hpayload, hfield]
  · have htake : t.msg.take (6 + m) = t.msg.dropLast.take (6 + m) := by
      rw [hwhole, List.dropLast_concat, List.take_append_of_le_length]
      rw [List.length_cons, hlen]
      omega
    rw [htake, List.take_append_drop, hinit]
    exact hwhole
  · rw [unmarshall, htype, hwalk]
    rfl

/-- A LEN of two bytes that writes the number 2. -/
theorem tape_agrees_with_unmarshall_two_byte_len :
    ∃ t, readTape {} [0x1E, 5, 9, 0, 0, 0x82, 0, 8, 5, 0x17, 0x61] = .ok (t, [0x61]) ∧
      t.expectedLen = t.hlen + 2 ∧ walkLen [0x82, 0, 8, 5, 0x17] 6 = .ok t.hlen := by
  have hreceive : msgReceive false 0 [0x1E, 5, 9, 0, 0, 0x82, 0, 8, 5, 0x17, 0x61] =
      .ok ([0x1E, 5, 9, 0, 0, 0x82, 0, 8, 5, 0x17], [0x61]) := rfl
  obtain ⟨t, hlen, type, hread, -, hwalk, -, rfl, hexpected, -⟩ :=
    tape_agrees_with_unmarshall sampleModels sampleRegistry 0 hreceive rfl (by decide)
  have hseven : t.hlen = 7 := (Except.ok.inj hwalk).symm
  refine ⟨t, hread, ?_, hwalk⟩
  rw [hexpected, hseven]
  rfl

end Header

section Kind

/-- The mode of the tape at the last byte of a record, and this byte. -/
def endOfRecord (parser : MessageTape) : List UInt8 → Option (StreamSts × UInt8)
  | [] => none
  | channel :: stream =>
    match parser.addChar channel with
    | (parser', true) => endOfRecord parser' stream
    | (_, false) => some (parser.sts, channel)

/-- The tape ends a frame. -/
def EndsBinary (stream : List UInt8) : Prop := endOfRecord {} stream = some (.bStream, SYNC_END)

instance (stream : List UInt8) : Decidable (EndsBinary stream) := inferInstanceAs (Decidable (_ = _))

variable {C P M O : Type}

/-- `proto_receive`, without `expect_json`: the first record that is a frame, unmarshalled,
and the unread bytes. -/
def protoReceive (models : ModelLib C P M O) (reg : Registry C P) (stream : List UInt8) :
    Except PyErr (O × List UInt8) :=
  match h : msgReceive false 0 stream with
  | .error e => .error e
  | .ok (msg, rest) =>
    have := msgReceive_rest_lt h
    if isProtobuf (.bytearray msg) then (unmarshall models reg msg).map fun o => (o, rest)
    else protoReceive models reg rest
termination_by stream.length

/-- A record is taken for a frame exactly when the tape ended one, and then `proto_receive`
unmarshalls it and the line reads the destination out of it, for itself and in `Packet`. -/
structure KindsAgree (models : ModelLib C P M O) (reg : Registry C P)
    (stream record rest : List UInt8) : Prop where
  kind : isProtobuf (.bytearray record) = true ↔ EndsBinary stream
  received : EndsBinary stream →
    protoReceive models reg stream = (unmarshall models reg record).map fun o => (o, rest)
  delivered : EndsBinary stream → ∃ dline, record[DLINE]? = some dline ∧
    readDline (.bytearray record) = .ok dline ∧
    ∀ srcLine transformer, Packet.new (.bytearray record) srcLine transformer =
      .ok ⟨.bytearray record, srcLine, transformer, dline.toNat⟩

/-- No text stands before the first start byte of the stream without a newline. -/
def TextEndsLine (stream : List UInt8) : Prop :=
  ∀ text rest, stream = text ++ SYNC_START :: rest → SYNC_START ∉ text →
    text = [] ∨ NEWLINE ∈ text

lemma advance_sts (t : MessageTape) (c : UInt8) : (t.advance c).sts = t.sts := by
  unfold MessageTape.advance
  dsimp only
  split_ifs <;> rfl

/-- Inside a frame only the end byte ends the record. -/
lemma addChar_bStream {t : MessageTape} (ht : t.sts = .bStream) (c : UInt8) :
    ((t.addChar c).2 = true ∧ (t.addChar c).1.sts = .bStream) ∨
      ((t.addChar c).2 = false ∧ c = SYNC_END) := by
  have hsts := advance_sts t c
  rw [ht] at hsts
  unfold MessageTape.addChar MessageTape.endRecord
  dsimp only
  rw [hsts]
  split_ifs with hstart hcur hend hnl
  · exact .inl ⟨rfl, rfl⟩
  · exact .inr ⟨rfl, hend⟩
  · exact .inl ⟨rfl, rfl⟩
  · cases hnl.1
  · exact .inl ⟨rfl, rfl⟩

lemma endOfRecord_bStream {t t' : MessageTape} {stream rest : List UInt8} (ht : t.sts = .bStream)
    (h : readTape t stream = .ok (t', rest)) : endOfRecord t stream = some (.bStream, SYNC_END) := by
  induction stream generalizing t with
  | nil => cases h
  | cons c stream ih =>
    rw [readTape] at h
    rw [endOfRecord]
    obtain ⟨hgo, hsts⟩ | ⟨hstop, rfl⟩ := addChar_bStream ht c
    · generalize t.addChar c = next at h hgo hsts ⊢
      obtain ⟨u, answer⟩ := next
      subst hgo
      exact ih hsts h
    · generalize t.addChar SYNC_END = next at hstop ⊢
      obtain ⟨u, answer⟩ := next
      subst hstop
      exact congrArg (fun sts => some (sts, SYNC_END)) ht

lemma endOfRecord_text {text : List UInt8} (hstart : SYNC_START ∉ text) (hnl : NEWLINE ∉ text)
    {t : MessageTape} (ht : t.sts = .aStream) (tail : List UInt8) :
    endOfRecord t (text ++ tail) = endOfRecord { t with msg := t.msg ++ text } tail := by
  induction text generalizing t with
  | nil => rw [List.nil_append, List.append_nil]
  | cons c text ih =>
    simp only [List.mem_cons, not_or] at hstart hnl
    rw [List.cons_append, endOfRecord, addChar_text ht (Ne.symm hstart.1) (Ne.symm hnl.1)]
    dsimp only
    rw [ih hstart.2 hnl.2 (t := { t with msg := t.msg ++ [c] }) ht, List.append_assoc,
      List.singleton_append]

/-- The tape reads a stream that begins with a line. -/
lemma readTape_newline {text : List UInt8} (hstart : SYNC_START ∉ text) (hnl : NEWLINE ∉ text)
    (rest : List UInt8) :
    readTape {} (text ++ NEWLINE :: rest) = .ok ({ msg := text ++ [NEWLINE] }, rest) ∧
      endOfRecord {} (text ++ NEWLINE :: rest) = some (.aStream, NEWLINE) := by
  rw [goes_text hstart hnl rfl, endOfRecord_text hstart hnl rfl, readTape, endOfRecord,
    addChar_newline rfl]
  exact ⟨rfl, rfl⟩

/-- The tape reads a stream whose first start byte has no newline before it: the record is a
frame, behind the text. -/
lemma readTape_start {text rest unread : List UInt8} (hstart : SYNC_START ∉ text)
    (hnl : NEWLINE ∉ text) {t : MessageTape}
    (h : readTape {} (text ++ SYNC_START :: rest) = .ok (t, unread)) :
    EndsBinary (text ++ SYNC_START :: rest) ∧ ∃ frame, t.msg = text ++ SYNC_START :: frame := by
  obtain ⟨t₀, hstep, harmed, hmsg⟩ := addChar_first_start text
  have hgoes : Goes {} text { msg := text } := goes_text hstart hnl rfl
  rw [hgoes, readTape_goes hstep] at h
  constructor
  · have htext : endOfRecord {} (text ++ SYNC_START :: rest) =
        endOfRecord { msg := text } (SYNC_START :: rest) := endOfRecord_text hstart hnl rfl _
    rw [EndsBinary, htext, endOfRecord, hstep]
    exact endOfRecord_bStream harmed.sts h
  · rw [readTape_eq_readUntil] at h
    have hlt := readUntil_length_lt _ _ h
    have hout := readUntil_consumes MessageTape.addChar PyErr.connectionClosed MessageTape.msg
      addChar_msg h
    rw [hmsg] at hout
    obtain ⟨frame, hframe, -⟩ | ⟨more, -, hunread⟩ := List.append_eq_append_iff.mp hout
    · refine ⟨frame, ?_⟩
      rw [hframe, List.append_assoc, List.singleton_append]
    · rw [hunread, List.length_append] at hlt
      omega

lemma isProtobuf_text_iff (text frame : List UInt8) (hstart : SYNC_START ∉ text) :
    isProtobuf (.bytearray (text ++ SYNC_START :: frame)) = true ↔ text = [] := by
  cases text with
  | nil => simp [isProtobuf]
  | cons c text =>
    simp only [List.mem_cons, not_or] at hstart
    simp [isProtobuf, Ne.symm hstart.1]

lemma protoReceive_of_isProtobuf (models : ModelLib C P M O) (reg : Registry C P)
    {stream record rest : List UInt8} (h : msgReceive false 0 stream = .ok (record, rest))
    (hframe : isProtobuf (.bytearray record) = true) :
    protoReceive models reg stream = (unmarshall models reg record).map fun o => (o, rest) := by
  rw [protoReceive]
  split
  · rename_i e herror
    rw [h] at herror
    cases herror
  · rename_i msg rest' hok
    rw [h] at hok
    cases hok
    rw [if_pos hframe]

/-- A frame of the tape holds its DLINE byte. -/
lemma packet_of_isProtobuf {stream record rest : List UInt8}
    (h : msgReceive false 0 stream = .ok (record, rest))
    (hframe : isProtobuf (.bytearray record) = true) :
    ∃ dline, record[DLINE]? = some dline ∧ readDline (.bytearray record) = .ok dline ∧
      ∀ srcLine transformer, Packet.new (.bytearray record) srcLine transformer =
        .ok ⟨.bytearray record, srcLine, transformer, dline.toNat⟩ := by
  have hmem : record ∈ tapeMessages stream := by
    rw [tapeMessages]
    split
    · rename_i msg rest' hok
      rw [h] at hok
      cases hok
      exact List.mem_cons_self
    · rename_i e herror
      rw [h] at herror
      cases herror
  have hlong : DLINE < record.length := by
    have hshort := (tapeMessages_sound stream record hmem).2
    have hhead : record.head? = some SYNC_START := of_decide_eq_true hframe
    simp only [ShortFrame, hhead, true_and, not_le] at hshort
    exact hshort
  have hdline := List.getElem?_eq_getElem hlong
  refine ⟨record[DLINE], hdline, ?_, ?_⟩
  · rw [readDline, if_pos hframe, getByte_eq_ok_iff (.inl rfl), hdline]
  · intro srcLine transformer
    rw [Packet.new, if_pos hframe, (getByte_eq_ok_iff (.inl rfl)).mpr hdline]
    rfl

lemma newline_mem_of_start {text text' after rest : List UInt8} (hstart : SYNC_START ∉ text)
    (h : text ++ NEWLINE :: after = text' ++ SYNC_START :: rest) : NEWLINE ∈ text' := by
  obtain ⟨more, rfl, htail⟩ | ⟨more, rfl, htail⟩ := List.append_eq_append_iff.mp h
  · cases more with
    | nil => exact absurd (List.cons.inj htail).1 (by decide)
    | cons c more =>
      rw [List.cons_append, List.cons.injEq] at htail
      simp [htail.1]
  · cases more with
    | nil => exact absurd (List.cons.inj htail).1 (by decide)
    | cons c more =>
      rw [List.cons_append, List.cons.injEq] at htail
      simp [htail.1] at hstart

/-- For the record at the head of a stream, those who get it agree with the tape on its kind
exactly when no text without a newline stands before the first start byte. -/
theorem record_kinds_agree_iff (models : ModelLib C P M O) (reg : Registry C P) (arrived : Nat)
    {stream record rest : List UInt8} (h : msgReceive false arrived stream = .ok (record, rest)) :
    KindsAgree models reg stream record rest ↔ TextEndsLine stream := by
  have hzero : msgReceive false 0 stream = .ok (record, rest) := h
  obtain ⟨t, hread, rfl⟩ := msgReceive_eq_ok_iff.mp h
  obtain ⟨text, tail, rfl, hstart, hnl, rfl | ⟨after, rfl⟩ | ⟨after, rfl⟩⟩ := exists_text_split stream
  · have hgoes : Goes {} text { msg := text } := goes_text hstart hnl rfl
    rw [hgoes] at hread
    cases hread
  · obtain ⟨hline, hend⟩ := readTape_newline hstart hnl after
    have hascii : ¬EndsBinary (text ++ NEWLINE :: after) := by
      rw [EndsBinary, hend]
      decide
    rw [hline, Except.ok.injEq, Prod.mk.injEq] at hread
    rw [← hread.1]
    refine iff_of_true ⟨iff_of_false ?_ hascii, fun hb => absurd hb hascii,
      fun hb => absurd hb hascii⟩ ?_
    · intro hframe
      have hmem := List.mem_of_head? (of_decide_eq_true hframe)
      simp only [List.mem_append, List.mem_singleton, hstart, false_or] at hmem
      exact absurd hmem (by decide)
    · exact fun text' rest' hsplit _ => .inr (newline_mem_of_start hstart hsplit)
  · obtain ⟨hbinary, frame, hmsg⟩ := readTape_start hstart hnl hread
    have hkind := isProtobuf_text_iff text frame hstart
    rw [← hmsg] at hkind
    constructor
    · intro hagree text' rest' hsplit hstart'
      left
      rw [hkind.mp (hagree.kind.mpr hbinary), List.nil_append] at hsplit
      cases text' with
      | nil => rfl
      | cons c text' =>
        rw [List.cons_append, List.cons.injEq] at hsplit
        simp [hsplit.1] at hstart'
    · intro hclean
      have htext : text = [] := (hclean text after rfl hstart).resolve_right hnl
      have hframe := hkind.mpr htext
      exact ⟨iff_of_true hframe hbinary, fun _ => protoReceive_of_isProtobuf models reg hzero hframe,
        fun _ => packet_of_isProtobuf hzero hframe⟩

theorem record_kinds_agree_line_before_frame :
    KindsAgree sampleModels sampleRegistry [0x61, 0x0A, 0x1E, 5, 0, 0, 0, 2, 8, 5, 0x17] [0x61, 0x0A]
        [0x1E, 5, 0, 0, 0, 2, 8, 5, 0x17] ∧
      KindsAgree sampleModels sampleRegistry [0x1E, 5, 0, 0, 0, 2, 8, 5, 0x17]
        [0x1E, 5, 0, 0, 0, 2, 8, 5, 0x17] [] := by
  constructor
  · apply (record_kinds_agree_iff sampleModels sampleRegistry 0 rfl).mpr
    intro text rest h _
    have hstart : SYNC_START ∉ ([0x61] : List UInt8) := by decide
    exact .inr (newline_mem_of_start hstart h)
  · apply (record_kinds_agree_iff sampleModels sampleRegistry 0 rfl).mpr
    intro text rest h hstart
    cases text with
    | nil => exact .inl rfl
    | cons c text =>
      obtain ⟨rfl, -⟩ := List.cons.inj h
      exact absurd List.mem_cons_self hstart

/-- A letter before a frame: the tape ends a frame that `is_protobuf` does not take for one. -/
theorem record_kinds_differ_behind_letter :
    ¬∀ stream record rest, msgReceive false 0 stream = .ok (record, rest) →
      KindsAgree sampleModels sampleRegistry stream record rest := by
  intro hall
  have hkind := (hall [0x61, 0x1E, 5, 0, 0, 0, 2, 8, 5, 0x17] _ _ rfl).kind
  exact absurd hkind (by decide)

end Kind

end Nais.Host
