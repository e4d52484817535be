import Mathlib.Data.BitVec
import Nais.Board.Nais

/-!
# The UART receiver

`serial_loop` of `sys/bocia/bocia_uart.c`. The end of a payload is the position that
a LEN field of one byte implies, so that of a frame with a two-byte LEN field the last
payload byte is not stored.
-/

namespace Nais.Board
open Nais.Lib Nais.Lib.Memory

inductive Sts where
  | WAIT_START | MSG_TYPE | SLINE | DLINE | FLAGS | LEN | BIN_BLOCK | EXPECT_END
  deriving DecidableEq, Repr

/-- `lineBufPtr` is an offset into `rxbuff`. `unmarshalled` are the contents of the buffer at
the calls of `bocia_unmarshall`. -/
structure SerialLoop where
  rxbuff : Buffer 512
  lineBufPtr : Nat
  sts : Sts
  binlen : BitVec 32
  multiplier : BitVec 32
  unmarshalled : List (List UInt8)
  deriving DecidableEq

/-- `*line_buf_ptr++ = c`. -/
def SerialLoop.put (s : SerialLoop) (c : UInt8) : Except Fault SerialLoop :=
  (store s.rxbuff s.lineBufPtr [c]).map
    fun rxbuff => { s with rxbuff := rxbuff, lineBufPtr := s.lineBufPtr + 1 }

/-- The body of the loop for one character. -/
def serialStep (s : SerialLoop) (c : UInt8) : Except Fault SerialLoop :=
  if c = RECORD_END ∧ s.sts = .EXPECT_END then
    .ok { s with
      unmarshalled := s.unmarshalled ++ [s.rxbuff.bytes]
      sts := .WAIT_START
      lineBufPtr := 0
      binlen := 0 }
  else
    match s.sts with
    | .WAIT_START =>
      if c = RECORD_START then .ok { s with sts := .MSG_TYPE, multiplier := 1 } else .ok s
    | .MSG_TYPE => { s with sts := .SLINE }.put c
    | .SLINE => { s with sts := .DLINE }.put c
    | .DLINE => { s with sts := .FLAGS }.put c
    | .FLAGS => { s with sts := .LEN }.put c
    | .LEN =>
      { s with
        binlen := s.binlen + BitVec.ofNat 32 (c.toNat &&& 127) * s.multiplier
        multiplier := s.multiplier * 128
        sts := if c.toNat &&& 128 ≠ 0 then .LEN else .BIN_BLOCK }.put c
    | .BIN_BLOCK =>
      (s.put c).map fun s =>
        if BitVec.ofNat 32 s.lineBufPtr = s.binlen + 5 then { s with sts := .EXPECT_END } else s
    | .EXPECT_END => .ok s

def serialLoop (s : SerialLoop) (cs : List UInt8) : Except Fault SerialLoop := cs.foldlM serialStep s

/-- A frame behind any bytes that do not start one. -/
structure UartFrame where
  gap : List UInt8
  type : UInt8
  sline : UInt8
  dline : UInt8
  flags : UInt8
  payload : List UInt8
  quiet : RECORD_START ∉ gap
  nonempty : payload ≠ []
  fits : 4 + (Base128.encode payload.length).length + payload.length ≤ 512

namespace UartFrame

/-- TYPE up to LEN. -/
def header (f : UartFrame) : List UInt8 :=
  [f.type, f.sline, f.dline, f.flags] ++ Base128.encode f.payload.length

/-- TYPE up to PAYLOAD. -/
def body (f : UartFrame) : List UInt8 := f.header ++ f.payload

def bytes (f : UartFrame) : List UInt8 := f.gap ++ RECORD_START :: f.body ++ [RECORD_END]

end UartFrame

/-- Nothing of a frame was read yet. -/
structure SerialLoop.Idle (s : SerialLoop) : Prop where
  sts : s.sts = .WAIT_START
  ptr : s.lineBufPtr = 0
  binlen : s.binlen = 0

/-- The loop as its thread starts it. -/
def SerialLoop.start (rxbuff : Buffer 512) : SerialLoop := ⟨rxbuff, 0, .WAIT_START, 0, 1, []⟩

/-- Every frame makes one call of `bocia_unmarshall`, on a buffer that begins with its body,
and leaves the loop idle. -/
def Receives : SerialLoop → List UartFrame → Prop
  | _, [] => True
  | s, f :: fs => ∃ s' rx, serialLoop s f.bytes = .ok s' ∧
      s'.unmarshalled = s.unmarshalled ++ [rx] ∧ f.body <+: rx ∧ s'.Idle ∧ Receives s' fs

/-- A payload is shorter than 128 bytes, or its last byte is already in the buffer where it
belongs: left there by the frames before it, or by what the buffer held at the start. -/
def Intact : List UInt8 → List UartFrame → Prop
  | _, [] => True
  | stale, f :: fs =>
    (f.payload.length < 128 ∨ stale[f.payload.length + 5]? = f.payload.getLast?) ∧
      Intact (f.body ++ stale.drop f.body.length) fs

section Phases

variable {s : SerialLoop}

lemma serialLoop_append (s : SerialLoop) (xs ys : List UInt8) :
    serialLoop s (xs ++ ys) = (serialLoop s xs).bind (serialLoop · ys) := List.foldlM_append ..

lemma serialLoop_cons (s : SerialLoop) (c : UInt8) (cs : List UInt8) :
    serialLoop s (c :: cs) = (serialStep s c).bind (serialLoop · cs) := List.foldlM_cons ..

lemma serialLoop_nil (s : SerialLoop) : serialLoop s [] = .ok s := rfl

lemma serialLoop_gap (hs : s.sts = .WAIT_START) {gap : List UInt8} (h : RECORD_START ∉ gap) :
    serialLoop s gap = .ok s := by
  induction gap with
  | nil => rfl
  | cons c gap ih =>
    rw [List.mem_cons, not_or] at h
    have hstep : serialStep s c = .ok s := by
      rw [serialStep, if_neg (by rw [hs]; simp), hs]
      exact if_neg (Ne.symm h.1)
    rw [serialLoop_cons, hstep]
    exact ih h.2

lemma put_ok {c : UInt8} {rxbuff : Buffer 512} (h : s.rxbuff.write s.lineBufPtr [c] = some rxbuff) :
    s.put c = .ok { s with rxbuff := rxbuff, lineBufPtr := s.lineBufPtr + 1 } := by
  rw [SerialLoop.put, store_eq_ok_iff.mpr h]
  rfl

lemma serialStep_field {next : Sts} {c : UInt8} {rxbuff : Buffer 512}
    (hs : s.sts = .MSG_TYPE ∧ next = .SLINE ∨ s.sts = .SLINE ∧ next = .DLINE ∨
      s.sts = .DLINE ∧ next = .FLAGS ∨ s.sts = .FLAGS ∧ next = .LEN)
    (h : s.rxbuff.write s.lineBufPtr [c] = some rxbuff) :
    serialStep s c =
      .ok { s with rxbuff := rxbuff, lineBufPtr := s.lineBufPtr + 1, sts := next } := by
  obtain ⟨hs, rfl⟩ | ⟨hs, rfl⟩ | ⟨hs, rfl⟩ | ⟨hs, rfl⟩ := hs <;>
  · rw [serialStep, if_neg (by simp [hs]), hs]
    exact put_ok h

lemma serialLoop_header (hs : s.Idle) {type sline dline flags : UInt8} {rxbuff : Buffer 512}
    (h : s.rxbuff.write 0 [type, sline, dline, flags] = some rxbuff) :
    serialLoop s [RECORD_START, type, sline, dline, flags] =
      .ok { s with rxbuff := rxbuff, lineBufPtr := 4, sts := .LEN, multiplier := 1 } := by
  obtain ⟨b₁, h₁, h⟩ := Buffer.write_cons_iff.mp h
  obtain ⟨b₂, h₂, h⟩ := Buffer.write_cons_iff.mp h
  obtain ⟨b₃, h₃, h₄⟩ := Buffer.write_cons_iff.mp h
  have hstart : serialStep s RECORD_START = .ok { s with sts := .MSG_TYPE, multiplier := 1 } := by
    rw [serialStep, if_neg (by simp [hs.sts]), hs.sts]
    rfl
  have htype : serialStep { s with sts := .MSG_TYPE, multiplier := 1 } type = .ok { s with
      rxbuff := b₁, lineBufPtr := s.lineBufPtr + 1, sts := .SLINE, multiplier := 1 } :=
    serialStep_field (Or.inl ⟨rfl, rfl⟩) (by rw [hs.ptr]; exact h₁)
  rw [serialLoop_cons, hstart, Except.bind, serialLoop_cons, htype, Except.bind, hs.ptr]
  rw [serialLoop_cons, serialStep_field (Or.inr (Or.inl ⟨rfl, rfl⟩)) h₂, Except.bind]
  rw [serialLoop_cons, serialStep_field (Or.inr (Or.inr (Or.inl ⟨rfl, rfl⟩))) h₃, Except.bind]
  rw [serialLoop_cons, serialStep_field (Or.inr (Or.inr (Or.inr ⟨rfl, rfl⟩))) h₄, Except.bind]
  rfl

/-- One byte of LEN. -/
lemma serialStep_len {c : UInt8} (hs : s.sts = .LEN) {rxbuff : Buffer 512}
    (h : s.rxbuff.write s.lineBufPtr [c] = some rxbuff) :
    serialStep s c = .ok { s with
      rxbuff := rxbuff
      lineBufPtr := s.lineBufPtr + 1
      sts := if 128 ≤ c.toNat then .LEN else .BIN_BLOCK
      binlen := s.binlen + BitVec.ofNat 32 (c.toNat % 128) * s.multiplier
      multiplier := s.multiplier * 128 } := by
  rw [serialStep, if_neg (by simp [hs]), hs]
  dsimp only
  rw [Base128.and_127]
  simp only [Base128.and_128_ne_zero_iff]
  exact put_ok h

/-- LEN is added up and stored. -/
lemma serialLoop_len (n : Nat) (hs : s.sts = .LEN) {rxbuff : Buffer 512}
    (h : s.rxbuff.write s.lineBufPtr (Base128.encode n) = some rxbuff) :
    ∃ m, serialLoop s (Base128.encode n) = .ok { s with
      rxbuff := rxbuff
      lineBufPtr := s.lineBufPtr + (Base128.encode n).length
      sts := .BIN_BLOCK
      binlen := s.binlen + BitVec.ofNat 32 n * s.multiplier
      multiplier := m } := by
  induction n using Nat.strong_induction_on generalizing s with
  | _ n ih =>
    by_cases hn : n < 128
    · rw [Base128.encode_small hn] at h ⊢
      refine ⟨s.multiplier * 128, ?_⟩
      rw [serialLoop_cons, serialStep_len hs h, Except.bind, serialLoop_nil,
        Base128.toNat_last_digit hn, Nat.mod_eq_of_lt hn, if_neg (by omega)]
      rfl
    · rw [Base128.encode_large (by omega)] at h ⊢
      obtain ⟨b₁, h₁, h⟩ := Buffer.write_cons_iff.mp h
      have hd := Base128.toNat_digit n
      rw [serialLoop_cons, serialStep_len hs h₁, Except.bind, hd, if_pos (by omega)]
      obtain ⟨m, hm⟩ := ih (n / 128) (by omega)
        (s := { s with
          rxbuff := b₁
          lineBufPtr := s.lineBufPtr + 1
          sts := .LEN
          binlen := s.binlen + BitVec.ofNat 32 ((128 + n % 128) % 128) * s.multiplier
          multiplier := s.multiplier * 128 }) rfl h
      refine ⟨m, ?_⟩
      rw [hm]
      congr 2
      · rw [List.length_cons]
        dsimp only
        omega
      · have hn : n = (128 + n % 128) % 128 + n / 128 * 128 := by omega
        have h128 : BitVec.ofNat 32 128 = 128 := rfl
        conv_rhs => rw [hn, BitVec.ofNat_add, BitVec.ofNat_mul, h128]
        ring

/-- The end position, in 32 bits. -/
lemma ofNat_eq_add_five_iff {k n : ℕ} :
    BitVec.ofNat 32 k = BitVec.ofNat 32 n + 5 ↔ k % 2 ^ 32 = (n + 5) % 2 ^ 32 := by
  have h5 : (5 : BitVec 32) = BitVec.ofNat 32 5 := rfl
  rw [h5, ← BitVec.ofNat_add, ← BitVec.toNat_inj, BitVec.toNat_ofNat, BitVec.toNat_ofNat]

/-- A byte of the payload. -/
lemma serialStep_block {c : UInt8} (hs : s.sts = .BIN_BLOCK) {rxbuff : Buffer 512}
    (h : s.rxbuff.write s.lineBufPtr [c] = some rxbuff) :
    serialStep s c = .ok (if BitVec.ofNat 32 (s.lineBufPtr + 1) = s.binlen + 5 then
      { s with rxbuff := rxbuff, lineBufPtr := s.lineBufPtr + 1, sts := .EXPECT_END }
      else { s with rxbuff := rxbuff, lineBufPtr := s.lineBufPtr + 1 }) := by
  rw [serialStep, if_neg (by simp [hs]), hs]
  dsimp only
  rw [put_ok h, Except.map]
  simp only [hs]

/-- The payload is stored up to the position that ends it. -/
lemma serialLoop_block {n : Nat} {p : List UInt8} (hs : s.sts = .BIN_BLOCK) (hp : p ≠ [])
    (hlen : s.binlen = BitVec.ofNat 32 n) (hn : n ≤ 512) (hend : s.lineBufPtr + p.length = n + 5)
    {rxbuff : Buffer 512} (h : s.rxbuff.write s.lineBufPtr p = some rxbuff) :
    serialLoop s p =
      .ok { s with rxbuff := rxbuff, lineBufPtr := n + 5, sts := .EXPECT_END } := by
  induction p generalizing s with
  | nil => exact absurd rfl hp
  | cons c p ih =>
    obtain ⟨b₁, h₁, h⟩ := Buffer.write_cons_iff.mp h
    rw [List.length_cons] at hend
    have hstep := serialStep_block hs h₁
    have hiff : BitVec.ofNat 32 (s.lineBufPtr + 1) = s.binlen + 5 ↔ s.lineBufPtr + 1 = n + 5 := by
      rw [hlen, ofNat_eq_add_five_iff]
      omega
    simp only [hiff] at hstep
    rw [serialLoop_cons, hstep, Except.bind]
    by_cases hlast : p = []
    · subst hlast
      rw [Buffer.write_nil h]
      rw [List.length_nil] at hend
      rw [if_pos (by omega), serialLoop_nil]
      congr 2
    · have hpos := List.length_pos_iff.mpr hlast
      rw [if_neg (by omega)]
      exact ih hs hlast hlen (by dsimp only; omega) h

lemma serialStep_end (hs : s.sts = .EXPECT_END) : serialStep s RECORD_END = .ok { s with
    unmarshalled := s.unmarshalled ++ [s.rxbuff.bytes]
    sts := .WAIT_START
    lineBufPtr := 0
    binlen := 0 } := by
  rw [serialStep, if_pos ⟨rfl, hs⟩]

/-- A byte between the end position and END is dropped. If it has the value of END, it ends
the frame, and END is skipped. -/
lemma serialLoop_tail (hs : s.sts = .EXPECT_END) (c : UInt8) :
    serialLoop s [c, RECORD_END] = serialLoop s [RECORD_END] := by
  have hend := serialStep_end hs
  by_cases hc : c = RECORD_END
  · subst hc
    rw [serialLoop_cons, hend, Except.bind, serialLoop_gap rfl (by decide), serialLoop_cons, hend]
    rfl
  · have hdrop : serialStep s c = .ok s := by
      rw [serialStep, if_neg (fun h => hc h.1), hs]
    rw [serialLoop_cons, hdrop]
    rfl

end Phases

namespace UartFrame

/-- The bytes that the loop stores of a frame. -/
def stored (f : UartFrame) : List UInt8 :=
  f.header ++ if f.payload.length < 128 then f.payload else f.payload.dropLast

lemma header_length (f : UartFrame) :
    f.header.length = 4 + (Base128.encode f.payload.length).length := by
  rw [header, List.length_append]
  rfl

/-- LEN of a payload that fits the buffer has two bytes from 128 on. -/
lemma len_length (f : UartFrame) :
    (Base128.encode f.payload.length).length = if f.payload.length < 128 then 1 else 2 := by
  have hfits := f.fits
  have hone := Base128.encode_length_one_iff f.payload.length
  have htwo := Base128.encode_length_le 1 f.payload.length (by norm_num; omega)
  have hpos := List.length_pos_iff.mpr (Base128.encode_ne_nil f.payload.length)
  split_ifs with h
  · exact hone.mpr h
  · have hne := mt hone.mp h
    omega

lemma stored_length (f : UartFrame) : f.stored.length = f.payload.length + 5 := by
  have hlen := f.len_length
  have hpos := List.length_pos_iff.mpr f.nonempty
  rw [stored, List.length_append, header_length]
  split_ifs at hlen ⊢
  · omega
  · rw [List.length_dropLast]
    omega

lemma body_eq (f : UartFrame) : f.body = f.stored ++
    if f.payload.length < 128 then [] else [f.payload.getLast f.nonempty] := by
  rw [body, stored]
  split_ifs
  · rw [List.append_nil]
  · rw [List.append_assoc, List.dropLast_append_getLast]

/-- The payload is what is stored and at most one byte behind the end position. -/
lemma exists_split (f : UartFrame) :
    ∃ q tail, f.payload = q ++ tail ∧ q ≠ [] ∧
      4 + (Base128.encode f.payload.length).length + q.length = f.payload.length + 5 ∧
      f.stored = f.header ++ q ∧ (tail = [] ∨ ∃ c, tail = [c]) := by
  have hpos := List.length_pos_iff.mpr f.nonempty
  have hlen := f.len_length
  by_cases hn : f.payload.length < 128
  · rw [if_pos hn] at hlen
    refine ⟨f.payload, [], by simp, f.nonempty, by omega, ?_, Or.inl rfl⟩
    rw [stored, if_pos hn]
  · rw [if_neg hn] at hlen
    refine ⟨f.payload.dropLast, [f.payload.getLast f.nonempty],
      (List.dropLast_append_getLast f.nonempty).symm, ?_, ?_, ?_, Or.inr ⟨_, rfl⟩⟩
    · rw [← List.length_pos_iff, List.length_dropLast]
      omega
    · rw [List.length_dropLast]
      omega
    · rw [stored, if_neg hn]

end UartFrame

section Frame

variable {s : SerialLoop}

/-- A frame makes one call and leaves the loop as it was, except for the buffer. -/
lemma serialLoop_frame (hs : s.Idle) (f : UartFrame) :
    ∃ rxbuff m, s.rxbuff.write 0 f.stored = some rxbuff ∧ serialLoop s f.bytes =
      .ok { s with
        rxbuff := rxbuff
        multiplier := m
        unmarshalled := s.unmarshalled ++ [rxbuff.bytes] } := by
  have hfits := f.fits
  have hlen := f.len_length
  obtain ⟨q, tail, hpayload, hq, hqlen, hstored, htail⟩ := f.exists_split
  obtain ⟨rxbuff, hw⟩ : ∃ rxbuff, s.rxbuff.write 0 f.stored = some rxbuff :=
    s.rxbuff.exists_write (by rw [f.stored_length]; split_ifs at hlen <;> omega)
  have hw' := hw
  rw [hstored, UartFrame.header, List.append_assoc, ← Buffer.write_adjacent,
    Option.bind_eq_some_iff] at hw'
  obtain ⟨b₁, h₁, hw'⟩ := hw'
  rw [← Buffer.write_adjacent, Option.bind_eq_some_iff] at hw'
  obtain ⟨b₂, h₂, h₃⟩ := hw'
  have hbytes : f.bytes = f.gap ++ ([RECORD_START, f.type, f.sline, f.dline, f.flags] ++
      (Base128.encode f.payload.length ++ (q ++ (tail ++ [RECORD_END])))) := by
    have hend : f.payload ++ [RECORD_END] = q ++ (tail ++ [RECORD_END]) := by
      conv_lhs => rw [hpayload]
      rw [List.append_assoc]
    rw [← hend, UartFrame.bytes, UartFrame.body, UartFrame.header]
    simp
  obtain ⟨m, hm⟩ := serialLoop_len f.payload.length (s := { s with
    rxbuff := b₁, lineBufPtr := 4, sts := .LEN, multiplier := 1 }) rfl h₂
  have hblock := serialLoop_block (n := f.payload.length) (s := { s with
    rxbuff := b₂, lineBufPtr := 4 + (Base128.encode f.payload.length).length, sts := .BIN_BLOCK,
    binlen := BitVec.ofNat 32 f.payload.length, multiplier := m }) rfl hq rfl (by omega)
    hqlen h₃
  refine ⟨rxbuff, m, hw, ?_⟩
  rw [hbytes, serialLoop_append, serialLoop_gap hs.sts f.quiet, Except.bind, serialLoop_append,
    serialLoop_header hs h₁, Except.bind, serialLoop_append, hm, Except.bind, hs.binlen]
  dsimp only
  rw [zero_add, mul_one, serialLoop_append, hblock, Except.bind]
  have hend : ∀ e : SerialLoop, e.sts = .EXPECT_END →
      serialLoop e (tail ++ [RECORD_END]) = serialLoop e [RECORD_END] := by
    intro e he
    obtain rfl | ⟨c, rfl⟩ := htail
    · rfl
    · exact serialLoop_tail he c
  rw [hend _ rfl, serialLoop_cons, serialStep_end rfl, Except.bind, serialLoop_nil, ← hs.sts,
    ← hs.ptr, ← hs.binlen]

/-- The buffer of the call begins with the body when the byte that was not stored is there. -/
lemma body_prefix_iff {stale : List UInt8} (hstale : stale.length = 512) (f : UartFrame) :
    f.body <+: f.stored ++ stale.drop f.stored.length ↔
      f.payload.length < 128 ∨ stale[f.payload.length + 5]? = f.payload.getLast? := by
  have hfits := f.fits
  have hlen := f.len_length
  rw [f.body_eq, f.stored_length, List.prefix_append_right_inj]
  split_ifs at hlen ⊢ with hn
  · simp [hn]
  · have hlt : f.payload.length + 5 < stale.length := by omega
    rw [List.drop_eq_getElem_cons hlt, List.cons_prefix_cons, List.getElem?_eq_getElem hlt,
      List.getLast?_eq_getLast_of_ne_nil f.nonempty, Option.some.injEq]
    simp [hn, eq_comm]

lemma overlay_body {stale : List UInt8} (hstale : stale.length = 512) (f : UartFrame)
    (h : f.payload.length < 128 ∨ stale[f.payload.length + 5]? = f.payload.getLast?) :
    f.stored ++ stale.drop f.stored.length = f.body ++ stale.drop f.body.length := by
  obtain ⟨rest, hrest⟩ := (body_prefix_iff hstale f).mpr h
  have hle : f.stored.length ≤ f.body.length := by
    rw [f.body_eq, List.length_append]
    omega
  have htail : stale.drop f.body.length = rest := by
    have hdrop := congrArg (List.drop f.body.length) hrest
    rw [List.drop_left' rfl, List.drop_append, List.drop_eq_nil_of_le hle, List.drop_drop,
      List.nil_append, Nat.add_sub_cancel' hle] at hdrop
    exact hdrop.symm
  rw [htail, hrest]

end Frame

lemma receives_iff_intact {s : SerialLoop} (hs : s.Idle) (frames : List UartFrame) :
    Receives s frames ↔ Intact s.rxbuff.bytes frames := by
  induction frames generalizing s with
  | nil => exact Iff.rfl
  | cons f frames ih =>
    obtain ⟨rxbuff, m, hw, hrun⟩ := serialLoop_frame hs f
    have hbytes := Buffer.write_zero hw
    have hidle : ({ s with
        rxbuff := rxbuff
        multiplier := m
        unmarshalled := s.unmarshalled ++ [rxbuff.bytes] } : SerialLoop).Idle :=
      ⟨hs.sts, hs.ptr, hs.binlen⟩
    rw [Receives, Intact, ← body_prefix_iff s.rxbuff.size f, ← hbytes]
    constructor
    · rintro ⟨s', rx, hrun', hcalls, hheld, -, hrest⟩
      rw [hrun, Except.ok.injEq] at hrun'
      subst hrun'
      rw [List.append_cancel_left_eq, List.singleton_inj] at hcalls
      subst hcalls
      refine ⟨hheld, ?_⟩
      have hintact := (ih hidle).mp hrest
      rw [hbytes] at hheld
      rw [← overlay_body s.rxbuff.size f ((body_prefix_iff s.rxbuff.size f).mp hheld), ← hbytes]
      exact hintact
    · rintro ⟨hheld, hintact⟩
      refine ⟨_, rxbuff.bytes, hrun, rfl, hheld, hidle, (ih hidle).mpr ?_⟩
      rw [hbytes] at hheld
      rw [← overlay_body s.rxbuff.size f ((body_prefix_iff s.rxbuff.size f).mp hheld), ← hbytes]
        at hintact
      exact hintact

/-- From its start on, the loop makes exactly one call for each frame, on the whole body of
the frame, exactly when every frame with a two-byte LEN field finds its last payload byte
already in the buffer. -/
theorem serial_loop_receives_iff (rxbuff : Buffer 512) (frames : List UartFrame) :
    Receives (.start rxbuff) frames ↔ Intact rxbuff.bytes frames :=
  receives_iff_intact ⟨rfl, rfl, rfl⟩ frames

/-- A payload of 128 bytes that does not end with what the zeroed buffer holds. -/
theorem serial_loop_drops_last_byte :
    ¬∀ frames, Receives (.start (Buffer.fill 512 0)) frames := by
  intro h
  have hloss := h [⟨[], COMMAND_TYPE, 7, 0, 0, List.replicate 128 1, by simp, by simp,
    by decide +kernel⟩]
  rw [receives_iff_intact ⟨rfl, rfl, rfl⟩] at hloss
  obtain ⟨hshort | hstale, -⟩ := hloss
  · exact absurd hshort (by decide +kernel)
  · exact absurd hstale (by decide +kernel)

end Nais.Board
