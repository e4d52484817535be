import Nais.Host.Marshall
import Nais.Lib.Cut

/-!
# The message tape

`MessageTape` of `pynais/junction.py`, the automaton that cuts a byte stream into ascii
lines and binary frames, and its two readers, `msg_receive` and `receive_from`.
-/

namespace Nais.Host
open Nais.Lib Nais.Lib.Cut

inductive StreamSts where
  | aStream
  | bStream
  deriving DecidableEq, Repr

inductive LenSts where
  | start
  | lenEnter
  | lenDone
  deriving DecidableEq, Repr

/-- State machine for processing input bytes. -/
structure MessageTape where
  expectedLen : Nat := 65536
  cursor : Nat := 0
  mult : Nat := 1
  stsLen : LenSts := .start
  hlen : Nat := 6
  plen : Nat := 0
  sts : StreamSts := .aStream
  msg : List UInt8 := []
  deriving DecidableEq, Repr

def NEWLINE : UInt8 := 10

/-- The first block of `add_char`: inside a binary frame it advances the cursor and, on a
LEN byte, accumulates the length. -/
def MessageTape.advance (t : MessageTape) (channel : UInt8) : MessageTape :=
  if t.sts = .bStream then
    let t := { t with cursor := t.cursor + 1 }
    if t.cursor = 5 ∨ t.stsLen = .lenEnter then
      let lenByte := channel.toNat
      if lenByte &&& 0x80 ≠ 0 then
        { t with
          plen := t.plen + t.mult * (lenByte &&& 0x7f)
          mult := t.mult * 128
          hlen := t.hlen + 1
          stsLen := .lenEnter }
      else
        { t with
          expectedLen := t.hlen + t.plen + t.mult * lenByte
          stsLen := .lenDone }
    else t
  else t

/-- The last block of `add_char`: the byte is already part of `msg`. -/
def MessageTape.endRecord (t : MessageTape) (channel : UInt8) : MessageTape × Bool :=
  if channel = SYNC_START then
    -- `mult`, `hlen` and `expected_len` keep what earlier LEN bytes made of them
    ({ t with cursor := 0, plen := 0, sts := .bStream, stsLen := .start }, true)
  else if t.sts = .bStream ∧ t.cursor = t.expectedLen then
    if channel = SYNC_END then ({ t with sts := .aStream }, false) else (t, true)
  else if t.sts = .aStream ∧ channel = NEWLINE then (t, false)
  else (t, true)

/-- Process an input byte. The answer is false if it is the last of a complete record. -/
def MessageTape.addChar (t : MessageTape) (channel : UInt8) : MessageTape × Bool :=
  let t := t.advance channel
  { t with msg := t.msg ++ [channel] }.endRecord channel

/-- The `while read_tape` loop, one byte at a time; an empty read is a closed connection. -/
def readTape (parser : MessageTape) : List UInt8 → Except PyErr (MessageTape × List UInt8)
  | [] => .error .connectionClosed
  | channel :: stream =>
    match parser.addChar channel with
    | (parser, true) => readTape parser stream
    | (parser, false) => .ok (parser, stream)

/-- `msg_receive` of a stream reader: the message and the unread bytes. `arrived` bytes are
available when an `expect_json` reader asks for 2048 of them. -/
def msgReceive (expectJson : Bool) (arrived : Nat) (stream : List UInt8) :
    Except PyErr (List UInt8 × List UInt8) :=
  if expectJson then
    let n := min 2048 arrived
    .ok (stream.take n, stream.drop n)
  else do
    let (parser, stream) ← readTape {} stream
    .ok (parser.msg, stream)

/-- `receive_from`, the same loop over a blocking socket. -/
def receiveFrom (expectJson : Bool) (arrived : Nat) (stream : List UInt8) :
    Except PyErr (List UInt8 × List UInt8) :=
  if expectJson then
    let n := min 2048 arrived
    .ok (stream.take n, stream.drop n)
  else do
    let (parser, stream) ← readTape {} stream
    .ok (parser.msg, stream)

lemma advance_msg (t : MessageTape) (c : UInt8) : (t.advance c).msg = t.msg := by
  unfold MessageTape.advance
  dsimp only
  split_ifs <;> rfl

lemma endRecord_msg (t : MessageTape) (c : UInt8) : (t.endRecord c).1.msg = t.msg := by
  unfold MessageTape.endRecord
  split_ifs <;> rfl

lemma addChar_msg (t : MessageTape) (c : UInt8) : (t.addChar c).1.msg = t.msg ++ [c] := by
  unfold MessageTape.addChar
  dsimp only
  rw [endRecord_msg, advance_msg]

lemma readTape_eq_readUntil (t : MessageTape) (stream : List UInt8) :
    readTape t stream = readUntil MessageTape.addChar .connectionClosed t stream := by
  induction stream generalizing t with
  | nil => rfl
  | cons c stream ih =>
    rw [readTape, readUntil]
    rcases h : t.addChar c with ⟨t', _ | _⟩
    · simp
    · simp [ih]

/-- The tape as a cutter of byte streams. -/
def tapeCutter : Cutter UInt8 PyErr :=
  automaton MessageTape.addChar .connectionClosed MessageTape.msg addChar_msg {} rfl

lemma msgReceive_eq_tapeCutter (arrived : Nat) :
    msgReceive false arrived = tapeCutter.receive := by
  funext stream
  unfold msgReceive tapeCutter automaton
  simp only [Bool.false_eq_true, ite_false, readTape_eq_readUntil]
  cases readUntil MessageTape.addChar PyErr.connectionClosed {} stream <;> rfl

lemma receiveFrom_eq_msgReceive : receiveFrom = msgReceive := rfl

lemma tapeCutter_accepts_iff (r : List UInt8) :
    tapeCutter.Accepts r ↔ ∃ t, readTape {} r = .ok (t, []) := by
  simp only [readTape_eq_readUntil]
  exact automaton_accepts_iff MessageTape.addChar PyErr.connectionClosed MessageTape.msg addChar_msg {} rfl r

end Nais.Host
