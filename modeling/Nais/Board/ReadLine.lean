import Mathlib.Tactic
import Mathlib.Data.UInt

/-!
# Reading a line from the UART

`uart_read_line` edits a line in the buffer of its caller until a CR or an LF comes. The check
that the buffer is full stands before every character of the line, the terminator is written
without one.
-/

namespace Nais.Board.ReadLine

/-- What `uart_read_line` keeps. `stores` are the offsets from `pcBuffer` at which it has stored,
the last one first, and `echo` the characters it has put out. -/
structure Line where
  buffer : ℕ → UInt8
  iLen : UInt32
  stores : List ℕ
  echo : List UInt8

def backspace : UInt8 := 8

def endsLine (cChar : UInt8) : Bool := cChar = 13 ∨ cChar = 10

namespace Line

/-- `*(pcBuffer + iLen) = cChar`. -/
def put (s : Line) (cChar : UInt8) : Line :=
  { s with
    buffer := Function.update s.buffer s.iLen.toNat cChar
    stores := s.iLen.toNat :: s.stores }

/-- The loop, with the characters that come in. It waits when there are no more. -/
def read (uiBufLen : UInt32) : Line → List UInt8 → Line × Option Int32
  | s, [] => (s, none)
  | s, cChar :: stream =>
    let s := { s with echo := s.echo ++ [cChar] }
    if endsLine cChar then
      ({ s.put 0 with echo := s.echo ++ [10, 13] }, some s.iLen.toInt32)
    else if uiBufLen ≤ s.iLen then (s, some (-1))
    else if cChar ≠ backspace then read uiBufLen { s.put cChar with iLen := s.iLen + 1 } stream
    else read uiBufLen { s with iLen := if s.iLen ≠ 0 then s.iLen - 1 else s.iLen } stream

end Line

/-- `uart_read_line`; `enabled` says whether the switch on the UART finds its base address. -/
def uartReadLine (enabled : Bool) (uiBufLen : UInt32) (buffer : ℕ → UInt8) (stream : List UInt8) :
    Line × Option Int32 :=
  let s : Line := ⟨buffer, 0, [], []⟩
  if enabled then s.read uiBufLen stream else (s, some (-1))

/-- The text that is left when each backspace has taken the character before it. -/
def edit (chars : List UInt8) : List UInt8 :=
  chars.foldl (fun text c => if c = backspace then text.dropLast else text ++ [c]) []

/-- The characters before the first CR or LF. -/
def lineOf (stream : List UInt8) : List UInt8 := stream.takeWhile fun c => !endsLine c

/-- A character of the line comes when the text behind `p` has as many characters as the buffer. -/
def Crowded (uiBufLen : UInt32) (p chars : List UInt8) : Prop :=
  ∃ q c r, chars = q ++ c :: r ∧ uiBufLen.toNat ≤ (edit (p ++ q)).length

lemma edit_concat (p : List UInt8) (c : UInt8) :
    edit (p ++ [c]) = if c = backspace then (edit p).dropLast else edit p ++ [c] := by
  simp [edit, List.foldl_append]

lemma crowded_nil (uiBufLen : UInt32) (p : List UInt8) : ¬Crowded uiBufLen p [] := by
  rintro ⟨q, c, r, h, -⟩
  simp at h

lemma crowded_cons {uiBufLen : UInt32} {p chars : List UInt8} {c : UInt8} :
    Crowded uiBufLen p (c :: chars) ↔
      uiBufLen.toNat ≤ (edit p).length ∨ Crowded uiBufLen (p ++ [c]) chars := by
  constructor
  · rintro ⟨q, c', r, h, hfull⟩
    cases q with
    | nil => exact Or.inl (by simpa using hfull)
    | cons d q =>
      obtain ⟨rfl, rfl⟩ : c = d ∧ chars = q ++ c' :: r := by simpa using h
      exact Or.inr ⟨q, c', r, rfl, by simpa using hfull⟩
  · rintro (hfull | ⟨q, c', r, rfl, hfull⟩)
    · exact ⟨[], c, chars, rfl, by simpa using hfull⟩
    · exact ⟨c :: q, c', r, rfl, by simpa using hfull⟩

lemma map_range_update (buffer : ℕ → UInt8) (n : ℕ) (b : UInt8) :
    (List.range n).map (Function.update buffer n b) = (List.range n).map buffer := by
  apply List.map_congr_left
  intro i hi
  exact Function.update_of_ne (List.mem_range.mp hi).ne _ _

/-- The buffer holds the text behind the characters `p`, and no store was outside it. -/
structure Holds (uiBufLen : UInt32) (p : List UInt8) (s : Line) : Prop where
  length : s.iLen.toNat = (edit p).length
  text : (List.range (edit p).length).map s.buffer = edit p
  room : (edit p).length ≤ uiBufLen.toNat
  bounds : ∀ i ∈ s.stores, i < uiBufLen.toNat

section Step

variable {uiBufLen : UInt32} {p : List UInt8} {s : Line} {c : UInt8}

lemma Holds.put (h : Holds uiBufLen p s) (hroom : ¬uiBufLen ≤ s.iLen) (hc : c ≠ backspace)
    (echo : List UInt8) :
    Holds uiBufLen (p ++ [c]) { { s with echo := echo }.put c with iLen := s.iLen + 1 } := by
  have hlt : s.iLen.toNat < uiBufLen.toNat := by
    rw [← UInt32.lt_iff_toNat_lt]
    exact UInt32.not_le.mp hroom
  have hmax := uiBufLen.toNat_lt
  have hedit : edit (p ++ [c]) = edit p ++ [c] := by rw [edit_concat, if_neg hc]
  have hlen : (edit (p ++ [c])).length = (edit p).length + 1 := by rw [hedit, List.length_append]; rfl
  rw [h.length] at hlt
  refine ⟨?_, ?_, by omega, ?_⟩
  · rw [hlen, ← h.length]
    rw [UInt32.toNat_add, UInt32.toNat_one, h.length]
    omega
  · rw [hlen, List.range_succ, List.map_append, hedit]
    congr 1
    · rw [Line.put, h.length, map_range_update]
      exact h.text
    · simp [Line.put, h.length]
  · intro i hi
    rcases List.mem_cons.mp hi with rfl | hi
    · rw [h.length]
      exact hlt
    · exact h.bounds i hi

/-- A backspace takes the last character, if there is one. -/
lemma Holds.back (h : Holds uiBufLen p s) (echo : List UInt8) :
    Holds uiBufLen (p ++ [backspace]) { s with
      echo := echo, iLen := if s.iLen ≠ 0 then s.iLen - 1 else s.iLen } := by
  have hedit : edit (p ++ [backspace]) = (edit p).dropLast := by rw [edit_concat, if_pos rfl]
  have hlen : (edit (p ++ [backspace])).length = (edit p).length - 1 := by
    rw [hedit, List.length_dropLast]
  have hroom := h.room
  refine ⟨?_, ?_, by omega, h.bounds⟩
  · rw [hlen, ← h.length]
    dsimp only
    split_ifs with hzero
    · rw [UInt32.toNat_sub_of_le, UInt32.toNat_one]
      rw [UInt32.le_iff_toNat_le, UInt32.toNat_one]
      have hpos : s.iLen.toNat ≠ 0 := fun h0 => hzero (UInt32.toNat_inj.mp h0)
      omega
    · rw [not_not.mp hzero]
      rfl
  · rw [hlen, hedit, ← h.text, ← List.map_dropLast, List.length_map, List.length_range]
    congr 1
    cases (edit p).length with
    | zero => rfl
    | succ n => rw [List.range_succ, List.dropLast_concat]; rfl

end Step

section Read

variable {uiBufLen : UInt32} {p : List UInt8} {s : Line}

lemma lineOf_cons (c : UInt8) (stream : List UInt8) :
    lineOf (c :: stream) = if endsLine c then [] else c :: lineOf stream := by
  unfold lineOf
  cases hc : endsLine c <;> simp [hc]

/-- The call gives up at a character that comes when the buffer is full, or waits for the end of
the line, or writes the terminator behind the text. -/
lemma Holds.read (h : Holds uiBufLen p s) (stream : List UInt8) :
    (Crowded uiBufLen p (lineOf stream) ∧ (s.read uiBufLen stream).2 = some (-1) ∧
      ∀ i ∈ (s.read uiBufLen stream).1.stores, i < uiBufLen.toNat) ∨
    (¬Crowded uiBufLen p (lineOf stream) ∧ lineOf stream = stream ∧
      (s.read uiBufLen stream).2 = none ∧
      ∀ i ∈ (s.read uiBufLen stream).1.stores, i < uiBufLen.toNat) ∨
    (¬Crowded uiBufLen p (lineOf stream) ∧ lineOf stream ≠ stream ∧
      ∃ s', Holds uiBufLen (p ++ lineOf stream) s' ∧
        (s.read uiBufLen stream).2 = some s'.iLen.toInt32 ∧
        (s.read uiBufLen stream).1.stores = s'.iLen.toNat :: s'.stores ∧
        (s.read uiBufLen stream).1.buffer = Function.update s'.buffer s'.iLen.toNat 0) := by
  induction stream generalizing p s with
  | nil => exact Or.inr (Or.inl ⟨crowded_nil uiBufLen p, rfl, rfl, h.bounds⟩)
  | cons c stream ih =>
    rw [lineOf_cons]
    cases hends : endsLine c with
    | true =>
      rw [if_pos rfl, Line.read]
      dsimp only
      rw [if_pos hends, List.append_nil]
      exact Or.inr (Or.inr ⟨crowded_nil uiBufLen p, by simp, s, h, rfl, rfl, rfl⟩)
    | false =>
      simp only [Bool.false_eq_true, if_false, Line.read, hends, crowded_cons, List.cons.injEq,
        true_and, ne_eq]
      have hsplit : p ++ c :: lineOf stream = p ++ [c] ++ lineOf stream := by simp
      by_cases hfull : uiBufLen ≤ s.iLen
      · rw [if_pos hfull]
        rw [UInt32.le_iff_toNat_le, h.length] at hfull
        exact Or.inl ⟨Or.inl hfull, rfl, h.bounds⟩
      · have hroom : ¬uiBufLen.toNat ≤ (edit p).length := by
          rw [← h.length, ← UInt32.le_iff_toNat_le]
          exact hfull
        simp only [if_neg hfull, hroom, false_or, hsplit]
        by_cases hc : c = backspace
        · subst hc
          rw [if_neg (not_not.mpr rfl)]
          exact ih (h.back (s.echo ++ [backspace]))
        · rw [if_pos hc]
          exact ih (h.put hfull hc (s.echo ++ [c]))

end Read

/-- What reading a line is to come to: all stores in the buffer, the edited text with its
terminator and its length, or -1 if they do not fit. -/
structure Reads (uiBufLen : UInt32) (stream : List UInt8) (result : Line × Option Int32) : Prop where
  bounds : ∀ i ∈ result.1.stores, i < uiBufLen.toNat
  text : ∀ k ∈ result.2, 0 ≤ k.toInt → k.toInt = (edit (lineOf stream)).length ∧
    (List.range (edit (lineOf stream)).length).map result.1.buffer = edit (lineOf stream) ∧
    result.1.buffer (edit (lineOf stream)).length = 0
  fails : ∀ k ∈ result.2, k = -1 ↔ uiBufLen.toNat < (edit (lineOf stream)).length + 1

lemma toInt_toInt32 (n : UInt32) : n.toInt32.toInt =
    if 2 * n.toNat < 2 ^ 32 then (n.toNat : ℤ) else n.toNat - 2 ^ 32 :=
  BitVec.toInt_eq_toNat_cond n.toBitVec

lemma reads_of_terminated {uiBufLen : UInt32} {stream : List UInt8} {s : Line}
    {result : Line × Option Int32} (h : Holds uiBufLen (lineOf stream) s)
    (hret : result.2 = some s.iLen.toInt32) (hstores : result.1.stores = s.iLen.toNat :: s.stores)
    (hbuffer : result.1.buffer = Function.update s.buffer s.iLen.toNat 0)
    (hshort : (edit (lineOf stream)).length < uiBufLen.toNat) : Reads uiBufLen stream result := by
  have hmax := uiBufLen.toNat_lt
  have hlen := h.length
  have htoInt := toInt_toInt32 s.iLen
  refine ⟨fun i hi => ?_, fun k hk hpos => ?_, fun k hk => ?_⟩
  · rw [hstores] at hi
    rcases List.mem_cons.mp hi with rfl | hi
    · rw [hlen]
      exact hshort
    · exact h.bounds i hi
  · obtain rfl : s.iLen.toInt32 = k := by simpa [hret] using hk
    rw [htoInt] at hpos ⊢
    rw [hbuffer]
    refine ⟨?_, ?_, ?_⟩
    · split_ifs at hpos ⊢ <;> omega
    · rw [hlen, map_range_update]
      exact h.text
    · rw [hlen]
      exact Function.update_self ..
  · obtain rfl : s.iLen.toInt32 = k := by simpa [hret] using hk
    refine iff_of_false (fun hminus => ?_) (by omega)
    have hminus := congrArg Int32.toInt hminus
    rw [htoInt] at hminus
    have hone : (-1 : Int32).toInt = -1 := by decide
    rw [hone] at hminus
    split_ifs at hminus
    omega

/-- The call reads a line as it should exactly if a character comes at a full buffer only in a line
that stays too long, and the text of a line that ends otherwise leaves room for the terminator. -/
theorem uart_read_line_reads_iff (uiBufLen : UInt32) (buffer : ℕ → UInt8) (stream : List UInt8) :
    Reads uiBufLen stream (uartReadLine true uiBufLen buffer stream) ↔
      (Crowded uiBufLen [] (lineOf stream) → uiBufLen.toNat ≤ (edit (lineOf stream)).length) ∧
      (¬Crowded uiBufLen [] (lineOf stream) → lineOf stream ≠ stream →
        (edit (lineOf stream)).length < uiBufLen.toNat) := by
  have hstart : Holds uiBufLen [] ⟨buffer, 0, [], []⟩ := ⟨rfl, rfl, Nat.zero_le _, by simp⟩
  unfold uartReadLine
  rw [if_pos rfl]
  rcases hstart.read stream with ⟨hcrowded, hret, hbounds⟩ | ⟨hroom, hopen, hret, hbounds⟩ |
    ⟨hroom, hended, s', hs', hret, hstores, hbuffer⟩
  · constructor
    · intro hreads
      have hlong := (hreads.fails (-1) hret).mp rfl
      exact ⟨fun _ => by omega, fun hroom => absurd hcrowded hroom⟩
    · rintro ⟨hlong, -⟩
      have hlong := hlong hcrowded
      refine ⟨hbounds, fun k hk hpos => ?_, fun k hk => ?_⟩
      · obtain rfl : -1 = k := by simpa [hret] using hk
        exact absurd hpos (by decide)
      · obtain rfl : -1 = k := by simpa [hret] using hk
        exact iff_of_true rfl (by omega)
  · refine iff_of_true ⟨hbounds, fun k hk => ?_, fun k hk => ?_⟩
      ⟨fun hcrowded => absurd hcrowded hroom, fun _ hended => absurd hopen hended⟩
    · simp [hret] at hk
    · simp [hret] at hk
  · rw [List.nil_append] at hs'
    constructor
    · intro hreads
      refine ⟨fun hcrowded => absurd hcrowded hroom, fun _ _ => ?_⟩
      have hlast := hreads.bounds s'.iLen.toNat (by rw [hstores]; exact List.mem_cons_self)
      rwa [hs'.length] at hlast
    · rintro ⟨-, hshort⟩
      exact reads_of_terminated hs' hret hstores hbuffer (hshort hroom hended)

/-- Four characters fill a buffer of four bytes, and the terminator is stored behind it. -/
theorem uart_read_line_overruns :
    ¬∀ (uiBufLen : UInt32) (buffer : ℕ → UInt8) (stream : List UInt8), 1 ≤ uiBufLen →
      Reads uiBufLen stream (uartReadLine true uiBufLen buffer stream) := by
  intro h
  have hreads := h 4 (fun _ => 0) [97, 98, 99, 100, 13] (by decide)
  have hstored : 4 ∈ (uartReadLine true 4 (fun _ => 0) [97, 98, 99, 100, 13]).1.stores := by
    decide +kernel
  exact absurd (hreads.bounds 4 hstored) (by decide)

end Nais.Board.ReadLine
