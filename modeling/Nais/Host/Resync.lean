import Nais.Host.RecordKind

/-!
# A start byte inside a frame

`add_char` of `pynais/junction.py` begins a frame anew at every start byte: it resets the
cursor, the length and the two states, and leaves `mult`, `hlen` and `expected_len`. The tape
is that of a fresh record exactly when no LEN byte was looked at before, and the frame
behind the start byte ends where it should exactly when no LEN had a second byte.
-/

namespace Nais.Host
open Nais.Lib Nais.Lib.Cut Nais.Lib.Base128

/-- The tape after some bytes, whatever it answered to them. -/
def feed (t : MessageTape) (bs : List UInt8) : MessageTape :=
  bs.foldl (fun t channel => (t.addChar channel).1) t

/-- Everything but the accumulated message. -/
def MessageTape.control (t : MessageTape) : MessageTape := { t with msg := [] }

/-- What stands behind each start byte, up to the next one. -/
def pieces (bs : List UInt8) : List (List UInt8) := (bs.splitOn SYNC_START).tail

/-- The tape ends each well-formed frame without a further start byte at its last byte. -/
def EndsFrames (t : MessageTape) : Prop :=
  ∀ (type sline dline flags : UInt8) (len payload : List UInt8), IsNumeral len →
    number len = payload.length → SYNC_START ∉ [type, sline, dline, flags] ++ len ++ payload →
    ∀ rest, ∃ t', readTape t (frameBytes type sline dline flags len payload ++ rest) = .ok (t', rest)

/-- A start byte behind `bs` has the effect that it has on a fresh tape. -/
structure Resynchronises (bs : List UInt8) : Prop where
  control : (feed {} (bs ++ [SYNC_START])).control = (feed {} [SYNC_START]).control
  ends : EndsFrames (feed {} bs)

/-- The LEN field that stands behind the four header bytes of a piece, if there is any, has one
byte. -/
def OneByteLen (p : List UInt8) : Prop := ∀ c, p[4]? = some c → c.toNat < 128

lemma feed_cons (t : MessageTape) (c : UInt8) (bs : List UInt8) :
    feed t (c :: bs) = feed (t.addChar c).1 bs := rfl

lemma feed_append (t : MessageTape) (as bs : List UInt8) :
    feed t (as ++ bs) = feed (feed t as) bs := List.foldl_append

lemma feed_concat (t : MessageTape) (bs : List UInt8) (c : UInt8) :
    feed t (bs ++ [c]) = ((feed t bs).addChar c).1 := by
  rw [feed_append]
  rfl

section Step

/-- What a byte can do to the lengths that the tape keeps. -/
lemma advance_cases (t : MessageTape) (c : UInt8) :
    ((t.advance c).mult = t.mult ∧ (t.advance c).hlen = t.hlen ∧ (t.advance c).plen = t.plen ∧
        (t.advance c).expectedLen = t.expectedLen) ∨
      (128 ≤ c.toNat ∧ (t.advance c).mult = t.mult * 128 ∧ (t.advance c).hlen = t.hlen + 1 ∧
        (t.advance c).expectedLen = t.expectedLen) ∨
      (c.toNat < 128 ∧ (t.advance c).mult = t.mult ∧ (t.advance c).hlen = t.hlen ∧
        (t.advance c).plen = t.plen ∧
        (t.advance c).expectedLen = t.hlen + t.plen + t.mult * c.toNat) := by
  by_cases hs : t.sts = .bStream
  · by_cases hl : t.cursor + 1 = 5 ∨ t.stsLen = .lenEnter
    · by_cases hc : 128 ≤ c.toNat
      · rw [advance_digit hs hl hc]
        exact .inr (.inl ⟨hc, rfl, rfl, rfl⟩)
      · rw [advance_last hs hl (by omega)]
        exact .inr (.inr ⟨by omega, rfl, rfl, rfl, rfl⟩)
    · rw [advance_not_len hs (by tauto) (by tauto)]
      exact .inl ⟨rfl, rfl, rfl, rfl⟩
  · have hsame : t.advance c = t := by
      unfold MessageTape.advance
      rw [if_neg hs]
    rw [hsame]
    exact .inl ⟨rfl, rfl, rfl, rfl⟩

/-- What the end of `add_char` leaves of the lengths. -/
lemma addChar_lengths (t : MessageTape) (c : UInt8) :
    (t.addChar c).1.mult = (t.advance c).mult ∧ (t.addChar c).1.hlen = (t.advance c).hlen ∧
      (t.addChar c).1.expectedLen = (t.advance c).expectedLen ∧
      ((t.addChar c).1.plen = (t.advance c).plen ∨ (t.addChar c).1.plen = 0) := by
  unfold MessageTape.addChar MessageTape.endRecord
  dsimp only
  split_ifs
  · exact ⟨rfl, rfl, rfl, .inr rfl⟩
  · exact ⟨rfl, rfl, rfl, .inl rfl⟩
  · exact ⟨rfl, rfl, rfl, .inl rfl⟩
  · exact ⟨rfl, rfl, rfl, .inl rfl⟩
  · exact ⟨rfl, rfl, rfl, .inl rfl⟩

lemma addChar_startByte (t : MessageTape) :
    t.addChar SYNC_START = ({ t.advance SYNC_START with
      cursor := 0, plen := 0, sts := .bStream, stsLen := .start, msg := t.msg ++ [SYNC_START] }, true) := by
  unfold MessageTape.addChar MessageTape.endRecord
  dsimp only
  rw [if_pos rfl, advance_msg]

/-- Up to the fourth byte behind a start byte only the cursor moves. -/
lemma feed_header {p : List UInt8} (hp : SYNC_START ∉ p) {t : MessageTape} (hs : t.sts = .bStream)
    (hl : t.stsLen = .start) (hlen : t.cursor + p.length ≤ 4) (he : 6 ≤ t.expectedLen) :
    feed t p = { t with cursor := t.cursor + p.length, msg := t.msg ++ p } := by
  induction p generalizing t with
  | nil => simp [feed]
  | cons c p ih =>
    simp only [List.mem_cons, not_or] at hp
    rw [List.length_cons] at hlen
    have hadv := advance_not_len hs (by omega : t.cursor + 1 ≠ 5) (by simp [hl]) c
    have hstep := addChar_goes hadv hs (Ne.symm hp.1) (by intro hcur; dsimp only at hcur; omega)
    have hrest := ih hp.2 (t := { t with cursor := t.cursor + 1, msg := t.msg ++ [c] }) hs hl
      (by dsimp only; omega) he
    rw [feed_cons, hstep]
    refine hrest.trans ?_
    rw [List.length_cons, List.append_assoc, List.singleton_append, Nat.add_assoc, Nat.add_comm 1]

end Step

section Fresh

/-- A LEN byte was looked at. -/
structure Touched (t : MessageTape) : Prop where
  pos : 0 < t.mult
  fields : t.mult = 1 → t.hlen = 6 ∧ t.plen = 0 ∧ t.expectedLen ≤ 133

lemma Touched.addChar {t : MessageTape} (h : Touched t) (c : UInt8) : Touched (t.addChar c).1 := by
  obtain ⟨hmult, hhlen, hexpected, hplen⟩ := addChar_lengths t c
  have hpos := h.pos
  constructor
  · rw [hmult]
    obtain ⟨hm, -⟩ | ⟨-, hm, -⟩ | ⟨-, hm, -⟩ := advance_cases t c <;> omega
  · rw [hmult, hhlen, hexpected]
    intro hone
    obtain ⟨hm, hh, hp, he⟩ | ⟨-, hm, -⟩ | ⟨hc, hm, hh, hp, he⟩ := advance_cases t c
    · obtain ⟨hsix, hzero, hle⟩ := h.fields (by omega)
      omega
    · omega
    · obtain ⟨hsix, hzero, -⟩ := h.fields (by omega)
      rw [he, hsix, hzero, ← hm, hone]
      omega

lemma Touched.feed {t : MessageTape} (h : Touched t) (bs : List UInt8) : Touched (feed t bs) := by
  induction bs generalizing t with
  | nil => exact h
  | cons c bs ih => exact ih (h.addChar c)

/-- The tape behind the first start byte of a record. -/
structure Fresh (t : MessageTape) : Prop extends Armed 0 t where
  untouched : t.expectedLen = 65536

lemma fresh_iff (t : MessageTape) : Fresh t ↔ t.control = (feed {} [SYNC_START]).control := by
  constructor
  · rintro ⟨⟨⟨hsts, hmult, hhlen, -⟩, hcursor, hplen, hstsLen⟩, hexpected⟩
    obtain ⟨expectedLen, cursor, mult, stsLen, hlen, plen, sts, msg⟩ := t
    dsimp only at hsts hmult hhlen hcursor hplen hstsLen hexpected
    subst hsts hmult hhlen hcursor hplen hstsLen hexpected
    rfl
  · intro h
    obtain ⟨expectedLen, cursor, mult, stsLen, hlen, plen, sts, msg⟩ := t
    cases h
    exact ⟨⟨⟨rfl, rfl, rfl, by simp⟩, rfl, rfl, rfl⟩, rfl⟩

lemma Touched.not_fresh {t : MessageTape} (h : Touched t) : ¬Fresh t := by
  intro hfresh
  have hle := (h.fields hfresh.mult).2.2
  rw [hfresh.untouched] at hle
  exact absurd hle (by decide)

lemma touched_of_fifth {t : MessageTape} (h : Inside 0 t) (hcursor : t.cursor = 4)
    (hplen : t.plen = 0) (c : UInt8) : Touched (t.addChar c).1 := by
  obtain ⟨hmult, hhlen, hexpected, hplen'⟩ := addChar_lengths t c
  have hone := h.mult
  have hsix := h.hlen
  by_cases hc : 128 ≤ c.toNat
  · rw [advance_digit h.sts (.inl (by omega)) hc] at hmult
    dsimp only at hmult
    constructor <;> omega
  · rw [advance_last h.sts (.inl (by omega)) (by omega)] at hmult hhlen hexpected hplen'
    dsimp only at hmult hhlen hexpected hplen'
    rw [hone] at hexpected
    constructor <;> omega

lemma fresh_of_short {t : MessageTape} (h : Inside 0 t) (hl : t.stsLen = .start)
    (huntouched : t.expectedLen = 65536) (hcursor : t.cursor < 4) :
    Fresh (t.addChar SYNC_START).1 := by
  rw [addChar_startByte, advance_not_len h.sts (by omega) (by simp [hl])]
  exact ⟨⟨⟨rfl, h.mult, h.hlen, h.expectedLen⟩, rfl, rfl, rfl⟩, huntouched⟩

/-- A start byte within the first four bytes begins a fresh frame. -/
lemma Fresh.restart {t : MessageTape} (h : Fresh t) {p : List UInt8} (hp : SYNC_START ∉ p)
    (hlen : p.length < 4) : Fresh (feed t (p ++ [SYNC_START])) := by
  have hcursor := h.cursor
  rw [feed_concat, feed_header hp h.sts h.stsLen (by omega) h.expectedLen]
  exact fresh_of_short ⟨h.sts, h.mult, h.hlen, h.expectedLen⟩ h.stsLen h.untouched
    (by dsimp only; omega)

/-- The fifth byte behind a start byte, which may be a start byte itself, is a LEN byte. -/
lemma Fresh.touched {t : MessageTape} (h : Fresh t) {p : List UInt8} (hp : SYNC_START ∉ p)
    (hlen : 4 ≤ p.length) : Touched (feed t (p ++ [SYNC_START])) := by
  obtain ⟨c, q, hcons⟩ := List.exists_cons_of_ne_nil (by simp : p.drop 4 ++ [SYNC_START] ≠ [])
  have hq : p ++ [SYNC_START] = p.take 4 ++ c :: q := by
    rw [← hcons, ← List.append_assoc, List.take_append_drop]
  have hhead : SYNC_START ∉ p.take 4 := fun hm => hp (List.mem_of_mem_take hm)
  have hcursor : t.cursor + (p.take 4).length = 4 := by
    rw [h.cursor, List.length_take]
    omega
  rw [hq, feed_append, feed_cons, feed_header hhead h.sts h.stsLen hcursor.le h.expectedLen]
  apply Touched.feed
  apply touched_of_fifth
  · exact ⟨h.sts, h.mult, h.hlen, h.expectedLen⟩
  · exact hcursor
  · exact h.plen

/-- Start bytes begin fresh frames as long as each stands within four bytes of the one before. -/
lemma Fresh.feed_iff {t : MessageTape} (h : Fresh t) (bs : List UInt8) :
    Fresh (feed t (bs ++ [SYNC_START])) ↔ ∀ p ∈ bs.splitOn SYNC_START, p.length < 4 := by
  induction hn : bs.length using Nat.strong_induction_on generalizing t bs with
  | _ n ih =>
    by_cases hs : SYNC_START ∈ bs
    · obtain ⟨p, rest, rfl, hp⟩ := List.eq_append_cons_of_mem hs
      rw [List.splitOn_append_cons_self_of_not_mem hp, List.forall_mem_cons, List.append_assoc,
        List.cons_append, ← List.singleton_append, ← List.append_assoc, feed_append]
      by_cases hlen : p.length < 4
      · rw [ih rest.length (by rw [← hn, List.length_append, List.length_cons]; omega)
          (h.restart hp hlen) rest rfl]
        simp [hlen]
      · have htouched := (h.touched hp (by omega)).feed (rest ++ [SYNC_START])
        exact iff_of_false htouched.not_fresh (fun hall => hlen hall.1)
    · rw [List.splitOn_eq_singleton hs, List.forall_mem_singleton]
      constructor
      · intro hfresh
        by_contra hlen
        exact (h.touched hs (by omega)).not_fresh hfresh
      · exact h.restart hs

end Fresh

section Carry

/-- `k` LEN bytes with a continuation bit have left their factor, whatever the tape is in. -/
structure Carried (k : Nat) (t : MessageTape) : Prop where
  mult : t.mult = 128 ^ k
  hlen : t.hlen = 6 + k
  expectedLen : 6 ≤ t.expectedLen

lemma Carried.addChar {k : Nat} {t : MessageTape} (h : Carried k t) (c : UInt8) :
    Carried k (t.addChar c).1 ∨ 128 ≤ c.toNat ∧ Carried (k + 1) (t.addChar c).1 := by
  obtain ⟨hmult, hhlen, hexpected, -⟩ := addChar_lengths t c
  have hold := h.expectedLen
  have hsix := h.hlen
  obtain ⟨hm, hh, -, he⟩ | ⟨hc, hm, hh, he⟩ | ⟨-, hm, hh, -, he⟩ := advance_cases t c
  · exact .inl ⟨by rw [hmult, hm, h.mult], by omega, by omega⟩
  · exact .inr ⟨hc, by rw [hmult, hm, h.mult, pow_succ], by omega, by omega⟩
  · exact .inl ⟨by rw [hmult, hm, h.mult], by omega, by rw [hexpected, he]; omega⟩

lemma Carried.feed {k : Nat} {t : MessageTape} (h : Carried k t) (bs : List UInt8) :
    ∃ k', k ≤ k' ∧ Carried k' (feed t bs) := by
  induction bs generalizing k t with
  | nil => exact ⟨k, le_rfl, h⟩
  | cons c bs ih =>
    obtain hsame | ⟨-, hmore⟩ := h.addChar c
    · exact ih hsame
    · obtain ⟨k', hle, hk'⟩ := ih hmore
      exact ⟨k', by omega, hk'⟩

/-- A start byte has no continuation bit. -/
lemma Carried.start {k : Nat} {t : MessageTape} (h : Carried k t) : Armed k (t.addChar SYNC_START).1 := by
  have hk := (h.addChar SYNC_START).resolve_right (fun hc => absurd hc.1 (by decide))
  have hfields := addChar_startByte t
  refine ⟨⟨?_, hk.mult, hk.hlen, hk.expectedLen⟩, ?_, ?_, ?_⟩
  all_goals rw [hfields]

/-- The LEN field is behind the tape, or the record is. -/
def Settled (t : MessageTape) : Prop := t.sts = .bStream → 5 ≤ t.cursor ∧ t.stsLen = .lenDone

lemma Carried.addChar_settled {k : Nat} {t : MessageTape} (h : Carried k t) (hs : Settled t)
    {c : UInt8} (hc : c ≠ SYNC_START) :
    Carried k (t.addChar c).1 ∧ Settled (t.addChar c).1 := by
  cases hsts : t.sts with
  | aStream =>
    have hadv : t.advance c = t := by
      unfold MessageTape.advance
      rw [hsts]
      rfl
    unfold MessageTape.addChar MessageTape.endRecord
    rw [hadv]
    dsimp only
    rw [hsts, if_neg hc]
    split_ifs with hcur
    · cases hcur.1
    all_goals exact ⟨⟨h.mult, h.hlen, h.expectedLen⟩, fun hb => by simp at hb⟩
  | bStream =>
    obtain ⟨hcursor, hdone⟩ := hs hsts
    have hadv := advance_not_len hsts (by omega : t.cursor + 1 ≠ 5) (by simp [hdone]) c
    unfold MessageTape.addChar MessageTape.endRecord
    rw [hadv]
    dsimp only
    rw [hsts, if_neg hc]
    have hnext : 5 ≤ t.cursor + 1 := by omega
    split_ifs
    all_goals exact ⟨⟨h.mult, h.hlen, h.expectedLen⟩, fun _ => ⟨hnext, hdone⟩⟩

lemma Carried.feed_settled {k : Nat} {t : MessageTape} (h : Carried k t) (hs : Settled t)
    {q : List UInt8} (hq : SYNC_START ∉ q) : Carried k (Host.feed t q) := by
  induction q generalizing t with
  | nil => exact h
  | cons c q ih =>
    simp only [List.mem_cons, not_or] at hq
    obtain ⟨hk, hsettled⟩ := h.addChar_settled hs (Ne.symm hq.1)
    exact ih hk hsettled hq.2

lemma Inside.addChar_digit {k : Nat} {t : MessageTape} (h : Inside k t) (hcursor : t.cursor = 4)
    {c : UInt8} (hc : 128 ≤ c.toNat) : Carried (k + 1) (t.addChar c).1 := by
  obtain ⟨hmult, hhlen, hexpected, -⟩ := addChar_lengths t c
  rw [advance_digit h.sts (.inl (by omega)) hc] at hmult hhlen hexpected
  exact ⟨by rw [hmult, h.mult, pow_succ], by rw [hhlen, h.hlen, Nat.add_assoc],
    by rw [hexpected]; exact h.expectedLen⟩

lemma Inside.addChar_last {k : Nat} {t : MessageTape} (h : Inside k t) (hcursor : t.cursor = 4)
    {c : UInt8} (hc : c.toNat < 128) (hstart : c ≠ SYNC_START) :
    Carried k (t.addChar c).1 ∧ Settled (t.addChar c).1 := by
  have hsix := h.hlen
  have hstep := addChar_goes (advance_last h.sts (.inl (by omega)) hc) h.sts hstart
    (by intro hcur; dsimp only at hcur; omega)
  rw [hstep]
  exact ⟨⟨h.mult, h.hlen, by dsimp only; omega⟩, fun _ => ⟨by dsimp only; omega, rfl⟩⟩

/-- Only a LEN of several bytes adds to what the tape carries. -/
lemma Armed.feed_piece {k : Nat} {t : MessageTape} (h : Armed k t) {p : List UInt8}
    (hp : SYNC_START ∉ p) :
    ∃ k', k ≤ k' ∧ Carried k' (feed t p) ∧ (k' = k ↔ OneByteLen p) := by
  by_cases hshort : p.length ≤ 4
  · have hlen : OneByteLen p := by
      intro c hc
      rw [List.getElem?_eq_none_iff.mpr hshort] at hc
      cases hc
    rw [feed_header hp h.sts h.stsLen (by rw [h.cursor]; omega) h.expectedLen]
    exact ⟨k, le_rfl, ⟨h.mult, h.hlen, h.expectedLen⟩, iff_of_true rfl hlen⟩
  · have hfive : 4 < p.length := by omega
    have hsplit : p = p.take 4 ++ p[4] :: p.drop 5 := by
      rw [← List.drop_eq_getElem_cons hfive, List.take_append_drop]
    have hfifth : p[4]? = some p[4] := List.getElem?_eq_getElem hfive
    have hhead : SYNC_START ∉ p.take 4 := fun hm => hp (List.mem_of_mem_take hm)
    have htail : SYNC_START ∉ p.drop 5 := fun hm => hp (List.mem_of_mem_drop hm)
    have hne : p[4] ≠ SYNC_START := by
      intro heq
      exact hp (heq ▸ List.getElem_mem hfive)
    have hcursor : t.cursor + (p.take 4).length = 4 := by
      rw [h.cursor, List.length_take]
      omega
    have hinside : Inside k { t with cursor := t.cursor + (p.take 4).length, msg := t.msg ++ p.take 4 } :=
      ⟨h.sts, h.mult, h.hlen, h.expectedLen⟩
    rw [hsplit, feed_append, feed_cons,
      feed_header hhead h.sts h.stsLen hcursor.le h.expectedLen, ← hsplit]
    by_cases hc : p[4].toNat < 128
    · obtain ⟨hk, hsettled⟩ := hinside.addChar_last hcursor hc hne
      refine ⟨k, le_rfl, hk.feed_settled hsettled htail, iff_of_true rfl ?_⟩
      intro c hc'
      rw [hfifth, Option.some.injEq] at hc'
      rwa [← hc']
    · have hdigit : 128 ≤ p[4].toNat := by omega
      obtain ⟨k', hle, hk'⟩ := (hinside.addChar_digit hcursor hdigit).feed (p.drop 5)
      exact ⟨k', by omega, hk', iff_of_false (by omega) (fun hone => hc (hone _ hfifth))⟩

/-- What the tape carries behind a start byte. -/
lemma Armed.feed_start {k : Nat} {t : MessageTape} (h : Armed k t) (bs : List UInt8) :
    ∃ k', k ≤ k' ∧ Armed k' (feed t (bs ++ [SYNC_START])) ∧
      (k' = k ↔ ∀ p ∈ bs.splitOn SYNC_START, OneByteLen p) := by
  induction hn : bs.length using Nat.strong_induction_on generalizing k t bs with
  | _ n ih =>
    by_cases hs : SYNC_START ∈ bs
    · obtain ⟨p, rest, rfl, hp⟩ := List.eq_append_cons_of_mem hs
      obtain ⟨k₁, hle₁, hk₁, hiff₁⟩ := h.feed_piece hp
      obtain ⟨k₂, hle₂, hk₂, hiff₂⟩ := ih rest.length
        (by rw [← hn, List.length_append, List.length_cons]; omega) hk₁.start rest rfl
      rw [List.splitOn_append_cons_self_of_not_mem hp, List.forall_mem_cons, List.append_assoc,
        List.cons_append, feed_append, feed_cons]
      refine ⟨k₂, by omega, hk₂, ?_⟩
      rw [← hiff₁]
      constructor
      · rintro rfl
        have hsame : k₁ = k₂ := by omega
        subst hsame
        exact ⟨rfl, hiff₂.mp rfl⟩
      · rintro ⟨rfl, hall⟩
        exact hiff₂.mpr hall
    · obtain ⟨k', hle, hk', hiff⟩ := h.feed_piece hs
      rw [List.splitOn_eq_singleton hs, List.forall_mem_singleton, feed_concat]
      exact ⟨k', hle, hk'.start, hiff⟩

end Carry

section Start

/-- The tape behind text that no start byte has interrupted yet. -/
lemma feed_text {text : List UInt8} (hstart : SYNC_START ∉ text) {t : MessageTape}
    (ht : t.sts = .aStream) : feed t text = { t with msg := t.msg ++ text } := by
  induction text generalizing t with
  | nil => simp [feed]
  | cons c text ih =>
    simp only [List.mem_cons, not_or] at hstart
    have hstep : (t.addChar c).1 = { t with msg := t.msg ++ [c] } := by
      unfold MessageTape.addChar MessageTape.advance MessageTape.endRecord
      simp only [ht, reduceCtorEq, ite_false, Ne.symm hstart.1, false_and, true_and]
      split_ifs <;> rfl
    have hrest := ih hstart.2 (t := { t with msg := t.msg ++ [c] }) ht
    rw [List.append_assoc, List.singleton_append] at hrest
    rw [feed_cons, hstep]
    exact hrest

lemma fresh_feed_text {text : List UInt8} (hstart : SYNC_START ∉ text) :
    Fresh (feed {} (text ++ [SYNC_START])) := by
  rw [feed_concat, feed_text hstart rfl, fresh_iff]
  rfl

/-- The first start byte of a sequence makes the tape a fresh one. -/
lemma pieces_cases (bs : List UInt8) :
    (pieces bs = [] ∧ Fresh (feed {} (bs ++ [SYNC_START]))) ∨
      ∃ t rest, Fresh t ∧ pieces bs = rest.splitOn SYNC_START ∧
        feed {} (bs ++ [SYNC_START]) = feed t (rest ++ [SYNC_START]) := by
  by_cases hs : SYNC_START ∈ bs
  · obtain ⟨text, rest, rfl, hstart⟩ := List.eq_append_cons_of_mem hs
    refine .inr ⟨feed {} (text ++ [SYNC_START]), rest, fresh_feed_text hstart, ?_, ?_⟩
    · rw [pieces, List.splitOn_append_cons_self_of_not_mem hstart, List.tail_cons]
    · rw [← feed_append]
      simp
  · refine .inl ⟨?_, fresh_feed_text hs⟩
    rw [pieces, List.splitOn_eq_singleton hs, List.tail_cons]

lemma control_iff (bs : List UInt8) :
    (feed {} (bs ++ [SYNC_START])).control = (feed {} [SYNC_START]).control ↔
      ∀ p ∈ pieces bs, p.length < 4 := by
  rw [← fresh_iff]
  obtain ⟨hnone, hfresh⟩ | ⟨t, rest, hfresh, hpieces, hfeed⟩ := pieces_cases bs
  · rw [hnone]
    exact iff_of_true hfresh (by simp)
  · rw [hfeed, hpieces]
    exact hfresh.feed_iff rest

lemma exists_armed (bs : List UInt8) :
    ∃ k, Armed k (feed {} (bs ++ [SYNC_START])) ∧ (k = 0 ↔ ∀ p ∈ pieces bs, OneByteLen p) := by
  obtain ⟨hnone, hfresh⟩ | ⟨t, rest, hfresh, hpieces, hfeed⟩ := pieces_cases bs
  · rw [hnone]
    exact ⟨0, hfresh.toArmed, iff_of_true rfl (by simp)⟩
  · obtain ⟨k, -, harmed, hiff⟩ := hfresh.toArmed.feed_start rest
    rw [hfeed, hpieces]
    exact ⟨k, harmed, hiff⟩

lemma Delimited.endOf_eq {k : Nat} {bs : List UInt8} (h : Delimited k bs) (hs : SYNC_START ∉ bs) :
    endOf k bs = some bs.length := by
  cases h with
  | closes _ he _ => exact he
  | resync _ _ _ => simp at hs

/-- A frame behind the start byte ends where it should if nothing is carried, and never if
something is. -/
lemma endsFrames_iff_of_armed {t : MessageTape} {k : Nat} (h : Armed k (t.addChar SYNC_START).1) :
    EndsFrames t ↔ k = 0 := by
  have hstep : t.addChar SYNC_START = ((t.addChar SYNC_START).1, true) := by
    rw [addChar_startByte]
  constructor
  · intro hends
    obtain ⟨t', ht'⟩ := hends 0 0 0 0 [0] [] rfl rfl (by decide) []
    rw [List.append_nil, frameBytes, readTape_goes hstep] at ht'
    have he := ((readTape_armed_iff h _).mp ⟨t', ht'⟩).endOf_eq (by decide)
    have hzero : number [0] = 0 := rfl
    simp only [endOf, continuations, List.cons_append, List.nil_append, List.drop_succ_cons,
      List.drop_zero, UInt8.toNat_zero, List.length_cons, List.length_nil] at he
    simpa [hzero] using he
  · rintro rfl type sline dline flags len payload hlen hnum hstart rest
    obtain ⟨t', ht'⟩ := (readTape_armed_iff h _).mpr (delimited_of_no_start hlen hnum hstart)
    refine ⟨t', ?_⟩
    rw [frameBytes, List.cons_append, readTape_goes hstep]
    rw [readTape_eq_readUntil, ← List.append_nil (_ ++ _)] at ht'
    rw [readTape_eq_readUntil]
    exact readUntil_determined MessageTape.addChar PyErr.connectionClosed rest ht'

/-- The start byte makes the tape a fresh one exactly when none of the frames before it has
come to its LEN, and the next frame ends at its last byte exactly when none of them had a LEN
of several bytes. -/
theorem resynchronises_iff (bs : List UInt8) :
    (Resynchronises bs ↔ ∀ p ∈ pieces bs, p.length < 4) ∧
      (EndsFrames (feed {} bs) ↔ ∀ p ∈ pieces bs, OneByteLen p) := by
  obtain ⟨k, harmed, hk⟩ := exists_armed bs
  rw [feed_concat] at harmed
  have hends := endsFrames_iff_of_armed harmed
  refine ⟨⟨fun h => (control_iff bs).mp h.control, fun h => ⟨(control_iff bs).mpr h, ?_⟩⟩, hends.trans hk⟩
  rw [hends, hk]
  intro p hp c hc
  have hlong := (List.getElem?_eq_some_iff.mp hc).1
  have hshort := h p hp
  omega

/-- A fragment that ends inside its LEN: the next frame does not end at its last byte. -/
theorem resync_loses_frame_behind_fragment :
    ¬∀ bs, (feed {} bs).sts = .bStream → Resynchronises bs := by
  intro hall
  obtain ⟨t, ht⟩ := (hall [0x1E, 1, 0, 0, 0, 0x80] rfl).ends 5 0 0 0 [2] [8, 5] rfl rfl (by decide) []
  have hlost : readTape (feed {} [0x1E, 1, 0, 0, 0, 0x80]) (frameBytes 5 0 0 0 [2] [8, 5] ++ []) =
      .error .connectionClosed := rfl
  rw [hlost] at ht
  cases ht

end Start

end Nais.Host
