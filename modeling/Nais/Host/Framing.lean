import Nais.Host.Tape

/-!
# Cutting lines and frames off a host stream

What the tape does with the bytes between two start bytes of a record. The LEN field of a
piece gives the position of its end, shifted by the LEN continuation bytes that earlier
pieces of the same record left in `mult` and `hlen`. A frame is cut back out of a stream
exactly when it is `Delimited`: its last piece ends at its last byte and no earlier piece
ends inside itself.
-/

namespace Nais.Host
open Nais.Lib Nais.Lib.Cut Nais.Lib.Base128

/-- The number of bytes of `p` up to its end byte, by the LEN field of `p`, when the pieces
before it held `carry` LEN continuation bytes. -/
def endOf (carry : Nat) (p : List UInt8) : Option Nat :=
  let digits := p.drop 4
  let m := continuations digits
  if m < digits.length then
    some (6 + carry + m + 128 ^ carry * number (digits.take (m + 1)))
  else none

def EndsInside (carry : Nat) (p : List UInt8) : Prop :=
  ∃ e, endOf carry p = some e ∧ p[e - 1]? = some SYNC_END

/-- `Delimited carry bs` for the bytes of a frame that follow a start byte. -/
inductive Delimited : Nat → List UInt8 → Prop
  | closes {carry : Nat} {p : List UInt8} : SYNC_START ∉ p → endOf carry p = some p.length →
      p.getLast? = some SYNC_END → Delimited carry p
  | resync {carry : Nat} {p rest : List UInt8} : SYNC_START ∉ p → ¬EndsInside carry p →
      Delimited (carry + continuations (p.drop 4)) rest → Delimited carry (p ++ SYNC_START :: rest)

/-- Inside a binary record whose LEN bytes so far held `carry` continuation bytes. -/
structure Inside (carry : Nat) (t : MessageTape) : Prop where
  sts : t.sts = .bStream
  mult : t.mult = 128 ^ carry
  hlen : t.hlen = 6 + carry
  expectedLen : 6 ≤ t.expectedLen

/-- Just after a start byte. -/
structure Armed (carry : Nat) (t : MessageTape) : Prop extends Inside carry t where
  cursor : t.cursor = 0
  plen : t.plen = 0
  stsLen : t.stsLen = .start

lemma advance_not_len {t : MessageTape} (hs : t.sts = .bStream) (hc : t.cursor + 1 ≠ 5)
    (hl : t.stsLen ≠ .lenEnter) (c : UInt8) :
    t.advance c = { t with cursor := t.cursor + 1 } := by
  unfold MessageTape.advance
  dsimp only
  rw [if_pos hs, if_neg (by tauto)]

lemma advance_digit {t : MessageTape} (hs : t.sts = .bStream)
    (hl : t.cursor + 1 = 5 ∨ t.stsLen = .lenEnter) {c : UInt8} (hc : 128 ≤ c.toNat) :
    t.advance c = { t with
      cursor := t.cursor + 1
      plen := t.plen + t.mult * (c.toNat % 128)
      mult := t.mult * 128
      hlen := t.hlen + 1
      stsLen := .lenEnter } := by
  unfold MessageTape.advance
  dsimp only
  rw [if_pos hs, if_pos hl, if_pos ((and_128_ne_zero_iff c).mpr hc), and_127]

lemma advance_last {t : MessageTape} (hs : t.sts = .bStream)
    (hl : t.cursor + 1 = 5 ∨ t.stsLen = .lenEnter) {c : UInt8} (hc : c.toNat < 128) :
    t.advance c = { t with
      cursor := t.cursor + 1
      expectedLen := t.hlen + t.plen + t.mult * c.toNat
      stsLen := .lenDone } := by
  have hbit : ¬c.toNat &&& 0x80 ≠ 0 := by
    rw [and_128_ne_zero_iff]
    omega
  unfold MessageTape.advance
  dsimp only
  rw [if_pos hs, if_pos hl, if_neg hbit]

lemma addChar_goes {t u : MessageTape} {c : UInt8} (ha : t.advance c = u) (hs : u.sts = .bStream)
    (hc : c ≠ SYNC_START) (he : u.cursor = u.expectedLen → c ≠ SYNC_END) :
    t.addChar c = ({ u with msg := t.msg ++ [c] }, true) := by
  have hm : u.msg = t.msg := by rw [← ha, advance_msg]
  simp only [MessageTape.addChar, MessageTape.endRecord, ha, hs, hm, hc, ite_false, true_and,
    reduceCtorEq, false_and]
  split
  · rename_i h
    rw [if_neg (he h)]
  · rfl

lemma readTape_goes {t t' : MessageTape} {c : UInt8} (h : t.addChar c = (t', true))
    (stream : List UInt8) : readTape t (c :: stream) = readTape t' stream := by
  rw [readTape, h]

/-- A start byte inside a record rearms the tape and keeps the carried multiplier. -/
lemma addChar_start {carry : Nat} {t : MessageTape} (h : Inside carry t) :
    ∃ t', t.addChar SYNC_START = (t', true) ∧ Armed carry t' := by
  have hend : ∀ u : MessageTape, u.endRecord SYNC_START =
      ({ u with cursor := 0, plen := 0, sts := .bStream, stsLen := .start }, true) := by
    intro u
    simp [MessageTape.endRecord]
  rw [MessageTape.addChar, hend]
  refine ⟨_, rfl, ⟨⟨rfl, ?_, ?_, ?_⟩, rfl, rfl, rfl⟩⟩
  all_goals
    by_cases hl : t.cursor + 1 = 5 ∨ t.stsLen = .lenEnter
    · rw [advance_last h.sts hl (by decide)]
      simp [h.mult, h.hlen]
      try omega
    · rw [advance_not_len h.sts (by tauto) (by tauto)]
      simp [h.mult, h.hlen, h.expectedLen]

/-- The tape reads all of `p` without ending the record. -/
def Goes (t : MessageTape) (p : List UInt8) (t' : MessageTape) : Prop :=
  ∀ tail, readTape t (p ++ tail) = readTape t' tail

lemma Goes.nil (t : MessageTape) : Goes t [] t := fun _ => rfl

lemma Goes.cons {t t' u : MessageTape} {c : UInt8} {p : List UInt8}
    (h : t.addChar c = (t', true)) (hp : Goes t' p u) : Goes t (c :: p) u := by
  intro tail
  rw [List.cons_append, readTape_goes h, hp]

lemma Goes.append {t t' u : MessageTape} {p q : List UInt8} (hp : Goes t p t') (hq : Goes t' q u) :
    Goes t (p ++ q) u := by
  intro tail
  rw [List.append_assoc, hp, hq]

/-- The bytes TYPE, SLINE, DLINE and FLAGS. -/
lemma goes_header {carry : Nat} {p : List UInt8} (hp : SYNC_START ∉ p) {t : MessageTape}
    (h : Inside carry t) (hl : t.stsLen = .start) (hc : t.cursor + p.length ≤ 4) :
    ∃ t', Goes t p t' ∧ Inside carry t' ∧ t'.stsLen = .start ∧ t'.plen = t.plen ∧
      t'.cursor = t.cursor + p.length := by
  induction p generalizing t with
  | nil => exact ⟨t, Goes.nil t, h, hl, rfl, rfl⟩
  | cons c p ih =>
    simp only [List.mem_cons, not_or] at hp
    simp only [List.length_cons] at hc
    have hstep := addChar_goes (advance_not_len h.sts (by omega) (by simp [hl]) c) h.sts
      (Ne.symm hp.1) (by have := h.expectedLen; intro he; dsimp only at he; omega)
    have hin : Inside carry { t with cursor := t.cursor + 1, msg := t.msg ++ [c] } :=
      ⟨h.sts, h.mult, h.hlen, h.expectedLen⟩
    obtain ⟨t', hg, hi, hl', hp', hc'⟩ := ih hp.2 hin hl (by dsimp only; omega)
    refine ⟨t', Goes.cons hstep hg, hi, hl', hp', ?_⟩
    rw [hc', List.length_cons]
    dsimp only
    omega

/-- The LEN bytes with a continuation bit. -/
lemma goes_digits {carry : Nat} {ds : List UInt8} (hds : ∀ d ∈ ds, 128 ≤ d.toNat) {t : MessageTape}
    (h : Inside carry t) (hl : t.cursor + 1 = 5 ∨ t.stsLen = .lenEnter) :
    ∃ t', Goes t ds t' ∧ Inside (carry + ds.length) t' ∧
      (t'.cursor + 1 = 5 ∨ t'.stsLen = .lenEnter) ∧
      t'.plen = t.plen + 128 ^ carry * number ds ∧ t'.cursor = t.cursor + ds.length := by
  induction ds generalizing carry t with
  | nil => exact ⟨t, Goes.nil t, h, hl, by simp [number], rfl⟩
  | cons d ds ih =>
    rw [List.forall_mem_cons] at hds
    have hstart : d ≠ SYNC_START := by
      rintro rfl
      exact absurd hds.1 (by decide)
    have hend : d ≠ SYNC_END := by
      rintro rfl
      exact absurd hds.1 (by decide)
    have hstep := addChar_goes (advance_digit h.sts hl hds.1) h.sts hstart (fun _ => hend)
    have hin : Inside (carry + 1) { t with
        cursor := t.cursor + 1
        plen := t.plen + t.mult * (d.toNat % 128)
        mult := t.mult * 128
        hlen := t.hlen + 1
        stsLen := .lenEnter
        msg := t.msg ++ [d] } :=
      ⟨h.sts, by rw [h.mult, pow_succ], by rw [h.hlen, Nat.add_assoc], h.expectedLen⟩
    obtain ⟨t', hg, hi, hl', hp, hc⟩ := ih hds.2 hin (.inr rfl)
    refine ⟨t', Goes.cons hstep hg, ?_, hl', ?_, ?_⟩
    · rw [List.length_cons, show carry + (ds.length + 1) = carry + 1 + ds.length by omega]
      exact hi
    · rw [hp]
      simp only [h.mult, number, pow_succ]
      ring
    · rw [hc, List.length_cons]
      dsimp only
      omega

/-- The last LEN byte fixes the position of the end byte. -/
lemma goes_last {carry : Nat} {d : UInt8} (hd : d.toNat < 128) (hstart : d ≠ SYNC_START)
    {t : MessageTape} (h : Inside carry t) (hl : t.cursor + 1 = 5 ∨ t.stsLen = .lenEnter)
    (hc : t.cursor ≤ 4 + carry) :
    ∃ t', Goes t [d] t' ∧ Inside carry t' ∧ t'.stsLen = .lenDone ∧
      t'.expectedLen = 6 + carry + t.plen + 128 ^ carry * d.toNat ∧ t'.cursor = t.cursor + 1 := by
  have he : t.hlen + t.plen + t.mult * d.toNat = 6 + carry + t.plen + 128 ^ carry * d.toNat := by
    rw [h.hlen, h.mult]
  have hstep := addChar_goes (advance_last h.sts hl hd) h.sts hstart
    (by intro hcur; dsimp only at hcur; omega)
  exact ⟨_, Goes.cons hstep (Goes.nil _), ⟨h.sts, h.mult, h.hlen, by dsimp only; omega⟩, rfl, he, rfl⟩

/-- Behind the LEN field the record ends at the expected cursor if that byte is the end
byte, and nowhere else. -/
lemma readTape_payload {carry : Nat} {p : List UInt8} (hp : SYNC_START ∉ p) {t : MessageTape}
    (h : Inside carry t) (hl : t.stsLen = .lenDone) (hc : 5 ≤ t.cursor) :
    if t.cursor < t.expectedLen ∧ p[t.expectedLen - t.cursor - 1]? = some SYNC_END then
      ∃ t', (t'.expectedLen = t.expectedLen ∧ t'.hlen = t.hlen) ∧
        ∀ tail, readTape t (p ++ tail) = .ok (t', p.drop (t.expectedLen - t.cursor) ++ tail)
    else ∃ t', Goes t p t' ∧ Inside carry t' := by
  induction p generalizing t with
  | nil =>
    rw [if_neg (by simp)]
    exact ⟨t, Goes.nil t, h⟩
  | cons c p ih =>
    simp only [List.mem_cons, not_or] at hp
    have hadv := advance_not_len h.sts (by omega : t.cursor + 1 ≠ 5) (by simp [hl]) c
    by_cases hend : t.cursor + 1 = t.expectedLen ∧ c = SYNC_END
    · have hidx : t.expectedLen - t.cursor - 1 = 0 := by omega
      have hdrop : t.expectedLen - t.cursor = 1 := by omega
      rw [if_pos ⟨by omega, by rw [hidx, hend.2]; rfl⟩, hdrop]
      refine ⟨{ t with cursor := t.cursor + 1, msg := t.msg ++ [c], sts := .aStream }, ⟨rfl, rfl⟩, ?_⟩
      intro tail
      have hstep : t.addChar c =
          ({ t with cursor := t.cursor + 1, msg := t.msg ++ [c], sts := .aStream }, false) := by
        unfold MessageTape.addChar MessageTape.endRecord
        rw [hadv]
        dsimp only
        rw [if_neg (Ne.symm hp.1), if_pos ⟨h.sts, hend.1⟩, if_pos hend.2]
      rw [List.cons_append, readTape, hstep]
      rfl
    · have hstep := addChar_goes hadv h.sts (Ne.symm hp.1) (fun hcur hce => hend ⟨hcur, hce⟩)
      have hin : Inside carry { t with cursor := t.cursor + 1, msg := t.msg ++ [c] } :=
        ⟨h.sts, h.mult, h.hlen, h.expectedLen⟩
      have hi := ih hp.2 hin hl (by dsimp only; omega)
      dsimp only at hi
      have hiff : (t.cursor < t.expectedLen ∧
          (c :: p)[t.expectedLen - t.cursor - 1]? = some SYNC_END) ↔
          (t.cursor + 1 < t.expectedLen ∧
            p[t.expectedLen - (t.cursor + 1) - 1]? = some SYNC_END) := by
        by_cases hlt : t.cursor + 1 < t.expectedLen
        · rw [show t.expectedLen - t.cursor - 1 = t.expectedLen - (t.cursor + 1) - 1 + 1 by omega,
            List.getElem?_cons_succ]
          simp only [hlt, true_and, and_iff_right_iff_imp]
          omega
        · by_cases heq : t.cursor + 1 = t.expectedLen
          · rw [show t.expectedLen - t.cursor - 1 = 0 by omega, List.getElem?_cons_zero]
            have hne : c ≠ SYNC_END := fun hce => hend ⟨heq, hce⟩
            simp [hlt, hne]
          · constructor
            · rintro ⟨hlt', -⟩
              omega
            · rintro ⟨hlt', -⟩
              omega
      rw [if_congr hiff rfl rfl]
      split_ifs at hi ⊢ with hcond
      · obtain ⟨t', hfields, ht⟩ := hi
        refine ⟨t', hfields, fun tail => ?_⟩
        rw [List.cons_append, readTape_goes hstep, ht,
          show t.expectedLen - t.cursor = t.expectedLen - (t.cursor + 1) + 1 by omega,
          List.drop_succ_cons]
      · obtain ⟨t', hg, hin'⟩ := hi
        exact ⟨t', Goes.cons hstep hg, hin'⟩

lemma endOf_eq_some {carry : Nat} {p hi q : List UInt8} {d : UInt8}
    (hds : p.drop 4 = hi ++ d :: q) (hlen : hi.length = continuations (p.drop 4))
    (hd : d.toNat < 128) :
    endOf carry p = some (6 + (carry + hi.length) + 128 ^ carry * number hi +
      128 ^ (carry + hi.length) * d.toNat) := by
  have hlt : hi.length < (hi ++ d :: q).length := by simp
  have htake : (hi ++ d :: q).take (hi.length + 1) = hi ++ [d] := by
    rw [show hi ++ d :: q = (hi ++ [d]) ++ q by simp]
    exact List.take_left' (by simp)
  simp only [endOf]
  rw [← hlen, hds, if_pos hlt, htake, number_append]
  simp only [number, Nat.mod_eq_of_lt hd, pow_add]
  congr 1
  ring

/-- The bytes TYPE, SLINE, DLINE and FLAGS and the LEN bytes with a continuation bit. -/
lemma goes_continuations {carry : Nat} {p hi : List UInt8} (hp : SYNC_START ∉ p)
    {t : MessageTape} (h : Armed carry t) (hhi : ∀ b ∈ hi, 128 ≤ b.toNat) (hlong : 4 ≤ p.length) :
    ∃ t', Goes t (p.take 4 ++ hi) t' ∧ Inside (carry + hi.length) t' ∧
      (t'.cursor + 1 = 5 ∨ t'.stsLen = .lenEnter) ∧
      t'.plen = 128 ^ carry * number hi ∧ t'.cursor = 4 + hi.length := by
  have hhead : SYNC_START ∉ p.take 4 := fun hm => hp (List.mem_of_mem_take hm)
  have hfour : (p.take 4).length = 4 := by
    rw [List.length_take]
    omega
  obtain ⟨t₁, hg₁, hin₁, hl₁, hp₁, hc₁⟩ := goes_header hhead h.toInside h.stsLen
    (by rw [h.cursor, hfour])
  rw [h.cursor, hfour] at hc₁
  rw [h.plen] at hp₁
  obtain ⟨t₂, hg₂, hin₂, hl₂, hp₂, hc₂⟩ := goes_digits hhi hin₁ (.inl (by omega))
  rw [hp₁, Nat.zero_add] at hp₂
  rw [hc₁, Nat.zero_add] at hc₂
  exact ⟨t₂, hg₁.append hg₂, hin₂, hl₂, hp₂, hc₂⟩

/-- A piece that holds the whole LEN field. -/
lemma readTape_whole_len {carry : Nat} {p hi q : List UInt8} {d : UInt8} (hp : SYNC_START ∉ p)
    {t : MessageTape} (h : Armed carry t) (hds : p.drop 4 = hi ++ d :: q)
    (hlen : hi.length = continuations (p.drop 4)) (hhi : ∀ b ∈ hi, 128 ≤ b.toNat)
    (hd : d.toNat < 128) :
    ∃ e, endOf carry p = some e ∧
      if p[e - 1]? = some SYNC_END then
        ∃ t', (t'.expectedLen = e ∧ t'.hlen = 6 + carry + hi.length) ∧
          ∀ tail, readTape t (p ++ tail) = .ok (t', p.drop e ++ tail)
      else ∃ t', Goes t p t' ∧ Inside (carry + hi.length) t' := by
  have hlong : 4 ≤ p.length := by
    have hcount := congrArg List.length hds
    rw [List.length_drop, List.length_append, List.length_cons] at hcount
    omega
  have hpq : p = p.take 4 ++ (hi ++ [d]) ++ q := by
    rw [List.append_assoc, List.append_assoc, List.singleton_append, ← hds, List.take_append_drop]
  have hpre : (p.take 4 ++ (hi ++ [d])).length = 5 + hi.length := by
    simp only [List.length_append, List.length_take, List.length_singleton]
    omega
  have hstart : d ≠ SYNC_START := by
    rintro rfl
    apply hp
    rw [hpq]
    simp
  have hq : SYNC_START ∉ q := by
    intro hm
    apply hp
    rw [hpq]
    exact List.mem_append_right _ hm
  obtain ⟨t₂, hg₂, hin₂, hl₂, hp₂, hc₂⟩ := goes_continuations hp h hhi hlong
  obtain ⟨t₃, hg₃, hin₃, hl₃, he₃, hc₃⟩ := goes_last hd hstart hin₂ hl₂ (by omega)
  rw [hp₂] at he₃
  have hgo : Goes t (p.take 4 ++ (hi ++ [d])) t₃ := by
    rw [← List.append_assoc]
    exact hg₂.append hg₃
  refine ⟨t₃.expectedLen, by rw [endOf_eq_some hds hlen hd, he₃], ?_⟩
  have hcur : t₃.cursor < t₃.expectedLen := by omega
  have hidx : p[t₃.expectedLen - 1]? = q[t₃.expectedLen - t₃.cursor - 1]? := by
    conv_lhs => rw [hpq]
    rw [List.getElem?_append_right (by omega), hpre]
    congr 1
    omega
  have hdrop : p.drop t₃.expectedLen = q.drop (t₃.expectedLen - t₃.cursor) := by
    conv_lhs => rw [hpq]
    rw [List.drop_append, List.drop_eq_nil_of_le (by omega), hpre, List.nil_append]
    congr 1
    omega
  have hbody := readTape_payload hq hin₃ hl₃ (by omega)
  simp only [hcur, true_and] at hbody
  rw [hidx]
  split_ifs at hbody ⊢ with hbyte
  · obtain ⟨t', ⟨he', hh'⟩, ht'⟩ := hbody
    refine ⟨t', ⟨he', ?_⟩, fun tail => ?_⟩
    · rw [hh', hin₃.hlen, Nat.add_assoc]
    rw [hdrop, ← ht', ← hgo (q ++ tail), ← List.append_assoc, ← hpq]
  · obtain ⟨t', hg', hin'⟩ := hbody
    refine ⟨t', ?_, hin'⟩
    rw [hpq]
    exact hgo.append hg'

/-- What the tape does with a piece that follows a start byte. -/
lemma readTape_piece {carry : Nat} {p : List UInt8} (hp : SYNC_START ∉ p) {t : MessageTape}
    (h : Armed carry t) :
    (∀ e, endOf carry p = some e → p[e - 1]? = some SYNC_END →
      ∃ t', (t'.expectedLen = e ∧ t'.hlen = 6 + carry + continuations (p.drop 4)) ∧
        ∀ tail, readTape t (p ++ tail) = .ok (t', p.drop e ++ tail)) ∧
    (¬EndsInside carry p → ∃ t', Goes t p t' ∧ Inside (carry + continuations (p.drop 4)) t') := by
  obtain ⟨hi, rest, hds, hlen, hhi, hrest⟩ := exists_continuations_split (p.drop 4)
  cases rest with
  | nil =>
    -- the piece ends before its LEN field does
    rw [List.append_nil] at hds
    have hfull : ¬continuations (p.drop 4) < (p.drop 4).length := by
      rw [← hlen, hds]
      omega
    have hnone : endOf carry p = none := by simp only [endOf, hfull, ite_false]
    refine ⟨fun e he => by simp [hnone] at he, fun _ => ?_⟩
    rw [← hlen]
    by_cases hlong : 4 ≤ p.length
    · obtain ⟨t', hg, hin, -⟩ := goes_continuations hp h hhi hlong
      rw [← hds, List.take_append_drop] at hg
      exact ⟨t', hg, hin⟩
    · have hnil : hi = [] := by rw [← hds, List.drop_eq_nil_of_le (by omega)]
      obtain ⟨t', hg, hin, -⟩ := goes_header hp h.toInside h.stsLen (by rw [h.cursor]; omega)
      rw [hnil]
      exact ⟨t', hg, hin⟩
  | cons d q =>
    obtain ⟨e, he, hread⟩ := readTape_whole_len hp h hds hlen hhi (hrest d q rfl)
    refine ⟨fun e' he' hbyte => ?_, fun hno => ?_⟩
    · obtain rfl : e = e' := Option.some.inj (he.symm.trans he')
      rwa [if_pos hbyte, hlen] at hread
    · rw [if_neg fun hbyte => hno ⟨e, he, hbyte⟩] at hread
      rwa [← hlen]

/-- Behind a start byte the tape ends with the last byte of `bs` exactly when `bs` is
delimited. -/
theorem readTape_armed_iff {carry : Nat} {t : MessageTape} (h : Armed carry t) (bs : List UInt8) :
    (∃ t', readTape t bs = .ok (t', [])) ↔ Delimited carry bs := by
  constructor
  · rintro ⟨t', ht'⟩
    induction hn : bs.length using Nat.strong_induction_on generalizing carry t bs with
    | _ n ih =>
      by_cases hs : SYNC_START ∈ bs
      · obtain ⟨p, rest, rfl, hp⟩ := List.eq_append_cons_of_mem hs
        obtain ⟨hends, hgoes⟩ := readTape_piece hp h
        by_cases hin : EndsInside carry p
        · obtain ⟨e, he, hbyte⟩ := hin
          obtain ⟨u, -, hu⟩ := hends e he hbyte
          rw [hu, Except.ok.injEq, Prod.mk.injEq] at ht'
          simp at ht'
        · obtain ⟨u, hgo, hins⟩ := hgoes hin
          obtain ⟨v, hv, harmed⟩ := addChar_start hins
          rw [hgo, readTape_goes hv] at ht'
          refine Delimited.resync hp hin (ih _ ?_ harmed rest ht' rfl)
          rw [← hn]
          simp only [List.length_append, List.length_cons]
          omega
      · obtain ⟨hends, hgoes⟩ := readTape_piece hs h
        by_cases hin : EndsInside carry bs
        · obtain ⟨e, he, hbyte⟩ := hin
          obtain ⟨u, -, hu⟩ := hends e he hbyte
          have hdrop : bs.drop e = [] := by
            have := hu []
            rw [List.append_nil, List.append_nil, ht', Except.ok.injEq, Prod.mk.injEq] at this
            exact this.2.symm
          have hle : e ≤ bs.length := by
            have := (List.getElem?_eq_some_iff.mp hbyte).1
            omega
          have heq : e = bs.length := le_antisymm hle (List.drop_eq_nil_iff.mp hdrop)
          apply Delimited.closes hs (by rw [he, heq])
          rw [List.getLast?_eq_getElem?, ← heq, hbyte]
        · obtain ⟨u, hgo, -⟩ := hgoes hin
          have := hgo []
          rw [List.append_nil, ht'] at this
          cases this
  · intro hd
    induction hd generalizing t with
    | closes hp he hlast =>
      rw [List.getLast?_eq_getElem?] at hlast
      obtain ⟨u, -, hu⟩ := (readTape_piece hp h).1 _ he hlast
      refine ⟨u, ?_⟩
      have := hu []
      rwa [List.append_nil, List.append_nil, List.drop_length] at this
    | resync hp hin _ ih =>
      obtain ⟨u, hgo, hins⟩ := (readTape_piece hp h).2 hin
      obtain ⟨v, hv, harmed⟩ := addChar_start hins
      obtain ⟨t', ht'⟩ := ih harmed
      exact ⟨t', by rw [hgo, readTape_goes hv, ht']⟩

lemma addChar_text {t : MessageTape} (ht : t.sts = .aStream) {c : UInt8} (hstart : c ≠ SYNC_START)
    (hnl : c ≠ NEWLINE) : t.addChar c = ({ t with msg := t.msg ++ [c] }, true) := by
  simp [MessageTape.addChar, MessageTape.advance, MessageTape.endRecord, ht, hstart, hnl]

/-- Outside a frame the tape collects text. -/
lemma goes_text {text : List UInt8} (hstart : SYNC_START ∉ text) (hnl : NEWLINE ∉ text)
    {t : MessageTape} (ht : t.sts = .aStream) : Goes t text { t with msg := t.msg ++ text } := by
  induction text generalizing t with
  | nil =>
    rw [List.append_nil]
    exact Goes.nil t
  | cons c text ih =>
    simp only [List.mem_cons, not_or] at hstart hnl
    have hstep := addChar_text ht (Ne.symm hstart.1) (Ne.symm hnl.1)
    have hrest := ih hstart.2 hnl.2 (t := { t with msg := t.msg ++ [c] }) ht
    rw [List.append_assoc, List.singleton_append] at hrest
    exact hrest.cons hstep

lemma addChar_newline {t : MessageTape} (ht : t.sts = .aStream) :
    t.addChar NEWLINE = ({ t with msg := t.msg ++ [NEWLINE] }, false) := by
  have hne : NEWLINE ≠ SYNC_START := by decide
  simp [MessageTape.addChar, MessageTape.advance, MessageTape.endRecord, ht, hne]

lemma readTape_line {text : List UInt8} (hstart : SYNC_START ∉ text) (hnl : NEWLINE ∉ text)
    {t : MessageTape} (ht : t.sts = .aStream) :
    ∃ t', readTape t (text ++ [NEWLINE]) = .ok (t', []) := by
  have hend := addChar_newline (t := { t with msg := t.msg ++ text }) ht
  refine ⟨{ t with msg := t.msg ++ text ++ [NEWLINE] }, ?_⟩
  rw [goes_text hstart hnl ht, readTape, hend]

/-- A frame is one record of the tape exactly when its bytes behind the start byte are
delimited. -/
lemma accepts_frame_iff (bs : List UInt8) :
    tapeCutter.Accepts (SYNC_START :: bs) ↔ Delimited 0 bs := by
  have hstep : MessageTape.addChar {} SYNC_START =
      ({ sts := .bStream, msg := [SYNC_START] }, true) := rfl
  have harmed : Armed 0 { sts := .bStream, msg := [SYNC_START] } :=
    ⟨⟨rfl, rfl, rfl, by decide⟩, rfl, rfl, rfl⟩
  rw [tapeCutter_accepts_iff, readTape_goes hstep, readTape_armed_iff harmed]

/-- The delimiting condition for a frame without a second start byte: the LEN field holds
the length of the payload. -/
lemma delimited_of_no_start {type sline dline flags : UInt8} {len payload : List UInt8}
    (hlen : IsNumeral len) (hnum : number len = payload.length)
    (hstart : SYNC_START ∉ [type, sline, dline, flags] ++ len ++ payload) :
    Delimited 0 ([type, sline, dline, flags] ++ len ++ payload ++ [SYNC_END]) := by
  have hdrop : ([type, sline, dline, flags] ++ len ++ payload ++ [SYNC_END]).drop 4 =
      len ++ (payload ++ [SYNC_END]) := by simp
  have hpos : continuations len + 1 = len.length := hlen.symm
  have hcont : continuations (len ++ (payload ++ [SYNC_END])) = continuations len := by
    rw [continuations_append, if_neg (by omega)]
  apply Delimited.closes
  · rw [List.mem_append, not_or]
    exact ⟨hstart, by decide⟩
  · simp only [endOf]
    rw [hdrop, hcont, if_pos (by simp; omega), hpos, List.take_left, hnum]
    simp only [pow_zero, one_mul, List.length_append, List.length_cons, List.length_nil]
    congr 1
    omega
  · exact List.getLast?_concat

end Nais.Host
