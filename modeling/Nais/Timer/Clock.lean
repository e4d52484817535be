import Nais.Lib.Run
import Nais.Timer.Machine

/-!
# The 64-bit clock

`_xtimer_now64` adds two values that it reads one after the other: the wraps counted so far
and the hardware counter. Between a wrap of the counter and the interrupt that counts it the
first lags behind. A call may be made from a thread or from any interrupt handler, so that
its reads come at any time, also while the wrap is being served.
-/

namespace Nais.Timer

open Nais.Lib.Run

/-- `now` counts ticks and its low 32 bits are the counter. `serving` is set while the handler
has cleared the interrupt and not counted the wrap yet. -/
structure Clock where
  now : ℕ
  wrapCounter : UInt32
  wrapFlag : Bool
  serving : Bool
  deriving DecidableEq

namespace Clock

def xtimerNow (k : Clock) : UInt32 := .ofNat k.now

def tick (k : Clock) (n : ℕ) : Clock :=
  { k with
    now := k.now + n
    wrapFlag := k.wrapFlag || decide (k.now / 2 ^ 32 < (k.now + n) / 2 ^ 32) }

/-- `irq_timer0_handler` clears the timeout interrupt. -/
def serve (k : Clock) : Clock :=
  if k.wrapFlag && !k.serving then { k with wrapFlag := false, serving := true } else k

/-- `wrap_counter++` of `_timer_wrap`. -/
def count (k : Clock) : Clock :=
  if k.serving then { k with wrapCounter := k.wrapCounter + 1, serving := false } else k

/-- Every wrap of the counter has been counted. -/
def Counted (k : Clock) : Prop := k.wrapCounter.toNat = k.now / 2 ^ 32

instance (k : Clock) : Decidable k.Counted :=
  inferInstanceAs (Decidable (k.wrapCounter.toNat = k.now / 2 ^ 32))

/-- The clock of the timer module. -/
def ofSys {ι : Type} (s : Sys ι) : Clock := ⟨s.now, s.wrapCounter, s.wrapFlag, false⟩

lemma tick_ofSys {ι : Type} (s : Sys ι) (n : ℕ) : ofSys (s.tick n) = (ofSys s).tick n := rfl

/-- The interrupt that serves a wrap clears the flag and counts. -/
lemma enterIrq_ofSys {ι : Type} [DecidableEq ι] [Fintype ι] (s : State ι) (h : s.wrapFlag = true) :
    ofSys s.enterIrq.toSys = (ofSys s.toSys).serve.count := by
  have hserve : (ofSys s.toSys).serve = { ofSys s.toSys with wrapFlag := false, serving := true } := by
    rw [serve, ofSys, h]
    rfl
  rw [State.enterIrq, if_pos h, hserve]
  rfl

end Clock

def xtimerNow64 (wrapCounter now : UInt32) : UInt64 := (wrapCounter.toUInt64 <<< 32) + now.toUInt64

lemma toNat_xtimerNow64 (wrapCounter now : UInt32) :
    (xtimerNow64 wrapCounter now).toNat = wrapCounter.toNat * 2 ^ 32 + now.toNat := by
  have hw := wrapCounter.toNat_lt
  have hn := now.toNat_lt
  simp only [xtimerNow64, UInt64.toNat_add, UInt64.toNat_shiftLeft, UInt32.toNat_toUInt64,
    UInt64.reduceToNat, Nat.reduceMod, Nat.shiftLeft_eq]
  rw [Nat.mod_eq_of_lt (a := wrapCounter.toNat * 2 ^ 32) (by omega)]
  exact Nat.mod_eq_of_lt (by omega)

/-- How far a call of `_xtimer_now64` has come, which the compiler lets read either operand
first. `earlier` are the values of the calls that had returned when it started, `readAt` is
when it made its first read. -/
inductive Now64 where
  | started (wrapFirst : Bool) (earlier : List UInt64)
  | readWraps (earlier : List UInt64) (wrapCounter : UInt32) (readAt : ℕ)
  | readCounter (earlier : List UInt64) (now : UInt32) (readAt : ℕ)
  deriving DecidableEq

/-- The value of a call, with those that had been returned when it started. -/
structure Reading where
  value : UInt64
  earlier : List UInt64

structure ClockState extends Clock where
  calls : ℕ → Option Now64
  returned : List Reading

def ClockState.initial : ClockState := ⟨⟨0, 0, false, false⟩, fun _ => none, []⟩

inductive ClockEvent where
  | tick (n : ℕ)
  | serve
  | count
  | now64 (c : ℕ) (wrapFirst : Bool)
  | read (c : ℕ)

namespace ClockState

def goOn (s : ClockState) (c : ℕ) (call : Option Now64) : ClockState :=
  { s with calls := Function.update s.calls c call }

def ret (s : ClockState) (c : ℕ) (r : Reading) : ClockState :=
  { s with returned := r :: s.returned }.goOn c none

/-- The next read of a call. -/
def stepRead (s : ClockState) (c : ℕ) : Now64 → ClockState
  | .started true earlier => s.goOn c (some (.readWraps earlier s.wrapCounter s.now))
  | .started false earlier => s.goOn c (some (.readCounter earlier s.xtimerNow s.now))
  | .readWraps earlier wrapCounter _ => s.ret c ⟨xtimerNow64 wrapCounter s.xtimerNow, earlier⟩
  | .readCounter earlier now _ => s.ret c ⟨xtimerNow64 s.wrapCounter now, earlier⟩

/-- A call that started after another had returned yields at least its value. -/
def Monotonic (s : ClockState) : Prop := ∀ r ∈ s.returned, ∀ v ∈ r.earlier, v ≤ r.value

/-- No wrap is waiting to be counted when a call reads, and none comes between its reads. -/
def Settled (s : ClockState) : Now64 → Prop
  | .started _ _ => s.Counted
  | .readWraps _ _ readAt | .readCounter _ _ readAt =>
    s.Counted ∧ s.now / 2 ^ 32 = readAt / 2 ^ 32

instance (s : ClockState) (call : Now64) : Decidable (s.Settled call) :=
  match call with
  | .started _ _ => inferInstanceAs (Decidable s.Counted)
  | .readWraps _ _ readAt | .readCounter _ _ readAt =>
    inferInstanceAs (Decidable (s.Counted ∧ s.now / 2 ^ 32 = readAt / 2 ^ 32))

end ClockState

def clockStep (s : ClockState) : ClockEvent → ClockState
  | .tick n => { s with toClock := s.toClock.tick n }
  | .serve => { s with toClock := s.toClock.serve }
  | .count => { s with toClock := s.toClock.count }
  | .now64 c wrapFirst =>
    if s.calls c = none then
      s.goOn c (some (.started wrapFirst (s.returned.map Reading.value)))
    else s
  | .read c => ((s.calls c).map (s.stepRead c)).getD s

def ReadsSettled (s : ClockState) : ClockEvent → Prop
  | .read c => ∀ call ∈ s.calls c, s.Settled call
  | _ => True

instance (s : ClockState) (e : ClockEvent) : Decidable (ReadsSettled s e) :=
  match e with
  | .read c =>
    match h : s.calls c with
    | none => isTrue (by rw [ReadsSettled, h]; exact fun _ hn => nomatch hn)
    | some call => decidable_of_iff (s.Settled call) (by simp [ReadsSettled, h])
  | .tick _ | .serve | .count | .now64 _ _ => isTrue trivial

/-- What a call has read was right when it read it, and what had been returned by then is
no later. -/
def Now64.Sound (now : ℕ) : Now64 → Prop
  | .started _ earlier => ∀ v ∈ earlier, v.toNat ≤ now
  | .readWraps earlier wrapCounter readAt =>
    (∀ v ∈ earlier, v.toNat ≤ now) ∧ wrapCounter.toNat = readAt / 2 ^ 32
  | .readCounter earlier counter readAt =>
    (∀ v ∈ earlier, v.toNat ≤ readAt) ∧ counter.toNat = readAt % 2 ^ 32 ∧ readAt ≤ now

structure ClockSound (s : ClockState) : Prop where
  past : ∀ r ∈ s.returned, r.value.toNat ≤ s.now
  calls : ∀ c, ∀ call ∈ s.calls c, call.Sound s.now
  monotonic : s.Monotonic

lemma Now64.Sound.later {now now' : ℕ} (hle : now ≤ now') {call : Now64} (h : call.Sound now) :
    call.Sound now' := by
  cases call with
  | started w earlier => exact fun v hv => (h v hv).trans hle
  | readWraps earlier wrapCounter readAt => exact ⟨fun v hv => (h.1 v hv).trans hle, h.2⟩
  | readCounter earlier counter readAt => exact ⟨h.1, h.2.1, h.2.2.trans hle⟩

section Steps

variable {s : ClockState}

lemma xtimerNow_toNat (k : Clock) : k.xtimerNow.toNat = k.now % 2 ^ 32 := rfl

lemma ClockSound.goOn (h : ClockSound s) {c : ℕ} {call : Option Now64}
    (hcall : ∀ x ∈ call, x.Sound s.now) : ClockSound (s.goOn c call) := by
  refine ⟨h.past, ?_, h.monotonic⟩
  intro c' x hx
  by_cases hc : c' = c
  · subst hc
    simp only [ClockState.goOn, Function.update_self] at hx
    exact hcall x hx
  · simp only [ClockState.goOn, Function.update_of_ne hc] at hx
    exact h.calls c' x hx

/-- A call returns a time that has come, and that is no earlier than what it must not go
behind. -/
lemma ClockSound.ret (h : ClockSound s) {c : ℕ} {r : Reading} (hpast : r.value.toNat ≤ s.now)
    (hearlier : ∀ v ∈ r.earlier, v.toNat ≤ r.value.toNat) : ClockSound (s.ret c r) := by
  have hadd : ClockSound { s with returned := r :: s.returned } := by
    refine ⟨?_, h.calls, ?_⟩
    · intro r' hr'
      obtain rfl | hr' := List.mem_cons.mp hr'
      · exact hpast
      · exact h.past r' hr'
    · intro r' hr'
      obtain rfl | hr' := List.mem_cons.mp hr'
      · exact fun v hv => UInt64.le_iff_toNat_le.mpr (hearlier v hv)
      · exact h.monotonic r' hr'
  exact hadd.goOn (by simp)

lemma ClockSound.clock (h : ClockSound s) {k : Clock} (hk : s.now ≤ k.now) :
    ClockSound { s with toClock := k } where
  past r hr := (h.past r hr).trans hk
  calls c call hcall := (h.calls c call hcall).later hk
  monotonic := h.monotonic

lemma clockSound_stepRead (h : ClockSound s) {c : ℕ} {call : Now64} (hcall : call ∈ s.calls c)
    (hsettled : s.Settled call) : ClockSound (s.stepRead c call) := by
  have hsound := h.calls c call hcall
  cases call with
  | started wrapFirst earlier =>
    cases wrapFirst with
    | true =>
      apply h.goOn
      rintro x ⟨⟩
      exact ⟨hsound, hsettled⟩
    | false =>
      apply h.goOn
      rintro x ⟨⟩
      exact ⟨hsound, xtimerNow_toNat s.toClock, le_rfl⟩
  | readWraps earlier wrapCounter readAt =>
    obtain ⟨hearlier, hwraps⟩ := hsound
    have hvalue : (xtimerNow64 wrapCounter s.xtimerNow).toNat = s.now := by
      rw [toNat_xtimerNow64, xtimerNow_toNat, hwraps, ← hsettled.2]
      exact Nat.div_add_mod' s.now (2 ^ 32)
    apply h.ret hvalue.le
    intro v hv
    rw [hvalue]
    exact hearlier v hv
  | readCounter earlier now readAt =>
    obtain ⟨hearlier, hnow, hle⟩ := hsound
    have hvalue : (xtimerNow64 s.wrapCounter now).toNat = readAt := by
      rw [toNat_xtimerNow64, hnow, hsettled.1, hsettled.2]
      exact Nat.div_add_mod' readAt (2 ^ 32)
    apply h.ret (hvalue.le.trans hle)
    intro v hv
    rw [hvalue]
    exact hearlier v hv

lemma clockSound_step (h : ClockSound s) {e : ClockEvent} (hok : ReadsSettled s e) :
    ClockSound (clockStep s e) := by
  cases e with
  | tick n => exact h.clock (Nat.le_add_right s.now n)
  | serve =>
    apply h.clock
    rw [Clock.serve]
    split_ifs <;> exact le_rfl
  | count =>
    apply h.clock
    rw [Clock.count]
    split_ifs <;> exact le_rfl
  | now64 c wrapFirst =>
    rw [clockStep]
    split_ifs
    · apply h.goOn
      rintro x ⟨⟩ v hv
      obtain ⟨r, hr, rfl⟩ := List.mem_map.mp hv
      exact h.past r hr
    · exact h
  | read c =>
    cases hc : s.calls c with
    | none => simpa [clockStep, hc] using h
    | some call =>
      have hstep := clockSound_stepRead h hc (hok call hc)
      simpa [clockStep, hc] using hstep

end Steps

/-- The clock is monotonic in every run in which no call reads while a wrap is still to be
counted, or on both sides of a wrap. -/
theorem now64_monotonic (es : List ClockEvent)
    (h : Meets clockStep ReadsSettled ClockState.initial es) :
    Throughout clockStep ClockState.Monotonic ClockState.initial es := by
  have hinitial : ClockSound ClockState.initial :=
    ⟨fun r hr => (nomatch hr), fun c call hcall => (nomatch hcall), fun r hr => (nomatch hr)⟩
  have hsound := throughout_of_meets ReadsSettled ClockSound
    (fun s e hs hok => clockSound_step hs hok) hinitial h
  exact hsound.mono fun s hs => hs.monotonic

/-- Two calls on the two sides of a wrap that is served between them. -/
theorem now64_monotonic_over_wrap : Throughout clockStep ClockState.Monotonic ClockState.initial
    [.tick (2 ^ 32 - 1), .now64 0 true, .read 0, .read 0, .tick 1, .serve, .count,
      .now64 1 false, .read 1, .read 1] :=
  now64_monotonic _ (by decide +kernel)

/-- The second call comes before the interrupt of the wrap, and yields zero. -/
theorem now64_goes_back : ¬∀ es : List ClockEvent,
    Throughout clockStep ClockState.Monotonic ClockState.initial es := by
  intro h
  have hlast := (h [.tick (2 ^ 32 - 1), .now64 0 true, .read 0, .read 0, .tick 1, .now64 1 true,
    .read 1, .read 1]).last
  have hback := hlast ⟨0, [4294967295]⟩ (by exact List.mem_cons_self) 4294967295 (by simp)
  exact absurd hback (by decide)

end Nais.Timer
