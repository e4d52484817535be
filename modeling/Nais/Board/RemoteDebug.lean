import Nais.Lib.Run
import Nais.Board.Bocia
import Nais.Board.Channels

/-!
# Remote debug output

`bocia_remote_console`, `bocia_remote_write` and the debug option of `bocia_unmarshall`.
`bocia_remote_console` looks at the first channel eight times.
-/

namespace Nais.Board.RemoteDebug

open Nais.Lib.Run

def DEBUG_OPTION_BIT : ℕ := 0

/-- The debug option of a frame that `nais_unmarshall` has taken apart. -/
def debugOption (r : Unmarshalled) : Bool := r.ptype.flags.toNat &&& (1 <<< DEBUG_OPTION_BIT) ≠ 0

/-- `bocia_unmarshall` up to its call of the handler. -/
def unmarshall (ch : BociaChannel) (r : Unmarshalled) : BociaChannel :=
  if r.obj = none then ch
  else if debugOption r then { ch with debug := true } else ch

/-- The pointer stays at the first channel. -/
def bociaRemoteConsole (fdMap : FdMap) : ℕ :=
  if (List.finRange 8).any fun _ => (fdMap 0).debug then 1 else 0

/-- The channel, descriptor and data of each `sl_Send`. -/
def bociaRemoteWrite (fdMap : FdMap) (data : List UInt8) : List (Slot × ℤ × List UInt8) × ℕ :=
  (((List.finRange 8).filter fun i => (fdMap i).debug).map fun i => (i, (fdMap i).fd, data),
    data.length)

/-- `flagged` are the slots in which a frame with the debug option was received since the
last registration. -/
structure State where
  fdMap : FdMap
  flagged : Slot → Bool

def State.initial : State := ⟨.empty, fun _ => false⟩

/-- A registration, the end of a connection, and a frame from one. -/
inductive Event where
  | register (r : Registration)
  | close (i : Slot)
  | frame (i : Slot) (r : Unmarshalled)

def step (s : State) : Event → State
  | .register r =>
    match bociaRegisterHandlers s.fdMap r with
    | (some i, fdMap) => ⟨fdMap, Function.update s.flagged i false⟩
    | (none, _) => s
  | .close i => { s with fdMap := Function.update s.fdMap i { s.fdMap i with fd := 0 } }
  | .frame i r =>
    if (s.fdMap i).fd = 0 then s
    else
      ⟨Function.update s.fdMap i (unmarshall (s.fdMap i) r),
        Function.update s.flagged i (s.flagged i || debugOption r)⟩

/-- The live channel in slot `i` asked for debug output. -/
def State.OptedIn (s : State) (i : Slot) : Prop := (s.fdMap i).fd ≠ 0 ∧ s.flagged i = true

instance (s : State) (i : Slot) : Decidable (s.OptedIn i) :=
  inferInstanceAs (Decidable ((s.fdMap i).fd ≠ 0 ∧ s.flagged i = true))

/-- Output goes to exactly the channels that asked for it, and is announced exactly when there
is one. -/
def State.Reaches (s : State) : Prop :=
  (∀ data, (bociaRemoteWrite s.fdMap data).1 =
    ((List.finRange 8).filter fun i => s.OptedIn i).map fun i => (i, (s.fdMap i).fd, data)) ∧
  (bociaRemoteConsole s.fdMap = 1 ↔ ∃ i, s.OptedIn i)

/-- No channel closes in debug mode. A frame with the debug option unpacks and comes from the
first channel or when that is in debug mode, or its channel already is. -/
def Supported (s : State) : Event → Prop
  | .register _ => True
  | .close i => (s.fdMap i).debug = false
  | .frame i r => (s.fdMap i).fd ≠ 0 → debugOption r = true →
      (s.fdMap i).debug = true ∨ (r.obj ≠ none ∧ (i = 0 ∨ (s.fdMap 0).debug = true))

instance (s : State) (e : Event) : Decidable (Supported s e) :=
  match e with
  | .register _ => isTrue trivial
  | .close i => inferInstanceAs (Decidable ((s.fdMap i).debug = false))
  | .frame i r => inferInstanceAs (Decidable ((s.fdMap i).fd ≠ 0 → debugOption r = true →
      (s.fdMap i).debug = true ∨ (r.obj ≠ none ∧ (i = 0 ∨ (s.fdMap 0).debug = true))))

lemma bociaRemoteConsole_eq_one_iff (fdMap : FdMap) :
    bociaRemoteConsole fdMap = 1 ↔ (fdMap 0).debug = true := by
  rw [bociaRemoteConsole]
  cases (fdMap 0).debug <;> decide

/-- The two scans in terms of the slots. -/
lemma reaches_iff (s : State) :
    s.Reaches ↔ (∀ i, (s.fdMap i).debug = true ↔ s.OptedIn i) ∧
      ((s.fdMap 0).debug = true ↔ ∃ i, s.OptedIn i) := by
  rw [State.Reaches, bociaRemoteConsole_eq_one_iff]
  refine and_congr_left (fun _ => ?_)
  constructor
  · intro h i
    have hi := congrArg (fun sends => i ∈ sends.map Prod.fst) (h [])
    simpa [bociaRemoteWrite] using hi
  · intro h data
    rw [bociaRemoteWrite]
    dsimp only
    congr 1
    refine List.filter_congr (fun i _ => ?_)
    rw [Bool.eq_iff_iff, decide_eq_true_iff]
    exact h i

/-- The slot follows the channel that `bociaUnmarshall` returns. -/
theorem bociaUnmarshall_debug {env : Env} {rd rd' : Channel} {ch : BociaChannel}
    {data : List UInt8} {b : Board.State} {r : Unmarshalled} (hch : ch.debug = rd.debug)
    (hr : naisUnmarshall env.pb data = .ok r)
    (hrun : ((bociaUnmarshall env rd data).run b).1 = .ok rd') :
    rd'.debug = (unmarshall ch r).debug := by
  have hcall : handlerCall env.pb data = .ok (r.obj.map fun obj => (r.ptype, obj)) := by
    rw [handlerCall, hr]
    rfl
  cases hobj : r.obj with
  | none =>
    simp only [bociaUnmarshall, hcall, hobj, Option.map_none, bind_run, fallible_run, pure_run,
      Except.ok.injEq] at hrun
    rw [← hrun, unmarshall, if_pos hobj, hch]
  | some obj =>
    simp only [bociaUnmarshall, hcall, hobj, Option.map_some, bind_run, fallible_run] at hrun
    generalize hset : (if r.ptype.flags.toNat &&& 1 ≠ 0 then { rd with debug := true } else rd) = rd₁
      at hrun
    have hrd : rd' = rd₁ := by
      cases hh : (bociaInputHandler env rd₁ r.ptype obj).run b with
      | mk res b' =>
        rw [hh] at hrun
        cases res with
        | error e => cases hrun
        | ok u => exact (Except.ok.inj hrun).symm
    have hnone : ¬r.obj = none := by
      rw [hobj]
      exact Option.some_ne_none obj
    rw [hrd, unmarshall, if_neg hnone]
    by_cases hbit : r.ptype.flags.toNat &&& 1 = 0
    · have hoff : debugOption r = false := decide_eq_false (not_not.mpr hbit)
      rw [if_neg (not_not.mpr hbit)] at hset
      rw [← hset, hoff]
      exact hch.symm
    · have hon : debugOption r = true := decide_eq_true hbit
      rw [if_pos hbit] at hset
      rw [← hset, hon]
      rfl

section Steps

variable {s : State} {i : Slot}

lemma reaches_register (h : s.Reaches) (r : Registration) : (step s (.register r)).Reaches := by
  rw [step, bociaRegisterHandlers]
  cases hslot : availableSlot s.fdMap with
  | none => exact h
  | some i =>
    rw [reaches_iff] at h ⊢
    obtain ⟨hsync, hconsole⟩ := h
    have hfree := (availableSlot_eq_some_iff.mp hslot).1
    have hnot : (s.fdMap i).debug = false := by
      rw [← Bool.not_eq_true, hsync i]
      exact fun hopted => hopted.1 hfree
    -- The slot was not opted in, nor is its new channel.
    have hopted : ∀ j, State.OptedIn ⟨Function.update s.fdMap i ((s.fdMap i).register r),
        Function.update s.flagged i false⟩ j ↔ s.OptedIn j := by
      intro j
      by_cases hj : j = i
      · subst hj
        simp [State.OptedIn, hfree]
      · simp [State.OptedIn, hj]
    have hdebug : ∀ j, (Function.update s.fdMap i ((s.fdMap i).register r) j).debug =
        (s.fdMap j).debug := by
      intro j
      by_cases hj : j = i
      · subst hj
        simp [BociaChannel.register]
      · simp [hj]
    simp only [hopted, hdebug]
    exact ⟨hsync, hconsole⟩

lemma reaches_close_iff (h : s.Reaches) :
    (step s (.close i)).Reaches ↔ (s.fdMap i).debug = false := by
  rw [reaches_iff] at h ⊢
  obtain ⟨hsync, hconsole⟩ := h
  have hopted : ∀ j, (step s (.close i)).OptedIn j ↔ s.OptedIn j ∧ j ≠ i := by
    intro j
    by_cases hj : j = i
    · subst hj
      simp [step, State.OptedIn]
    · simp [step, State.OptedIn, hj]
  have hdebug : ∀ j, ((step s (.close i)).fdMap j).debug = (s.fdMap j).debug := by
    intro j
    by_cases hj : j = i
    · subst hj
      simp [step]
    · simp [step, hj]
  simp only [hopted, hdebug]
  constructor
  · rintro ⟨hsync', -⟩
    rw [← Bool.not_eq_true, hsync' i]
    exact fun hi => hi.2 rfl
  · intro hoff
    have hne : ∀ j, s.OptedIn j → j ≠ i := by
      rintro j hj rfl
      rw [← hsync j, hoff] at hj
      cases hj
    refine ⟨fun j => ?_, ?_⟩
    · rw [hsync j]
      exact (and_iff_left_of_imp (hne j)).symm
    · rw [hconsole]
      exact exists_congr fun j => (and_iff_left_of_imp (hne j)).symm

lemma optedIn_frame (hlive : (s.fdMap i).fd ≠ 0) (r : Unmarshalled) (j : Slot) :
    (step s (.frame i r)).OptedIn j ↔ s.OptedIn j ∨ (j = i ∧ debugOption r = true) := by
  rw [step, if_neg hlive]
  by_cases hj : j = i
  · subst hj
    have hfd : (unmarshall (s.fdMap j) r).fd = (s.fdMap j).fd := by
      rw [unmarshall]
      split_ifs <;> rfl
    simp [State.OptedIn, hfd, hlive]
  · simp [State.OptedIn, hj]

lemma debug_frame (hlive : (s.fdMap i).fd ≠ 0) (r : Unmarshalled) (j : Slot) :
    ((step s (.frame i r)).fdMap j).debug = true ↔
      (s.fdMap j).debug = true ∨ (j = i ∧ r.obj ≠ none ∧ debugOption r = true) := by
  rw [step, if_neg hlive]
  by_cases hj : j = i
  · subst hj
    by_cases hobj : r.obj = none
    · simp [unmarshall, hobj]
    · by_cases hd : debugOption r = true <;> simp [unmarshall, hobj, hd]
  · simp [hj]

lemma reaches_frame_iff (h : s.Reaches) (r : Unmarshalled) :
    (step s (.frame i r)).Reaches ↔ Supported s (.frame i r) := by
  by_cases hlive : (s.fdMap i).fd = 0
  · rw [step, if_pos hlive]
    exact iff_of_true h (fun hne => absurd hlive hne)
  · rw [reaches_iff] at h ⊢
    obtain ⟨hsync, hconsole⟩ := h
    simp only [optedIn_frame hlive, debug_frame hlive, Supported]
    constructor
    · rintro ⟨hsync', hconsole'⟩ - hoption
      obtain hold | ⟨-, hobj, -⟩ := (hsync' i).mpr (Or.inr ⟨rfl, hoption⟩)
      · exact Or.inl hold
      · refine Or.inr ⟨hobj, ?_⟩
        obtain hzero | ⟨hzero, -⟩ := hconsole'.mpr ⟨i, Or.inr ⟨rfl, hoption⟩⟩
        · exact Or.inr hzero
        · exact Or.inl hzero.symm
    · intro hok
      by_cases hoption : debugOption r = true
      · obtain hon | ⟨hobj, hfirst⟩ := hok hlive hoption
        · have hzero := hconsole.mpr ⟨i, (hsync i).mp hon⟩
          refine ⟨fun j => ?_, iff_of_true (Or.inl hzero) ⟨i, Or.inr ⟨rfl, hoption⟩⟩⟩
          rw [hsync j]
          refine or_congr_right' (fun hnot => ?_)
          have hj : j ≠ i := by
            rintro rfl
            exact hnot ((hsync j).mp hon)
          exact iff_of_false (fun hj' => hj hj'.1) (fun hj' => hj hj'.1)
        · refine ⟨fun j => ?_, iff_of_true ?_ ⟨i, Or.inr ⟨rfl, hoption⟩⟩⟩
          · simp [hsync j, hobj, hoption]
          · obtain rfl | hzero := hfirst
            · exact Or.inr ⟨rfl, hobj, hoption⟩
            · exact Or.inl hzero
      · rw [hsync 0] at hconsole
        simpa [hoption, hsync] using hconsole

end Steps

/-- In every run, remote output reaches exactly the channels that asked for it exactly when
each step is one that the two scans support. -/
theorem remote_debug_reaches_iff (es : List Event) :
    Throughout step State.Reaches State.initial es ↔ Meets step Supported State.initial es := by
  have hinitial : State.initial.Reaches := by
    rw [reaches_iff]
    decide
  refine throughout_iff_meets Supported (fun _ => True) State.Reaches (fun _ _ _ => trivial) ?_
    trivial hinitial
  intro s e _ h
  cases e with
  | register r => exact iff_of_true (reaches_register h r) trivial
  | close i => exact reaches_close_iff h
  | frame i r => exact reaches_frame_iff h r

/-- A client of the TCP server, whose listening socket has the first slot, asks for debug
output: it is sent, and not announced. -/
theorem remote_console_misses_client : ¬∀ es : List Event,
    Throughout step State.Reaches State.initial es := by
  intro h
  have hlast := (h [.register ⟨3, 1, .bociaTcpAccept, none⟩,
    .register ⟨4, 1, .bociaTcpReceive, some .bociaTcpSend⟩,
    .frame 1 ⟨⟨COMMAND_TYPE, 0, 1⟩, 5, 2, some (.command ⟨GET_CONFIG_CMD, none, [], []⟩)⟩]).last
  exact absurd (hlast.2.mpr ⟨1, by decide +kernel⟩) (by decide +kernel)

end Nais.Board.RemoteDebug
