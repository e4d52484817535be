import Nais.Lib.Run
import Nais.Board.Bocia

/-!
# The configuration file and its cache

`bocia_file.c` and the functions of `bocia.c` that keep a pointer to the configuration they
last read. Every operation on the flash may fail. A factory reset deletes the file and keeps
the pointer.
-/

namespace Nais.Board.ConfigFile

open Nais.Lib.Memory Nais.Lib.Run

/-- Whether `sl_FsGetInfo`, `sl_FsOpen` and `sl_FsWrite` do what they are asked for. Their
failures are other errors than that the file does not exist. -/
structure WriteOutcome where
  getInfo : Bool
  opened : Bool
  written : Bool
  deriving DecidableEq

/-- The same of a read, which delivers the first `count` bytes of the file. -/
structure ReadOutcome where
  getInfo : Bool
  opened : Bool
  count : ℕ
  deriving DecidableEq

/-- `flash` is the content of `bocia.cfg`. -/
structure Store where
  config : Option Config
  flash : Option (List UInt8)
  cfgBuff : Buffer 128

/-- The file is created or overwritten, and keeps its content when a call fails. -/
def bociaWriteProto (o : WriteOutcome) (flash : Option (List UInt8)) (buff : List UInt8) :
    Option (List UInt8) :=
  if o.getInfo then
    if o.opened then
      if o.written then some buff else flash
    else flash
  else flash

variable (pb : Protobufc)

def bociaWriteCfg (o : WriteOutcome) (s : Store) (cfg : Config) : Except Fault Store := do
  let packed := pb.pack (.config cfg)
  let cfgBuff ← store s.cfgBuff 0 packed
  .ok { s with cfgBuff := cfgBuff, flash := bociaWriteProto o s.flash packed }

/-- `protobuf_c_message_unpack` with the descriptor of a configuration. -/
def unpackConfig (packed : List UInt8) : Option Config :=
  match pb.unpack .config packed with
  | some (.config cfg) => some cfg
  | _ => none

/-- The result of `sl_FsRead` is not looked at. -/
def bociaReadCfg (o : ReadOutcome) (s : Store) : Except Fault (Option Config × Store) :=
  match s.flash with
  | none => .ok (none, s)
  | some stored =>
    if o.getInfo then
      if o.opened then do
        let cfgBuff ← store s.cfgBuff 0 (stored.take o.count)
        let packed ← loadRange cfgBuff.bytes 0 stored.length
        .ok (unpackConfig pb packed, { s with cfgBuff := cfgBuff })
      else .ok (none, s)
    else .ok (none, s)

def bociaSetCfg (o : WriteOutcome) (s : Store) (newConfig : Config) : Except Fault Store := do
  let s ← bociaWriteCfg pb o s newConfig
  .ok { s with config := none }

def bociaGetConfig (o : ReadOutcome) (s : Store) : Except Fault (Option Config × Store) :=
  match s.config with
  | some cfg => .ok (some cfg, s)
  | none => do
    let (cfg, s) ← bociaReadCfg pb o s
    .ok (cfg, { s with config := cfg })

/-- The `GET_CONFIG_CMD` case of `bocia_command`, with what it sends. -/
def getConfigCmd (o : ReadOutcome) (s : Store) : Except Fault (Option Config × Store) :=
  match s.config with
  | some cfg => .ok (some cfg, s)
  | none => do
    let (cfg, s) ← bociaGetConfig pb o s
    .ok (cfg, { s with config := cfg })

/-- `set_reboot_mode(1)`, where `sl_FsDel` may fail. -/
def setRebootMode (deleted : Bool) (s : Store) : Store :=
  { s with flash := if deleted then none else s.flash }

/-- `handed` are the configurations that were returned or sent, each with the content of the
file at that time. A run ends with a fault. -/
structure State extends Store where
  handed : List (Option Config × Option (List UInt8))
  fault : Option Fault

def State.initial (flash : Option (List UInt8)) (cfgBuff : Buffer 128) : State :=
  ⟨⟨none, flash, cfgBuff⟩, [], none⟩

inductive Event where
  | setCfg (o : WriteOutcome) (newConfig : Config)
  | getConfig (o : ReadOutcome)
  | getConfigCmd (o : ReadOutcome)
  | factoryReset (deleted : Bool)

def State.handOut (s : State) : Except Fault (Option Config × Store) → State
  | .ok (cfg, store) => { s with toStore := store, handed := (cfg, store.flash) :: s.handed }
  | .error e => { s with fault := some e }

def step (s : State) (e : Event) : State :=
  if s.fault.isSome then s
  else match e with
    | .setCfg o newConfig =>
      match bociaSetCfg pb o s.toStore newConfig with
      | .ok store => { s with toStore := store }
      | .error e => { s with fault := some e }
    | .getConfig o => s.handOut (bociaGetConfig pb o s.toStore)
    | .getConfigCmd o => s.handOut (getConfigCmd pb o s.toStore)
    | .factoryReset deleted => { s with toStore := setRebootMode deleted s.toStore }

/-- What is handed out is null exactly when no file is stored, and otherwise what the stored
bytes unpack to. -/
def Agrees (cfg : Option Config) (flash : Option (List UInt8)) : Prop :=
  (cfg = none ↔ flash = none) ∧ ∀ stored ∈ flash, cfg = unpackConfig pb stored

def State.Coherent (s : State) : Prop := s.fault = none ∧ ∀ h ∈ s.handed, Agrees pb h.1 h.2

/-- The file can be read: the bytes that are not delivered are those that the buffer holds. -/
structure Readable (o : ReadOutcome) (cfgBuff : Buffer 128) (stored : List UInt8) : Prop where
  getInfo : o.getInfo = true
  opened : o.opened = true
  fits : stored.length ≤ 128
  delivered : stored.drop o.count = (cfgBuff.bytes.take stored.length).drop o.count
  unpacks : unpackConfig pb stored ≠ none

instance (o : ReadOutcome) (cfgBuff : Buffer 128) (stored : List UInt8) :
    Decidable (Readable pb o cfgBuff stored) :=
  decidable_of_iff (o.getInfo = true ∧ o.opened = true ∧ stored.length ≤ 128 ∧
      stored.drop o.count = (cfgBuff.bytes.take stored.length).drop o.count ∧
      unpackConfig pb stored ≠ none)
    ⟨fun ⟨h₁, h₂, h₃, h₄, h₅⟩ => ⟨h₁, h₂, h₃, h₄, h₅⟩,
      fun h => ⟨h.getInfo, h.opened, h.fits, h.delivered, h.unpacks⟩⟩

/-- A configuration that is stored fits the buffer, a stored file that is not cached can be
read, and none is deleted while it is cached. -/
def KeepsCache (s : State) : Event → Prop
  | .setCfg _ newConfig => (pb.pack (.config newConfig)).length ≤ 128
  | .getConfig o | .getConfigCmd o =>
    s.config = none → ∀ stored ∈ s.flash, Readable pb o s.cfgBuff stored
  | .factoryReset deleted => deleted = true → s.flash ≠ none → s.config = none

instance (s : State) (e : Event) : Decidable (KeepsCache pb s e) :=
  match e with
  | .setCfg _ newConfig => inferInstanceAs (Decidable ((pb.pack (.config newConfig)).length ≤ 128))
  | .getConfig o | .getConfigCmd o => inferInstanceAs (Decidable (s.config = none →
      ∀ stored ∈ s.flash, Readable pb o s.cfgBuff stored))
  | .factoryReset deleted =>
    inferInstanceAs (Decidable (deleted = true → s.flash ≠ none → s.config = none))

/-- The cached configuration is the one in the file. -/
structure Cached (s : State) : Prop where
  coherent : s.Coherent pb
  cached : ∀ cfg ∈ s.config, ∃ stored, s.flash = some stored ∧ unpackConfig pb stored = some cfg

section Steps

variable {pb} {s : State}

lemma bociaReadCfg_eq {o : ReadOutcome} {t : Store} {stored : List UInt8}
    (hflash : t.flash = some stored) (h : Readable pb o t.cfgBuff stored) :
    ∃ cfgBuff, bociaReadCfg pb o t = .ok (unpackConfig pb stored, { t with cfgBuff := cfgBuff }) := by
  have htake : (stored.take o.count).length ≤ stored.length := List.length_take_le' _ _
  have hfits := h.fits
  obtain ⟨cfgBuff, hwrite⟩ : ∃ b, t.cfgBuff.write 0 (stored.take o.count) = some b :=
    t.cfgBuff.exists_write (by omega)
  have hread : cfgBuff.bytes.take stored.length = stored := by
    have hdrop : (t.cfgBuff.bytes.drop (stored.take o.count).length).take
        (stored.length - (stored.take o.count).length) = stored.drop o.count := by
      rw [h.delivered, ← List.drop_take, List.length_take]
      by_cases hcount : o.count ≤ stored.length
      · rw [min_eq_left hcount]
      · rw [min_eq_right (by omega), List.drop_eq_nil_of_le (by rw [List.length_take]; omega),
          List.drop_eq_nil_of_le (by rw [List.length_take]; omega)]
    rw [Buffer.write_zero hwrite, List.take_append, List.take_of_length_le htake, hdrop]
    exact List.take_append_drop o.count stored
  have hload : loadRange cfgBuff.bytes 0 stored.length = .ok stored := by
    rw [loadRange, if_pos (by rw [cfgBuff.size]; omega), List.drop_zero, hread]
  refine ⟨cfgBuff, ?_⟩
  rw [bociaReadCfg, hflash]
  simp only [h.getInfo, h.opened, if_true, store_eq_ok_iff.mpr hwrite, hload, Bind.bind, Except.bind]

/-- A get hands out what is cached, or else what the file holds. -/
lemma bociaGetConfig_eq (h : Cached pb s) {o : ReadOutcome}
    (hok : s.config = none → ∀ stored ∈ s.flash, Readable pb o s.cfgBuff stored) :
    ∃ cfg cfgBuff, bociaGetConfig pb o s.toStore =
        .ok (cfg, { s.toStore with config := cfg, cfgBuff := cfgBuff }) ∧ Agrees pb cfg s.flash := by
  cases hconfig : s.config with
  | some cfg =>
    obtain ⟨stored, hflash, hunpack⟩ := h.cached cfg hconfig
    refine ⟨some cfg, s.cfgBuff, ?_, ?_⟩
    · rw [bociaGetConfig, hconfig]
      dsimp only
      rw [← hconfig]
    · rw [Agrees, hflash]
      refine ⟨by simp, ?_⟩
      rintro _ ⟨⟩
      exact hunpack.symm
  | none =>
    cases hflash : s.flash with
    | none =>
      refine ⟨none, s.cfgBuff, ?_, by simp [Agrees]⟩
      rw [bociaGetConfig, hconfig]
      dsimp only
      rw [bociaReadCfg, hflash]
      dsimp only
      rw [← hflash]
      rfl
    | some stored =>
      have hreadable := hok hconfig stored hflash
      obtain ⟨cfgBuff, hread⟩ := bociaReadCfg_eq hflash hreadable
      refine ⟨unpackConfig pb stored, cfgBuff, ?_, ?_⟩
      · rw [bociaGetConfig, hconfig]
        dsimp only
        simp only [hread, Bind.bind, Except.bind]
      · refine ⟨by simp [hreadable.unpacks], ?_⟩
        rintro _ ⟨⟩
        rfl

/-- The command sends what `bocia_get_config` would return, and leaves the same behind. -/
lemma getConfigCmd_eq (o : ReadOutcome) (t : Store) :
    getConfigCmd pb o t = bociaGetConfig pb o t := by
  rw [getConfigCmd]
  cases hconfig : t.config with
  | some cfg => rw [bociaGetConfig, hconfig]
  | none =>
    rw [bociaGetConfig, hconfig]
    dsimp only
    cases bociaReadCfg pb o t with
    | error e => rfl
    | ok p => rfl

lemma cached_handOut (h : Cached pb s) {o : ReadOutcome}
    (hok : s.config = none → ∀ stored ∈ s.flash, Readable pb o s.cfgBuff stored) :
    Cached pb (s.handOut (bociaGetConfig pb o s.toStore)) := by
  obtain ⟨cfg, cfgBuff, hget, hagrees⟩ := bociaGetConfig_eq h hok
  rw [hget]
  refine ⟨⟨h.coherent.1, ?_⟩, ?_⟩
  · intro x hx
    obtain rfl | hx := List.mem_cons.mp hx
    · exact hagrees
    · exact h.coherent.2 x hx
  · rintro c ⟨⟩
    obtain ⟨stored, hstored⟩ := Option.ne_none_iff_exists'.mp (fun hnone => by
      have := hagrees.1.mpr hnone
      cases this)
    exact ⟨stored, hstored, (hagrees.2 stored hstored).symm⟩

lemma cached_step (h : Cached pb s) {e : Event} (hok : KeepsCache pb s e) :
    Cached pb (step pb s e) := by
  have hrun : s.fault.isSome = false := by rw [h.coherent.1]; rfl
  unfold step
  rw [hrun, if_neg (by simp)]
  cases e with
  | setCfg o newConfig =>
    have hfits : (pb.pack (.config newConfig)).length ≤ 128 := hok
    obtain ⟨cfgBuff, hwrite⟩ : ∃ b, s.cfgBuff.write 0 (pb.pack (.config newConfig)) = some b :=
      s.cfgBuff.exists_write (by omega)
    simp only [bociaSetCfg, bociaWriteCfg, store_eq_ok_iff.mpr hwrite, Bind.bind, Except.bind]
    exact ⟨h.coherent, fun cfg hcfg => nomatch hcfg⟩
  | getConfig o => exact cached_handOut h hok
  | getConfigCmd o =>
    dsimp only
    rw [getConfigCmd_eq]
    exact cached_handOut h hok
  | factoryReset deleted =>
    refine ⟨h.coherent, ?_⟩
    intro cfg (hcfg : cfg ∈ s.config)
    obtain ⟨stored, hflash, hunpack⟩ := h.cached cfg hcfg
    cases deleted with
    | false => exact ⟨stored, hflash, hunpack⟩
    | true =>
      have hnone := hok rfl (by rw [hflash]; simp)
      rw [hnone] at hcfg
      cases hcfg

end Steps

/-- In every run in which the files fit and can be read and no cached one is deleted, what is
handed out is what is stored. -/
theorem config_cache_coherent (pb : Protobufc) (flash : Option (List UInt8)) (cfgBuff : Buffer 128)
    (es : List Event) (h : Meets (step pb) (KeepsCache pb) (State.initial flash cfgBuff) es) :
    Throughout (step pb) (State.Coherent pb) (State.initial flash cfgBuff) es := by
  have hinitial : Cached pb (State.initial flash cfgBuff) :=
    ⟨⟨rfl, fun x hx => nomatch hx⟩, fun cfg hcfg => nomatch hcfg⟩
  have hcached := throughout_of_meets (KeepsCache pb) (Cached pb)
    (fun s e hs hok => cached_step hs hok) hinitial h
  exact hcached.mono fun s hs => hs.coherent

/-- A library for concrete runs: one configuration packs, and its bytes unpack to it. -/
def oneConfig (cfg : Config) (packed : List UInt8) : Protobufc where
  unpack k bs := if k = .config ∧ bs = packed then some (.config cfg) else none
  unpack_kind := by
    intro k bs m h
    split_ifs at h with hk
    cases h
    exact hk.1.symm
  pack _ := packed

def samplePb : Protobufc :=
  oneConfig sampleConfig [0x0A, 0x01, 0x61, 0x12, 0x01, 0x62, 0x1A, 0x01, 0x63]

/-- A configuration is stored and read, the file is deleted while it is not cached, and the
next one is read back. -/
theorem config_cache_coherent_reset : Throughout (step samplePb) (State.Coherent samplePb)
    (State.initial none (Buffer.fill 128 0))
    [.getConfig ⟨true, true, 128⟩, .setCfg ⟨true, true, true⟩ sampleConfig, .factoryReset true,
      .getConfig ⟨true, true, 128⟩, .setCfg ⟨true, true, true⟩ sampleConfig,
      .getConfigCmd ⟨true, true, 128⟩] :=
  config_cache_coherent samplePb _ _ _ (by decide +kernel)

/-- The configuration is still handed out when a factory reset has deleted it. -/
theorem config_cache_survives_reset : ¬∀ (pb : Protobufc) (flash : Option (List UInt8))
    (cfgBuff : Buffer 128) (es : List Event),
    Throughout (step pb) (State.Coherent pb) (State.initial flash cfgBuff) es := by
  intro h
  have hlast := (h samplePb none (Buffer.fill 128 0)
    [.setCfg ⟨true, true, true⟩ sampleConfig, .getConfig ⟨true, true, 128⟩, .factoryReset true,
      .getConfigCmd ⟨true, true, 128⟩]).last
  have hagrees := hlast.2 (some sampleConfig, none) (by decide +kernel)
  exact absurd (hagrees.1.mpr rfl) (by decide)

/-! While nothing fails, the operations are those of the input handler. -/

section Handler

variable (env : Env)

/-- The part of the board that the operations work on. -/
def ofBoard (b : Board.State) : Store := ⟨b.config, b.flash, b.cfgBuff⟩

lemma bociaSetCfg_run {o : WriteOutcome} (cfg : Config) (b : Board.State)
    (hwrite : ∀ flash buff, env.fsWrite flash buff = bociaWriteProto o flash buff) :
    ((Board.bociaSetCfg env cfg).run b).1.map
        (fun _ => ofBoard ((Board.bociaSetCfg env cfg).run b).2) =
      bociaSetCfg env.pb o (ofBoard b) cfg := by
  have hbuff : (ofBoard b).cfgBuff = b.cfgBuff := rfl
  simp only [Board.bociaSetCfg, Board.bociaWriteCfg, bociaSetCfg, bociaWriteCfg, bind_run,
    board_run, fallible_run, hbuff]
  cases store b.cfgBuff 0 (env.pb.pack (.config cfg)) with
  | error e => rfl
  | ok cfgBuff =>
    simp only [update_run, Bind.bind, Except.bind, hwrite]
    rfl

lemma bociaGetConfig_run {o : ReadOutcome} (b : Board.State) (hinfo : o.getInfo = true)
    (hopened : o.opened = true) (hcount : ∀ stored ∈ b.flash, stored.length ≤ o.count) :
    ((Board.bociaGetConfig env).run b).1.map
        (fun cfg => (cfg, ofBoard ((Board.bociaGetConfig env).run b).2)) =
      bociaGetConfig env.pb o (ofBoard b) := by
  have hconfig : (ofBoard b).config = b.config := rfl
  have hflash : (ofBoard b).flash = b.flash := rfl
  have hbuff : (ofBoard b).cfgBuff = b.cfgBuff := rfl
  simp only [Board.bociaGetConfig, bociaGetConfig, bind_run, board_run, hconfig]
  cases hc : b.config with
  | some cfg => simp [Except.map]
  | none =>
    simp only [Board.bociaReadCfg, bociaReadCfg, bind_run, board_run, hflash]
    cases hf : b.flash with
    | none => rfl
    | some stored =>
      have htake : stored.take o.count = stored := List.take_of_length_le (hcount stored hf)
      simp only [hinfo, hopened, if_true, htake, hbuff, bind_run, fallible_run, board_run]
      cases hs : store b.cfgBuff 0 stored with
      | error e => rfl
      | ok cfgBuff =>
        have hwrite := store_eq_ok_iff.mp hs
        have hfits := ((b.cfgBuff.write_eq_some_iff cfgBuff 0 stored).mp hwrite).1
        have hload : loadRange cfgBuff.bytes 0 stored.length = .ok stored := by
          rw [loadRange, if_pos (by rw [cfgBuff.size]; exact hfits), List.drop_zero,
            Buffer.write_zero hwrite, List.take_left' rfl]
        simp only [update_run, hload, Bind.bind, Except.bind, unpackConfig]
        cases hu : env.pb.unpack .config stored with
        | none => simp only [pure_run, Except.map, ofBoard, hf]
        | some m => cases m <;> simp only [pure_run, Except.map, ofBoard, hf]

end Handler

end Nais.Board.ConfigFile
