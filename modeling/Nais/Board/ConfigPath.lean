import Mathlib.Data.List.TakeWhile
import Nais.Board.ConfigFile

/-!
# The way of a configuration through the static buffers

A received configuration is packed into `_buff`, read back into it, spelled out in
`topic_buff` and marshalled into `protobuf`. None of the sizes is checked on the way.
-/

namespace Nais.Board.ConfigPath

open Nais.Lib Nais.Lib.Memory

/-- What `strlen` and `memcpy` see of a string. -/
def cString (bs : List UInt8) : List UInt8 := bs.takeWhile (· ≠ 0)

def TOPIC_PREFIX : List UInt8 := [0x68, 0x62, 0x2F]

/-- The topic construction of `bocia_mqtt_init`. -/
def mqttTopic (cfg : Config) (topicBuff : Buffer 64) : Except Fault (Buffer 64) := do
  let ptr := 0
  let topicBuff ← store topicBuff ptr TOPIC_PREFIX
  let ptr := ptr + TOPIC_PREFIX.length
  let topicBuff ← store topicBuff ptr (cString cfg.network)
  let ptr := ptr + (cString cfg.network).length
  let topicBuff ← store topicBuff ptr [0x2F]
  let ptr := ptr + 1
  let topicBuff ← store topicBuff ptr (cString cfg.board)
  let ptr := ptr + (cString cfg.board).length
  store topicBuff ptr [0]

/-- `hb/network/board`. -/
def topic (cfg : Config) : List UInt8 :=
  TOPIC_PREFIX ++ cString cfg.network ++ [0x2F] ++ cString cfg.board

/-- The configuration is stored, read back, made a topic of and sent. -/
def configPath (pb : Protobufc) (cfg : Config) (s : ConfigFile.Store) (topicBuff : Buffer 64)
    (protobuf : Buffer 256) : Except Fault (Buffer 64 × List UInt8) := do
  let s ← ConfigFile.bociaWriteCfg pb ⟨true, true, true⟩ s cfg
  let (stored, _) ← ConfigFile.bociaReadCfg pb ⟨true, true, (pb.pack (.config cfg)).length⟩ s
  match stored with
  | none => .error .nullPointer
  | some cfg =>
    let topicBuff ← mqttTopic cfg topicBuff
    let (frame, _) ← naisMarshall pb ⟨CONFIG_TYPE, 0, 0⟩ (some (.config cfg)) protobuf
    .ok (topicBuff, frame)

/-- Nothing is written outside the buffers, and `topic_buff` holds the topic. -/
def StaysInside (pb : Protobufc) (cfg : Config) (s : ConfigFile.Store) (topicBuff : Buffer 64)
    (protobuf : Buffer 256) : Prop :=
  ∃ topicBuff' frame, configPath pb cfg s topicBuff protobuf = .ok (topicBuff', frame) ∧
    topic cfg ++ [0] <+: topicBuff'.bytes

def cStrings (cfg : Config) : Config :=
  { cfg with network := cString cfg.network, board := cString cfg.board, host := cString cfg.host }

/-- The library packs strings up to their end, and what it packs it unpacks. -/
structure PacksConfig (pb : Protobufc) (cfg : Config) : Prop where
  unpack_pack : pb.unpack .config (pb.pack (.config cfg)) = some (.config (cStrings cfg))
  pack_cStrings : pb.pack (.config (cStrings cfg)) = pb.pack (.config cfg)

/-- The UART receiver has room for the frame of the configuration. -/
def FitsUart (pb : Protobufc) (cfg : Config) : Prop :=
  4 + (Base128.encode (pb.pack (.config cfg)).length).length + (pb.pack (.config cfg)).length ≤ 512

lemma topic_cStrings (cfg : Config) : topic (cStrings cfg) = topic cfg := by
  simp only [topic, cStrings, cString, List.takeWhile_idem]

lemma length_topic (cfg : Config) :
    (topic cfg).length = 4 + (cString cfg.network).length + (cString cfg.board).length := by
  simp only [topic, TOPIC_PREFIX, List.length_append, List.length_cons, List.length_nil]
  omega

/-- Two adjacent writes are one, whatever comes behind them. -/
lemma store_store {n i j : ℕ} {buff : Buffer n} {xs ys : List UInt8} (hj : j = i + xs.length)
    (f : Buffer n → Except Fault (Buffer n)) :
    (store buff i xs).bind (fun b => (store b j ys).bind f) = (store buff i (xs ++ ys)).bind f := by
  subst hj
  rw [← store_adjacent]
  cases store buff i xs <;> rfl

/-- The five writes are one. -/
lemma mqttTopic_eq (cfg : Config) (topicBuff : Buffer 64) :
    mqttTopic cfg topicBuff = store topicBuff 0 (topic cfg ++ [0]) := by
  have hunfold : mqttTopic cfg topicBuff =
      (store topicBuff 0 TOPIC_PREFIX).bind fun b =>
      (store b (0 + TOPIC_PREFIX.length) (cString cfg.network)).bind fun b =>
      (store b (0 + TOPIC_PREFIX.length + (cString cfg.network).length) [0x2F]).bind fun b =>
      (store b (0 + TOPIC_PREFIX.length + (cString cfg.network).length + 1)
        (cString cfg.board)).bind fun b =>
      store b (0 + TOPIC_PREFIX.length + (cString cfg.network).length + 1 +
        (cString cfg.board).length) [0] := rfl
  rw [hunfold, store_store rfl, store_store (by rw [List.length_append]; omega),
    store_store (by simp only [List.length_append, List.length_singleton]; omega), topic,
    ← store_adjacent topicBuff 0 _ [0]]
  congr 1
  funext b
  congr 1
  simp only [List.length_append, List.length_singleton]
  omega

section Path

variable {pb : Protobufc} {cfg : Config} (h : PacksConfig pb cfg) (s : ConfigFile.Store)
  (topicBuff : Buffer 64) (protobuf : Buffer 256)

include h

/-- What is written is read back, when it fits. -/
lemma configPath_eq (hfits : (pb.pack (.config cfg)).length ≤ 128) :
    ∃ frame, configPath pb cfg s topicBuff protobuf =
      (store topicBuff 0 (topic cfg ++ [0])).map fun b => (b, frame) := by
  obtain ⟨cfgBuff, hwrite⟩ : ∃ b, s.cfgBuff.write 0 (pb.pack (.config cfg)) = some b :=
    s.cfgBuff.exists_write (by omega)
  have hunpack : ConfigFile.unpackConfig pb (pb.pack (.config cfg)) = some (cStrings cfg) := by
    rw [ConfigFile.unpackConfig, h.unpack_pack]
  have hreadable : ConfigFile.Readable pb ⟨true, true, (pb.pack (.config cfg)).length⟩ cfgBuff
      (pb.pack (.config cfg)) := by
    refine ⟨rfl, rfl, hfits, ?_, ?_⟩
    · rw [List.drop_length, List.drop_eq_nil_of_le (List.length_take_le _ _)]
    · rw [hunpack]
      exact Option.some_ne_none _
  obtain ⟨cfgBuff', hread⟩ := ConfigFile.bociaReadCfg_eq
    (t := ⟨s.config, some (pb.pack (.config cfg)), cfgBuff⟩) rfl hreadable
  have hframe : frameLength pb (.config (cStrings cfg)) ≤ 256 := by
    have hlen := Base128.encode_length_le 1 (pb.pack (.config cfg)).length (by norm_num; omega)
    rw [frameLength, h.pack_cStrings]
    omega
  obtain ⟨-, protobuf', hmarshall⟩ | ⟨hlong, -⟩ :=
    naisMarshall_ok_or_error pb ⟨CONFIG_TYPE, 0, 0⟩ (.config (cStrings cfg)) protobuf
  · refine ⟨headerBytes ⟨CONFIG_TYPE, 0, 0⟩ (pb.pack (.config (cStrings cfg))).length ++
      pb.pack (.config (cStrings cfg)) ++ [RECORD_END], ?_⟩
    simp only [configPath, ConfigFile.bociaWriteCfg, store_eq_ok_iff.mpr hwrite,
      ConfigFile.bociaWriteProto, if_true, hread, hunpack, mqttTopic_eq, topic_cStrings, hmarshall,
      Bind.bind, Except.bind]
    cases store topicBuff 0 (topic cfg ++ [0]) <;> rfl
  · omega

end Path

/-- The way of a configuration stays inside the three buffers exactly when its packed size
fits the file buffer and its topic the topic buffer. -/
theorem config_path_stays_inside_iff (pb : Protobufc) (cfg : Config) (h : PacksConfig pb cfg)
    (s : ConfigFile.Store) (topicBuff : Buffer 64) (protobuf : Buffer 256) :
    StaysInside pb cfg s topicBuff protobuf ↔
      (pb.pack (.config cfg)).length ≤ 128 ∧
        5 + (cString cfg.network).length + (cString cfg.board).length ≤ 64 := by
  have hlen : (topic cfg ++ [0]).length =
      5 + (cString cfg.network).length + (cString cfg.board).length := by
    rw [List.length_append, length_topic, List.length_singleton]
    omega
  constructor
  · rintro ⟨b, frame, hpath, -⟩
    have hfits : (pb.pack (.config cfg)).length ≤ 128 := by
      by_contra hlong
      have hnone := (s.cfgBuff.write_eq_none_iff 0 (pb.pack (.config cfg))).mpr (by omega)
      simp [configPath, ConfigFile.bociaWriteCfg, store, hnone, Bind.bind, Except.bind] at hpath
    obtain ⟨frame', heq⟩ := configPath_eq h s topicBuff protobuf hfits
    rw [heq] at hpath
    cases hstore : store topicBuff 0 (topic cfg ++ [0]) with
    | error e => simp [hstore, Except.map] at hpath
    | ok b' =>
      have hin := ((topicBuff.write_eq_some_iff b' 0 _).mp (store_eq_ok_iff.mp hstore)).1
      exact ⟨hfits, by omega⟩
  · rintro ⟨hfits, htopic⟩
    obtain ⟨frame, heq⟩ := configPath_eq h s topicBuff protobuf hfits
    obtain ⟨b, hwrite⟩ : ∃ b, topicBuff.write 0 (topic cfg ++ [0]) = some b :=
      topicBuff.exists_write (by omega)
    refine ⟨b, frame, ?_, ?_⟩
    · rw [heq, store_eq_ok_iff.mpr hwrite]
      rfl
    · rw [Buffer.write_zero hwrite]
      exact List.prefix_append _ _

theorem config_path_stays_inside_sample : StaysInside ConfigFile.samplePb sampleConfig
    ⟨none, none, Buffer.fill 128 0⟩ (Buffer.fill 64 0) (Buffer.fill 256 0) :=
  (config_path_stays_inside_iff _ _ ⟨by decide +kernel, by decide +kernel⟩ _ _ _).mpr
    (by decide +kernel)

/-- A network and a board of forty letters each. -/
def longConfig : Config := ⟨List.replicate 40 0x61, List.replicate 40 0x62, [0x63], none, none, none⟩

def longConfigPb : Protobufc :=
  ConfigFile.oneConfig longConfig
    ([0x0A, 40] ++ longConfig.network ++ [0x12, 40] ++ longConfig.board ++ [0x1A, 1] ++ longConfig.host)

/-- Their packed size fits the file buffer, and their topic does not fit its own. -/
theorem config_path_leaves_topic_buff : ¬∀ (pb : Protobufc) (cfg : Config), PacksConfig pb cfg →
    FitsUart pb cfg → ∀ (s : ConfigFile.Store) (topicBuff : Buffer 64) (protobuf : Buffer 256),
    StaysInside pb cfg s topicBuff protobuf := by
  intro h
  have hpacks : PacksConfig longConfigPb longConfig := ⟨by decide +kernel, by decide +kernel⟩
  have hfits : FitsUart longConfigPb longConfig := by
    rw [FitsUart]
    decide +kernel
  obtain ⟨b, frame, hpath, -⟩ := h longConfigPb longConfig hpacks hfits
    ⟨none, none, Buffer.fill 128 0⟩ (Buffer.fill 64 0) (Buffer.fill 256 0)
  obtain ⟨frame', heq⟩ := configPath_eq hpacks ⟨none, none, Buffer.fill 128 0⟩ (Buffer.fill 64 0)
    (Buffer.fill 256 0) (by decide +kernel)
  have hstore : store (Buffer.fill 64 0) 0 (topic longConfig ++ [0]) = .error .outOfBounds := by
    decide +kernel
  rw [heq, hstore] at hpath
  cases hpath

end Nais.Board.ConfigPath
