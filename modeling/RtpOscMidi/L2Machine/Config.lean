import RtpOscMidi.Core.Binary32

/-!
# The configuration

What the configuration checks about itself: the version, two numbers that have
to be finite, and the equalizer settings of each plugin, which `parse_yaml`
brings into range and `validate` accepts only in range. The number of blocks
rendered ahead is checked only where it is read.

Numbers are the bits of an `f32`. The settings that nothing here looks at are
the parameters `α` (audio) and `ρ` (the rest), and the YAML library is a
`Yaml`: its values, what it reads and what it writes.

* `Yaml.parse_toYaml`: what was written of a valid configuration is read back
  if its number of blocks is one that is read, and is refused otherwise.
-/
namespace RtpOscMidi.L2.Config

open Core Core.Binary32

abbrev F32 := UInt32

/-- mirrors src-tauri/src/config.rs:139-142 -/
structure EqShelfSettings where
  frequencyHz : F32
  gainDb : F32
  deriving DecidableEq, Repr

/-- mirrors src-tauri/src/config.rs:146-150 -/
structure EqPeakSettings where
  frequencyHz : F32
  gainDb : F32
  q : F32
  deriving DecidableEq, Repr

/-- mirrors src-tauri/src/config.rs:154-159 -/
structure VstEqSettings where
  enabled : Bool
  lowShelf : EqShelfSettings
  midPeak : EqPeakSettings
  highShelf : EqShelfSettings
  deriving DecidableEq, Repr

/-- mirrors src-tauri/src/config.rs:161-180 -/
def VstEqSettings.default : VstEqSettings where
  enabled := false
  lowShelf := ⟨0x42F00000, 0⟩ -- 120, 0
  midPeak := ⟨0x447A0000, 0, 0x3F800000⟩ -- 1000, 0, 1
  highShelf := ⟨0x45FA0000, 0⟩ -- 8000, 0

/-- mirrors src-tauri/src/config.rs:219-225 -/
def finiteClamp (value default minimum maximum : F32) : F32 :=
  if isFinite value then clamp value minimum (maxNum maximum minimum)
  else clamp default minimum (maxNum maximum minimum)

/-- `sample_rate.max(1) as f32 * 0.45`, at least 40. -/
def nyquistSafe (sampleRate : UInt32) : F32 :=
  maxNum ((max sampleRate 1).toFloat32 * Float32.ofBits 0x3EE66666).toBits 0x42200000

/-- mirrors src-tauri/src/config.rs:183-216 -/
def VstEqSettings.normalized (s : VstEqSettings) (sampleRate : UInt32) : VstEqSettings where
  enabled := s.enabled
  lowShelf :=
    { frequencyHz := finiteClamp s.lowShelf.frequencyHz 0x42F00000 0x42200000 -- 120, 40
        (minNum 0x43FA0000 (nyquistSafe sampleRate)) -- 500
      gainDb := finiteClamp s.lowShelf.gainDb 0 0xC1900000 0x41900000 } -- -18, 18
  midPeak :=
    { frequencyHz := finiteClamp s.midPeak.frequencyHz
        (minNum 0x447A0000 (nyquistSafe sampleRate)) 0x42C80000 -- 1000, 100
        (minNum 0x461C4000 (nyquistSafe sampleRate)) -- 10000
      gainDb := finiteClamp s.midPeak.gainDb 0 0xC1900000 0x41900000
      q := finiteClamp s.midPeak.q 0x3F800000 0x3E4CCCCD 0x41200000 } -- 1, 0.2, 10
  highShelf :=
    { frequencyHz := finiteClamp s.highShelf.frequencyHz
        (minNum 0x45FA0000 (nyquistSafe sampleRate)) -- 8000
        (minNum 0x44FA0000 (nyquistSafe sampleRate)) -- 2000
        (minNum 0x467A0000 (nyquistSafe sampleRate)) -- 16000
      gainDb := finiteClamp s.highShelf.gainDb 0 0xC1900000 0x41900000 }

/-- The derived `PartialEq`, number by number. -/
def VstEqSettings.eq (a b : VstEqSettings) : Bool :=
  a.enabled == b.enabled &&
    (beq a.lowShelf.frequencyHz b.lowShelf.frequencyHz && beq a.lowShelf.gainDb b.lowShelf.gainDb) &&
    (beq a.midPeak.frequencyHz b.midPeak.frequencyHz && beq a.midPeak.gainDb b.midPeak.gainDb &&
      beq a.midPeak.q b.midPeak.q) &&
    (beq a.highShelf.frequencyHz b.highShelf.frequencyHz &&
      beq a.highShelf.gainDb b.highShelf.gainDb)

/-- `other`: the settings of the device and the plugin that only the engine
reads. mirrors src-tauri/src/config.rs:231-257 -/
structure AudioConfig (α : Type) where
  gameMode : Bool
  enabled : Bool
  sampleRate : UInt32
  renderAheadBlocks : UInt32
  gainDb : F32
  limiterEnabled : Bool
  vstPluginId : Option String
  vstEqByPlugin : List (String × VstEqSettings)
  other : α
  deriving DecidableEq, Repr

/-- mirrors src-tauri/src/config.rs:338-348 -/
structure AppConfig (α ρ : Type) where
  version : Nat
  audio : AudioConfig α
  cornerRadius : F32
  other : ρ
  deriving DecidableEq, Repr

variable {α ρ : Type}

def currentVersion : Nat := 4

/-- mirrors src-tauri/src/audio/runtime_state.rs:68-70 -/
def defaultRenderAheadBlocks : UInt32 := 1

/-- mirrors src-tauri/src/audio/runtime_state.rs:72-82 -/
def deserializeRenderAheadBlocks (blocks : UInt32) : Except String UInt32 :=
  if 2 < blocks then .error "renderAheadBlocks must be 0, 1 or 2" else .ok blocks

/-- mirrors src-tauri/src/config.rs:259-279,297-310,402-414 -/
def AppConfig.default (α ρ : Type) [Inhabited α] [Inhabited ρ] : AppConfig α ρ where
  version := currentVersion
  audio :=
    { gameMode := true
      enabled := true
      sampleRate := 48000
      renderAheadBlocks := defaultRenderAheadBlocks
      gainDb := 0
      limiterEnabled := false
      vstPluginId := none
      vstEqByPlugin := []
      other := Inhabited.default }
  cornerRadius := 0x41400000 -- 12
  other := Inhabited.default

/-- mirrors src-tauri/src/config.rs:382-399 -/
def AppConfig.validate (cfg : AppConfig α ρ) : Except String Unit :=
  if cfg.version ≠ currentVersion then
    .error s!"Unsupported configuration version {cfg.version}; expected {currentVersion}"
  else if !isFinite cfg.audio.gainDb || !isFinite cfg.cornerRadius then
    .error "Audio gain and UI corner radius must be finite"
  else
    match cfg.audio.vstEqByPlugin.find? fun p =>
      !p.2.eq (p.2.normalized cfg.audio.sampleRate) with
    | some p => .error s!"Invalid EQ settings for {p.1}"
    | none => .ok ()

/-- The YAML library. `version` is `get("version")` as a `u64`, `setVersion`
puts a version into a mapping, and `fromValue` reads the fields of a
configuration, one of them by the function it is given for it. -/
structure Yaml (α ρ : Type) where
  Value : Type
  fromStr : String → Except String Value
  version : Value → Option Nat
  setVersion : Nat → Value → Value
  fromValue : (UInt32 → Except String UInt32) → Value → Except String (AppConfig α ρ)
  toYaml : AppConfig α ρ → Except String String

/-- The settings of every plugin, in range. -/
def AppConfig.normalizeEq (cfg : AppConfig α ρ) : AppConfig α ρ :=
  { cfg with
    audio :=
      { cfg.audio with
        vstEqByPlugin := cfg.audio.vstEqByPlugin.map fun p =>
          (p.1, p.2.normalized cfg.audio.sampleRate) } }

/-- The end of `parse_yaml`: the settings in range, and validated.
mirrors src-tauri/src/config.rs:373-378 -/
def Yaml.accept (Y : Yaml α ρ) (value : Y.Value) : Except String (AppConfig α ρ) := do
  let cfg := (← Y.fromValue deserializeRenderAheadBlocks value).normalizeEq
  cfg.validate
  return cfg

/-- mirrors src-tauri/src/config.rs:353-379 -/
def Yaml.parse (Y : Yaml α ρ) (raw : String) : Except String (AppConfig α ρ) := do
  let value ← Y.fromStr raw
  let version := (Y.version value).getD 0
  if version = 2 ∨ version = 3 then
    Y.accept (Y.setVersion currentVersion value)
  else if version ≠ currentVersion then
    .error s!"Unsupported configuration version {version}; expected {currentVersion}"
  else
    Y.accept value

def AppConfig.withBlocks (cfg : AppConfig α ρ) (blocks : UInt32) : AppConfig α ρ :=
  { cfg with audio := { cfg.audio with renderAheadBlocks := blocks } }

/-- Reading gives back the fields that were written, as far as the function for
a field takes what was written of it. -/
def Yaml.RoundTrips (Y : Yaml α ρ) : Prop :=
  ∀ cfg raw, cfg.validate = .ok () → Y.toYaml cfg = .ok raw →
    ∃ value, Y.fromStr raw = .ok value ∧ Y.version value = some cfg.version ∧
      ∀ deserialize : UInt32 → Except String UInt32,
        match deserialize cfg.audio.renderAheadBlocks with
        | .ok blocks => Y.fromValue deserialize value = .ok (cfg.withBlocks blocks)
        | .error _ => ∃ e, Y.fromValue deserialize value = .error e

/-! ## Normalization -/

theorem finiteClamp_eq (value default minimum maximum : F32) :
    ∃ v, (isFinite value = true → v = value) ∧ (isFinite value = false → v = default) ∧
      finiteClamp value default minimum maximum = clamp v minimum (maxNum maximum minimum) := by
  unfold finiteClamp
  cases isFinite value with
  | true => exact ⟨value, fun _ => rfl, Bool.noConfusion, rfl⟩
  | false => exact ⟨default, Bool.noConfusion, fun _ => rfl, rfl⟩

section FiniteClamp

variable {value default minimum maximum : F32}

theorem isFinite_finiteClamp (hdefault : isFinite default = true)
    (hminimum : isFinite minimum = true) (hmaximum : isFinite maximum = true) :
    isFinite (finiteClamp value default minimum maximum) = true := by
  obtain ⟨v, hfin, hinf, heq⟩ := finiteClamp_eq value default minimum maximum
  have hv : isFinite v = true := by
    cases hb : isFinite value with
    | true => rw [hfin hb, hb]
    | false => rw [hinf hb, hdefault]
  have hmax : isFinite (maxNum maximum minimum) = true := by
    unfold maxNum
    split
    · exact hminimum
    · exact hmaximum
  rw [heq]
  rcases clamp_cases v minimum (maxNum maximum minimum) with ⟨h, -⟩ | ⟨h, -⟩ | ⟨h, -⟩
  · rw [h, hv]
  · rw [h, hminimum]
  · rw [h, hmax]

theorem finiteClamp_of_isFinite (hvalue : isFinite value = true) :
    finiteClamp value default minimum maximum = clamp value minimum (maxNum maximum minimum) := by
  rw [finiteClamp, if_pos hvalue]

theorem finiteClamp_finiteClamp (hdefault : isFinite default = true)
    (hminimum : isFinite minimum = true) (hmaximum : isFinite maximum = true) :
    finiteClamp (finiteClamp value default minimum maximum) default minimum maximum =
      finiteClamp value default minimum maximum := by
  rw [finiteClamp_of_isFinite (isFinite_finiteClamp hdefault hminimum hmaximum)]
  obtain ⟨v, -, -, heq⟩ := finiteClamp_eq value default minimum maximum
  rw [heq, clamp_clamp (not_lt_maxNum _ _)]

/-- A value that equals its normalization is it, bit for bit. -/
theorem finiteClamp_eq_of_beq (hdefault : isFinite default = true)
    (hminimum : isFinite minimum = true) (hmaximum : isFinite maximum = true)
    (h : beq value (finiteClamp value default minimum maximum) = true) :
    finiteClamp value default minimum maximum = value := by
  have hvalue := isFinite_of_beq h (isFinite_finiteClamp hdefault hminimum hmaximum)
  rw [finiteClamp_of_isFinite hvalue] at h ⊢
  exact clamp_eq_of_beq (not_lt_maxNum _ _) h

end FiniteClamp

/-- A finite bound of 40 or more stays finite below the Nyquist bound. -/
theorem isFinite_minNum_nyquistSafe {bound : F32} (sampleRate : UInt32)
    (hbound : isFinite bound = true) :
    isFinite (minNum bound (nyquistSafe sampleRate)) = true := by
  unfold minNum
  split
  · rename_i h
    rw [not_isNaN_of_isFinite hbound, Bool.or_false] at h
    exact isFinite_of_between (a := 0x42200000) rfl hbound (not_lt_maxNum _ _) h
  · exact hbound

theorem normalized_normalized (s : VstEqSettings) (sampleRate : UInt32) :
    (s.normalized sampleRate).normalized sampleRate = s.normalized sampleRate := by
  have hnyquist : ∀ {bound}, isFinite bound = true →
      isFinite (minNum bound (nyquistSafe sampleRate)) = true :=
    isFinite_minNum_nyquistSafe sampleRate
  simp only [VstEqSettings.normalized]
  rw [finiteClamp_finiteClamp rfl rfl (hnyquist rfl), finiteClamp_finiteClamp rfl rfl rfl,
    finiteClamp_finiteClamp (hnyquist rfl) rfl (hnyquist rfl),
    finiteClamp_finiteClamp rfl rfl rfl, finiteClamp_finiteClamp rfl rfl rfl,
    finiteClamp_finiteClamp (hnyquist rfl) (hnyquist rfl) (hnyquist rfl),
    finiteClamp_finiteClamp rfl rfl rfl]

/-- What `validate` accepts as in range stays as it is when it is read. -/
theorem normalized_eq_of_eq {s : VstEqSettings} {sampleRate : UInt32}
    (h : s.eq (s.normalized sampleRate) = true) : s.normalized sampleRate = s := by
  have hnyquist : ∀ {bound}, isFinite bound = true →
      isFinite (minNum bound (nyquistSafe sampleRate)) = true :=
    isFinite_minNum_nyquistSafe sampleRate
  simp only [VstEqSettings.eq, VstEqSettings.normalized, Bool.and_eq_true] at h
  obtain ⟨⟨⟨-, hlf, hlg⟩, ⟨hmf, hmg⟩, hmq⟩, hhf, hhg⟩ := h
  simp only [VstEqSettings.normalized]
  rw [finiteClamp_eq_of_beq rfl rfl (hnyquist rfl) hlf, finiteClamp_eq_of_beq rfl rfl rfl hlg,
    finiteClamp_eq_of_beq (hnyquist rfl) rfl (hnyquist rfl) hmf,
    finiteClamp_eq_of_beq rfl rfl rfl hmg, finiteClamp_eq_of_beq rfl rfl rfl hmq,
    finiteClamp_eq_of_beq (hnyquist rfl) (hnyquist rfl) (hnyquist rfl) hhf,
    finiteClamp_eq_of_beq rfl rfl rfl hhg]

/-- A configuration as `validate` accepts it. -/
structure AppConfig.Valid (cfg : AppConfig α ρ) : Prop where
  version : cfg.version = currentVersion
  gain : isFinite cfg.audio.gainDb = true
  radius : isFinite cfg.cornerRadius = true
  inRange : ∀ p ∈ cfg.audio.vstEqByPlugin, p.2.normalized cfg.audio.sampleRate = p.2

theorem AppConfig.valid_of_validate {cfg : AppConfig α ρ} (h : cfg.validate = .ok ()) :
    cfg.Valid := by
  unfold AppConfig.validate at h
  split at h
  · cases h
  · rename_i hversion
    split at h
    · cases h
    · rename_i hfinite
      simp only [Bool.or_eq_true, Bool.not_eq_true', not_or, Bool.not_eq_false] at hfinite
      split at h
      · cases h
      · rename_i heq
        refine ⟨Decidable.not_not.mp hversion, hfinite.1, hfinite.2, fun p hp => ?_⟩
        have hnot := List.find?_eq_none.mp heq p hp
        simp only [Bool.not_eq_true', Bool.not_eq_false] at hnot
        exact normalized_eq_of_eq hnot

theorem AppConfig.normalizeEq_of_validate {cfg : AppConfig α ρ} (h : cfg.validate = .ok ()) :
    cfg.normalizeEq = cfg := by
  have hmap : (cfg.audio.vstEqByPlugin.map fun p =>
      (p.1, p.2.normalized cfg.audio.sampleRate)) = cfg.audio.vstEqByPlugin := by
    have hid := List.map_congr_left (f := fun p => (p.1, p.2.normalized cfg.audio.sampleRate))
      (g := id) fun p hp => Prod.ext rfl ((AppConfig.valid_of_validate h).inRange p hp)
    rw [hid, List.map_id]
  unfold AppConfig.normalizeEq
  rw [hmap]

/-! ## Reading and writing -/

theorem Yaml.validate_of_accept {Y : Yaml α ρ} {value : Y.Value} {cfg : AppConfig α ρ}
    (h : Y.accept value = .ok cfg) : cfg.validate = .ok () := by
  unfold Yaml.accept at h
  cases hvalue : Y.fromValue deserializeRenderAheadBlocks value with
  | error e => simp [hvalue, bind, Except.bind] at h
  | ok read =>
    cases hvalid : read.normalizeEq.validate with
    | error e => simp [hvalue, hvalid, bind, Except.bind] at h
    | ok u =>
      simp only [hvalue, hvalid, bind, Except.bind, pure, Except.pure, Except.ok.injEq] at h
      rw [← h, hvalid]

/-- What is read is valid. -/
theorem Yaml.validate_of_parse {Y : Yaml α ρ} {raw : String} {cfg : AppConfig α ρ}
    (h : Y.parse raw = .ok cfg) : cfg.validate = .ok () := by
  unfold Yaml.parse at h
  cases hfrom : Y.fromStr raw with
  | error e => simp [hfrom, bind, Except.bind] at h
  | ok value =>
    simp only [hfrom, bind, Except.bind] at h
    split at h
    · exact Yaml.validate_of_accept h
    · split at h
      · cases h
      · exact Yaml.validate_of_accept h

theorem Yaml.accept_of_validate {Y : Yaml α ρ} {value : Y.Value} {cfg : AppConfig α ρ}
    (hvalue : Y.fromValue deserializeRenderAheadBlocks value = .ok cfg)
    (hvalid : cfg.validate = .ok ()) : Y.accept value = .ok cfg := by
  simp only [Yaml.accept, hvalue, bind, Except.bind, AppConfig.normalizeEq_of_validate hvalid,
    hvalid]
  rfl

/-- The text of a valid configuration is of the version that is read as it is. -/
theorem Yaml.parse_of_validate {Y : Yaml α ρ} {raw : String} {value : Y.Value}
    {cfg : AppConfig α ρ} (hvalid : cfg.validate = .ok ()) (hfrom : Y.fromStr raw = .ok value)
    (hversion : Y.version value = some cfg.version) : Y.parse raw = Y.accept value := by
  have hcurrent := (AppConfig.valid_of_validate hvalid).version
  simp only [Yaml.parse, hfrom, bind, Except.bind, hversion, hcurrent, Option.getD_some]
  rw [if_neg (by decide), if_neg (by decide)]

/-- Reading gives back what was written, or refuses it for its blocks. -/
theorem Yaml.parse_toYaml {Y : Yaml α ρ} (hY : Y.RoundTrips) {raw : String} {cfg : AppConfig α ρ}
    (hvalid : cfg.validate = .ok ()) (hraw : Y.toYaml cfg = .ok raw) :
    if cfg.audio.renderAheadBlocks ≤ 2 then Y.parse raw = .ok cfg
    else ∃ e, Y.parse raw = .error e := by
  obtain ⟨value, hfrom, hversion, hfields⟩ := hY cfg raw hvalid hraw
  have hread := hfields deserializeRenderAheadBlocks
  rw [Yaml.parse_of_validate hvalid hfrom hversion]
  split
  · rename_i hle
    have hblocks : deserializeRenderAheadBlocks cfg.audio.renderAheadBlocks = .ok _ :=
      if_neg (UInt32.not_lt.mpr hle)
    rw [hblocks] at hread
    exact Yaml.accept_of_validate hread hvalid
  · rename_i hgt
    have hblocks : deserializeRenderAheadBlocks cfg.audio.renderAheadBlocks = .error _ :=
      if_pos (UInt32.not_le.mp hgt)
    rw [hblocks] at hread
    obtain ⟨e, herror⟩ := hread
    exact ⟨e, by simp only [Yaml.accept, herror, bind, Except.bind]⟩

end RtpOscMidi.L2.Config
