/-
# The config file

The whole settings table, and what `Config::load` makes of a file: the operator's rows
are read and checked one by one, the app's are passed over, and at the end come the
checks of the values that are names. What the daemon is built from is therefore in
range, and of the app's keys it has the defaults whatever the file says.
-/

import Coreletd.Daemon.SettingsRestored

namespace Coreletd.Daemon

open Coreletd.Library
open Coreletd.Mesh
open Coreletd.Proto
open Coreletd.Radio

/-! ## What a config file sets -/

structure SpiConfig where
  spidev : Bytes := utf8 "/dev/spidev1.0"
  gpiochip : Bytes := utf8 "gpiochip0"
  irqPin : Int := 26
  busyPin : Int := 24
  resetPin : Int := 25
  /-- -1 where the SPI controller drives it, and where the next two are not wired. -/
  nssPin : Int := -1
  rxenPin : Int := -1
  txenPin : Int := -1
  spiSpeedHz : UInt32 := 2000000
  retryIntervalS : UInt32 := 10

inductive LogLevel where
  | error
  | warn
  | info
  | debug
  | trace
  deriving DecidableEq

/-- `log_parse_level`. -/
def logParseLevel (name : Bytes) : Option LogLevel :=
  if name = utf8 "error" then some .error
  else if name = utf8 "warn" ∨ name = utf8 "warning" then some .warn
  else if name = utf8 "info" then some .info
  else if name = utf8 "debug" then some .debug
  else if name = utf8 "trace" then some .trace
  else none

inductive Transport where
  | unix
  | tcp
  deriving DecidableEq

/-- `companion::Server::Options`. -/
structure CompanionOptions where
  transport : Transport := .unix
  socketPath : Bytes := utf8 "/run/coreletd/companion.sock"
  bindAddr : Bytes := utf8 "127.0.0.1"
  port : UInt16 := 5000

/-- The config with the fields that only the operator sets. -/
structure FullConfig extends Config where
  logLevel : LogLevel := .info
  spi : SpiConfig := {}
  advertIntervalS : UInt32 := 0
  companion : CompanionOptions := {}

/-- A config that is being read, and the two values in it that are names still. -/
structure Reading where
  cfg : FullConfig := {}
  logLevel : Bytes := utf8 "info"
  companionInterface : Bytes := utf8 "unix"

/-! ## The whole table -/

/-- Where a value of the file goes. -/
inductive RowTarget where
  | str (get : Reading → Bytes) (put : Reading → Bytes → Reading)
  | bool (get : Reading → Bool) (put : Reading → Bool → Reading)
  | int (row : IntTarget) (get : Reading → Int) (put : Reading → Int → Reading)
  | real (valid : ℚ → Bool) (requirement : String) (get : Reading → ℚ)
      (put : Reading → ℚ → Reading)
  /-- A row that an app may change too. -/
  | app (s : Setting)

structure Row where
  key : String
  target : RowTarget

namespace Row

def text (row : Row) : Bytes := utf8 row.key

def str (key : String) (get : Reading → Bytes) (put : Reading → Bytes → Reading) : Row :=
  { key, target := .str get put }

def bool (key : String) (get : Reading → Bool) (put : Reading → Bool → Reading) : Row :=
  { key, target := .bool get put }

def int (key : String) (min max : Int) (get : Reading → Int) (put : Reading → Int → Reading) :
    Row :=
  { key, target := .int { key, min, max } get put }

def app (s : Setting) : Row := { key := s.key, target := .app s }

/-- `apply`, whose parts for the app's rows are `Setting.apply`. -/
def apply (ini : Ini) (row : Row) (reading : Reading) : Except String Reading :=
  match row.target with
  | .str get put => .ok (put reading (ini.getStr row.text (get reading)))
  | .bool get put =>
      match ini.getBool row.text (get reading) with
      | none => .error (row.key ++ ": not a boolean")
      | some value => .ok (put reading value)
  | .int target get put =>
      (target.apply (get reading) (getInt64 ini row.text)).map (put reading)
  | .real valid requirement get put =>
      (checkReal row.key valid requirement (ini.getDouble row.text (get reading))).map
        (put reading)
  | .app s =>
      (s.apply ini reading.cfg.toConfig).map fun cfg =>
        { reading with cfg := { reading.cfg with toConfig := cfg } }

end Row

def kMaxInt : Int := 2147483647
def kMaxU16 : Int := 65535

/-- 0 is a module without one. -/
def validTcxo (volts : ℚ) : Bool :=
  volts = 0 || (Binary64.nearest (16 / 10) ≤ volts && volts ≤ Binary64.nearest (33 / 10))

def Reading.withRadio (r : Reading) (radio : RadioParams) : Reading :=
  { r with cfg := { r.cfg with radio } }

def Reading.withSpi (r : Reading) (spi : SpiConfig) : Reading :=
  { r with cfg := { r.cfg with spi } }

def Reading.withCompanion (r : Reading) (companion : CompanionOptions) : Reading :=
  { r with cfg := { r.cfg with companion } }

/-- The rows of the radio's wiring. -/
def hardwareRows : List Row :=
  [.str "hardware.spidev" (·.cfg.spi.spidev) fun r v =>
      r.withSpi { r.cfg.spi with spidev := v },
    .str "hardware.lora_gpiochip" (·.cfg.spi.gpiochip) fun r v =>
      r.withSpi { r.cfg.spi with gpiochip := v },
    .int "hardware.lora_irq_pin" 0 kMaxInt (·.cfg.spi.irqPin) fun r v =>
      r.withSpi { r.cfg.spi with irqPin := v },
    .int "hardware.lora_busy_pin" 0 kMaxInt (·.cfg.spi.busyPin) fun r v =>
      r.withSpi { r.cfg.spi with busyPin := v },
    .int "hardware.lora_reset_pin" 0 kMaxInt (·.cfg.spi.resetPin) fun r v =>
      r.withSpi { r.cfg.spi with resetPin := v },
    .int "hardware.lora_nss_pin" (-1) kMaxInt (·.cfg.spi.nssPin) fun r v =>
      r.withSpi { r.cfg.spi with nssPin := v },
    .int "hardware.lora_rxen_pin" (-1) kMaxInt (·.cfg.spi.rxenPin) fun r v =>
      r.withSpi { r.cfg.spi with rxenPin := v },
    .int "hardware.lora_txen_pin" (-1) kMaxInt (·.cfg.spi.txenPin) fun r v =>
      r.withSpi { r.cfg.spi with txenPin := v },
    .int "hardware.lora_retry_interval" 0 86400 (·.cfg.spi.retryIntervalS.toNat) fun r v =>
      r.withSpi { r.cfg.spi with retryIntervalS := UInt32.ofNat v.toNat },
    .bool "hardware.dio2_as_rf_switch" (·.cfg.radio.dio2AsRfSwitch) fun r v =>
      r.withRadio { r.cfg.radio with dio2AsRfSwitch := v },
    { key := "hardware.lora_tcxo"
      target := .real validTcxo "0 (disabled) or between 1.6 and 3.3 volts"
        (·.cfg.radio.tcxoVoltage) fun r v => r.withRadio { r.cfg.radio with tcxoVoltage := v } },
    .bool "hardware.rx_boosted_gain" (·.cfg.radio.rxBoostedGain) fun r v =>
      r.withRadio { r.cfg.radio with rxBoostedGain := v },
    .int "hardware.current_limit" 1 157 (·.cfg.radio.currentLimitMa) fun r v =>
      r.withRadio { r.cfg.radio with currentLimitMa := v },
    .int "hardware.spi_speed" 1 16000000 (·.cfg.spi.spiSpeedHz.toNat) fun r v =>
      r.withSpi { r.cfg.spi with spiSpeedHz := UInt32.ofNat v.toNat }]

def Row.advertInterval : Row where
  key := Daemon.advertInterval.key
  target := .int Daemon.advertInterval (·.cfg.advertIntervalS.toNat) fun r v =>
    { r with cfg := { r.cfg with advertIntervalS := UInt32.ofNat v.toNat } }

def Row.maxHops : Row :=
  .int "node.max_hops" 0 kMaxPathSize (·.cfg.node.maxHops.toNat) fun r v =>
    { r with cfg := { r.cfg with node := { r.cfg.node with maxHops := UInt8.ofNat v.toNat } } }

/-- The rows of the companion's socket, of the state directory and of the log. -/
def serviceRows : List Row :=
  [.str "companion.companion_interface" (·.companionInterface) fun r v =>
      { r with companionInterface := v },
    .str "companion.companion_socket" (·.cfg.companion.socketPath) fun r v =>
      r.withCompanion { r.cfg.companion with socketPath := v },
    .str "companion.companion_bind" (·.cfg.companion.bindAddr) fun r v =>
      r.withCompanion { r.cfg.companion with bindAddr := v },
    .int "companion.companion_port" 1 kMaxU16 (·.cfg.companion.port.toNat) fun r v =>
      r.withCompanion { r.cfg.companion with port := UInt16.ofNat v.toNat },
    .str "storage.state_dir" (·.cfg.stateDir) fun r v =>
      { r with cfg := { r.cfg with stateDir := v } },
    .str "logging.log_level" (·.logLevel) fun r v => { r with logLevel := v }]

/-- `settings`, in the table's order. -/
def table : List Row :=
  [.app .loraFreq, .app .loraBw, .app .loraSf, .app .loraCr, .app .loraTxPower,
      .app .dutyCycle] ++ hardwareRows ++
    [.app .advertName, .advertInterval, .app .lat, .app .lon, .app .relay, .maxHops] ++
    serviceRows

/-- `Config::keys`: the rows that a config file takes. -/
def operatorRows : List Row := table.filter fun row => !Config.appKey row.text

/-! ## Loading -/

def slash : UInt8 := 47

/-- Without the slashes at its end, but for the root. -/
def stripSlashes (dir : Bytes) : Bytes := dir.take 1 ++ (dir.drop 1).rdropWhile (· = slash)

/-- The end of `load`, behind the table. -/
def Reading.settle (r : Reading) : Except Bytes FullConfig :=
  match logParseLevel r.logLevel with
  | none =>
      .error (utf8 "logging.log_level: unknown level \"" ++ r.logLevel ++ utf8 "\"")
  | some logLevel =>
      let settled (transport : Transport) : Except Bytes FullConfig :=
        if r.cfg.stateDir = [] then
          .error (utf8 ("storage.state_dir is required — the directory holding this node's " ++
            "identity, contacts, channels and messages (/var/lib/coreletd for the packaged " ++
            "service)"))
        else if r.cfg.stateDir.head? ≠ some slash then
          .error (utf8 "storage.state_dir must be an absolute path, not \"" ++ r.cfg.stateDir ++
            utf8 "\"")
        else
          .ok { r.cfg with
            logLevel
            companion := { r.cfg.companion with transport }
            stateDir := stripSlashes r.cfg.stateDir }
      if r.companionInterface = utf8 "unix" then settled .unix
      else if r.companionInterface = utf8 "tcp" then settled .tcp
      else .error (utf8 "companion.companion_interface must be \"unix\" or \"tcp\"")

namespace FullConfig

/-- What the entries of a file come to. -/
def ofIni (ini : Ini) : Except Bytes FullConfig :=
  match operatorRows.foldlM (fun reading row => row.apply ini reading) ({} : Reading) with
  | .error why => .error (utf8 why)
  | .ok reading => reading.settle

/-- `Config::load`. -/
def load (fs : FileSystem) (path : Bytes) : Except Bytes FullConfig :=
  match Ini.load fs path with
  | .error why => .error why
  | .ok ini => ofIni ini

end FullConfig

/-! ## What a row lets through -/

/-- The second reading is the first with something put into the row's field, in the range
the row states. -/
def Row.Puts (row : Row) (r r' : Reading) : Prop :=
  match row.target with
  | .str _ put => ∃ v, r' = put r v
  | .bool _ put => ∃ v, r' = put r v
  | .int target _ put => ∃ v, (target.min ≤ v ∧ v ≤ target.max) ∧ r' = put r v
  | .real valid _ _ put => ∃ v, valid v = true ∧ r' = put r v
  | .app _ => ∃ cfg, r' = { r with cfg := { r.cfg with toConfig := cfg } }

theorem Row.puts_of_apply {ini : Ini} {row : Row} {r r' : Reading}
    (hok : row.apply ini r = .ok r') : row.Puts r r' := by
  obtain ⟨key, target⟩ := row
  cases target with
  | str get put => exact ⟨_, (Except.ok.inj hok).symm⟩
  | bool get put =>
      simp only [Row.apply] at hok
      split at hok
      · cases hok
      · exact ⟨_, (Except.ok.inj hok).symm⟩
  | int target get put =>
      obtain ⟨v, hv, hput⟩ := Setting.exists_of_map_ok hok
      exact ⟨v, IntTarget.apply_ok hv, hput.symm⟩
  | real valid requirement get put =>
      obtain ⟨v, hv, hput⟩ := Setting.exists_of_map_ok hok
      exact ⟨v, (Setting.checkReal_ok hv).2, hput.symm⟩
  | app s =>
      obtain ⟨cfg, -, hput⟩ := Setting.exists_of_map_ok hok
      exact ⟨cfg, hput.symm⟩

/-- A row looks at its own key only. -/
theorem Row.apply_congr {ini ini' : Ini} {row : Row} (hnot : ∀ s, row.target ≠ .app s)
    (hfind : ini.find row.text = ini'.find row.text) (r : Reading) :
    row.apply ini r = row.apply ini' r := by
  obtain ⟨key, target⟩ := row
  cases target with
  | app s => exact absurd rfl (hnot s)
  | str get put => simp only [Row.apply, Ini.getStr, hfind]
  | bool get put => simp only [Row.apply, Ini.getBool, hfind]
  | int target get put => simp only [Row.apply, getInt64, hfind]
  | real valid requirement get put => simp only [Row.apply, Ini.getDouble, hfind]

/-- The operator's rows are the hardware's, two of the node's, and the service's. -/
theorem mem_operatorRows {row : Row} (hrow : row ∈ operatorRows) :
    row ∈ hardwareRows ∨ row = .advertInterval ∨ row = .maxHops ∨ row ∈ serviceRows := by
  obtain ⟨hmem, hown⟩ := List.mem_filter.mp hrow
  have happ : ∀ s ∈ settings, row ≠ .app s := by
    rintro s hs rfl
    have hkey : Config.appKey (Row.app s).text = true := (appKey_iff _).mpr ⟨s, hs, rfl⟩
    simp [hkey] at hown
  simp only [settings, List.forall_mem_cons] at happ
  obtain ⟨hfreq, hbw, hsf, hcr, hpower, hduty, hname, hlat, hlon, hrelay, -⟩ := happ
  simp only [table, List.mem_append, List.mem_cons, List.not_mem_nil, or_false] at hmem
  tauto

/-- None of them is a row of an app's key. -/
theorem target_ne_app {row : Row} (hrow : row ∈ operatorRows) (s : Setting) :
    row.target ≠ .app s := by
  rcases mem_operatorRows hrow with hhardware | rfl | rfl | hservice
  · simp only [hardwareRows, List.mem_cons, List.not_mem_nil, or_false] at hhardware
    rcases hhardware with rfl | rfl | rfl | rfl | rfl | rfl | rfl | rfl | rfl | rfl | rfl |
      rfl | rfl | rfl <;> simp [Row.str, Row.bool, Row.int]
  · simp [Row.advertInterval]
  · simp [Row.maxHops, Row.int]
  · simp only [serviceRows, List.mem_cons, List.not_mem_nil, or_false] at hservice
    rcases hservice with rfl | rfl | rfl | rfl | rfl | rfl <;> simp [Row.str, Row.int]

/-! ## What is in range -/

/-- Without what the operator sets. -/
def Config.appPart (cfg : Config) : Config :=
  { cfg with
    stateDir := []
    radio :=
      { cfg.radio with
        tcxoVoltage := 0, dio2AsRfSwitch := false, rxBoostedGain := false, currentLimitMa := 0 }
    node := { cfg.node with maxHops := 0 } }

structure SpiConfig.InRange (spi : SpiConfig) : Prop where
  irqPin : 0 ≤ spi.irqPin ∧ spi.irqPin ≤ kMaxInt
  busyPin : 0 ≤ spi.busyPin ∧ spi.busyPin ≤ kMaxInt
  resetPin : 0 ≤ spi.resetPin ∧ spi.resetPin ≤ kMaxInt
  nssPin : -1 ≤ spi.nssPin ∧ spi.nssPin ≤ kMaxInt
  rxenPin : -1 ≤ spi.rxenPin ∧ spi.rxenPin ≤ kMaxInt
  txenPin : -1 ≤ spi.txenPin ∧ spi.txenPin ≤ kMaxInt
  spiSpeedHz : 1 ≤ spi.spiSpeedHz.toNat ∧ spi.spiSpeedHz.toNat ≤ 16000000
  retryIntervalS : spi.retryIntervalS.toNat ≤ 86400

/-- What the rows let through, and for the app's keys the defaults. -/
structure FullConfig.InRange (cfg : FullConfig) : Prop where
  app : cfg.toConfig.appPart = ({} : Config).appPart
  spi : cfg.spi.InRange
  tcxo : validTcxo cfg.radio.tcxoVoltage = true
  currentLimit : 1 ≤ cfg.radio.currentLimitMa ∧ cfg.radio.currentLimitMa ≤ 157
  /-- In milliseconds it fits in 32 bits. -/
  advertInterval : cfg.advertIntervalS.toNat ≤ 4294967
  maxHops : cfg.node.maxHops.toNat ≤ kMaxPathSize
  port : 1 ≤ cfg.companion.port.toNat

theorem FullConfig.inRange_default : FullConfig.InRange {} where
  app := rfl
  spi := by constructor <;> decide
  tcxo := by decide +kernel
  currentLimit := by decide
  advertInterval := by decide
  maxHops := by decide
  port := by decide

/-- An integer that was checked against a bound keeps its value in 32 bits. -/
theorem toNat_narrow {v : Int} {max : Nat} (hmax : max < 2 ^ 32) (hv : v ≤ max) :
    (UInt32.ofNat v.toNat).toNat = v.toNat := by
  rw [UInt32.toNat_ofNat', Nat.mod_eq_of_lt (by omega)]

variable {r r' : Reading}

theorem inRange_hardware (hr : r.cfg.InRange) {row : Row} (hrow : row ∈ hardwareRows)
    (hputs : row.Puts r r') : r'.cfg.InRange := by
  simp only [hardwareRows, List.mem_cons, List.not_mem_nil, or_false] at hrow
  rcases hrow with rfl | rfl | rfl | rfl | rfl | rfl | rfl | rfl | rfl | rfl | rfl | rfl | rfl |
    rfl
  · obtain ⟨v, rfl⟩ := hputs
    exact { hr with spi := { hr.spi with } }
  · obtain ⟨v, rfl⟩ := hputs
    exact { hr with spi := { hr.spi with } }
  · obtain ⟨v, hv, rfl⟩ := hputs
    exact { hr with spi := { hr.spi with irqPin := hv } }
  · obtain ⟨v, hv, rfl⟩ := hputs
    exact { hr with spi := { hr.spi with busyPin := hv } }
  · obtain ⟨v, hv, rfl⟩ := hputs
    exact { hr with spi := { hr.spi with resetPin := hv } }
  · obtain ⟨v, hv, rfl⟩ := hputs
    exact { hr with spi := { hr.spi with nssPin := hv } }
  · obtain ⟨v, hv, rfl⟩ := hputs
    exact { hr with spi := { hr.spi with rxenPin := hv } }
  · obtain ⟨v, hv, rfl⟩ := hputs
    exact { hr with spi := { hr.spi with txenPin := hv } }
  · obtain ⟨v, hv, rfl⟩ := hputs
    have hhigh : v ≤ (86400 : Nat) := hv.2
    have hnarrow : (UInt32.ofNat v.toNat).toNat ≤ 86400 :=
      (toNat_narrow (by norm_num) hhigh).trans_le (by omega)
    exact { hr with spi := { hr.spi with retryIntervalS := hnarrow } }
  · obtain ⟨v, rfl⟩ := hputs
    exact { hr with }
  · obtain ⟨v, hv, rfl⟩ := hputs
    exact { hr with tcxo := hv }
  · obtain ⟨v, rfl⟩ := hputs
    exact { hr with }
  · obtain ⟨v, hv, rfl⟩ := hputs
    exact { hr with currentLimit := hv }
  · obtain ⟨v, hv, rfl⟩ := hputs
    have hlow : 1 ≤ v := hv.1
    have hhigh : v ≤ (16000000 : Nat) := hv.2
    have hnarrow : 1 ≤ (UInt32.ofNat v.toNat).toNat ∧
        (UInt32.ofNat v.toNat).toNat ≤ 16000000 := by
      rw [toNat_narrow (by norm_num) hhigh]
      omega
    exact { hr with spi := { hr.spi with spiSpeedHz := hnarrow } }

theorem inRange_service (hr : r.cfg.InRange) {row : Row} (hrow : row ∈ serviceRows)
    (hputs : row.Puts r r') : r'.cfg.InRange := by
  simp only [serviceRows, List.mem_cons, List.not_mem_nil, or_false] at hrow
  rcases hrow with rfl | rfl | rfl | rfl | rfl | rfl
  · obtain ⟨v, rfl⟩ := hputs
    exact { hr with }
  · obtain ⟨v, rfl⟩ := hputs
    exact { hr with }
  · obtain ⟨v, rfl⟩ := hputs
    exact { hr with }
  · obtain ⟨v, hv, rfl⟩ := hputs
    have hlow : 1 ≤ v := hv.1
    have hhigh : v ≤ 65535 := hv.2
    have hport : 1 ≤ (UInt16.ofNat v.toNat).toNat := by
      rw [UInt16.toNat_ofNat', Nat.mod_eq_of_lt (by omega)]
      omega
    exact { hr with port := hport }
  · obtain ⟨v, rfl⟩ := hputs
    exact { hr with }
  · obtain ⟨v, rfl⟩ := hputs
    exact { hr with }

/-- Each of the operator's rows keeps everything in range. -/
theorem inRange_apply {ini : Ini} {row : Row} (hrow : row ∈ operatorRows) (hr : r.cfg.InRange)
    (hok : row.apply ini r = .ok r') : r'.cfg.InRange := by
  have hputs := Row.puts_of_apply hok
  rcases mem_operatorRows hrow with hhardware | rfl | rfl | hservice
  · exact inRange_hardware hr hhardware hputs
  · obtain ⟨v, hv, rfl⟩ := hputs
    have hhigh : v ≤ (4294967 : Nat) := hv.2
    have hnarrow : (UInt32.ofNat v.toNat).toNat ≤ 4294967 :=
      (toNat_narrow (by norm_num) hhigh).trans_le (by omega)
    exact { hr with advertInterval := hnarrow }
  · obtain ⟨v, hv, rfl⟩ := hputs
    have hhigh : v ≤ 64 := hv.2
    have hhops : (UInt8.ofNat v.toNat).toNat ≤ kMaxPathSize := by
      rw [UInt8.toNat_ofNat', Nat.mod_eq_of_lt (by omega)]
      exact Int.toNat_le.mpr hhigh
    exact { hr with maxHops := hhops }
  · exact inRange_service hr hservice hputs

/-! ## The state directory -/

/-- Absolute, and with no slash at the end but for the root. -/
structure StateDirAccepted (dir : Bytes) : Prop where
  absolute : dir.head? = some slash
  trimmed : dir.length ≤ 1 ∨ dir.getLast? ≠ some slash

theorem stripSlashes_accepted {dir : Bytes} (hdir : dir.head? = some slash) :
    StateDirAccepted (stripSlashes dir) := by
  obtain ⟨rest, rfl⟩ : ∃ rest, dir = slash :: rest := by
    cases dir with
    | nil => cases hdir
    | cons c rest =>
        obtain rfl := Option.some.inj hdir
        exact ⟨rest, rfl⟩
  have hstripped : stripSlashes (slash :: rest) = slash :: rest.rdropWhile (· = slash) := rfl
  rw [hstripped]
  refine ⟨rfl, ?_⟩
  by_cases hnil : rest.rdropWhile (· = slash) = []
  · rw [hnil]
    exact .inl le_rfl
  · right
    intro hlast
    rw [List.getLast?_cons, List.getLast?_eq_some_getLast hnil] at hlast
    have hnot := List.rdropWhile_last_not (· = slash) rest hnil
    exact hnot (by simpa using hlast)

/-- What `load` hands over. -/
structure FullConfig.Accepted (cfg : FullConfig) : Prop extends cfg.InRange where
  stateDir : StateDirAccepted cfg.stateDir

theorem settle_accepted {cfg : FullConfig} (hr : r.cfg.InRange) (hok : r.settle = .ok cfg) :
    cfg.Accepted := by
  have hsettled : ∀ {logLevel : LogLevel} {transport : Transport},
      r.cfg.stateDir.head? = some slash →
      FullConfig.Accepted { r.cfg with
        logLevel
        companion := { r.cfg.companion with transport }
        stateDir := stripSlashes r.cfg.stateDir } :=
    fun hdir => { hr with stateDir := stripSlashes_accepted hdir }
  rw [Reading.settle] at hok
  split at hok
  · cases hok
  · dsimp only at hok
    split_ifs at hok with hunix hnone hdir htcp hnone hdir
    · obtain rfl := Except.ok.inj hok
      exact hsettled (not_not.mp hdir)
    · obtain rfl := Except.ok.inj hok
      exact hsettled (not_not.mp hdir)

theorem ofIni_accepted {ini : Ini} {cfg : FullConfig} (hok : FullConfig.ofIni ini = .ok cfg) :
    cfg.Accepted := by
  rw [FullConfig.ofIni] at hok
  split at hok
  · cases hok
  next reading hfold =>
    refine settle_accepted ?_ hok
    exact foldlM_invariant (fun reading : Reading => reading.cfg.InRange)
      (fun row hrow r r' hr hok => inRange_apply hrow hr hok) FullConfig.inRange_default hfold

/-- The lines of a file for the app's keys are not read. -/
theorem ofIni_congr {ini ini' : Ini}
    (hfind : ∀ key, Config.appKey key = false → ini.find key = ini'.find key) :
    FullConfig.ofIni ini = FullConfig.ofIni ini' := by
  have hrow : ∀ row ∈ operatorRows, ∀ r, row.apply ini r = row.apply ini' r := by
    intro row hmem r
    have hown : Config.appKey row.text = false := by
      simpa using (List.mem_filter.mp hmem).2
    exact Row.apply_congr (target_ne_app hmem) (hfind _ hown) r
  have hfold : operatorRows.foldlM (fun reading row => row.apply ini reading) ({} : Reading) =
      operatorRows.foldlM (fun reading row => row.apply ini' reading) ({} : Reading) :=
    foldlM_congr hrow {}
  rw [FullConfig.ofIni, FullConfig.ofIni, hfold]

/-! ## The daemon over a config file -/

/-- The pins of the driver. -/
def SpiConfig.pins (spi : SpiConfig) : Pins :=
  { irq := spi.irqPin, busy := spi.busyPin, reset := spi.resetPin, rxen := spi.rxenPin,
    txen := spi.txenPin }

/-- A start with this config, whose `make_radio` takes the wiring from it. -/
def Boot.configured (boot : Boot) (cfg : FullConfig) : Boot :=
  { boot with
    cfg := cfg.toConfig
    pins := cfg.spi.pins
    retryIntervalMs := cfg.spi.retryIntervalS * 1000 }

/-- What is in force of a config file while the daemon runs. -/
structure Governs (cfg : FullConfig) (app : App) : Prop where
  stateDir : app.Placed cfg.toConfig
  tcxoVoltage : app.radio.params.tcxoVoltage = cfg.radio.tcxoVoltage
  dio2AsRfSwitch : app.radio.params.dio2AsRfSwitch = cfg.radio.dio2AsRfSwitch
  rxBoostedGain : app.radio.params.rxBoostedGain = cfg.radio.rxBoostedGain
  currentLimitMa : app.radio.params.currentLimitMa = cfg.radio.currentLimitMa
  maxHops : app.node.cfg.maxHops = cfg.node.maxHops
  /-- The app's part is in range, whatever the app asks for. -/
  radio : RadioAccepted app.radio.params

theorem FullConfig.InRange.loaded {cfg : FullConfig} (hcfg : cfg.InRange) :
    cfg.toConfig = Config.loaded cfg.stateDir cfg.radio cfg.node := by
  have hprofile : cfg.profile = {} := congrArg Config.profile hcfg.app
  rw [Config.loaded, ← hprofile]

theorem FullConfig.InRange.radioAccepted {cfg : FullConfig} (hcfg : cfg.InRange) :
    RadioAccepted cfg.radio := by
  have hradio := congrArg Config.radio hcfg.app
  have hfreq : cfg.radio.freqMhz = ({} : RadioParams).freqMhz :=
    (congrArg RadioParams.freqMhz hradio :)
  have hbw : cfg.radio.bwKhz = ({} : RadioParams).bwKhz := (congrArg RadioParams.bwKhz hradio :)
  have hsf : cfg.radio.sf = ({} : RadioParams).sf := (congrArg RadioParams.sf hradio :)
  have hcr : cfg.radio.cr = ({} : RadioParams).cr := (congrArg RadioParams.cr hradio :)
  have hpower : cfg.radio.txPowerDbm = ({} : RadioParams).txPowerDbm :=
    (congrArg RadioParams.txPowerDbm hradio :)
  have hduty : cfg.radio.dutyCyclePct = ({} : RadioParams).dutyCyclePct :=
    (congrArg RadioParams.dutyCyclePct hradio :)
  constructor
  · rw [hfreq]
    decide +kernel
  · rw [hbw]
    decide +kernel
  · rw [hsf]
    decide
  · rw [hcr]
    decide
  · rw [hpower]
    decide
  · rw [hduty]
    decide +kernel

/-- In milliseconds no interval of a config file wraps round. -/
theorem FullConfig.InRange.retryIntervalMs {cfg : FullConfig} (hcfg : cfg.InRange) :
    (cfg.spi.retryIntervalS * 1000).toNat = cfg.spi.retryIntervalS.toNat * 1000 := by
  have hretry := hcfg.spi.retryIntervalS
  rw [UInt32.toNat_mul]
  exact Nat.mod_eq_of_lt (by simp; omega)

theorem governs_run (lib : Crypto.Library) (sign : Bytes → Bytes) {cfg : FullConfig}
    (hcfg : cfg.InRange) {boot : Boot} {app : App}
    (hstart : App.start (boot.configured cfg) = some app) {events : List App.Event}
    (hown : ∀ event ∈ events, event.Own) :
    Governs cfg (run (App.step lib sign) app events) := by
  have hloaded : (boot.configured cfg).cfg = Config.loaded cfg.stateDir cfg.radio cfg.node :=
    hcfg.loaded
  obtain ⟨hforce, hplaced⟩ := App.inForce_run lib sign (App.inForce_start hloaded hstart)
    (App.backed_start hstart).1 hown
  generalize run (App.step lib sign) app events = after at hforce hplaced
  have hnamed : ((boot.configured cfg).cfg.named boot.self).radio = cfg.radio ∧
      ((boot.configured cfg).cfg.named boot.self).node = cfg.node := by
    rw [hloaded]
    exact ⟨rfl, rfl⟩
  obtain ⟨hradio, hnode⟩ := hnamed
  have hoperator := hforce.kept.operator
  have hkept : after.settings.cfg.operatorPart.radio =
      ((boot.configured cfg).cfg.named boot.self).operatorPart.radio :=
    congrArg Config.radio hoperator
  rw [Config.operatorPart, Config.operatorPart, hradio, ← hforce.params] at hkept
  have hhops : after.settings.cfg.node.maxHops =
      ((boot.configured cfg).cfg.named boot.self).node.maxHops :=
    (congrArg (fun cfg : Config => cfg.node.maxHops) hoperator :)
  rw [hnode, ← hforce.node] at hhops
  have haccepted : RadioAccepted after.radio.params := by
    rw [hforce.params]
    have hdefaults : RadioAccepted ((boot.configured cfg).cfg.named boot.self).radio := by
      rw [hradio]
      exact hcfg.radioAccepted
    exact hforce.kept.accepted hdefaults
  exact {
    stateDir := hplaced
    tcxoVoltage := (congrArg RadioParams.tcxoVoltage hkept :)
    dio2AsRfSwitch := (congrArg RadioParams.dio2AsRfSwitch hkept :)
    rxBoostedGain := (congrArg RadioParams.rxBoostedGain hkept :)
    currentLimitMa := (congrArg RadioParams.currentLimitMa hkept :)
    maxHops := hhops
    radio := haccepted }

/-- **The config file governs what is the operator's, and nothing else.** If a file is
accepted, every value it sets is in range and its state directory is absolute. Its lines
for an app's keys have no effect: any file that says the same of the other keys is
accepted with the same result. And a daemon that starts with it has, at every moment of
every run, the operator's part as the file says it, whatever is in the settings file and
whatever the app sets, and the app's part in range. -/
theorem config_file_governs (lib : Crypto.Library) (sign : Bytes → Bytes) {fs : FileSystem}
    {path : Bytes} {cfg : FullConfig} (hload : FullConfig.load fs path = .ok cfg) :
    cfg.Accepted ∧
    (∀ fs' ini ini', Ini.load fs path = .ok ini → Ini.load fs' path = .ok ini' →
      (∀ key, Config.appKey key = false → ini'.find key = ini.find key) →
      FullConfig.load fs' path = .ok cfg) ∧
    ∀ (boot : Boot) (app : App), App.start (boot.configured cfg) = some app →
      ∀ events : List App.Event, (∀ event ∈ events, event.Own) →
        Governs cfg (run (App.step lib sign) app events) := by
  have haccepted : cfg.Accepted := by
    rw [FullConfig.load] at hload
    split at hload
    · cases hload
    · exact ofIni_accepted hload
  refine ⟨haccepted, fun fs' ini ini' hini hini' hfind => ?_, fun boot app hstart events hown =>
    governs_run lib sign haccepted.toInRange hstart hown⟩
  rw [FullConfig.load, hini] at hload
  rw [FullConfig.load, hini']
  exact (ofIni_congr hfind).trans hload

/-- A file with a line that is not the operator's to write. -/
def sampleConfigFile : FileSystem := fun _ =>
  some (utf8 ("[storage]\nstate_dir = /var/lib/coreletd/\n[hardware]\ncurrent_limit = 120\n" ++
    "[radio]\nlora_sf = 99\n"))

theorem config_file_governs_sample :
    ∃ cfg app, FullConfig.load sampleConfigFile (utf8 "coreletd.ini") = .ok cfg ∧
      cfg.stateDir = utf8 "/var/lib/coreletd" ∧
      App.start (App.sampleBoot.configured cfg) = some app ∧
      let after := run (App.step .transparent SettingsStore.sampleSign) app App.sampleSettings
      after.radio.params.currentLimitMa = 120 ∧ after.radio.params.sf = 9 ∧
        Governs cfg after := by
  have hrun : (FullConfig.load sampleConfigFile (utf8 "coreletd.ini")).toOption.any (fun cfg =>
      (App.start (App.sampleBoot.configured cfg)).any fun app =>
        let after := run (App.step .transparent SettingsStore.sampleSign) app App.sampleSettings
        decide (cfg.stateDir = utf8 "/var/lib/coreletd" ∧
          after.radio.params.currentLimitMa = 120 ∧ after.radio.params.sf = 9)) = true := by
    decide +kernel
  obtain ⟨cfg, hcfg, hreached⟩ := (Option.any_eq_true _ _).mp hrun
  obtain ⟨app, hstart, hreached⟩ := (Option.any_eq_true _ _).mp hreached
  obtain ⟨hdir, hlimit, hsf⟩ := of_decide_eq_true hreached
  have hload : FullConfig.load sampleConfigFile (utf8 "coreletd.ini") = .ok cfg := by
    generalize FullConfig.load sampleConfigFile (utf8 "coreletd.ini") = result at hcfg
    cases result with
    | error why => cases hcfg
    | ok loaded =>
        obtain rfl := Option.some.inj hcfg
        rfl
  refine ⟨cfg, app, hload, hdir, hstart, hlimit, hsf,
    (config_file_governs .transparent SettingsStore.sampleSign hload).2.2 _ app hstart _ ?_⟩
  intro event hmem
  simp only [App.sampleSettings, List.mem_cons, List.not_mem_nil, or_false] at hmem
  rcases hmem with rfl | rfl | rfl | rfl | rfl <;> trivial

end Coreletd.Daemon
