import GpuTel.Telemetry.Streamer

/-!
# From the configuration to the streamer

What viper makes of the file, the environment and the defaults is given from outside. `Load` checks
no value of it, and neither does `main`, which hands the batch size on as it is.
-/

set_option autoImplicit false

namespace GpuTel

structure TelemetryConfig where
  batchSize : Int64
  deriving DecidableEq, Repr

structure MessageQueueConfig where
  address : String
  deriving DecidableEq, Repr

structure Config where
  telemetry : TelemetryConfig
  messageQueue : MessageQueueConfig
  deriving DecidableEq, Repr

/-- What `ReadInConfig` returns, and `Unmarshal` for the defaults that were set. -/
structure Viper where
  readInConfig : Option String
  unmarshal : Config → Except String Config

namespace Config

def setDefaults : Config where
  telemetry := ⟨100⟩
  messageQueue := ⟨"localhost:50051"⟩

def unmarshal (v : Viper) : Except String Config :=
  match v.unmarshal setDefaults with
  | .ok cfg => .ok cfg
  | .error err => .error ("failed to unmarshal config: " ++ err)

/-- Without a path, a configuration file that cannot be read is ignored. -/
def load (v : Viper) (configPath : String) : Except String Config :=
  match v.readInConfig with
  | none => unmarshal v
  | some err =>
    if configPath ≠ "" then .error ("failed to read config file: " ++ err) else unmarshal v

end Config

namespace Telemetry

/-- `dial` is the error of `grpc.Dial` for an address, if any. -/
def newStreamer (dial : String → Option String) (cfg : Option StreamerConfig) (mqAddr : String) :
    Except String Streamer :=
  let cfg := cfg.getD ⟨10⟩
  match dial mqAddr with
  | some err => .error ("failed to connect to message queue: " ++ err)
  | none => .ok ⟨cfg, [], 0⟩

/-- A message that is logged before the process exits. -/
structure Fatal where
  msg : String
  err : String
  deriving DecidableEq, Repr

/-- The streamer that `main` starts. -/
def main (v : Viper) (dial : String → Option String) : Except Fatal Streamer :=
  match Config.load v "" with
  | .error err => .error ⟨"Failed to load configuration", err⟩
  | .ok cfg =>
    let streamerCfg : StreamerConfig := ⟨cfg.telemetry.batchSize.toInt⟩
    match newStreamer dial (some streamerCfg) cfg.messageQueue.address with
    | .error err => .error ⟨"Failed to create telemetry streamer", err⟩
    | .ok streamer => .ok streamer

/-- Every `int` reaches the streamer unchanged. -/
theorem main_eq {v : Viper} {dial : String → Option String} {cfg : Config} {s : Streamer}
    (hcfg : Config.load v "" = .ok cfg) (hmain : main v dial = .ok s) :
    s = ⟨⟨cfg.telemetry.batchSize.toInt⟩, [], 0⟩ := by
  simp only [main, hcfg, newStreamer, Option.getD_some] at hmain
  cases hdial : dial cfg.messageQueue.address with
  | some err => simp [hdial] at hmain
  | none =>
    rw [hdial] at hmain
    exact (Except.ok.inj hmain).symm

end Telemetry

end GpuTel
