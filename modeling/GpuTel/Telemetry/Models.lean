import GpuTel.Lib.SetMap

/-!
# Telemetry records

The types of `models.go`, and the row type `GPUMetric` of the streamer.
-/

set_option autoImplicit false

namespace GpuTel.Telemetry

/-- An instant, in nanoseconds, and the offset it is shown with. -/
structure Time where
  instant : Int
  offset : Int
  deriving DecidableEq, Repr

namespace Time

def before (t u : Time) : Bool := decide (t.instant < u.instant)

def after (t u : Time) : Bool := decide (u.instant < t.instant)

def zero : Time := ⟨-62135596800 * 10 ^ 9, 0⟩

/-- `d` is a duration in nanoseconds. -/
def add (t : Time) (d : Int) : Time := { t with instant := t.instant + d }

def utc (t : Time) : Time := { t with offset := 0 }

end Time

structure GPU where
  uuid : String
  gpuIndex : String
  device : String
  hostname : String
  deriving DecidableEq, Repr

/-- `value` is the bit pattern of a `float64`. -/
structure GPUTelemetry where
  timestamp : Time
  metricName : String
  gpuIndex : String
  device : String
  uuid : String
  modelName : String
  hostname : String
  container : String
  pod : String
  namespace_ : String
  value : BitVec 64
  labelsRaw : String
  deriving DecidableEq, Repr

structure TelemetryBatch where
  batchID : String
  telemetry : List GPUTelemetry
  timestamp : Time
  deriving DecidableEq, Repr

structure GPUMetric where
  timestamp : Time
  metricName : String
  gpuIndex : String
  device : String
  uuid : String
  modelName : String
  hostname : String
  container : String
  pod : String
  namespace_ : String
  value : String
  labels : String
  deriving DecidableEq, Repr

end GpuTel.Telemetry
