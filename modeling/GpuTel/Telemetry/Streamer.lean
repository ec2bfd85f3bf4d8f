import GpuTel.Lib.Transition
import GpuTel.Mq.Message
import GpuTel.Telemetry.Models

/-!
# The streamer

`loadMetrics` and `collectAndProcess`. The content of the CSV file as `encoding/csv` presents it,
the clock, and the answers of the publish stream are given from outside, anew at every tick. A
failing index, slice or `make` is a panic. An error that the code logs and survives is not.
-/

set_option autoImplicit false

namespace GpuTel.Telemetry

open Mq Transition

inductive Panic where
  | indexOutOfRange
  | makesliceLenOutOfRange
  | sliceBoundsOutOfRange
  deriving DecidableEq, Repr

/-- What `os.Open`, `reader.Read` and `reader.ReadAll` return. -/
structure MetricsFile where
  openErr : Option String
  header : Except String (List String)
  records : Except String (List (List String))

structure Clock where
  utc : Time
  unixNano : Int
  timestamp : Timestamp

structure Tick where
  file : MetricsFile
  publish : Option String
  clock : Nat → Clock
  send : Nat → Option String
  closeSend : Option String

/-- The library functions whose results the streamer uses without looking at their error: the value
they return with it, or `none` for a payload that cannot be marshalled. -/
structure Library where
  parseTime : String → Time
  parseFloat : String → BitVec 64
  marshal : GPUTelemetry → Option (List UInt8)

structure StreamerConfig where
  batchSize : Int
  deriving DecidableEq, Repr

/-- A nil `metrics` is an empty list: the code only ever appends to it. -/
structure Streamer where
  config : StreamerConfig
  metrics : List GPUMetric
  currentIdx : Int
  deriving DecidableEq, Repr

namespace Streamer

inductive Call where
  | publish (err : Option String)
  | send (req : PublishRequest) (err : Option String)
  | closeSend (err : Option String)
  deriving DecidableEq, Repr

def add64 (x y : Int) : Int := (x + y).bmod (2 ^ 64)

def sub64 (x y : Int) : Int := (x - y).bmod (2 ^ 64)

/-- `colMap`, from the names of the columns to their indices. -/
def colMap (header : List String) : GoMap Nat :=
  header.zipIdx.foldl (fun m x => m.insert x.1 x.2) ∅

/-- `record[colMap[name]]`; the index of a missing name is the zero value. -/
def cell (header record : List String) (name : String) : Except Panic String :=
  match record[((colMap header).lookup name).getD 0]? with
  | some text => .ok text
  | none => .error .indexOutOfRange

section Library

variable (lib : Library)

def parseRecord (header record : List String) : Except Panic GPUMetric := do
  let timestamp ← cell header record "timestamp"
  let metricName ← cell header record "metric_name"
  let gpuIndex ← cell header record "gpu_id"
  let device ← cell header record "device"
  let uuid ← cell header record "uuid"
  let modelName ← cell header record "modelName"
  let hostname ← cell header record "Hostname"
  let container ← cell header record "container"
  let pod ← cell header record "pod"
  let namespace_ ← cell header record "namespace"
  let value ← cell header record "value"
  let labels ← cell header record "labels_raw"
  .ok ⟨lib.parseTime timestamp, metricName, gpuIndex, device, uuid, modelName, hostname, container,
    pod, namespace_, value, labels⟩

def parseRecords (header : List String) :
    List (List String) → List GPUMetric → Except Panic (List GPUMetric)
  | [], metrics => .ok metrics
  | record :: rest, metrics =>
    if record.length < header.length then parseRecords header rest metrics
    else do
      let metric ← parseRecord lib header record
      parseRecords header rest (metrics ++ [metric])

/-- The inner result is the error that `loadMetrics` returns, or the streamer with the metrics
loaded. -/
def loadMetrics (s : Streamer) (file : MetricsFile) : Except Panic (Except String Streamer) :=
  match file.openErr, file.header, file.records with
  | some err, _, _ => .ok (.error ("failed to open metrics file: " ++ err))
  | none, .error err, _ => .ok (.error ("failed to read CSV header: " ++ err))
  | none, .ok _, .error err => .ok (.error ("failed to read CSV records: " ++ err))
  | none, .ok header, .ok records => do
    let metrics ← parseRecords lib header records s.metrics
    .ok (.ok { s with metrics := metrics })

def ensureLoaded (s : Streamer) (file : MetricsFile) : Except Panic (Except String Streamer) :=
  if s.metrics = [] then loadMetrics lib s file else .ok (.ok s)

def startIdx (s : Streamer) : Int := if s.currentIdx ≥ s.metrics.length then 0 else s.currentIdx

/-- `metrics[lo:hi]`, for a `hi` that is not beyond the length. -/
def slice (metrics : List GPUMetric) (lo hi : Int) : Except Panic (List GPUMetric) :=
  if 0 ≤ lo ∧ lo ≤ hi then .ok ((metrics.take hi.toNat).drop lo.toNat)
  else .error .sliceBoundsOutOfRange

/-- The copy is assumed to fit into memory, so `make` only fails on a negative length. After a sum
out of range it would fail on a length that is too large, where here the slice expression fails. -/
def nextBatch (s : Streamer) : Except Panic (List GPUMetric × Streamer) :=
  let endIdx := add64 s.startIdx s.config.batchSize
  let endIdx := if endIdx > s.metrics.length then (s.metrics.length : Int) else endIdx
  if sub64 endIdx s.startIdx < 0 then .error .makesliceLenOutOfRange
  else do
    let batch ← slice s.metrics s.startIdx endIdx
    .ok (batch, { s with currentIdx := endIdx })

def telemetryOf (metric : GPUMetric) (clock : Clock) : GPUTelemetry where
  timestamp := clock.utc
  metricName := metric.metricName
  gpuIndex := metric.gpuIndex
  device := metric.device
  uuid := metric.uuid
  modelName := metric.modelName
  hostname := metric.hostname
  container := metric.container
  pod := metric.pod
  namespace_ := metric.namespace_
  value := lib.parseFloat metric.value
  labelsRaw := metric.labels

def sendMetric (tick : Tick) : GPUMetric × Nat → List Call
  | (metric, i) =>
    match lib.marshal (telemetryOf lib metric (tick.clock i)) with
    | none => []
    | some payload =>
      let id := "msg-" ++ metric.uuid ++ "-" ++ toString (tick.clock i).unixNano
      let msg : Message := ⟨id, "gpu_metrics", payload, some (tick.clock i).timestamp⟩
      [.send ⟨some msg, true, 5⟩ (tick.send i)]

/-- What a tick leaves behind: the streamer, the batch it cut out, and its calls of the queue. -/
structure Processed where
  streamer : Streamer
  batch : Option (List GPUMetric)
  calls : List Call
  deriving DecidableEq

def collectAndProcess (s : Streamer) (tick : Tick) : Except Panic Processed := do
  match ← ensureLoaded lib s tick.file with
  | .error _ => .ok ⟨s, none, []⟩
  | .ok s => do
    let (batch, s) ← nextBatch s
    match tick.publish with
    | some err => .ok ⟨s, some batch, [.publish (some err)]⟩
    | none =>
      .ok ⟨s, some batch, .publish none :: batch.zipIdx.flatMap (sendMetric lib tick) ++
        [.closeSend tick.closeSend]⟩

end Library

end Streamer

def streamer (lib : Library) : Machine Streamer Tick Panic where
  guard _ _ := True
  exec s tick := (Streamer.collectAndProcess lib s tick).map Streamer.Processed.streamer

instance (lib : Library) (s : Streamer) (tick : Tick) : Decidable ((streamer lib).guard s tick) :=
  .isTrue trivial

end GpuTel.Telemetry
