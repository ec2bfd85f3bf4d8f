import GpuTel.Lib.History
import GpuTel.Lib.KeyedLog
import GpuTel.Lib.Transition
import GpuTel.Telemetry.Models

/-!
# The telemetry storage

`MemoryStorage` keeps two maps, of the last known attributes of each GPU and of its records. Over
any run they are the two indexes of one log: the records stored since the last `Close`.
-/

set_option autoImplicit false

namespace GpuTel.Telemetry

open Transition KeyedLog

structure MemoryStorage where
  gpus : GoMap GPU
  telemetry : GoMap (List GPUTelemetry)
  deriving DecidableEq

inductive StorageEvent where
  | store (batch : TelemetryBatch)
  | getGPUTelemetry (gpuID : String) (startTime endTime : Time)
  | listGPUs (order : List String)
  | close
  deriving DecidableEq

namespace MemoryStorage

def newMemoryStorage : MemoryStorage := ⟨∅, ∅⟩

def gpuOf (t : GPUTelemetry) : GPU where
  uuid := t.uuid
  gpuIndex := t.gpuIndex
  device := t.device
  hostname := t.hostname

def storeRecord (m : MemoryStorage) (t : GPUTelemetry) : MemoryStorage where
  gpus := m.gpus.insert t.uuid (gpuOf t)
  telemetry := m.telemetry.insert t.uuid ((m.telemetry.lookup t.uuid).getD [] ++ [t])

def store (m : MemoryStorage) (batch : TelemetryBatch) : MemoryStorage :=
  batch.telemetry.foldl storeRecord m

def inWindow (startTime endTime : Time) (t : GPUTelemetry) : Bool :=
  !t.timestamp.before startTime && !t.timestamp.after endTime

def earlier (a b : GPUTelemetry) : Bool := a.timestamp.before b.timestamp

def getGPUTelemetry (sortSlice : Sorting earlier) (m : MemoryStorage) (gpuID : String)
    (startTime endTime : Time) : List GPUTelemetry :=
  let result := match m.telemetry.lookup gpuID with
    | some telemetry => telemetry.filter (inWindow startTime endTime)
    | none => []
  sortSlice.sort result

/-- `order` is the order in which the loop visits the keys of the map. -/
def listGPUs (m : MemoryStorage) (order : List String) : List GPU :=
  order.filterMap fun uuid => m.gpus.lookup uuid

def close (_ : MemoryStorage) : MemoryStorage := newMemoryStorage

def exec (m : MemoryStorage) : StorageEvent → Except Empty MemoryStorage
  | .store batch => .ok (m.store batch)
  | .getGPUTelemetry _ _ _ => .ok m
  | .listGPUs _ => .ok m
  | .close => .ok m.close

def guard (m : MemoryStorage) : StorageEvent → Prop
  | .listGPUs order => Enumerates order m.gpus.keys
  | _ => True

instance (m : MemoryStorage) : (e : StorageEvent) → Decidable (m.guard e)
  | .listGPUs order => inferInstanceAs (Decidable (Enumerates order m.gpus.keys))
  | .store _ | .getGPUTelemetry _ _ _ | .close => .isTrue trivial

end MemoryStorage

def storage : Machine MemoryStorage StorageEvent Empty := ⟨MemoryStorage.guard, MemoryStorage.exec⟩

instance (m : MemoryStorage) (e : StorageEvent) : Decidable (storage.guard m e) :=
  inferInstanceAs (Decidable (m.guard e))

namespace MemoryStorage

/-- The records that a label adds to the log; `Close` empties it. -/
def added : StorageEvent → Option (List GPUTelemetry)
  | .store batch => some batch.telemetry
  | .getGPUTelemetry _ _ _ | .listGPUs _ => some []
  | .close => none

/-- The records stored since the last `Close`, in store order. -/
def stored (es : List StorageEvent) : List GPUTelemetry := History.sinceReset added es

/-- Both maps are the indexes of the log: of its records, and of the attributes that these last
had. -/
structure Indexes (log : List GPUTelemetry) (m : MemoryStorage) : Prop where
  grouped : Grouped GPUTelemetry.uuid log m.telemetry
  latest : Latest GPUTelemetry.uuid
    (fun t => ⟨t.uuid, t.gpuIndex, t.device, t.hostname⟩) log m.gpus

theorem indexes_new : Indexes [] newMemoryStorage :=
  ⟨grouped_nil GPUTelemetry.uuid, latest_nil GPUTelemetry.uuid _⟩

namespace Indexes

variable {log : List GPUTelemetry} {m : MemoryStorage}

theorem storeRecord (h : Indexes log m) (t : GPUTelemetry) :
    Indexes (log ++ [t]) (m.storeRecord t) :=
  ⟨h.grouped.snoc t, h.latest.snoc t⟩

theorem store (h : Indexes log m) (batch : TelemetryBatch) :
    Indexes (log ++ batch.telemetry) (m.store batch) := by
  obtain ⟨batchID, telemetry, timestamp⟩ := batch
  unfold MemoryStorage.store
  induction telemetry generalizing log m with
  | nil => simpa using h
  | cons t telemetry ih => simpa using ih (h.storeRecord t)

end Indexes

theorem indexes_run {m : MemoryStorage} {es : List StorageEvent}
    (hrun : storage.Run newMemoryStorage es m) : Indexes (stored es) m := by
  apply hrun.history (H := fun es m => Indexes (stored es) m) indexes_new
  intro es m e t _ ih hst
  have hexec : m.exec e = .ok t := hst.2
  rw [stored, History.sinceReset_snoc]
  cases e with
  | store batch =>
    obtain rfl := Except.ok.inj hexec
    exact ih.store batch
  | close =>
    obtain rfl := Except.ok.inj hexec
    exact indexes_new
  | _ =>
    obtain rfl := Except.ok.inj hexec
    simpa [added, stored] using ih

end MemoryStorage

end GpuTel.Telemetry
