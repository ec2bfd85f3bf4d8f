import GpuTel.Api.TimeRange
import GpuTel.Telemetry.StorageQueries

/-!
# The handlers of the API

A handler is seen through the queries it makes to the storage and through the call of `c.JSON` that
it ends with.
-/

set_option autoImplicit false

namespace GpuTel.Api

open GpuTel.Telemetry

structure Telemetry where
  timestamp : Time
  metricName : String
  gpuIndex : String
  device : String
  uuid : String
  modelName : String
  hostname : String
  container : String
  pod : String
  namespace_ : String
  value : BitVec 64
  labelsRaw : String
  deriving DecidableEq, Repr

structure ErrorResponse where
  code : Nat
  message : String
  details : String
  deriving DecidableEq, Repr

inductive Body where
  | telemetry (result : List Telemetry)
  | error (err : ErrorResponse)
  deriving DecidableEq, Repr

/-- The arguments of `c.JSON`. What it makes of them is left out: that it fails for a value that is
not finite or a year outside 0 to 9999, too. -/
structure Response where
  code : Nat
  body : Body
  deriving DecidableEq, Repr

/-- One call of `GetGPUTelemetry`. -/
structure StorageQuery where
  gpuID : String
  startTime : Time
  endTime : Time
  deriving DecidableEq, Repr

def sendError (code : Nat) (message details : String) : Response :=
  ⟨code, .error ⟨code, message, details⟩⟩

def convert (t : GPUTelemetry) : Telemetry where
  timestamp := t.timestamp.utc
  metricName := t.metricName
  gpuIndex := t.gpuIndex
  device := t.device
  uuid := t.uuid
  modelName := t.modelName
  hostname := t.hostname
  container := t.container
  pod := t.pod
  namespace_ := t.namespace_
  value := t.value
  labelsRaw := t.labelsRaw

/-- `storage` answers a query with records or an error. -/
def getGPUTelemetry (storage : StorageQuery → Except String (List GPUTelemetry))
    (timeParse : String → Except String Time) (now : Time) (gpuID : String) (query : Query) :
    List StorageQuery × Response :=
  if gpuID = "" then ([], sendError 400 "GPU ID is required" "")
  else
    match parseTimeRange timeParse now query with
    | .error err => ([], sendError 400 "Invalid time range" err)
    | .ok (startTime, endTime) =>
      let storageQuery := ⟨gpuID, startTime, endTime⟩
      match storage storageQuery with
      | .error err => ([storageQuery], sendError 500 "Failed to get GPU telemetry" err)
      | .ok telemetryData => ([storageQuery], ⟨200, .telemetry (telemetryData.map convert)⟩)

/-- A `MemoryStorage` as the storage of a server. -/
def ofMemory (sortSlice : Sorting MemoryStorage.earlier) (m : MemoryStorage) (q : StorageQuery) :
    Except String (List GPUTelemetry) :=
  .ok (m.getGPUTelemetry sortSlice q.gpuID q.startTime q.endTime)

/-- The answer has the fields of the record, and its timestamp is the same instant, in UTC. -/
structure Unchanged (r : Telemetry) (t : GPUTelemetry) : Prop where
  timestamp : r.timestamp = ⟨t.timestamp.instant, 0⟩
  metricName : r.metricName = t.metricName
  gpuIndex : r.gpuIndex = t.gpuIndex
  device : r.device = t.device
  uuid : r.uuid = t.uuid
  modelName : r.modelName = t.modelName
  hostname : r.hostname = t.hostname
  container : r.container = t.container
  pod : r.pod = t.pod
  namespace_ : r.namespace_ = t.namespace_
  value : r.value = t.value
  labelsRaw : r.labelsRaw = t.labelsRaw

theorem unchanged_convert (t : GPUTelemetry) : Unchanged (convert t) t :=
  ⟨rfl, rfl, rfl, rfl, rfl, rfl, rfl, rfl, rfl, rfl, rfl, rfl⟩

theorem unchanged_map_convert (records : List GPUTelemetry) :
    List.Forall₂ Unchanged (records.map convert) records :=
  List.forall₂_map_left_iff.mpr (List.forall₂_same.mpr fun t _ => unchanged_convert t)

section Answer

variable (sortSlice : Sorting MemoryStorage.earlier) (m : MemoryStorage)
variable (timeParse : String → Except String Time) (now : Time) (gpuID : String) (query : Query)

variable {gpuID}

theorem getGPUTelemetry_of_rejected (hid : gpuID ≠ "") (h : Rejected timeParse now query) :
    ∃ err, getGPUTelemetry (ofMemory sortSlice m) timeParse now gpuID query =
      ([], sendError 400 "Invalid time range" err) := by
  rcases parseTimeRange_cases timeParse now query with ⟨-, err, herr⟩ | ⟨hwindow, -⟩
  · exact ⟨err, by rw [getGPUTelemetry, if_neg hid, herr]⟩
  · exact absurd h hwindow

theorem getGPUTelemetry_of_window (hid : gpuID ≠ "") (h : ¬ Rejected timeParse now query) :
    getGPUTelemetry (ofMemory sortSlice m) timeParse now gpuID query =
      ([⟨gpuID, resolvedStart timeParse now query, resolvedEnd timeParse now query⟩],
        ⟨200, .telemetry ((sortSlice.sort ((m.records gpuID).filter fun t =>
          MemoryStorage.InWindow (resolvedStart timeParse now query)
            (resolvedEnd timeParse now query) t)).map convert)⟩) := by
  rcases parseTimeRange_cases timeParse now query with ⟨hrejected, -⟩ | ⟨-, hok⟩
  · exact absurd hrejected h
  · rw [getGPUTelemetry, if_neg hid, hok]
    simp only [ofMemory, MemoryStorage.getGPUTelemetry_eq_sort]

/-- For every storage, every time and every query: the request is refused, without a query to the
storage, if and only if a bound is malformed or the window is empty. Otherwise the answer is, by
time, the records of the GPU in the resolved window, each with the fields it is stored with. -/
theorem getGPUTelemetry_answers (hid : gpuID ≠ "") :
    ((getGPUTelemetry (ofMemory sortSlice m) timeParse now gpuID query).1 = [] ∧
        (getGPUTelemetry (ofMemory sortSlice m) timeParse now gpuID query).2.code = 400 ↔
      Rejected timeParse now query) ∧
    (¬ Rejected timeParse now query → ∃ records result,
      getGPUTelemetry (ofMemory sortSlice m) timeParse now gpuID query =
        ([⟨gpuID, resolvedStart timeParse now query, resolvedEnd timeParse now query⟩],
          ⟨200, .telemetry result⟩) ∧
      List.Forall₂ Unchanged result records ∧
      records.Perm ((m.records gpuID).filter fun t =>
        MemoryStorage.InWindow (resolvedStart timeParse now query)
          (resolvedEnd timeParse now query) t) ∧
      result.Pairwise fun a b => a.timestamp.instant ≤ b.timestamp.instant) := by
  refine ⟨⟨?_, ?_⟩, ?_⟩
  · rintro ⟨hqueries, -⟩
    by_contra hwindow
    rw [getGPUTelemetry_of_window sortSlice m timeParse now query hid hwindow] at hqueries
    cases hqueries
  · intro hrejected
    obtain ⟨err, heq⟩ := getGPUTelemetry_of_rejected sortSlice m timeParse now query hid hrejected
    rw [heq]
    exact ⟨rfl, rfl⟩
  · intro hwindow
    refine ⟨_, _, getGPUTelemetry_of_window sortSlice m timeParse now query hid hwindow,
      unchanged_map_convert _, sortSlice.perm _, ?_⟩
    rw [List.pairwise_map]
    apply (sortSlice.sorted _).imp
    intro a b hab
    simpa [MemoryStorage.earlier, Time.before, convert, Time.utc] using hab

end Answer

def parseSeconds : String → Except String Time
  | "1970-01-01T00:00:00Z" => .ok ⟨0, 0⟩
  | "1970-01-01T00:00:01Z" => .ok ⟨10 ^ 9, 0⟩
  | "1970-01-01T00:00:02Z" => .ok ⟨2 * 10 ^ 9, 0⟩
  | text => .error ("cannot parse " ++ text)

def twoRecords : MemoryStorage := MemoryStorage.newMemoryStorage.store
  ⟨"b", [MemoryStorage.sample "u" "h" (2 * 10 ^ 9), MemoryStorage.sample "u" "h" (10 ^ 9)], ⟨0, 0⟩⟩

/-- The first second: `start`, which lies after the end, loses against `start_time`. -/
def firstSecond : Query :=
  ((Finmap.singleton "start_time" "1970-01-01T00:00:00Z").insert
    "start" "1970-01-01T00:00:02Z").insert "end" "1970-01-01T00:00:01Z"

theorem not_rejected_firstSecond : ¬ Rejected parseSeconds ⟨0, 0⟩ firstSecond := by
  rcases parseTimeRange_cases parseSeconds ⟨0, 0⟩ firstSecond with ⟨-, err, herr⟩ | ⟨hwindow, -⟩
  · have hok : parseTimeRange parseSeconds ⟨0, 0⟩ firstSecond = .ok (⟨0, 0⟩, ⟨10 ^ 9, 0⟩) := rfl
    rw [hok] at herr
    cases herr
  · exact hwindow

theorem getGPUTelemetry_answers_firstSecond :
    ¬ Rejected parseSeconds ⟨0, 0⟩ firstSecond ∧ ∃ records,
      List.Forall₂ Unchanged
        [⟨⟨10 ^ 9, 0⟩, "util", "0", "nvidia0", "u", "H100", "h", "", "", "", 0, ""⟩] records ∧
      records.Perm ((twoRecords.records "u").filter fun t =>
        MemoryStorage.InWindow ⟨0, 0⟩ ⟨10 ^ 9, 0⟩ t) := by
  have hid : "u" ≠ "" := by decide
  obtain ⟨records, result, heq, hfields, hperm, -⟩ := (getGPUTelemetry_answers
    MemoryStorage.byTimestamp twoRecords parseSeconds ⟨0, 0⟩ firstSecond hid).2
      not_rejected_firstSecond
  have hbody : (getGPUTelemetry (ofMemory MemoryStorage.byTimestamp twoRecords) parseSeconds ⟨0, 0⟩
      "u" firstSecond).2.body = .telemetry
        [⟨⟨10 ^ 9, 0⟩, "util", "0", "nvidia0", "u", "H100", "h", "", "", "", 0, ""⟩] := by decide
  rw [heq] at hbody
  obtain rfl := Body.telemetry.inj hbody
  exact ⟨not_rejected_firstSecond, records, hfields, hperm⟩

end GpuTel.Api
