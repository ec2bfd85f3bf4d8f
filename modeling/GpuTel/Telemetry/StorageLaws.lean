import GpuTel.Lib.Ties
import GpuTel.Telemetry.StorageQueries

/-!
# Queries and stores compared

Two queries of the same GPU agree on a window if no two of the records in it share an instant; with
a tie, the sort is free to order it differently each time. Two histories of stores lead to the same
storage if they agree on the records of every single GPU.
-/

set_option autoImplicit false

namespace GpuTel.Telemetry.MemoryStorage

open KeyedLog

section Windows

variable (m : MemoryStorage) (gpuID : String)

def instant (t : GPUTelemetry) : Int := t.timestamp.instant

/-- For every storage, every GPU and every window inside another one. If each query may sort as it
likes: the smaller result is always the larger one without the records outside its window, if and
only if no two different records in the smaller window share an instant. If equal inputs are sorted
equally: if and only if that is so, or both windows select the same records. -/
theorem getGPUTelemetry_windows_iff {startTime endTime startTime' endTime' : Time}
    (hwithin : ∀ x, startTime.instant ≤ x → x ≤ endTime.instant →
      startTime'.instant ≤ x ∧ x ≤ endTime'.instant) :
    let selected := (m.records gpuID).filter fun t => InWindow startTime endTime t
    let selected' := (m.records gpuID).filter fun t => InWindow startTime' endTime' t
    ((∀ sortSlice sortSlice' : Sorting earlier,
        m.getGPUTelemetry sortSlice gpuID startTime endTime =
          (m.getGPUTelemetry sortSlice' gpuID startTime' endTime').filter
            fun t => InWindow startTime endTime t) ↔
      Sorting.Untied instant selected) ∧
    ((∀ sortSlice : Sorting earlier,
        m.getGPUTelemetry sortSlice gpuID startTime endTime =
          (m.getGPUTelemetry sortSlice gpuID startTime' endTime').filter
            fun t => InWindow startTime endTime t) ↔
      Sorting.Untied instant selected ∨ selected = selected') := by
  intro selected selected'
  have hselected : selected = selected'.filter fun t => InWindow startTime endTime t := by
    rw [List.filter_filter]
    apply List.filter_congr
    intro t _
    rw [Bool.eq_iff_iff, Bool.and_eq_true, decide_eq_true_iff, decide_eq_true_iff]
    exact (and_iff_left_of_imp fun hin => hwithin _ hin.1 hin.2).symm
  simp only [getGPUTelemetry_eq_sort]
  rw [show (m.records gpuID).filter (fun t => InWindow startTime endTime t) = _ from hselected,
    hselected]
  exact ⟨Sorting.sort_filter_iff, Sorting.sort_filter_iff_same⟩

end Windows

/-- A record, and twelve earlier ones at one instant that were stored after it. -/
def tiedStorage : MemoryStorage :=
  newMemoryStorage.store ⟨"b", sample "u" "late" 100 :: tied, ⟨200, 0⟩⟩
where
  tied : List GPUTelemetry :=
    ["h1", "h2", "h3", "h4", "h5", "h6", "h7", "h8", "h9", "h10", "h11", "h12"].map
      fun hostname => sample "u" hostname 0

theorem getGPUTelemetry_windows_iff_tiedStorage :
    (∀ sortSlice sortSlice' : Sorting earlier,
        tiedStorage.getGPUTelemetry sortSlice "u" ⟨0, 0⟩ ⟨0, 0⟩ =
          (tiedStorage.getGPUTelemetry sortSlice' "u" ⟨0, 0⟩ ⟨100, 0⟩).filter
            fun t => InWindow ⟨0, 0⟩ ⟨0, 0⟩ t) ↔
      Sorting.Untied instant tiedStorage.tied := by
  have hselected : ((tiedStorage.records "u").filter fun t => InWindow ⟨0, 0⟩ ⟨0, 0⟩ t) =
      tiedStorage.tied := by decide
  have hwithin : ∀ x, Time.instant ⟨0, 0⟩ ≤ x → x ≤ Time.instant ⟨0, 0⟩ →
      Time.instant ⟨0, 0⟩ ≤ x ∧ x ≤ Time.instant ⟨100, 0⟩ :=
    fun x hstart hend => ⟨hstart, hend.trans (by decide)⟩
  rw [← hselected]
  exact (getGPUTelemetry_windows_iff tiedStorage "u" hwithin).1

/-- As `sort.Slice` does it: up to twelve records are sorted by insertion, but here there are
thirteen, and the first pivot comes to the front. -/
def pivoting : Sorting earlier :=
  Sorting.switch tiedStorage.tied byTimestamp (Sorting.prefer instant (sample "u" "h6" 0))

theorem not_getGPUTelemetry_windows :
    tiedStorage.getGPUTelemetry pivoting "u" ⟨0, 0⟩ ⟨0, 0⟩ ≠
        ((tiedStorage.getGPUTelemetry pivoting "u" ⟨0, 0⟩ ⟨100, 0⟩).filter
          fun t => InWindow ⟨0, 0⟩ ⟨0, 0⟩ t) ∧
      (tiedStorage.getGPUTelemetry pivoting "u" ⟨0, 0⟩ ⟨0, 0⟩).map GPUTelemetry.hostname =
        ["h1", "h2", "h3", "h4", "h5", "h6", "h7", "h8", "h9", "h10", "h11", "h12"] ∧
      ((tiedStorage.getGPUTelemetry pivoting "u" ⟨0, 0⟩ ⟨100, 0⟩).filter
        fun t => InWindow ⟨0, 0⟩ ⟨0, 0⟩ t).map GPUTelemetry.hostname =
        ["h6", "h1", "h2", "h3", "h4", "h5", "h7", "h8", "h9", "h10", "h11", "h12"] := by
  decide

section Histories

theorem foldl_storeRecord (log : List GPUTelemetry) (m : MemoryStorage) :
    log.foldl storeRecord m =
      ⟨log.foldl (update GPUTelemetry.uuid fun _ t => gpuOf t) m.gpus,
        log.foldl (update GPUTelemetry.uuid fun old t => old.getD [] ++ [t]) m.telemetry⟩ := by
  induction log generalizing m with
  | nil => rfl
  | cons t log ih =>
    rw [List.foldl_cons, ih]
    rfl

theorem foldl_store (batches : List TelemetryBatch) (m : MemoryStorage) :
    batches.foldl store m = (batches.flatMap TelemetryBatch.telemetry).foldl storeRecord m := by
  induction batches generalizing m with
  | nil => rfl
  | cons batch batches ih =>
    rw [List.foldl_cons, ih, List.flatMap_cons, List.foldl_append]
    rfl

/-- From any storage: two sequences of batches that agree, GPU by GPU, on the records of that GPU
and their order lead to the same storage. It has what was there, then these records, and the
attributes of the last of them. -/
theorem store_interleaving (m : MemoryStorage) {batches batches' : List TelemetryBatch}
    (h : ∀ uuid, ((batches.flatMap TelemetryBatch.telemetry).filter fun t => t.uuid = uuid) =
      (batches'.flatMap TelemetryBatch.telemetry).filter fun t => t.uuid = uuid) :
    batches.foldl store m = batches'.foldl store m ∧ ∀ uuid,
      let stored := (batches.flatMap TelemetryBatch.telemetry).filter fun t => t.uuid = uuid
      (batches.foldl store m).records uuid = m.records uuid ++ stored ∧
      (batches.foldl store m).gpus.lookup uuid =
        (stored.getLast?.map fun t => ⟨t.uuid, t.gpuIndex, t.device, t.hostname⟩).or
          (m.gpus.lookup uuid) := by
  have hgroup : ∀ uuid, group GPUTelemetry.uuid (batches.flatMap TelemetryBatch.telemetry) uuid =
      group GPUTelemetry.uuid (batches'.flatMap TelemetryBatch.telemetry) uuid := h
  constructor
  · rw [foldl_store, foldl_store, foldl_storeRecord, foldl_storeRecord,
      foldl_update_congr _ hgroup, foldl_update_congr _ hgroup]
  · intro uuid stored
    rw [foldl_store, foldl_storeRecord]
    exact ⟨getD_lookup_foldl_append _ _ _, lookup_foldl_last _ _ _ _⟩

end Histories

/-- The records of two GPUs in one batch, and one by one in another order. -/
theorem store_interleaving_twoGPUs :
    [(⟨"b", [sample "u" "h1" 1, sample "v" "h1" 2, sample "u" "h2" 3], ⟨9, 0⟩⟩ :
        TelemetryBatch)].foldl store newMemoryStorage =
      [(⟨"b0", [sample "v" "h1" 2], ⟨9, 0⟩⟩ : TelemetryBatch), ⟨"b1", [], ⟨9, 0⟩⟩,
        ⟨"b2", [sample "u" "h1" 1], ⟨9, 0⟩⟩, ⟨"b3", [sample "u" "h2" 3], ⟨9, 0⟩⟩].foldl store
          newMemoryStorage := by
  refine (store_interleaving newMemoryStorage ?_).1
  intro uuid
  by_cases hu : uuid = "u"
  · subst hu
    decide
  · by_cases hv : uuid = "v"
    · subst hv
      decide
    · simp [sample, Ne.symm hu, Ne.symm hv]

end GpuTel.Telemetry.MemoryStorage
