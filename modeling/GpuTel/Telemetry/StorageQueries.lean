import GpuTel.Telemetry.MemoryStorage

/-!
# What the queries of the storage return

A query reads one of the two indexes, so its answer is a function of the log of stored records, up
to the order that the sort, or the loop over the map, is free to choose.
-/

set_option autoImplicit false

namespace GpuTel.Telemetry.MemoryStorage

open Transition KeyedLog

variable (sortSlice : Sorting earlier) {m : MemoryStorage} {es : List StorageEvent}

def records (m : MemoryStorage) (gpuID : String) : List GPUTelemetry :=
  (m.telemetry.lookup gpuID).getD []

/-- Both ends of a window are in it. -/
def InWindow (startTime endTime : Time) (t : GPUTelemetry) : Prop :=
  startTime.instant ≤ t.timestamp.instant ∧ t.timestamp.instant ≤ endTime.instant

instance (startTime endTime : Time) : DecidablePred (InWindow startTime endTime) :=
  fun _ => inferInstanceAs (Decidable (_ ∧ _))

def Selected (gpuID : String) (startTime endTime : Time) (t : GPUTelemetry) : Prop :=
  t.uuid = gpuID ∧ InWindow startTime endTime t

instance (gpuID : String) (startTime endTime : Time) :
    DecidablePred (Selected gpuID startTime endTime) :=
  fun _ => inferInstanceAs (Decidable (_ ∧ _))

theorem inWindow_eq (startTime endTime : Time) :
    inWindow startTime endTime = fun t => decide (InWindow startTime endTime t) := by
  funext t
  rw [Bool.eq_iff_iff, decide_eq_true_iff]
  simp [inWindow, InWindow, Time.before, Time.after]

theorem getGPUTelemetry_eq_sort (m : MemoryStorage) (gpuID : String) (startTime endTime : Time) :
    m.getGPUTelemetry sortSlice gpuID startTime endTime =
      sortSlice.sort ((m.records gpuID).filter fun t => InWindow startTime endTime t) := by
  rw [getGPUTelemetry, records, inWindow_eq]
  cases m.telemetry.lookup gpuID <;> rfl

theorem records_eq {log : List GPUTelemetry} (h : Indexes log m) (gpuID : String) :
    m.records gpuID = log.filter fun t => t.uuid = gpuID :=
  h.grouped.getD gpuID

theorem filter_records {log : List GPUTelemetry} (h : Indexes log m) (gpuID : String)
    (startTime endTime : Time) : ((m.records gpuID).filter fun t => InWindow startTime endTime t) =
      log.filter fun t => Selected gpuID startTime endTime t := by
  rw [records_eq h, List.filter_filter]
  apply List.filter_congr
  intro t _
  rw [Bool.eq_iff_iff, Bool.and_eq_true, decide_eq_true_iff, decide_eq_true_iff,
    decide_eq_true_iff]
  exact and_comm

theorem getGPUTelemetry_eq {log : List GPUTelemetry} (h : Indexes log m) (gpuID : String)
    (startTime endTime : Time) : m.getGPUTelemetry sortSlice gpuID startTime endTime =
      sortSlice.sort (log.filter fun t => Selected gpuID startTime endTime t) := by
  rw [getGPUTelemetry_eq_sort, filter_records h]

/-- In every run, a query returns the records of its GPU and its window, both ends included, that
were stored since the last `Close`: each as often as it was stored, by time, and without changing
what is stored. -/
theorem getGPUTelemetry_exact (hrun : storage.Run newMemoryStorage es m) (gpuID : String)
    (startTime endTime : Time) :
    (m.getGPUTelemetry sortSlice gpuID startTime endTime).Perm
        ((stored es).filter fun t => Selected gpuID startTime endTime t) ∧
      (m.getGPUTelemetry sortSlice gpuID startTime endTime).Pairwise
        (fun a b => a.timestamp.instant ≤ b.timestamp.instant) ∧
      ∀ t, storage.Step m (.getGPUTelemetry gpuID startTime endTime) t → t = m := by
  rw [getGPUTelemetry_eq sortSlice (indexes_run hrun)]
  refine ⟨sortSlice.perm _, (sortSlice.sorted _).imp ?_, ?_⟩
  · intro a b hab
    simpa [earlier, Time.before] using hab
  · intro t hst
    exact (Except.ok.inj hst.2).symm

def byTimestamp : Sorting earlier := .insertion fun t : GPUTelemetry => t.timestamp.instant

def sample (uuid hostname : String) (instant : Int) : GPUTelemetry :=
  ⟨⟨instant, 0⟩, "util", "0", "nvidia0", uuid, "H100", hostname, "", "", "", 0, ""⟩

def lateRecords : List StorageEvent :=
  [.store ⟨"b0", [sample "u" "h0" 1], ⟨9, 0⟩⟩, .close,
    .store ⟨"b1", [sample "u" "h1" 5, sample "v" "h1" 4], ⟨9, 0⟩⟩,
    .store ⟨"b2", [sample "u" "h2" 3], ⟨9, 0⟩⟩]

theorem getGPUTelemetry_exact_lateRecords : ∃ m, storage.Run newMemoryStorage lateRecords m ∧
    m.getGPUTelemetry byTimestamp "u" ⟨3, 0⟩ ⟨5, 0⟩ = [sample "u" "h2" 3, sample "u" "h1" 5] ∧
    (m.getGPUTelemetry byTimestamp "u" ⟨3, 0⟩ ⟨5, 0⟩).Perm
      ((stored lateRecords).filter fun t => Selected "u" ⟨3, 0⟩ ⟨5, 0⟩ t) := by
  obtain ⟨m, hrun, hquery⟩ := Machine.exists_run (M := storage)
    (fun m => m.getGPUTelemetry byTimestamp "u" ⟨3, 0⟩ ⟨5, 0⟩ =
      [sample "u" "h2" 3, sample "u" "h1" 5]) newMemoryStorage lateRecords (by decide)
  exact ⟨m, hrun, hquery, (getGPUTelemetry_exact byTimestamp hrun "u" ⟨3, 0⟩ ⟨5, 0⟩).1⟩

theorem exists_window_iff (hindex : Indexes (stored es) m) (uuid : String) :
    (∃ t ∈ stored es, t.uuid = uuid) ↔
      ∃ startTime endTime, m.getGPUTelemetry sortSlice uuid startTime endTime ≠ [] := by
  constructor
  · rintro ⟨t, ht, huuid⟩
    refine ⟨t.timestamp, t.timestamp, ?_⟩
    rw [getGPUTelemetry_eq sortSlice hindex]
    refine List.ne_nil_of_mem (a := t) ((sortSlice.perm _).mem_iff.mpr ?_)
    exact List.mem_filter.mpr ⟨ht, by simp [Selected, InWindow, huuid]⟩
  · rintro ⟨startTime, endTime, hne⟩
    rw [getGPUTelemetry_eq sortSlice hindex] at hne
    obtain ⟨t, ht⟩ := List.exists_mem_of_ne_nil _ hne
    obtain ⟨hmem, hsel⟩ := List.mem_filter.mp ((sortSlice.perm _).mem_iff.mp ht)
    exact ⟨t, hmem, (of_decide_eq_true hsel).1⟩

theorem attributes_of_lookup (hindex : Indexes (stored es) m) {uuid : String} {gpu : GPU}
    (h : m.gpus.lookup uuid = some gpu) :
    ∃ t, ((stored es).filter fun t => t.uuid = uuid).getLast? = some t ∧
      gpu = ⟨t.uuid, t.gpuIndex, t.device, t.hostname⟩ := by
  rw [hindex.latest uuid, Option.map_eq_some_iff] at h
  obtain ⟨t, hlast, rfl⟩ := h
  exact ⟨t, hlast, rfl⟩

theorem uuid_of_lookup (hindex : Indexes (stored es) m) {uuid : String} {gpu : GPU}
    (h : m.gpus.lookup uuid = some gpu) : gpu.uuid = uuid := by
  obtain ⟨t, hlast, rfl⟩ := attributes_of_lookup hindex h
  exact of_decide_eq_true (List.mem_filter.mp (List.mem_of_getLast? hlast)).2

theorem map_uuid_listGPUs (hindex : Indexes (stored es) m) {order : List String}
    (horder : ∀ uuid ∈ order, uuid ∈ m.gpus.keys) : (m.listGPUs order).map GPU.uuid = order := by
  induction order with
  | nil => rfl
  | cons uuid order ih =>
    have hkey := Finmap.mem_keys.mp (horder uuid List.mem_cons_self)
    obtain ⟨gpu, hgpu⟩ := Finmap.mem_iff.mp hkey
    have hrest := ih fun u hu => horder u (List.mem_cons_of_mem uuid hu)
    simp only [listGPUs, List.filterMap_cons, hgpu, List.map_cons, uuid_of_lookup hindex hgpu]
    exact congrArg (uuid :: ·) hrest

/-- In every run and for every order of the map: each listed GPU is listed once; the listed ones are
those with a record since the last `Close`, which are those for which some window is not empty; and
the attributes are those of the last such record. -/
theorem listGPUs_agrees (hrun : storage.Run newMemoryStorage es m) {order : List String}
    (horder : Enumerates order m.gpus.keys) :
    ((m.listGPUs order).map GPU.uuid).Nodup ∧
      (∀ uuid, (∃ gpu ∈ m.listGPUs order, gpu.uuid = uuid) ↔ ∃ t ∈ stored es, t.uuid = uuid) ∧
      (∀ uuid, (∃ t ∈ stored es, t.uuid = uuid) ↔
        ∃ startTime endTime, m.getGPUTelemetry sortSlice uuid startTime endTime ≠ []) ∧
      ∀ gpu ∈ m.listGPUs order, ∃ t,
        ((stored es).filter fun t => t.uuid = gpu.uuid).getLast? = some t ∧
          gpu.uuid = t.uuid ∧ gpu.gpuIndex = t.gpuIndex ∧ gpu.device = t.device ∧
          gpu.hostname = t.hostname := by
  have hindex := indexes_run hrun
  have hlist := map_uuid_listGPUs hindex fun uuid => horder.mem_iff.mp
  refine ⟨hlist.symm ▸ horder.nodup, ?_, exists_window_iff sortSlice hindex, ?_⟩
  · intro uuid
    rw [← hindex.latest.mem_keys uuid, ← horder.mem_iff, ← List.mem_map (f := GPU.uuid), hlist]
  · intro gpu hgpu
    obtain ⟨uuid, -, hlookup⟩ := List.mem_filterMap.mp hgpu
    obtain rfl := uuid_of_lookup hindex hlookup
    obtain ⟨t, hlast, hgpu⟩ := attributes_of_lookup hindex hlookup
    exact ⟨t, hlast, congrArg GPU.uuid hgpu, congrArg GPU.gpuIndex hgpu, congrArg GPU.device hgpu,
      congrArg GPU.hostname hgpu⟩

theorem listGPUs_agrees_lateRecords : ∃ m, storage.Run newMemoryStorage lateRecords m ∧
    m.listGPUs ["v", "u"] = [⟨"v", "0", "nvidia0", "h1"⟩, ⟨"u", "0", "nvidia0", "h2"⟩] ∧
    ((m.listGPUs ["v", "u"]).map GPU.uuid).Nodup ∧
    ∃ t, ((stored lateRecords).filter fun t => t.uuid = "u").getLast? = some t ∧
      t.gpuIndex = "0" ∧ t.device = "nvidia0" ∧ t.hostname = "h2" := by
  obtain ⟨m, hrun, horder, hlist⟩ := Machine.exists_run (M := storage)
    (fun m => Enumerates ["v", "u"] m.gpus.keys ∧
      m.listGPUs ["v", "u"] = [⟨"v", "0", "nvidia0", "h1"⟩, ⟨"u", "0", "nvidia0", "h2"⟩])
    newMemoryStorage lateRecords (by decide)
  obtain ⟨hnodup, -, -, hattributes⟩ := listGPUs_agrees byTimestamp hrun horder
  obtain ⟨t, hlast, -, hindex, hdevice, hhostname⟩ :=
    hattributes ⟨"u", "0", "nvidia0", "h2"⟩ (by simp [hlist])
  exact ⟨m, hrun, hlist, hnodup, t, hlast, hindex.symm, hdevice.symm, hhostname.symm⟩

end GpuTel.Telemetry.MemoryStorage
