import GpuTel.Api.Handlers

/-!
# The list of GPUs

The handler of `GET /gpus`, over what the storage answers.
-/

set_option autoImplicit false

namespace GpuTel.Api

open GpuTel.Telemetry

structure GPU where
  uuid : String
  gpuIndex : String
  device : String
  hostname : String
  deriving DecidableEq, Repr

def convertGPU (gpu : Telemetry.GPU) : GPU where
  uuid := gpu.uuid
  gpuIndex := gpu.gpuIndex
  hostname := gpu.hostname
  device := gpu.device

/-- The arguments of `c.JSON`. -/
def listGPUs (storage : Except String (List Telemetry.GPU)) :
    Nat × Except ErrorResponse (List GPU) :=
  match storage with
  | .error err => (500, .error ⟨500, "Failed to list GPUs", err⟩)
  | .ok gpuTelemetry => (200, .ok (gpuTelemetry.map convertGPU))

section Listed

open MemoryStorage

variable {log : List GPUTelemetry} {m : MemoryStorage} {order : List String}

theorem exists_record (hindex : Indexes log m) {gpu : Telemetry.GPU}
    (h : gpu ∈ m.listGPUs order) :
    ∃ t ∈ log, gpu = ⟨t.uuid, t.gpuIndex, t.device, t.hostname⟩ ∧ gpu.uuid ∈ order := by
  obtain ⟨uuid, huuid, hlookup⟩ := List.mem_filterMap.mp h
  rw [hindex.latest uuid, Option.map_eq_some_iff] at hlookup
  obtain ⟨t, hlast, rfl⟩ := hlookup
  obtain ⟨ht, hkey⟩ := List.mem_filter.mp (List.mem_of_getLast? hlast)
  have hsame : t.uuid = uuid := of_decide_eq_true hkey
  exact ⟨t, ht, rfl, hsame.symm ▸ huuid⟩

theorem map_uuid_sublist (hindex : Indexes log m) (order : List String) :
    ((m.listGPUs order).map Telemetry.GPU.uuid).Sublist order := by
  induction order with
  | nil => exact .slnil
  | cons uuid order ih =>
    cases hlookup : m.gpus.lookup uuid with
    | none =>
      simp only [MemoryStorage.listGPUs, List.filterMap_cons, hlookup]
      exact ih.cons uuid
    | some gpu =>
      have hlisted : gpu ∈ m.listGPUs [uuid] := by simp [MemoryStorage.listGPUs, hlookup]
      obtain ⟨t, -, rfl, hmem⟩ := exists_record hindex hlisted
      have huuid : t.uuid = uuid := List.mem_singleton.mp hmem
      simp only [MemoryStorage.listGPUs, List.filterMap_cons, hlookup, List.map_cons, huuid]
      exact ih.cons_cons uuid

theorem listed_of_record (hindex : Indexes log m) (horder : Enumerates order m.gpus.keys)
    {t : GPUTelemetry} (ht : t ∈ log) : t.uuid ∈ (m.listGPUs order).map Telemetry.GPU.uuid := by
  have hkey : t.uuid ∈ m.gpus.keys := (hindex.latest.mem_keys t.uuid).mpr ⟨t, ht, rfl⟩
  obtain ⟨gpu, hgpu⟩ := Finmap.mem_iff.mp (Finmap.mem_keys.mp hkey)
  refine List.mem_map.mpr ⟨gpu, List.mem_filterMap.mpr ⟨_, horder.mem_iff.mpr hkey, hgpu⟩, ?_⟩
  have hlisted : gpu ∈ m.listGPUs [t.uuid] := by simp [MemoryStorage.listGPUs, hgpu]
  obtain ⟨t', -, rfl, huuid⟩ := exists_record hindex hlisted
  exact List.mem_singleton.mp huuid

end Listed

end GpuTel.Api
