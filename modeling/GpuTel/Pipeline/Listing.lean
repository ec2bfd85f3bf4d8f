import GpuTel.Api.ListGPUs
import GpuTel.Pipeline.Answers

/-!
# The two endpoints of a sink

The list of GPUs and the telemetry of one of them are read from different maps of the storage, and
show the same records.
-/

set_option autoImplicit false

namespace GpuTel

open GpuTel.Mq GpuTel.Telemetry Fifo Transition

namespace Pipeline

variable {env : Environment} {p : Pipeline} {es : List PipelineEvent} {k : Nat} {sink : Sink}

def listing (sink : Sink) (order : List String) : Nat × Except Api.ErrorResponse (List Api.GPU) :=
  Api.listGPUs (.ok (sink.storage.listGPUs order))

/-- A request with a window that covers the time of a record. -/
structure Covers (timeParse : String → Except String Time) (now : Time) (query : Api.Query)
    (t : GPUTelemetry) : Prop where
  accepted : ¬ Api.Rejected timeParse now query
  window : MemoryStorage.InWindow (Api.resolvedStart timeParse now query)
    (Api.resolvedEnd timeParse now query) t

theorem shown_of_covers {log : List GPUTelemetry}
    (hindex : MemoryStorage.Indexes log sink.storage) {t : GPUTelemetry} (ht : t ∈ log)
    (hid : t.uuid ≠ "") (sortSlice : Sorting MemoryStorage.earlier)
    {timeParse : String → Except String Time} {now : Time} {query : Api.Query}
    (hcovers : Covers timeParse now query t) :
    ∃ result, answer sortSlice timeParse now t.uuid query sink = ⟨200, .telemetry result⟩ ∧
      ∃ r ∈ result, Api.Unchanged r t := by
  have hanswer := congrArg Prod.snd (Api.getGPUTelemetry_of_window sortSlice sink.storage timeParse
    now query hid hcovers.accepted)
  refine ⟨_, hanswer, Api.convert t, ?_, Api.unchanged_convert t⟩
  refine (answer_perm hindex hanswer).mem_iff.mpr (List.mem_map_of_mem ?_)
  exact List.mem_filter.mpr ⟨ht, decide_eq_true ⟨rfl, hcovers.window⟩⟩

/-- In every run of the pipeline and for every order of the map, a sink lists every GPU once, with
the attributes of a record that was streamed. This record is shown to every request for the GPU that
covers its time, unless the uuid is empty, which the other endpoint refuses; and whatever that
endpoint shows is of a GPU that is listed. -/
theorem endpoints_agree (hrun : (pipeline env).Run init es p) (hsink : p.sinks k = some sink)
    {order : List String} (horder : Enumerates order sink.storage.gpus.keys) :
    ∃ gpus, listing sink order = (200, .ok gpus) ∧ (gpus.map Api.GPU.uuid).Nodup ∧
      (∀ gpu ∈ gpus, ∃ t ∈ ((pipeline env).trace (streamed env) init es).flatten,
        (gpu.uuid = t.uuid ∧ gpu.gpuIndex = t.gpuIndex ∧ gpu.device = t.device ∧
          gpu.hostname = t.hostname) ∧
        (gpu.uuid ≠ "" → ∀ sortSlice timeParse now query, Covers timeParse now query t →
          ∃ result, answer sortSlice timeParse now gpu.uuid query sink =
            ⟨200, .telemetry result⟩ ∧ ∃ r ∈ result, Api.Unchanged r t)) ∧
      ∀ sortSlice timeParse now gpuID query result,
        answer sortSlice timeParse now gpuID query sink = ⟨200, .telemetry result⟩ →
        ∀ r ∈ result, r.uuid = gpuID ∧ gpuID ∈ gpus.map Api.GPU.uuid := by
  obtain ⟨log, hindex, hsuffix⟩ := logs_run hrun k sink hsink
  have hstreamed : log.Subperm ((pipeline env).trace (streamed env) init es).flatten :=
    subperm_streamed hrun hsuffix
  have huuids : ((sink.storage.listGPUs order).map Api.convertGPU).map Api.GPU.uuid =
      (sink.storage.listGPUs order).map Telemetry.GPU.uuid := List.map_map
  refine ⟨_, rfl, ?_, ?_, ?_⟩
  · rw [huuids]
    exact (Api.map_uuid_sublist hindex order).nodup horder.nodup
  · intro gpu hgpu
    obtain ⟨stored, hstored, rfl⟩ := List.mem_map.mp hgpu
    obtain ⟨t, ht, rfl, -⟩ := Api.exists_record hindex hstored
    refine ⟨t, hstreamed.subset ht, ⟨rfl, rfl, rfl, rfl⟩, ?_⟩
    intro hid sortSlice timeParse now query hcovers
    exact shown_of_covers hindex ht hid sortSlice hcovers
  · intro sortSlice timeParse now gpuID query result hanswer r hr
    obtain ⟨t, ht, rfl⟩ := List.mem_map.mp ((answer_perm hindex hanswer).mem_iff.mp hr)
    obtain ⟨hlog, hrequested⟩ := List.mem_filter.mp ht
    have huuid : t.uuid = gpuID := (of_decide_eq_true hrequested).1
    refine ⟨huuid, ?_⟩
    rw [huuids, ← huuid]
    exact Api.listed_of_record hindex horder hlog

theorem endpoints_agree_twoSinks : ∃ p sink, (pipeline oneEnvironment).Run init twoSinks p ∧
    p.sinks 0 = some sink ∧ Shows 2 sink ∧
    listing sink ["a"] = (200, .ok [⟨"a", "0", "nvidia0", "host"⟩]) ∧
    ∃ t ∈ ((pipeline oneEnvironment).trace (streamed oneEnvironment) init twoSinks).flatten,
      "a" = t.uuid ∧ "0" = t.gpuIndex ∧ "nvidia0" = t.device ∧ "host" = t.hostname := by
  obtain ⟨p, hrun, ⟨sink, hsink, horder, hshows, hlist⟩⟩ :=
    Machine.exists_run (M := pipeline oneEnvironment) (fun p => ∃ sink ∈ p.sinks 0,
      Enumerates ["a"] sink.storage.gpus.keys ∧ Shows 2 sink ∧
      sink.storage.listGPUs ["a"] = [⟨"a", "0", "nvidia0", "host"⟩]) init twoSinks
      (by decide +kernel)
  have hlisting : listing sink ["a"] = (200, .ok [⟨"a", "0", "nvidia0", "host"⟩]) := by
    rw [listing, hlist]
    rfl
  obtain ⟨gpus, hgpus, -, hattributes, -⟩ := endpoints_agree hrun hsink horder
  obtain rfl := Except.ok.inj (congrArg Prod.snd (hgpus.symm.trans hlisting))
  obtain ⟨t, ht, hsame, -⟩ := hattributes _ (List.mem_singleton_self _)
  exact ⟨p, sink, hrun, hsink, hshows, hlisting, t, ht, hsame⟩

end Pipeline

end GpuTel
