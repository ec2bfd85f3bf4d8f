import GpuTel.Pipeline.Broadcast
import GpuTel.Telemetry.StorageLaws

/-!
# What the API of a sink answers

An answer shows streamed records only, none more often than it was streamed; and as long as the sink
is not started again, what it has answered once it answers again.
-/

set_option autoImplicit false

namespace GpuTel

open GpuTel.Mq GpuTel.Telemetry Fifo Transition

namespace Pipeline

variable {env : Environment} {p q : Pipeline} {es fs : List PipelineEvent}

section Answer

variable (sortSlice : Sorting MemoryStorage.earlier) (timeParse : String → Except String Time)
variable (now : Time) (gpuID : String) (query : Api.Query)

def answer (sink : Sink) : Api.Response :=
  (Api.getGPUTelemetry (Api.ofMemory sortSlice sink.storage) timeParse now gpuID query).2

/-- The record is of the GPU and in the window of the request. -/
def Requested (t : GPUTelemetry) : Prop :=
  t.uuid = gpuID ∧ MemoryStorage.InWindow (Api.resolvedStart timeParse now query)
    (Api.resolvedEnd timeParse now query) t

instance : DecidablePred (Requested timeParse now gpuID query) :=
  fun _ => inferInstanceAs (Decidable (_ ∧ _))

variable {sortSlice timeParse now gpuID query}

theorem exists_records {sink : Sink} {log : List GPUTelemetry}
    (hindex : MemoryStorage.Indexes log sink.storage) {result : List Api.Telemetry}
    (h : answer sortSlice timeParse now gpuID query sink = ⟨200, .telemetry result⟩) :
    ∃ records : List GPUTelemetry, result = records.map Api.convert ∧
      records.Perm (log.filter (Requested timeParse now gpuID query)) := by
  have hid : gpuID ≠ "" := by
    rintro rfl
    simp [answer, Api.getGPUTelemetry, Api.sendError] at h
  have hwindow : ¬ Api.Rejected timeParse now query := by
    intro hrejected
    obtain ⟨err, heq⟩ :=
      Api.getGPUTelemetry_of_rejected sortSlice sink.storage timeParse now query hid hrejected
    rw [answer, heq] at h
    simp [Api.sendError] at h
  rw [answer, Api.getGPUTelemetry_of_window sortSlice sink.storage timeParse now query hid
    hwindow] at h
  obtain rfl := Api.Body.telemetry.inj (congrArg Api.Response.body h)
  refine ⟨_, rfl, (sortSlice.perm _).trans (List.Perm.of_eq ?_)⟩
  exact MemoryStorage.filter_records hindex gpuID _ _

theorem answer_perm {sink : Sink} {log : List GPUTelemetry}
    (hindex : MemoryStorage.Indexes log sink.storage) {result : List Api.Telemetry}
    (h : answer sortSlice timeParse now gpuID query sink = ⟨200, .telemetry result⟩) :
    result.Perm ((log.filter (Requested timeParse now gpuID query)).map Api.convert) := by
  obtain ⟨records, rfl, hperm⟩ := exists_records hindex h
  exact hperm.map Api.convert

end Answer

variable {sortSlice : Sorting MemoryStorage.earlier} {timeParse : String → Except String Time}
variable {now : Time} {gpuID : String} {query : Api.Query} {k : Nat} {sink sink' : Sink}

/-- In every run of the pipeline, whatever a sink answers to a request are records of the requested
GPU and window that were streamed, and none is shown more often than it was streamed. -/
theorem answer_subperm_streamed (hrun : (pipeline env).Run init es p)
    (hsink : p.sinks k = some sink) {result : List Api.Telemetry}
    (h : answer sortSlice timeParse now gpuID query sink = ⟨200, .telemetry result⟩) :
    ∃ records, List.Forall₂ Api.Unchanged result records ∧
      records.Subperm (((pipeline env).trace (streamed env) init es).flatten.filter
        (Requested timeParse now gpuID query)) := by
  obtain ⟨log, hindex, hsuffix⟩ := logs_run hrun k sink hsink
  have hlog : log.Subperm ((pipeline env).trace (streamed env) init es).flatten :=
    subperm_streamed hrun hsuffix
  obtain ⟨records, rfl, hperm⟩ := exists_records hindex h
  exact ⟨records, Api.unchanged_map_convert records, hperm.subperm.trans (hlog.filter _)⟩

/-- Who asks for the first second is shown the record `n` times. -/
def Shows (n : Nat) (sink : Sink) : Prop :=
  answer MemoryStorage.byTimestamp Api.parseSeconds ⟨0, 0⟩ "a" Api.firstSecond sink =
    ⟨200, .telemetry (List.replicate n (Api.oneEntry "a"))⟩

instance (n : Nat) (sink : Sink) : Decidable (Shows n sink) := inferInstanceAs (Decidable (_ = _))

theorem answer_subperm_streamed_twoSinks : ∃ p sink,
    (pipeline oneEnvironment).Run init twoSinks p ∧ p.sinks 0 = some sink ∧ Shows 2 sink ∧
    ∃ records, List.Forall₂ Api.Unchanged (List.replicate 2 (Api.oneEntry "a")) records ∧
      records.Subperm
        (((pipeline oneEnvironment).trace (streamed oneEnvironment) init twoSinks).flatten.filter
          (Requested Api.parseSeconds ⟨0, 0⟩ "a" Api.firstSecond)) := by
  obtain ⟨p, hrun, hshows⟩ := Machine.exists_run (M := pipeline oneEnvironment)
    (fun p => ∃ sink ∈ p.sinks 0, Shows 2 sink) init twoSinks (by decide +kernel)
  obtain ⟨sink, hsink, hanswer⟩ := hshows
  exact ⟨p, sink, hrun, hsink, hanswer, answer_subperm_streamed hrun hsink hanswer⟩

theorem storage_of_kept (hrun : (pipeline env).Run p fs q)
    (hstart : ∀ config consumerGroup host, .startSink k config consumerGroup host ∉ fs)
    (hsink : p.sinks k = some sink) (hsink' : q.sinks k = some sink') : sink'.storage =
      ((pipeline env).trace (collected env k) p fs).flatten.foldl MemoryStorage.storeRecord
        sink.storage := by
  refine hrun.history (H := fun fs q =>
    (∀ config consumerGroup host, .startSink k config consumerGroup host ∉ fs) →
    ∀ s, q.sinks k = some s → s.storage = ((pipeline env).trace (collected env k) p
      fs).flatten.foldl MemoryStorage.storeRecord sink.storage) ?_ ?_ hstart sink' hsink'
  · intro _ s hs
    obtain rfl := Option.some.inj (hsink.symm.trans hs)
    rfl
  · intro fs m e r hm ih hst hno s hs
    rw [hm.trace_snoc _ hst, List.flatten_append, List.foldl_append]
    cases step_keeps hst hs with
    | new hnew =>
      subst hnew
      exact absurd (List.mem_append_right fs (List.mem_singleton_self _)) (hno _ _ _)
    | @add _ old batches hold _ _ hstorage hcollected =>
      have hold' := ih (fun config consumerGroup host hmem =>
        hno config consumerGroup host (List.mem_append_left [e] hmem)) old hold
      rw [hstorage, hcollected, hold', MemoryStorage.foldl_store]

theorem foldl_storeRecord_indexes {log : List GPUTelemetry} {m : MemoryStorage}
    (h : MemoryStorage.Indexes log m) (rs : List GPUTelemetry) :
    MemoryStorage.Indexes (log ++ rs) (rs.foldl MemoryStorage.storeRecord m) := by
  induction rs generalizing log m with
  | nil => simpa using h
  | cons r rs ih =>
    have hrest := ih (h.storeRecord r)
    rwa [List.append_assoc] at hrest

theorem indexes_of_kept (hrun : (pipeline env).Run p fs q)
    (hstart : ∀ config consumerGroup host, .startSink k config consumerGroup host ∉ fs)
    (hsink : p.sinks k = some sink) {log : List GPUTelemetry}
    (hindex : MemoryStorage.Indexes log sink.storage) (hsink' : q.sinks k = some sink') :
    MemoryStorage.Indexes (log ++ ((pipeline env).trace (collected env k) p fs).flatten)
      sink'.storage := by
  rw [storage_of_kept hrun hstart hsink hsink']
  exact foldl_storeRecord_indexes hindex _

/-- What a sink has answered it shows again, to every later request that covers the first one, until
it is started again. -/
theorem answer_monotone (hrun : (pipeline env).Run init es p) (hafter : (pipeline env).Run p fs q)
    (hstart : ∀ config consumerGroup host, .startSink k config consumerGroup host ∉ fs)
    (hsink : p.sinks k = some sink) (hsink' : q.sinks k = some sink')
    {sortSlice' : Sorting MemoryStorage.earlier} {timeParse' : String → Except String Time}
    {now' : Time} {query' : Api.Query} (hcovers : ∀ t, Requested timeParse now gpuID query t →
      Requested timeParse' now' gpuID query' t) {result result' : List Api.Telemetry}
    (h : answer sortSlice timeParse now gpuID query sink = ⟨200, .telemetry result⟩)
    (h' : answer sortSlice' timeParse' now' gpuID query' sink' = ⟨200, .telemetry result'⟩) :
    result.Subperm result' := by
  obtain ⟨log, hindex, -⟩ := logs_run hrun k sink hsink
  have hindex' := indexes_of_kept hafter hstart hsink hindex hsink'
  generalize ((pipeline env).trace (collected env k) p fs).flatten = new at hindex'
  have hcovered : (log.filter (Requested timeParse now gpuID query)).Sublist
      (log.filter (Requested timeParse' now' gpuID query')) := by
    apply List.monotone_filter_right log
    intro t ht
    exact decide_eq_true (hcovers t (of_decide_eq_true ht))
  have hsub := (hcovered.trans ((List.sublist_append_left log new).filter _)).map Api.convert
  exact (answer_perm hindex h).subperm.trans
    (hsub.subperm.trans (answer_perm hindex' h').symm.subperm)

theorem answer_monotone_twoSinks : ∃ p q sink sink', (pipeline oneEnvironment).Run init
      (twoSinks.take 14) p ∧ (pipeline oneEnvironment).Run p (twoSinks.drop 14) q ∧
    p.sinks 0 = some sink ∧ q.sinks 0 = some sink' ∧ Shows 1 sink ∧ Shows 2 sink' ∧
    (List.replicate 1 (Api.oneEntry "a")).Subperm (List.replicate 2 (Api.oneEntry "a")) := by
  obtain ⟨p, q, hp, hq, ⟨sink, hsink, hshows⟩, sink', hsink', hshows'⟩ :=
    Machine.exists_run_run (M := pipeline oneEnvironment) (fun p q =>
      (∃ sink ∈ p.sinks 0, Shows 1 sink) ∧ ∃ sink ∈ q.sinks 0, Shows 2 sink) init
      (twoSinks.take 14) (twoSinks.drop 14) (by decide +kernel)
  refine ⟨p, q, sink, sink', hp, hq, hsink, hsink', hshows, hshows', ?_⟩
  refine answer_monotone hp hq ?_ hsink hsink' (fun t ht => ht) hshows hshows'
  simp [twoSinks, startSink, publishOne, deliver]

end Pipeline

end GpuTel
