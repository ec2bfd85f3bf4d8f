import GpuTel.Lib.Windows
import GpuTel.Pipeline.Answers

/-!
# Asking again and again

A client that asks a sink for one window after another is shown no record twice. It misses exactly
those that the sink collects too late: after the request whose window they are in.
-/

set_option autoImplicit false

namespace GpuTel

open GpuTel.Mq GpuTel.Telemetry Fifo Transition

namespace Pipeline

/-- A request for telemetry and its answer, after so many labels of a run. -/
structure Poll where
  labels : Nat
  sortSlice : Sorting MemoryStorage.earlier
  now : Time
  query : Api.Query
  result : List Api.Telemetry

section Polls

variable (env : Environment) (timeParse : String → Except String Time) (k : Nat) (gpuID : String)

def Poll.Selects (poll : Poll) (t : GPUTelemetry) : Prop :=
  Requested timeParse poll.now gpuID poll.query t

instance (poll : Poll) : DecidablePred (poll.Selects timeParse gpuID) :=
  inferInstanceAs (DecidablePred (Requested timeParse poll.now gpuID poll.query))

def Poll.Answered (p : Pipeline) (es : List PipelineEvent) (poll : Poll) : Prop :=
  ∃ m sink, (pipeline env).Run p (es.take poll.labels) m ∧ m.sinks k = some sink ∧
    answer poll.sortSlice timeParse poll.now gpuID poll.query sink = ⟨200, .telemetry poll.result⟩

def Poll.before (p : Pipeline) (es : List PipelineEvent) (poll : Poll) : List GPUTelemetry :=
  ((pipeline env).trace (collected env k) p (es.take poll.labels)).flatten

def Poll.Late (p : Pipeline) (es : List PipelineEvent) (poll : Poll) (t : GPUTelemetry) : Prop :=
  ∃ m, (pipeline env).Run p (es.take poll.labels) m ∧
    t ∈ ((pipeline env).trace (collected env k) m (es.drop poll.labels)).flatten

end Polls

variable {env : Environment} {p q : Pipeline} {es after : List PipelineEvent} {k : Nat}
variable {sink sink' : Sink} {timeParse : String → Except String Time} {gpuID : String}

theorem collected_split (poll : Poll) {m : Pipeline}
    (hm : (pipeline env).Run p (after.take poll.labels) m) :
    ((pipeline env).trace (collected env k) p after).flatten = poll.before env k p after ++
      ((pipeline env).trace (collected env k) m (after.drop poll.labels)).flatten := by
  rw [Poll.before, ← List.flatten_append, ← hm.trace_append, List.take_append_drop]

def Poll.read (env : Environment) (timeParse : String → Except String Time) (k : Nat)
    (gpuID : String) (log : List GPUTelemetry) (p : Pipeline) (es : List PipelineEvent)
    (poll : Poll) : Windows.Read GPUTelemetry :=
  ⟨log ++ poll.before env k p es, poll.Selects timeParse gpuID⟩

section After

variable (hstart : ∀ config consumerGroup host, .startSink k config consumerGroup host ∉ after)
variable (hsink : p.sinks k = some sink)
include hstart hsink

theorem result_perm {log : List GPUTelemetry} (hindex : MemoryStorage.Indexes log sink.storage)
    {poll : Poll} (h : poll.Answered env timeParse k gpuID p after) :
    poll.result.Perm ((poll.read env timeParse k gpuID log p after).result.map Api.convert) := by
  obtain ⟨m, sink₁, hm, hsink₁, hanswer⟩ := h
  have hno : ∀ config consumerGroup host,
      .startSink k config consumerGroup host ∉ after.take poll.labels := by
    intro config consumerGroup host hmem
    exact hstart config consumerGroup host (List.mem_of_mem_take hmem)
  exact answer_perm (indexes_of_kept hm hno hsink hindex hsink₁) hanswer

/-- What a sink that is not started again answers to requests for parts that are apart from each
other, and that make up a last request: no record is shown more often than in the last answer, and
all of them are shown as often if and only if the sink collects none of them too late. -/
theorem polled_once (hrun : (pipeline env).Run init es p)
    (hafter : (pipeline env).Run p after q) {polls : List Poll}
    (hpolls : ∀ poll ∈ polls, poll.Answered env timeParse k gpuID p after)
    (hapart : polls.Pairwise fun a b => ∀ t,
      ¬ (a.Selects timeParse gpuID t ∧ b.Selects timeParse gpuID t))
    (hsink' : q.sinks k = some sink') {whole : Poll}
    (hwhole : ∀ t, whole.Selects timeParse gpuID t ↔
      ∃ poll ∈ polls, poll.Selects timeParse gpuID t)
    (h : answer whole.sortSlice timeParse whole.now gpuID whole.query sink' =
      ⟨200, .telemetry whole.result⟩) :
    (polls.flatMap Poll.result).Subperm whole.result ∧
      ((polls.flatMap Poll.result).Perm whole.result ↔
        ∀ poll ∈ polls, ∀ t, poll.Late env k p after t → ¬ poll.Selects timeParse gpuID t) := by
  obtain ⟨log, hindex, -⟩ := logs_run hrun k sink hsink
  have hlast := answer_perm (indexes_of_kept hafter hstart hsink hindex hsink') h
  have hreads : (polls.flatMap Poll.result).Perm (((polls.map
      (Poll.read env timeParse k gpuID log p after)).flatMap Windows.Read.result).map
        Api.convert) := by
    rw [List.flatMap_map, List.map_flatMap]
    apply List.Perm.flatMap_left
    intro poll hpoll
    exact result_perm hstart hsink hindex (hpolls poll hpoll)
  have hseen : ∀ r ∈ polls.map (Poll.read env timeParse k gpuID log p after),
      r.seen <+: log ++ ((pipeline env).trace (collected env k) p after).flatten := by
    intro r hr
    obtain ⟨poll, hpoll, rfl⟩ := List.mem_map.mp hr
    obtain ⟨m, -, hm, -⟩ := hpolls poll hpoll
    rw [collected_split poll hm, ← List.append_assoc]
    exact List.prefix_append _ _
  obtain ⟨hsub, hlen⟩ := Windows.reads_of_log hseen (List.pairwise_map.mpr hapart)
    (whole.Selects timeParse gpuID) (by simpa [Poll.read] using hwhole)
  have hsub' := hreads.subperm.trans ((subperm_map Api.convert hsub).trans hlast.symm.subperm)
  refine ⟨hsub', ?_⟩
  have hiff : (polls.flatMap Poll.result).Perm whole.result ↔
      (polls.flatMap Poll.result).length = whole.result.length :=
    ⟨List.Perm.length_eq, fun heq => hsub'.perm_of_length_le heq.ge⟩
  rw [hiff, hreads.length_eq, hlast.length_eq, List.length_map, List.length_map]
  refine hlen.trans ?_
  rw [List.forall_mem_map]
  apply forall₂_congr
  intro poll hpoll
  obtain ⟨m, -, hm, -⟩ := hpolls poll hpoll
  rw [collected_split poll hm, ← List.append_assoc]
  simp only [Poll.read, List.drop_left]
  constructor
  · rintro hnone t ⟨m', hm', ht⟩
    obtain rfl := hm.det hm'
    exact hnone t ht
  · intro hnone t ht
    exact hnone t ⟨m, hm, ht⟩

end After

/-- The second record arrives after the request. -/
def early (result : List Api.Telemetry) : Poll :=
  ⟨0, MemoryStorage.byTimestamp, ⟨0, 0⟩, Api.firstSecond, result⟩

theorem polled_once_twoSinks : ∃ p q, (pipeline oneEnvironment).Run init (twoSinks.take 14) p ∧
    (pipeline oneEnvironment).Run p (twoSinks.drop 14) q ∧ ∃ t,
      (early []).Late oneEnvironment 0 p (twoSinks.drop 14) t ∧
      Requested Api.parseSeconds ⟨0, 0⟩ "a" Api.firstSecond t := by
  obtain ⟨p, q, hp, hq, ⟨sink, hsink, hshows⟩, sink', hsink', hshows'⟩ :=
    Machine.exists_run_run (M := pipeline oneEnvironment) (fun p q =>
      (∃ sink ∈ p.sinks 0, Shows 1 sink) ∧ ∃ sink ∈ q.sinks 0, Shows 2 sink) init
      (twoSinks.take 14) (twoSinks.drop 14) (by decide +kernel)
  have hpoll : (early (List.replicate 1 (Api.oneEntry "a"))).Answered
      oneEnvironment Api.parseSeconds 0 "a" p (twoSinks.drop 14) :=
    ⟨p, sink, .nil p, hsink, hshows⟩
  have hwhole : ∀ t, (early (List.replicate 2 (Api.oneEntry "a"))).Selects
      Api.parseSeconds "a" t ↔
      ∃ poll ∈ [early (List.replicate 1 (Api.oneEntry "a"))],
        poll.Selects Api.parseSeconds "a" t := by
    simp [early, Poll.Selects]
  obtain ⟨-, hiff⟩ := polled_once (k := 0) (by simp [twoSinks, startSink, publishOne, deliver])
    hsink hp hq (List.forall_mem_singleton.mpr hpoll) (List.pairwise_singleton _ _) hsink'
    hwhole hshows'
  refine ⟨p, q, hp, hq, ?_⟩
  by_contra hnone
  have hperm := hiff.mpr (by
    intro poll hmem t hlate hsel
    obtain rfl := List.mem_singleton.mp hmem
    exact hnone ⟨t, hlate, hsel⟩)
  simpa [early] using hperm.length_eq

end Pipeline

end GpuTel
