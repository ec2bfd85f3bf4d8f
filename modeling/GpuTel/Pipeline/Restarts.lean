import GpuTel.Lib.Resets
import GpuTel.Pipeline.Answers

/-!
# Restarts of the queue

The process of the queue may end at any moment: its `main` returns as soon as it has cancelled the
context of the server, and waits neither for the handlers nor for the store. The one that takes its
place starts from nothing. The streamers and the sinks go on.
-/

set_option autoImplicit false

namespace GpuTel

open GpuTel.Mq GpuTel.Telemetry Fifo Transition Transition.Machine

namespace Pipeline

/-- Another process takes the place of the queue, and the sinks have lost their streams. -/
def restartQueue (p : Pipeline) : Pipeline :=
  { p with
    queue := .init
    sinks := fun k => (p.sinks k).map fun sink => { sink with connection := none } }

end Pipeline

def deployment (env : Environment) : Machine Pipeline (WithReset PipelineEvent) Fault :=
  (pipeline env).resetting Pipeline.restartQueue

instance (env : Environment) (p : Pipeline) :
    (e : WithReset PipelineEvent) → Decidable ((deployment env).guard p e)
  | .label e => inferInstanceAs (Decidable (p.guard env e))
  | .reset => .isTrue trivial

namespace Pipeline

variable {env : Environment} {p₀ p : Pipeline}

theorem launched_restartQueue (p : Pipeline) : p.restartQueue.Launched := by
  refine ⟨rfl, fun k => ?_⟩
  cases hsink : p.sinks k <;> simp [restartQueue, connection, hsink]

theorem logs_restartQueue {past : Nat → List GPUTelemetry} (h : Logs past p) :
    Logs past p.restartQueue := by
  intro k sink hsink
  obtain ⟨old, hold, rfl⟩ := Option.map_eq_some_iff.mp hsink
  exact h k old hold

/-- There is one order of the records streamed, of which every sink collects a part, and its storage
is the index of what it collected since it was started. -/
def Ordered (env : Environment) (p₀ : Pipeline) (es : List (WithReset PipelineEvent))
    (p : Pipeline) : Prop :=
  ∀ past, Logs past p₀ → ∃ order : List GPUTelemetry,
    order.Subperm ((deployment env).trace (betweenResets (streamed env)) p₀ es).flatten ∧
    (∀ k, (((deployment env).trace (betweenResets (collected env k)) p₀ es).flatten).Sublist
      order) ∧
    Logs (fun k => past k ++
      ((deployment env).trace (betweenResets (collected env k)) p₀ es).flatten) p

theorem ordered_epoch {es : List PipelineEvent} (h₀ : p₀.Launched)
    (hrun : (pipeline env).Run p₀ es p) : Ordered env p₀ (es.map .label) p := by
  intro past hpast
  simp only [deployment, trace_labels]
  exact ⟨order env p₀ es, order_subperm h₀ hrun, collected_sublist h₀ hrun, logs_append hpast hrun⟩

theorem ordered_append {es : List PipelineEvent} {m : Pipeline}
    {rest : List (WithReset PipelineEvent)} (h₀ : p₀.Launched)
    (hrun : (pipeline env).Run p₀ es m) (h : Ordered env m.restartQueue rest p) :
    Ordered env p₀ (es.map .label ++ .reset :: rest) p := by
  intro past hpast
  obtain ⟨later, hlater, hcollected, hlogs⟩ :=
    h _ (logs_restartQueue (logs_append hpast hrun))
  simp only [deployment, trace_epoch _ hrun, List.flatten_append]
  refine ⟨order env p₀ es ++ later, (order_subperm h₀ hrun).append hlater, ?_, ?_⟩
  · intro k
    exact (collected_sublist h₀ hrun k).append (hcollected k)
  · intro k sink hsink
    obtain ⟨log, hindex, hsuffix⟩ := hlogs k sink hsink
    exact ⟨log, hindex, by simpa only [deployment, List.append_assoc] using hsuffix⟩

theorem ordered_run {es : List (WithReset PipelineEvent)} (h₀ : p₀.Launched)
    (hrun : (deployment env).Run p₀ es p) : Ordered env p₀ es p := by
  refine Run.epochs (I := Launched) (P := fun p₀ es p => Ordered env p₀ es p) ?_ ?_ ?_ hrun h₀
  · intro _ _ m _ _
    exact launched_restartQueue m
  · intro p₀ es p h₀ hes
    exact ordered_epoch h₀ hes
  · intro p₀ es m rest p h₀ hes h
    exact ordered_append h₀ hes h

/-- In every run of the pipeline in which the queue crashes and is restarted at any moments, there
is still one order of records, each streamed and none more often than it was streamed, of which
every sink collects a part in this order, over all its connections, all its starts and all queues.
Whatever a sink answers to a request are records that it collected, none more often than it did. -/
theorem order_across_restarts {es : List (WithReset PipelineEvent)}
    (hrun : (deployment env).Run init es p) : ∃ order : List GPUTelemetry,
      order.Subperm ((deployment env).trace (betweenResets (streamed env)) init es).flatten ∧
      ∀ k, (((deployment env).trace (betweenResets (collected env k)) init es).flatten).Sublist
          order ∧
        ∀ sink sortSlice timeParse now gpuID query result, p.sinks k = some sink →
          answer sortSlice timeParse now gpuID query sink = ⟨200, .telemetry result⟩ →
          ∃ records, List.Forall₂ Api.Unchanged result records ∧
            records.Subperm (((deployment env).trace (betweenResets (collected env k)) init
              es).flatten.filter (Requested timeParse now gpuID query)) := by
  obtain ⟨order, hstreamed, hcollected, hlogs⟩ :=
    ordered_run launched_init hrun _ (logs_init fun _ => [])
  refine ⟨order, hstreamed, fun k => ⟨hcollected k, ?_⟩⟩
  intro sink sortSlice timeParse now gpuID query result hsink hanswer
  obtain ⟨log, hindex, hsuffix⟩ := hlogs k sink hsink
  have hlog := hsuffix.sublist.filter fun t => decide (Requested timeParse now gpuID query t)
  obtain ⟨records, rfl, hperm⟩ := exists_records hindex hanswer
  exact ⟨records, Api.unchanged_map_convert records, hperm.subperm.trans hlog.subperm⟩

/-- The queue is restarted after the two records, and the first sink collects a third one. -/
def crashed : List (WithReset PipelineEvent) :=
  twoSinks.map .label ++ .reset :: afterwards.map .label
where
  afterwards : List PipelineEvent :=
    [.connect 0 "", .queue (.handler (.subscribe 0))] ++ publishOne 0 [0] ++ deliver 0 0 true

theorem order_across_restarts_crashed : ∃ p sink,
    (deployment oneEnvironment).Run init crashed p ∧ p.sinks 0 = some sink ∧ Shows 3 sink ∧
    ∃ records, List.Forall₂ Api.Unchanged (List.replicate 3 (Api.oneEntry "a")) records ∧
      records.Subperm (((deployment oneEnvironment).trace
        (betweenResets (collected oneEnvironment 0)) init crashed).flatten.filter
          (Requested Api.parseSeconds ⟨0, 0⟩ "a" Api.firstSecond)) := by
  obtain ⟨p, hrun, hshows⟩ := Machine.exists_run (M := deployment oneEnvironment)
    (fun p => ∃ sink ∈ p.sinks 0, Shows 3 sink) init crashed (by decide +kernel)
  obtain ⟨sink, hsink, hanswer⟩ := hshows
  obtain ⟨order, -, hsinks⟩ := order_across_restarts hrun
  exact ⟨p, sink, hrun, hsink, hanswer, (hsinks 0).2 sink _ _ _ _ _ _ hsink hanswer⟩

end Pipeline

end GpuTel
