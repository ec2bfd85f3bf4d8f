import GpuTel.Pipeline.Answers
import GpuTel.Pipeline.KeepingUp

/-!
# When an answer is complete

What a sink collected on its connection is the last part of what it holds. A sink without a backlog
therefore holds every record that was offered to its stream, and shows it.
-/

set_option autoImplicit false

namespace GpuTel

open GpuTel.Mq GpuTel.Telemetry Fifo Transition

namespace Pipeline

variable {env : Environment} {p q : Pipeline} {es : List PipelineEvent} {e : PipelineEvent}
variable {k i ch : Nat} {sink : Sink}

/-- The log of a storage ends with what was collected on the connection of its sink. -/
def EndsWithConnection (env : Environment) (es : List PipelineEvent) (p : Pipeline) : Prop :=
  ∀ k sink, p.sinks k = some sink → ∃ log, MemoryStorage.Indexes log sink.storage ∧
    ∀ c, sink.connection = some c →
      ((pipeline env).trace (collectedFrom env k c.stream) init es).flatten <:+ log

theorem collected_of_not_recv (h : ∀ reply, e ≠ .recv k reply) : collected env k p e = none := by
  cases e with
  | recv j reply =>
    have hne : j ≠ k := fun heq => h reply (by rw [heq])
    simp [collected, hne]
  | _ => rfl

theorem collectedFrom_of_not_recv (h : ∀ reply, e ≠ .recv k reply) (i : Nat) :
    collectedFrom env k i p e = none := by
  simp [collectedFrom, collected_of_not_recv h]

theorem connection_of_sink (hsink : p.sinks k = some sink) :
    p.connection k = sink.connection := by
  rw [connection, hsink, Option.bind_some]

theorem endsWithConnection_step (hrun : (pipeline env).Run init es p)
    (ih : EndsWithConnection env es p) (hst : (pipeline env).Step p e q) :
    EndsWithConnection env (es ++ [e]) q := by
  intro k sink hsink
  have hlink := step_link hst k
  rw [connection_of_sink hsink] at hlink
  cases step_keeps hst hsink with
  | new hstart =>
    refine ⟨[], MemoryStorage.indexes_new, ?_⟩
    intro c hc
    cases hc
  | @add _ old batches hold _ _ hstorage hcollected =>
    obtain ⟨log, hindex, hends⟩ := ih k old hold
    refine ⟨log ++ batches.flatMap TelemetryBatch.telemetry, ?_, ?_⟩
    · rw [hstorage]
      exact foldl_store_indexes hindex batches
    · intro c hc
      rw [hrun.trace_snoc _ hst, List.flatten_append, ← hcollected]
      rw [hc] at hlink
      generalize hsome : some c = link at hlink
      cases hlink with
      | keep hrecv =>
        rw [collectedFrom_of_not_recv hrecv, collected_of_not_recv hrecv]
        simp only [Option.toList_none, List.flatten_nil, List.append_nil]
        exact hends c ((connection_of_sink hold).symm.trans hsome.symm)
      | lose hrecv => cases hsome
      | connect hnone =>
        obtain rfl := Option.some.inj hsome
        have hfresh := (readsInOrder_run hrun).fresh (k := k) (Nat.le_refl _)
        rw [collectedFrom_of_not_recv (by simp), collectedFrom_eq hrun, hfresh]
        exact List.nil_suffix
      | @recv reply old' r hc' hr =>
        obtain rfl := Option.some.inj hsome
        have hsame : collectedFrom env k old'.stream p (.recv k reply) =
            collected env k p (.recv k reply) := by simp [collectedFrom, hc']
        obtain ⟨before, hbefore⟩ := hends old' ((connection_of_sink hold).symm.trans hc')
        rw [hsame]
        exact ⟨before, by rw [← List.append_assoc, hbefore]⟩

theorem endsWithConnection_run (hrun : (pipeline env).Run init es p) :
    EndsWithConnection env es p := by
  refine hrun.history (H := EndsWithConnection env) ?_ ?_
  · intro k sink hsink
    cases hsink
  · intro es m e q hm ih hst
    exact endsWithConnection_step hm ih hst

variable {sortSlice : Sorting MemoryStorage.earlier} {timeParse : String → Except String Time}
variable {now : Time} {gpuID : String} {query : Api.Query}

/-- In every run of the pipeline, a sink that is connected and has no backlog shows, to every
request that it accepts, all the requested records that were offered to its stream, each as often at
least, provided no `Send` on the stream failed. -/
theorem answer_complete (hrun : (pipeline env).Run init es p) (hsink : p.sinks k = some sink)
    (hsteady : Steady k i ch p) (hzero : p.backlog k = 0) {result : List Api.Telemetry}
    (h : answer sortSlice timeParse now gpuID query sink = ⟨200, .telemetry result⟩) :
    ∃ records, List.Forall₂ Api.Unchanged result records ∧
      ((((pipeline env).trace (offered env i) init es).filterMap (decodePayload env)).filter
        (Requested timeParse now gpuID query)).Subperm records := by
  obtain ⟨n, hn⟩ := hsteady.connection
  obtain ⟨log, hindex, hends⟩ := endsWithConnection_run hrun k sink hsink
  have hsuffix := hends ⟨i, n⟩ ((connection_of_sink hsink).symm.trans hn)
  have hall := readFrom_append_ahead hrun hn hsteady.live hsteady.sends
  rw [ahead_of_backlog_eq_zero hzero, List.append_nil] at hall
  rw [collectedFrom_eq hrun, hall] at hsuffix
  have hsub := hsuffix.sublist.filter (Requested timeParse now gpuID query)
  obtain ⟨records, rfl, hperm⟩ := exists_records hindex h
  exact ⟨records, Api.unchanged_map_convert records, hsub.subperm.trans hperm.symm.subperm⟩

theorem answer_complete_twoSinks : ∃ p sink, (pipeline oneEnvironment).Run init twoSinks p ∧
    p.sinks 0 = some sink ∧ Shows 2 sink ∧
    ∃ records, List.Forall₂ Api.Unchanged (List.replicate 2 (Api.oneEntry "a")) records ∧
      ((((pipeline oneEnvironment).trace (offered oneEnvironment 2) init twoSinks).filterMap
        (decodePayload oneEnvironment)).filter (Requested Api.parseSeconds ⟨0, 0⟩ "a"
          Api.firstSecond)).Subperm records := by
  obtain ⟨p, hrun, ⟨sink, hsink, hshows⟩, hconn, hlive, hsends, hzero⟩ :=
    Machine.exists_run (M := pipeline oneEnvironment) (fun p => (∃ sink ∈ p.sinks 0, Shows 2 sink) ∧
      p.connection 0 = some ⟨2, 1⟩ ∧ p.queue.services.Live 2 2 ∧
      (∀ r ∈ (p.queue.services.streams 2).sent, r.2 = true) ∧ p.backlog 0 = 0) init twoSinks
      (by decide +kernel)
  have hsteady : Steady 0 2 2 p := ⟨⟨1, hconn⟩, hlive, hsends⟩
  exact ⟨p, sink, hrun, hsink, hshows, answer_complete hrun hsink hsteady hzero hshows⟩

end Pipeline

end GpuTel
