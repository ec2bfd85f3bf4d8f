import GpuTel.Pipeline.Restarts
import GpuTel.Telemetry.MetricRows

/-!
# Where an answer comes from

From the answer of a sink back to the file: over its storage, its connections, the queues there have
been and the ticks of the streamers, to a row of a file that a streamer has opened.
-/

set_option autoImplicit false

namespace GpuTel.Pipeline

open GpuTel.Mq GpuTel.Telemetry Fifo Transition Transition.Machine

variable {env : Environment} {p q : Pipeline}
variable {es : List (WithReset PipelineEvent)} {e : WithReset PipelineEvent}

def Holds (p : Pipeline) (x : Nat × GPUMetric) : Prop :=
  ∃ s, p.streamers x.1 = some s ∧ x.2 ∈ s.metrics

/-- In the tick, streamer `j` opens a file that has the metric in a row. -/
def Opens (env : Environment) (e : WithReset PipelineEvent) (x : Nat × GPUMetric) : Prop :=
  ∃ tick, e = .label (.tick x.1 tick) ∧ Streamer.FromRow env.lib tick.file x.2

theorem holds_step (hst : (deployment env).Step p e q) {x : Nat × GPUMetric} (h : Holds q x) :
    Holds p x ∨ Opens env e x := by
  obtain ⟨s, hs, hmem⟩ := h
  cases e with
  | reset =>
    obtain rfl := Except.ok.inj hst.2
    exact Or.inl ⟨s, hs, hmem⟩
  | label e =>
    have hlabel : (pipeline env).Step p e q := hst
    rw [step_advance hlabel] at hs
    cases e with
    | startStreamer k config =>
      simp only [advance, Function.update_apply] at hs
      split at hs
      · obtain rfl := Option.some.inj hs
        cases hmem
      · exact Or.inl ⟨s, hs, hmem⟩
    | tick k tick =>
      simp only [advance, Function.update_apply] at hs
      split at hs
      · rename_i hk
        obtain ⟨old, hold, hticked⟩ := Option.bind_eq_some_iff.mp hs
        obtain ⟨processed, hok, rfl⟩ := Option.map_eq_some_iff.mp hticked
        cases hprocess : Streamer.collectAndProcess env.lib old tick.atUTC with
        | error panic => simp [hprocess, Except.toOption] at hok
        | ok result =>
          rw [hprocess] at hok
          obtain rfl := Option.some.inj hok
          rcases Streamer.mem_of_collectAndProcess hprocess (Or.inl hmem) with hbefore | hrow
          · exact Or.inl ⟨old, hk ▸ hold, hbefore⟩
          · exact Or.inr ⟨tick, by rw [hk], hrow⟩
      · exact Or.inl ⟨s, hs, hmem⟩
    | _ => exact Or.inl ⟨s, hs, hmem⟩

theorem opened_of_holds (hrun : (deployment env).Run init es p) {x : Nat × GPUMetric}
    (h : Holds p x) : ∃ f ∈ es, Opens env f x := by
  refine (hrun.held_or_came Holds (Opens env) ?_ h).resolve_left ?_
  · intro p e q x hst hx
    exact holds_step hst hx
  · rintro ⟨s, hs, -⟩
    cases hs

/-- The record was made of the metric in a tick of streamer `j`, which had read it from a file by
then. -/
def SentBy (env : Environment) (es : List (WithReset PipelineEvent)) (t : GPUTelemetry)
    (x : Nat × GPUMetric) : Prop :=
  ∃ before tick after i, es = before ++ .label (.tick x.1 tick) :: after ∧
    t = Streamer.telemetryOf env.lib x.2 (tick.atUTC.clock i) ∧
    ∃ f ∈ before ++ [.label (.tick x.1 tick)], Opens env f x

theorem sentBy_of_streamed (hrun : (deployment env).Run init es p) {t : GPUTelemetry}
    (h : t ∈ ((deployment env).trace (betweenResets (streamed env)) init es).flatten) :
    ∃ x, SentBy env es t x := by
  obtain ⟨records, hrecords, ht⟩ := List.mem_flatten.mp h
  obtain ⟨before, e, after, m, rfl, hbefore, hobs⟩ := hrun.mem_trace hrecords
  cases e with
  | reset => cases hobs
  | label e =>
    cases e with
    | tick j tick =>
      obtain rfl := Option.some.inj hobs
      cases hs : m.streamers j with
      | none => simp [hs] at ht
      | some s =>
        rw [hs] at ht
        obtain ⟨metric, i, hmade, hmetric⟩ := Streamer.metric_of_sentRecords ht
        refine ⟨(j, metric), before, tick, after, i, rfl, hmade, ?_⟩
        rcases hmetric with hheld | hrow
        · obtain ⟨f, hf, hopens⟩ := opened_of_holds (x := (j, metric)) hbefore ⟨s, hs, hheld⟩
          exact ⟨f, List.mem_append_left _ hf, hopens⟩
        · exact ⟨_, List.mem_append_right before (List.mem_singleton_self _), tick, rfl, hrow⟩
    | _ => cases hobs

section Answer

variable {sortSlice : Sorting MemoryStorage.earlier} {timeParse : String → Except String Time}
variable {now : Time} {gpuID : String} {query : Api.Query} {k : Nat} {sink : Sink}
variable {result : List Api.Telemetry}

theorem exists_streamed (hrun : (deployment env).Run init es p) (hsink : p.sinks k = some sink)
    (h : answer sortSlice timeParse now gpuID query sink = ⟨200, .telemetry result⟩)
    {r : Api.Telemetry} (hr : r ∈ result) :
    ∃ t ∈ ((deployment env).trace (betweenResets (streamed env)) init es).flatten,
      t.uuid = gpuID ∧ r = Api.convert t := by
  obtain ⟨order, hstreamed, hcollected, hlogs⟩ :=
    ordered_run launched_init hrun _ (logs_init fun _ => [])
  obtain ⟨log, hindex, hsuffix⟩ := hlogs k sink hsink
  obtain ⟨t, ht, rfl⟩ := List.mem_map.mp ((answer_perm hindex h).mem_iff.mp hr)
  obtain ⟨hlog, hrequested⟩ := List.mem_filter.mp ht
  have hmem := hsuffix.sublist.subset hlog
  exact ⟨t, hstreamed.subset ((hcollected k).subset hmem), (of_decide_eq_true hrequested).1, rfl⟩

theorem shows_of_opens {csv : Api.CsvFile} {metric : GPUMetric}
    (h : Streamer.FromRow env.lib csv.file metric) (clock : Clock) : ∃ row ∈ csv.records,
      Api.Shows env.lib csv.header row
        (Json.object (Api.convert (Streamer.telemetryOf env.lib metric clock)).fields) := by
  obtain ⟨header, rows, hfile, row, hrow, hlen, rfl⟩ := h
  obtain ⟨hheader, hrows⟩ : csv.header = header ∧ csv.records = rows := by
    simpa [Api.CsvFile.file] using hfile
  subst hheader hrows
  exact ⟨row, hrow, Api.shows_convert
    (Streamer.cells_metricOf env.lib csv.distinct csv.documented hlen) clock⟩

/-- In every run of the pipeline, crashes and restarts of the queue included, each record that a
sink shows was made by a streamer of a row of a file that the same streamer had opened by then: it
is of the GPU that was asked for, its time is that of its sending, and where the file has the
documented columns, it shows what stands under them in the row. -/
theorem shown_from_row (hrun : (deployment env).Run init es p) (hsink : p.sinks k = some sink)
    (h : answer sortSlice timeParse now gpuID query sink = ⟨200, .telemetry result⟩) :
    ∀ r ∈ result, ∃ before j tick after i loader metric,
      es = before ++ .label (.tick j tick) :: after ∧
      .label (.tick j loader) ∈ before ++ [.label (.tick j tick)] ∧
      Streamer.FromRow env.lib loader.file metric ∧ metric.uuid = gpuID ∧
      r = Api.convert (Streamer.telemetryOf env.lib metric (tick.atUTC.clock i)) ∧
      ∀ csv : Api.CsvFile, loader.file = csv.file →
        ∃ row ∈ csv.records, Api.Shows env.lib csv.header row (Json.object r.fields) := by
  intro r hr
  obtain ⟨t, ht, huuid, rfl⟩ := exists_streamed hrun hsink h hr
  obtain ⟨⟨j, metric⟩, before, tick, after, i, hes, rfl, f, hf, loader, rfl, hrow⟩ :=
    sentBy_of_streamed hrun ht
  refine ⟨before, j, tick, after, i, loader, metric, hes, hf, hrow, huuid, rfl, ?_⟩
  intro csv hcsv
  rw [hcsv] at hrow
  exact shows_of_opens hrow _

end Answer

theorem tick_of_mem_crashed {j : Nat} {tick : Tick} (h : .label (.tick j tick) ∈ crashed) :
    j = 0 ∧ tick = Api.oneTick "a" := by
  simpa [crashed, crashed.afterwards, twoSinks, startSink, publishOne, deliver] using h

theorem shown_from_row_crashed : ∃ p sink, (deployment oneEnvironment).Run init crashed p ∧
    p.sinks 0 = some sink ∧ Shows 3 sink ∧
    ∃ tick loader : Tick, .label (.tick 0 tick) ∈ crashed ∧ .label (.tick 0 loader) ∈ crashed ∧
      loader.file = (Api.oneRowFile "a").file ∧ ∃ row ∈ (Api.oneRowFile "a").records,
        Api.Shows oneEnvironment.lib (Api.oneRowFile "a").header row
          (Json.object (Api.oneEntry "a").fields) := by
  obtain ⟨p, hrun, hshows⟩ := Machine.exists_run (M := deployment oneEnvironment)
    (fun p => ∃ sink ∈ p.sinks 0, Shows 3 sink) init crashed (by decide +kernel)
  obtain ⟨sink, hsink, hanswer⟩ := hshows
  obtain ⟨before, j, tick, after, i, loader, metric, hes, hloader, -, -, -, hshown⟩ :=
    shown_from_row hrun hsink hanswer (Api.oneEntry "a") (by simp)
  have htick : .label (.tick j tick) ∈ crashed := hes ▸ by simp
  have hloaded : .label (.tick j loader) ∈ crashed := by
    rw [hes, List.append_cons]
    exact List.mem_append_left after hloader
  obtain ⟨rfl, hone⟩ := tick_of_mem_crashed hloaded
  have hfile : loader.file = (Api.oneRowFile "a").file := by
    rw [hone]
    rfl
  exact ⟨p, sink, hrun, hsink, hanswer, tick, loader, htick, hloaded, hfile,
    hshown (Api.oneRowFile "a") hfile⟩

end GpuTel.Pipeline
