import GpuTel.Telemetry.CsvColumns
import GpuTel.Telemetry.SentRecords

/-!
# The rows that metrics are read from

Whatever the file, its header and the lengths of its rows: a metric that a streamer has in memory or
sends has its fields from the cells of one row.
-/

set_option autoImplicit false

namespace GpuTel.Telemetry.Streamer

variable (lib : Library)

def FromRow (file : MetricsFile) (metric : GPUMetric) : Prop :=
  ∃ header rows, file = ⟨none, .ok header, .ok rows⟩ ∧ ∃ row ∈ rows,
    header.length ≤ row.length ∧ metric = metricOf lib (cellText header row)

variable {lib} {header row : List String} {s t u : Streamer} {metric : GPUMetric}

theorem next_of_cell {α : Type} {name : String} {f : String → Except Panic α} {a : α}
    (h : cell header row name >>= f = .ok a) : f (cellText header row name) = .ok a := by
  unfold cell at h
  split at h
  · rename_i text htext
    rw [cellText, htext]
    exact h
  · cases h

theorem metric_of_parseRecord (h : parseRecord lib header row = .ok metric) :
    metric = metricOf lib (cellText header row) := by
  -- one cell for each of the documented columns
  iterate 12 replace h := next_of_cell h
  exact (Except.ok.inj h).symm

theorem mem_of_parseRecords {rows : List (List String)} {metrics loaded : List GPUMetric}
    (h : parseRecords lib header rows metrics = .ok loaded) (hmem : metric ∈ loaded) :
    metric ∈ metrics ∨ ∃ row ∈ rows, header.length ≤ row.length ∧
      metric = metricOf lib (cellText header row) := by
  induction rows generalizing metrics with
  | nil =>
    obtain rfl := Except.ok.inj h
    exact Or.inl hmem
  | cons row rows ih =>
    unfold parseRecords at h
    split at h
    · rcases ih h with hold | ⟨row', hrow', hfrom⟩
      · exact Or.inl hold
      · exact Or.inr ⟨row', List.mem_cons_of_mem row hrow', hfrom⟩
    · rename_i hlen
      cases hparse : parseRecord lib header row with
      | error panic => simp [hparse, bind, Except.bind] at h
      | ok parsed =>
        rw [hparse] at h
        rcases ih h with hold | ⟨row', hrow', hfrom⟩
        · rcases List.mem_append.mp hold with hold | hnew
          · exact Or.inl hold
          · rw [List.mem_singleton.mp hnew]
            exact Or.inr ⟨row, List.mem_cons_self, Nat.le_of_not_lt hlen,
              metric_of_parseRecord hparse⟩
        · exact Or.inr ⟨row', List.mem_cons_of_mem row hrow', hfrom⟩

theorem mem_of_ensureLoaded {file : MetricsFile} (h : ensureLoaded lib s file = .ok (.ok u))
    (hmem : metric ∈ u.metrics) : metric ∈ s.metrics ∨ FromRow lib file metric := by
  unfold ensureLoaded at h
  split at h
  · unfold loadMetrics at h
    split at h
    · cases h
    · cases h
    · cases h
    · rename_i header rows hopen hheader hrows
      cases hparse : parseRecords lib header rows s.metrics with
      | error panic => simp [hparse, bind, Except.bind] at h
      | ok loaded =>
        simp only [hparse, bind, Except.bind] at h
        obtain rfl := Except.ok.inj (Except.ok.inj h)
        apply (mem_of_parseRecords hparse hmem).imp_right
        intro hrow
        refine ⟨header, rows, ?_, hrow⟩
        rw [← hopen, ← hheader, ← hrows]
  · obtain rfl := Except.ok.inj (Except.ok.inj h)
    exact Or.inl hmem

theorem mem_of_nextBatch {batch : List GPUMetric} (h : nextBatch u = .ok (batch, t)) :
    t.metrics = u.metrics ∧ ∀ metric ∈ batch, metric ∈ u.metrics := by
  rw [nextBatch_unfold] at h
  split at h
  · cases h
  · unfold slice at h
    split at h
    · obtain ⟨rfl, rfl⟩ := Prod.mk.inj (Except.ok.inj h)
      exact ⟨rfl, fun metric hmem => List.mem_of_mem_take (List.mem_of_mem_drop hmem)⟩
    · cases h

/-- A metric that is in memory after a tick, or in its batch, was there before or is from the file
that the tick opens. -/
theorem mem_of_collectAndProcess {tick : Tick} {processed : Processed}
    (h : collectAndProcess lib s tick = .ok processed)
    (hmem : metric ∈ processed.streamer.metrics ∨ metric ∈ processed.batch.getD []) :
    metric ∈ s.metrics ∨ FromRow lib tick.file metric := by
  cases hload : ensureLoaded lib s tick.file with
  | error panic => simp [collectAndProcess, hload, bind, Except.bind] at h
  | ok result =>
    cases result with
    | error err =>
      simp only [collectAndProcess, hload, bind, Except.bind] at h
      obtain rfl := Except.ok.inj h
      exact Or.inl (hmem.resolve_right List.not_mem_nil)
    | ok u =>
      rw [collectAndProcess_of_loaded lib hload] at h
      cases hbatch : nextBatch u with
      | error panic => simp [hbatch, Except.map] at h
      | ok x =>
        rw [hbatch] at h
        obtain rfl := Except.ok.inj h
        obtain ⟨hmetrics, hsub⟩ := mem_of_nextBatch hbatch
        apply mem_of_ensureLoaded hload
        rcases hmem with hmem | hmem
        · exact hmetrics ▸ hmem
        · exact hsub metric hmem

theorem metric_of_sentRecords {tick : Tick} {record : GPUTelemetry}
    (h : record ∈ sentRecords lib s tick) : ∃ metric i,
      record = telemetryOf lib metric (tick.clock i) ∧
        (metric ∈ s.metrics ∨ FromRow lib tick.file metric) := by
  obtain ⟨⟨metric, i⟩, hmem, hsent⟩ := List.mem_filterMap.mp h
  simp only [sentRecord] at hsent
  split at hsent
  · refine ⟨metric, i, (Option.some.inj hsent).symm, ?_⟩
    have hbatch : metric ∈ (batchOf lib s tick).getD [] := List.fst_mem_of_mem_zipIdx hmem
    unfold batchOf at hbatch
    split at hbatch
    · rename_i processed hok
      split at hbatch
      · exact mem_of_collectAndProcess hok (Or.inr hbatch)
      · cases hbatch
    · cases hbatch
  · cases hsent

end GpuTel.Telemetry.Streamer
