import GpuTel.Telemetry.StreamerFailures
import GpuTel.Telemetry.StreamerMain

/-!
# The bounds of the batch

The end of a batch is clamped at the length of the metrics, but not at the cursor. It is out of
bounds for a negative size, and would be if the sum with the cursor overflowed. That does not
happen: a size beyond the length leaves nothing of the round for a second batch.
-/

set_option autoImplicit false

namespace GpuTel.Telemetry.Streamer

open Transition

variable (lib : Library)

/-- The tick cuts its batch out of the metrics of `u`, in bounds and without a panic. -/
def CutsInBounds (s u : Streamer) (tick : Tick) : Prop :=
  InBounds u ∧ ∀ panic, collectAndProcess lib s tick ≠ .error panic

/-- Whatever size is configured, each batch is cut out in bounds and without a panic. -/
def CursorSafe : Prop :=
  ∀ (lib : Library) (v : Viper) (dial : String → Option String) (s t u : Streamer)
    (l : List GPUMetric) (ticks : List Tick) (tick : Tick),
    main v dial = .ok s → (streamer lib).Run { s with metrics := l } ticks t →
    ensureLoaded lib t tick.file = .ok (.ok u) → u.metrics.length < 2 ^ 63 →
    CutsInBounds lib t u tick

section Ticks

variable {b : Int64} {s t u : Streamer}

theorem ensureLoaded_ok {file : MetricsFile} (h : ensureLoaded lib s file = .ok (.ok u)) :
    ∃ l, u = { s with metrics := l } ∧ (s.metrics = [] ∨ l = s.metrics) := by
  unfold ensureLoaded at h
  split at h
  · rename_i hnil
    unfold loadMetrics at h
    split at h
    · cases h
    · cases h
    · cases h
    · rename_i header records _ _ _
      cases hparse : parseRecords lib header records s.metrics with
      | error panic => simp [hparse, bind, Except.bind] at h
      | ok l =>
        simp only [hparse, bind, Except.bind] at h
        exact ⟨l, (Except.ok.inj (Except.ok.inj h)).symm, Or.inl hnil⟩
  · exact ⟨s.metrics, (Except.ok.inj (Except.ok.inj h)).symm, Or.inr rfl⟩

theorem step_cases {tick : Tick} (hst : (streamer lib).Step s tick t) :
    (t = s ∧ ∃ err, ensureLoaded lib s tick.file = .ok (.error err)) ∨
      ∃ u batch, ensureLoaded lib s tick.file = .ok (.ok u) ∧
        Streamer.nextBatch u = .ok (batch, t) := by
  obtain ⟨batch, calls, hok⟩ := ok_of_step lib hst
  cases hload : ensureLoaded lib s tick.file with
  | error panic => simp [collectAndProcess, hload, bind, Except.bind] at hok
  | ok loaded =>
    cases loaded with
    | error err =>
      simp only [collectAndProcess, hload, bind, Except.bind] at hok
      obtain ⟨rfl, -, -⟩ := Processed.mk.inj (Except.ok.inj hok)
      exact Or.inl ⟨rfl, err, rfl⟩
    | ok u =>
      rw [collectAndProcess_of_loaded lib hload] at hok
      cases hbatch : Streamer.nextBatch u with
      | error panic => simp [hbatch, Except.map] at hok
      | ok x =>
        rw [hbatch] at hok
        obtain ⟨rfl, -, -⟩ := Processed.mk.inj (Except.ok.inj hok)
        exact Or.inr ⟨u, x.1, rfl, hbatch⟩

/-- What holds between two ticks. Only a size up to the length leaves a rest for another batch of
the round. -/
structure Ready (b : Int64) (s : Streamer) : Prop where
  batchSize : s.config.batchSize = b.toInt
  nonneg : 0 ≤ s.currentIdx
  le_length : s.currentIdx ≤ s.metrics.length
  rest : s.metrics.length < 2 ^ 63 → s.startIdx = 0 ∨ b.toInt ≤ s.metrics.length

theorem ready_of_start (hb : s.config.batchSize = b.toInt) (hidx : s.currentIdx = 0) :
    Ready b s where
  batchSize := hb
  nonneg := by omega
  le_length := by omega
  rest _ := Or.inl (by simp [startIdx, hidx])

theorem Ready.inBounds_iff (h : Ready b s) (hlen : s.metrics.length < 2 ^ 63) :
    InBounds s ↔ 0 ≤ b.toInt ∧ s.startIdx + b.toInt < 2 ^ 63 := by
  have hbounds := startIdx_bounds h.nonneg
  have hmin := b.le_toInt
  have hmax := b.toInt_lt
  rw [← h.batchSize] at hmin hmax ⊢
  exact Streamer.inBounds_iff hmin hmax hbounds.1 hbounds.2 hlen

theorem Ready.nextBatch (h : Ready b u) {batch : List GPUMetric}
    (hbatch : nextBatch u = .ok (batch, t)) : Ready b t := by
  obtain ⟨hin, rfl⟩ := inBounds_of_ok hbatch
  obtain ⟨hstart, hle, hend⟩ := id hin
  refine ⟨h.batchSize, hstart.trans hle, hend, ?_⟩
  intro hlen
  by_cases hlast : u.metrics.length ≤ u.endIdx
  · exact Or.inl (startIdx_of_length_le hlast)
  · -- something is left, so the batch had its full size
    have hsize := h.batchSize
    have hsum := (h.inBounds_iff hlen).mp hin
    have hmin := endIdx_eq (by omega) hstart (by omega)
    right
    show b.toInt ≤ u.metrics.length
    omega

theorem ready_loaded {file : MetricsFile} (h : Ready b s)
    (hload : ensureLoaded lib s file = .ok (.ok u)) : Ready b u := by
  obtain ⟨l, rfl, hl⟩ := ensureLoaded_ok lib hload
  rcases hl with hnil | rfl
  · have hnonneg := h.nonneg
    have hle := h.le_length
    rw [hnil, List.length_nil] at hle
    have hzero : s.currentIdx = 0 := by omega
    exact ready_of_start h.batchSize hzero
  · exact h

theorem ready_step {tick : Tick} (h : Ready b s) (hst : (streamer lib).Step s tick t) :
    Ready b t := by
  rcases step_cases lib hst with ⟨rfl, -⟩ | ⟨u, batch, hload, hbatch⟩
  · exact h
  · exact (ready_loaded lib h hload).nextBatch hbatch

theorem ready_run {ticks : List Tick} (h : Ready b s) (hrun : (streamer lib).Run s ticks t) :
    Ready b t :=
  hrun.invariant (fun _ _ _ hs hst => ready_step lib hs hst) h

/-- The sum could only leave the range of an `int` for a list of `2 ^ 62` metrics or more. -/
theorem Ready.add_lt (h : Ready b s) (hlen : s.metrics.length < 2 ^ 62) :
    s.startIdx + b.toInt < 2 ^ 63 := by
  have hstart := startIdx_bounds h.nonneg
  have hmax := b.toInt_lt
  rcases h.rest (by omega) with hzero | hle <;> omega

theorem exists_panic {tick : Tick} (hload : ensureLoaded lib s tick.file = .ok (.ok u))
    (hout : ¬ InBounds u) : ∃ panic, collectAndProcess lib s tick = .error panic := by
  rw [collectAndProcess_of_loaded lib hload]
  cases hbatch : Streamer.nextBatch u with
  | error panic => exact ⟨panic, rfl⟩
  | ok x => exact absurd (inBounds_of_ok hbatch).1 hout

theorem cutsInBounds_iff {tick : Tick} (hload : ensureLoaded lib s tick.file = .ok (.ok u))
    (hlen : u.metrics.length < 2 ^ 63) : CutsInBounds lib s u tick ↔ InBounds u := by
  constructor
  · intro hcuts
    exact hcuts.1
  · intro hin
    have hend := endIdx_le u
    refine ⟨hin, ?_⟩
    intro panic hpanic
    rw [collectAndProcess_of_loaded lib hload, nextBatch_of_inBounds (by omega) hin] at hpanic
    cases hpanic

end Ticks

/-- Whatever `int` is configured, whatever metrics are there or loaded, and however many ticks were
run: the next batch is cut out in bounds and without a panic if the size is not negative and its sum
with the cursor does not overflow, and otherwise the tick panics. The sum does not overflow for any
list that fits into memory. -/
theorem cutsInBounds_iff_nonneg {v : Viper} {dial : String → Option String} {cfg : Config}
    {s t u : Streamer} {l : List GPUMetric} {ticks : List Tick} {tick : Tick}
    (hcfg : Config.load v "" = .ok cfg) (hmain : main v dial = .ok s)
    (hrun : (streamer lib).Run { s with metrics := l } ticks t)
    (hload : ensureLoaded lib t tick.file = .ok (.ok u)) (hlen : u.metrics.length < 2 ^ 63) :
    (CutsInBounds lib t u tick ↔
      0 ≤ cfg.telemetry.batchSize.toInt ∧
        u.startIdx + cfg.telemetry.batchSize.toInt < 2 ^ 63) ∧
      (¬ CutsInBounds lib t u tick → ∃ panic, collectAndProcess lib t tick = .error panic) ∧
      (u.metrics.length < 2 ^ 62 → u.startIdx + cfg.telemetry.batchSize.toInt < 2 ^ 63) := by
  obtain rfl := main_eq hcfg hmain
  have hready : Ready cfg.telemetry.batchSize u :=
    ready_loaded lib (ready_run lib (ready_of_start rfl rfl) hrun) hload
  rw [cutsInBounds_iff lib hload hlen]
  exact ⟨hready.inBounds_iff hlen, exists_panic lib hload, hready.add_lt⟩

/-- A configuration in which only the batch size is set. -/
def sized (batchSize : Int64) : Viper where
  readInConfig := none
  unmarshal cfg := .ok { cfg with telemetry := ⟨batchSize⟩ }

theorem main_sized (batchSize : Int64) :
    main (sized batchSize) (fun _ => none) = .ok ⟨⟨batchSize.toInt⟩, [], 0⟩ := rfl

theorem cutsInBounds_iff_nonneg_secondBatch : ∃ t,
    (streamer plainLibrary).Run ⟨⟨2⟩, [], 0⟩ [threeRowsFile] t ∧ t.startIdx = 2 ∧ t.endIdx = 3 ∧
      CutsInBounds plainLibrary t t threeRowsFile := by
  obtain ⟨t, hrun, hstart, hend, hlen, hne⟩ :=
    Machine.exists_run (M := streamer plainLibrary)
      (fun t => t.startIdx = 2 ∧ t.endIdx = 3 ∧ t.metrics.length = 3 ∧ t.metrics ≠ [])
      ⟨⟨2⟩, [], 0⟩ [threeRowsFile] (by decide)
  have hcfg : Config.load (sized 2) "" = .ok ⟨⟨2⟩, ⟨"localhost:50051"⟩⟩ := rfl
  have hload : ensureLoaded plainLibrary t threeRowsFile.file = .ok (.ok t) := if_neg hne
  have h := cutsInBounds_iff_nonneg plainLibrary (l := []) hcfg (main_sized 2) hrun hload (by omega)
  exact ⟨t, hrun, hstart, hend, h.1.mpr ⟨by decide, h.2.2 (by omega)⟩⟩

/-- With a size of -1, the first tick that finds its file panics. -/
theorem not_cursorSafe : ¬ CursorSafe ∧
    main (sized (-1)) (fun _ => none) = .ok ⟨⟨-1⟩, [], 0⟩ ∧
    collectAndProcess plainLibrary ⟨⟨-1⟩, [], 0⟩ threeRowsFile =
      .error .makesliceLenOutOfRange := by
  have hmain : main (sized (-1)) (fun _ => none) = .ok ⟨⟨-1⟩, [], 0⟩ := main_sized (-1)
  have hload : ensureLoaded plainLibrary ⟨⟨-1⟩, [], 0⟩ threeRowsFile.file =
      .ok (.ok ⟨⟨-1⟩, threeRows, 0⟩) := loads_threeRowsFile ⟨⟨-1⟩, [], 0⟩ rfl
  have hpanic : collectAndProcess plainLibrary ⟨⟨-1⟩, [], 0⟩ threeRowsFile =
      .error .makesliceLenOutOfRange := by
    rw [collectAndProcess_of_loaded plainLibrary hload]
    decide
  refine ⟨?_, hmain, hpanic⟩
  intro hsafe
  have hcuts := hsafe plainLibrary (sized (-1)) (fun _ => none) ⟨⟨-1⟩, [], 0⟩ ⟨⟨-1⟩, [], 0⟩
    ⟨⟨-1⟩, threeRows, 0⟩ [] [] threeRowsFile hmain (.nil _) hload (by decide)
  exact hcuts.2 .makesliceLenOutOfRange hpanic

end GpuTel.Telemetry.Streamer
