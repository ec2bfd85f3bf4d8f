import GpuTel.Lib.Chunk
import GpuTel.Telemetry.Streamer

/-!
# The batches of the streamer

Tick after tick, the batches are the slices of the metrics, taken round after round. The cursor is
where the next slice of the round begins, except that after the last slice it stays at the end until
the next tick.
-/

set_option autoImplicit false

namespace GpuTel.Telemetry.Streamer

open Transition Chunk

theorem bmod_eq {x : Int} (h : -2 ^ 63 ≤ x) (h' : x < 2 ^ 63) : x.bmod (2 ^ 64) = x :=
  Int.bmod_eq_of_le (by omega) (by omega)

def endIdx (s : Streamer) : Int :=
  if add64 s.startIdx s.config.batchSize > s.metrics.length then s.metrics.length
  else add64 s.startIdx s.config.batchSize

def InBounds (s : Streamer) : Prop :=
  0 ≤ s.startIdx ∧ s.startIdx ≤ s.endIdx ∧ s.endIdx ≤ s.metrics.length

section Batch

variable {s t : Streamer}

theorem endIdx_le (s : Streamer) : s.endIdx ≤ s.metrics.length := by
  unfold endIdx
  split <;> omega

theorem startIdx_of_length_le (h : s.metrics.length ≤ s.currentIdx) : s.startIdx = 0 := if_pos h

theorem startIdx_bounds (hnonneg : 0 ≤ s.currentIdx) :
    0 ≤ s.startIdx ∧ s.startIdx ≤ s.metrics.length := by
  unfold startIdx
  split <;> omega

theorem endIdx_eq (hmin : -2 ^ 63 ≤ s.config.batchSize) (hstart : 0 ≤ s.startIdx)
    (hsum : s.startIdx + s.config.batchSize < 2 ^ 63) :
    s.endIdx = min (s.startIdx + s.config.batchSize) s.metrics.length := by
  rw [endIdx, add64, bmod_eq (by omega) hsum]
  split <;> omega

theorem nextBatch_unfold (s : Streamer) : nextBatch s =
    if sub64 s.endIdx s.startIdx < 0 then .error .makesliceLenOutOfRange
    else (slice s.metrics s.startIdx s.endIdx).map fun batch =>
      (batch, { s with currentIdx := s.endIdx }) := rfl

theorem nextBatch_of_inBounds (hend : s.endIdx < 2 ^ 63) (h : InBounds s) : nextBatch s =
    .ok ((s.metrics.take s.endIdx.toNat).drop s.startIdx.toNat,
      { s with currentIdx := s.endIdx }) := by
  obtain ⟨hnonneg, hle, -⟩ := h
  have hmake : ¬ sub64 s.endIdx s.startIdx < 0 := by
    rw [sub64, bmod_eq (by omega) (by omega)]
    omega
  rw [nextBatch_unfold, if_neg hmake, slice, if_pos ⟨hnonneg, hle⟩]
  rfl

/-- A batch is only cut out in bounds, and the cursor is left at its end. -/
theorem inBounds_of_ok {batch : List GPUMetric} (h : nextBatch s = .ok (batch, t)) :
    InBounds s ∧ t = { s with currentIdx := s.endIdx } := by
  rw [nextBatch_unfold] at h
  split at h
  · cases h
  · rw [slice] at h
    split at h
    · rename_i hbounds
      obtain ⟨-, rfl⟩ := Prod.mk.inj (Except.ok.inj h)
      exact ⟨⟨hbounds.1, hbounds.2, endIdx_le s⟩, rfl⟩
    · cases h

/-- A negative size ends the batch before its start. So does a sum out of range, which wraps around
to a negative end. -/
theorem inBounds_iff (hmin : -2 ^ 63 ≤ s.config.batchSize) (hmax : s.config.batchSize < 2 ^ 63)
    (hstart : 0 ≤ s.startIdx) (hle : s.startIdx ≤ s.metrics.length)
    (hlen : s.metrics.length < 2 ^ 63) :
    InBounds s ↔ 0 ≤ s.config.batchSize ∧ s.startIdx + s.config.batchSize < 2 ^ 63 := by
  unfold InBounds
  by_cases hsum : s.startIdx + s.config.batchSize < 2 ^ 63
  · have hend := endIdx_eq hmin hstart hsum
    omega
  · have hwrap : add64 s.startIdx s.config.batchSize =
        s.startIdx + s.config.batchSize - 2 ^ 64 := by
      rw [add64, Int.bmod_def]
      omega
    have hend : s.endIdx = s.startIdx + s.config.batchSize - 2 ^ 64 := by
      rw [endIdx, hwrap]
      exact if_neg (by omega)
    omega

end Batch

variable (lib : Library)

def batchOf (s : Streamer) (tick : Tick) : Option (List GPUMetric) :=
  match collectAndProcess lib s tick with
  | .ok processed => if tick.publish = none then processed.batch else none
  | .error _ => none

def Loads (l : List GPUMetric) (tick : Tick) : Prop :=
  ∀ s : Streamer, s.metrics = [] → loadMetrics lib s tick.file = .ok (.ok { s with metrics := l })

def LoadFails (tick : Tick) : Prop :=
  ∃ err, ∀ s : Streamer, loadMetrics lib s tick.file = .ok (.error err)

theorem collectAndProcess_eq {s u t : Streamer} {tick : Tick} {batch : List GPUMetric}
    (hload : ensureLoaded lib s tick.file = .ok (.ok u)) (hbatch : nextBatch u = .ok (batch, t))
    (hpub : tick.publish = none) : collectAndProcess lib s tick =
      .ok ⟨t, some batch, .publish none :: batch.zipIdx.flatMap (sendMetric lib tick) ++
        [.closeSend tick.closeSend]⟩ := by
  unfold collectAndProcess
  simp only [hload, bind, Except.bind, hbatch, hpub]

/-- The payload of a `Send`, whether it gets through or not. -/
def Call.payload : Call → Option (List UInt8)
  | .send req _ => req.message.map Mq.Message.payload
  | _ => none

theorem filterMap_payload_sendMetric (tick : Tick) (batch : List (GPUMetric × Nat)) :
    (batch.flatMap (sendMetric lib tick)).filterMap Call.payload =
      batch.filterMap fun x => lib.marshal (telemetryOf lib x.1 (tick.clock x.2)) := by
  induction batch with
  | nil => rfl
  | cons x batch ih =>
    rw [List.flatMap_cons, List.filterMap_append, ih]
    cases hpayload : lib.marshal (telemetryOf lib x.1 (tick.clock x.2)) <;>
      simp [sendMetric, hpayload, Call.payload]

theorem filterMap_payload_calls (tick : Tick) (batch : List GPUMetric) :
    (Call.publish none :: batch.zipIdx.flatMap (sendMetric lib tick) ++
      [Call.closeSend tick.closeSend]).filterMap Call.payload =
      batch.zipIdx.filterMap fun x => lib.marshal (telemetryOf lib x.1 (tick.clock x.2)) := by
  rw [List.filterMap_append, List.filterMap_cons_none rfl, filterMap_payload_sendMetric]
  exact List.append_nil _

theorem ok_of_step {s t : Streamer} {tick : Tick} (hst : (streamer lib).Step s tick t) :
    ∃ batch calls, collectAndProcess lib s tick = .ok ⟨t, batch, calls⟩ := by
  have hexec : (collectAndProcess lib s tick).map Processed.streamer = .ok t := hst.2
  cases hok : collectAndProcess lib s tick with
  | error panic => simp [hok, Except.map] at hexec
  | ok processed =>
    rw [hok] at hexec
    obtain rfl := Except.ok.inj hexec
    exact ⟨processed.batch, processed.calls, rfl⟩

section Cursor

variable {l : List GPUMetric} {s : Streamer} {b k : Nat}

/-- The next batch of the streamer is slice `k` of the round. -/
structure At (l : List GPUMetric) (b k : Nat) (s : Streamer) : Prop where
  metrics : s.metrics = l
  batchSize : s.config.batchSize = b
  startIdx : s.startIdx = ((k * b : Nat) : Int)

/-- Only the first slice can be longer than the list, so the addition stays in range. -/
theorem add_lt (hb : 0 < b) (hb' : b < 2 ^ 63) (hn : l.length < 2 ^ 62)
    (hk : k < count b l.length) : k * b + b < 2 ^ 63 := by
  have hlt := mul_lt_of_lt_count hb hk
  cases k with
  | zero => omega
  | succ k =>
    have hle : b ≤ (k + 1) * b := Nat.le_mul_of_pos_left b (Nat.succ_pos k)
    omega

theorem nextBatch_eq (hb : 0 < b) (hb' : b < 2 ^ 63) (hk : k < count b l.length)
    (hsum : k * b + b < 2 ^ 63) (h : At l b k s) : nextBatch s =
      .ok (chunk b l k, { s with currentIdx := ((min (k * b + b) l.length : Nat) : Int) }) := by
  have hlt := mul_lt_of_lt_count hb hk
  have hstart := h.startIdx
  have hsize := h.batchSize
  have hend : s.endIdx = ((min (k * b + b) l.length : Nat) : Int) := by
    rw [endIdx_eq (by omega) (by omega) (by omega), hstart, hsize, h.metrics]
    omega
  have hin : InBounds s := by
    refine ⟨by omega, by omega, endIdx_le s⟩
  rw [nextBatch_of_inBounds (by omega) hin, hend, hstart, h.metrics]
  simp only [Int.toNat_natCast, drop_take_eq_chunk]

theorem at_next (hb : 0 < b) (hl : l ≠ []) {m : Nat} (h : At l b (m % count b l.length) s) :
    At l b ((m + 1) % count b l.length)
      { s with currentIdx := ((min (m % count b l.length * b + b) l.length : Nat) : Int) } := by
  have hp : 0 < count b l.length := count_pos hb (List.length_pos_iff.mpr hl)
  have hlt := Nat.mod_lt m hp
  refine ⟨h.metrics, h.batchSize, ?_⟩
  unfold Streamer.startIdx
  simp only [h.metrics]
  rw [succ_mod hp]
  by_cases hlast : m % count b l.length + 1 = count b l.length
  · have hmul := le_count_mul hb (n := l.length)
    rw [← hlast, Nat.succ_mul] at hmul
    rw [if_pos hlast, if_pos (by omega)]
    simp
  · have hmul := mul_lt_of_lt_count hb (show m % count b l.length + 1 < count b l.length by omega)
    rw [Nat.succ_mul] at hmul
    rw [if_neg hlast, Nat.succ_mul, if_neg (by omega)]
    omega

/-- After `m` batches, the next one is the `m`-th of the rounds over `l`. Before the first one, the
metrics may still have to be loaded. -/
structure After (l : List GPUMetric) (b m : Nat) (s : Streamer) : Prop where
  loaded : s.metrics = l ∨ s.metrics = [] ∧ m = 0
  next : At l b (m % count b l.length) { s with metrics := l }
  nonneg : 0 ≤ s.currentIdx
  le_length : s.currentIdx ≤ l.length

theorem after_zero (hs : s.metrics = l ∨ s.metrics = []) (hb : s.config.batchSize = b)
    (hidx : s.currentIdx = 0) : After l b 0 s where
  loaded := hs.imp_right fun h => ⟨h, rfl⟩
  next := ⟨rfl, hb, by simp [startIdx, hidx]⟩
  nonneg := by omega
  le_length := by omega

theorem ensureLoaded_of_after {tick : Tick} {m : Nat} (h : After l b m s)
    (hload : s.metrics = [] → Loads lib l tick) :
    ensureLoaded lib s tick.file = .ok (.ok { s with metrics := l }) := by
  unfold ensureLoaded
  split
  · rename_i hnil
    exact hload hnil s hnil
  · rename_i hne
    rw [← h.loaded.resolve_right fun hnone => hne hnone.1]

theorem collectAndProcess_of_loadFails {tick : Tick} (hnil : s.metrics = [])
    (hfails : LoadFails lib tick) : collectAndProcess lib s tick = .ok ⟨s, none, []⟩ := by
  obtain ⟨err, herr⟩ := hfails
  simp only [collectAndProcess, ensureLoaded, if_pos hnil, herr s, bind, Except.bind]

theorem after_succ (hb : 0 < b) (hl : l ≠ []) {m : Nat} (h : After l b m s) :
    After l b (m + 1) { s with
      metrics := l
      currentIdx := ((min (m % count b l.length * b + b) l.length : Nat) : Int) } where
  loaded := Or.inl rfl
  next := at_next (s := { s with metrics := l }) hb hl h.next
  nonneg := by
    simp only
    omega
  le_length := by
    simp only
    omega

/-- The tick meets neither an error of `Publish` nor, if it loads the metrics, a file with other
ones. Its load may fail. -/
def Proceeds (l : List GPUMetric) (s : Streamer) (tick : Tick) : Prop :=
  (s.metrics = [] ∧ LoadFails lib tick) ∨
    (tick.publish = none ∧ (s.metrics = [] → Loads lib l tick))

variable {tick : Tick} {m : Nat} (hb : 0 < b) (hb' : b < 2 ^ 63) (hl : l ≠ [])
  (hn : l.length < 2 ^ 62)
include hb hb' hl hn

theorem tick_cases (h : After l b m s) (htick : Proceeds lib l s tick) :
    (LoadFails lib tick ∧ collectAndProcess lib s tick = .ok ⟨s, none, []⟩ ∧
        batchOf lib s tick = none) ∨
      ∃ t calls, collectAndProcess lib s tick = .ok ⟨t, some (cyclic b l m), calls⟩ ∧
        calls.filterMap Call.payload = ((cyclic b l m).zipIdx.filterMap fun x =>
          lib.marshal (telemetryOf lib x.1 (tick.clock x.2))) ∧
        batchOf lib s tick = some (cyclic b l m) ∧ After l b (m + 1) t := by
  have hp : 0 < count b l.length := count_pos hb (List.length_pos_iff.mpr hl)
  rcases htick with ⟨hnil, hfails⟩ | ⟨hpub, hload⟩
  · have hskip := collectAndProcess_of_loadFails lib hnil hfails
    exact Or.inl ⟨hfails, hskip, by simp [batchOf, hskip]⟩
  · have hloaded := ensureLoaded_of_after lib h hload
    have hsum := add_lt hb hb' hn (Nat.mod_lt m hp)
    have hbatch := nextBatch_eq hb hb' (Nat.mod_lt m hp) hsum h.next
    have hprocess := collectAndProcess_eq lib hloaded hbatch hpub
    exact Or.inr ⟨_, _, hprocess, filterMap_payload_calls lib tick _,
      by simp [batchOf, hprocess, hpub, cyclic], after_succ (s := s) hb hl h⟩

theorem after_run {t : Streamer} {ticks : List Tick} (hrun : (streamer lib).Run s ticks t)
    (h : After l b 0 s) (hticks : (streamer lib).EveryStep (Proceeds lib l) s ticks) :
    (streamer lib).trace (batchOf lib) s ticks =
        (List.range ((streamer lib).trace (batchOf lib) s ticks).length).map (cyclic b l) ∧
      After l b ((streamer lib).trace (batchOf lib) s ticks).length t := by
  refine hrun.history (H := fun ticks t => (streamer lib).EveryStep (Proceeds lib l) s ticks →
    (streamer lib).trace (batchOf lib) s ticks =
        (List.range ((streamer lib).trace (batchOf lib) s ticks).length).map (cyclic b l) ∧
      After l b ((streamer lib).trace (batchOf lib) s ticks).length t) (fun _ => ⟨rfl, h⟩) ?_ hticks
  intro ticks u tick t hu ih hst hall
  obtain ⟨hbatches, hafter⟩ := ih hall.of_append
  obtain ⟨batch, calls', hok⟩ := ok_of_step lib hst
  rw [hu.trace_snoc _ hst]
  rcases tick_cases lib hb hb' hl hn hafter (hall.last hu) with
    ⟨-, hskip, hnone⟩ | ⟨t', calls, hprocess, -, hsome, hnext⟩
  · rw [hskip] at hok
    obtain ⟨rfl, -, -⟩ := Processed.mk.inj (Except.ok.inj hok)
    rw [hnone]
    simpa using ⟨hbatches, hafter⟩
  · rw [hprocess] at hok
    obtain ⟨rfl, -, -⟩ := Processed.mk.inj (Except.ok.inj hok)
    rw [hsome]
    refine ⟨?_, by simpa using hnext⟩
    simp [List.range_succ, ← hbatches]

end Cursor

/-- For every list, every batch size and every run of ticks of which each loads in vain or gets its
stream: the batches spell out the list repeated for ever; none is empty, too long or across the end;
every full round of `⌈n/b⌉` of them is the list; the cursor stays in range and its addition in 64
bits; a load in vain has no effect; and no tick panics, but makes one `Send` for each metric of its
batch that can be encoded, in order. -/
theorem cyclic_streaming {l : List GPUMetric} {s t : Streamer} {ticks : List Tick} (hl : l ≠ [])
    (hn : l.length < 2 ^ 62) (hb : 1 ≤ s.config.batchSize) (hb' : s.config.batchSize < 2 ^ 63)
    (hmetrics : s.metrics = l ∨ s.metrics = []) (hidx : s.currentIdx = 0)
    (hticks : (streamer lib).EveryStep (Proceeds lib l) s ticks)
    (hrun : (streamer lib).Run s ticks t) :
    let b := s.config.batchSize.toNat
    let p := count b l.length
    let batches := (streamer lib).trace (batchOf lib) s ticks
    (∀ i < batches.flatten.length, batches.flatten[i]? = l[i % l.length]?) ∧
      (∀ batch ∈ batches, batch <:+: l ∧ batch ≠ [] ∧ batch.length ≤ b) ∧
      (∀ q, (q + 1) * p ≤ batches.length → ((batches.drop (q * p)).take p).flatten = l) ∧
      (0 ≤ t.currentIdx ∧ t.currentIdx ≤ l.length) ∧
      add64 ({ t with metrics := l } : Streamer).startIdx t.config.batchSize =
        ({ t with metrics := l } : Streamer).startIdx + t.config.batchSize ∧
      ∀ tick, Proceeds lib l t tick →
        (LoadFails lib tick ∧ collectAndProcess lib t tick = .ok ⟨t, none, []⟩) ∨
          ∃ u calls, collectAndProcess lib t tick =
            .ok ⟨u, some (cyclic b l batches.length), calls⟩ ∧
            calls.filterMap Call.payload = (cyclic b l batches.length).zipIdx.filterMap fun x =>
              lib.marshal (telemetryOf lib x.1 (tick.clock x.2)) := by
  intro b p batches
  have hbsize : s.config.batchSize = (b : Int) := by omega
  have hbpos : 0 < b := by omega
  have hbmax : b < 2 ^ 63 := by omega
  obtain ⟨hbatches, hafter⟩ := after_run lib hbpos hbmax hl hn hrun
    (after_zero hmetrics hbsize hidx) hticks
  have hp : 0 < p := count_pos hbpos (List.length_pos_iff.mpr hl)
  have hflat : batches.flatten = (List.range batches.length).flatMap (cyclic b l) := by
    rw [List.flatMap_def, ← hbatches]
  refine ⟨?_, ?_, ?_, ⟨hafter.nonneg, hafter.le_length⟩, ?_, ?_⟩
  · intro i hi
    rw [hflat] at hi ⊢
    exact getElem?_flatMap_cyclic hbpos hl batches.length hi
  · intro batch hbatch
    rw [show batches = _ from hbatches] at hbatch
    obtain ⟨j, -, rfl⟩ := List.mem_map.mp hbatch
    exact ⟨isInfix_chunk b l _, chunk_ne_nil hbpos (Nat.mod_lt j hp), length_chunk_le b l _⟩
  · intro q hq
    rw [show batches = _ from hbatches, round_eq_chunks b l hq, flatten_chunks hbpos]
  · have hsum := add_lt hbpos hbmax hn
      (Nat.mod_lt ((streamer lib).trace (batchOf lib) s ticks).length hp)
    have hstart := hafter.next.startIdx
    have hsize : t.config.batchSize = b := hafter.next.batchSize
    rw [hstart, hsize]
    exact bmod_eq (by omega) (by omega)
  · intro tick htick
    rcases tick_cases lib hbpos hbmax hl hn hafter htick with
      ⟨hfails, hskip, -⟩ | ⟨u, calls, hprocess, hcalls, -⟩
    · exact Or.inl ⟨hfails, hskip⟩
    · exact Or.inr ⟨u, calls, hprocess, hcalls⟩

def plainLibrary : Library := ⟨fun _ => .zero, fun _ => 0, fun _ => some []⟩

def documentedHeader : List String :=
  ["timestamp", "metric_name", "gpu_id", "device", "uuid", "modelName", "Hostname", "container",
    "pod", "namespace", "value", "labels_raw"]

def row (uuid : String) : List String :=
  ["", "util", "0", "nvidia0", uuid, "H100", "host", "", "", "", "1", ""]

def rowMetric (uuid : String) : GPUMetric :=
  ⟨.zero, "util", "0", "nvidia0", uuid, "H100", "host", "", "", "", "1", ""⟩

def threeRows : List GPUMetric := [rowMetric "a", rowMetric "b", rowMetric "c"]

def tickOn (file : MetricsFile) : Tick :=
  ⟨file, none, fun _ => ⟨.zero, 0, ⟨0, 0⟩⟩, fun _ => none, none⟩

def missingFile : Tick := tickOn ⟨some "no such file", .ok [], .ok []⟩

def threeRowsFile : Tick := tickOn ⟨none, .ok documentedHeader, .ok [row "a", row "b", row "c"]⟩

theorem loads_threeRowsFile : Loads plainLibrary threeRows threeRowsFile := by
  intro s hs
  have hrows : parseRecords plainLibrary documentedHeader [row "a", row "b", row "c"] [] =
      .ok threeRows := by decide
  simp only [loadMetrics, threeRowsFile, tickOn, hs, hrows]
  rfl

theorem loadFails_missingFile : LoadFails plainLibrary missingFile := ⟨_, fun _ => rfl⟩

theorem cyclic_streaming_threeRows : ∃ t,
    (streamer plainLibrary).Run ⟨⟨2⟩, [], 0⟩ (missingFile :: List.replicate 3 threeRowsFile) t ∧
      t.currentIdx = 2 ∧ 0 ≤ t.currentIdx ∧
      ((streamer plainLibrary).trace (batchOf plainLibrary) ⟨⟨2⟩, [], 0⟩
        (missingFile :: List.replicate 3 threeRowsFile)).map List.length = [2, 1, 2] := by
  obtain ⟨t, hrun, hidx⟩ := Machine.exists_run (M := streamer plainLibrary)
    (fun t => t.currentIdx = 2) ⟨⟨2⟩, [], 0⟩ (missingFile :: List.replicate 3 threeRowsFile)
    (by decide)
  have hskip : (streamer plainLibrary).Step ⟨⟨2⟩, [], 0⟩ missingFile ⟨⟨2⟩, [], 0⟩ := ⟨trivial, rfl⟩
  have hticks : (streamer plainLibrary).EveryStep (Proceeds plainLibrary threeRows) ⟨⟨2⟩, [], 0⟩
      (missingFile :: List.replicate 3 threeRowsFile) := by
    rw [Machine.everyStep_cons hskip]
    refine ⟨Or.inl ⟨rfl, loadFails_missingFile⟩, fun before tick after m hes _ => ?_⟩
    have hmem : tick ∈ List.replicate 3 threeRowsFile := by
      rw [hes]
      simp
    rw [List.eq_of_mem_replicate hmem]
    exact Or.inr ⟨rfl, fun _ => loads_threeRowsFile⟩
  have h := cyclic_streaming plainLibrary (l := threeRows) (by decide) (by decide) (by decide)
    (by decide) (Or.inr rfl) rfl hticks hrun
  exact ⟨t, hrun, hidx, h.2.2.2.1.1, by decide⟩

end GpuTel.Telemetry.Streamer
