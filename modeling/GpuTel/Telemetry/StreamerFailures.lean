import GpuTel.Telemetry.StreamerBatches

/-!
# Failures of the streamer

A tick moves the cursor before it opens its stream, and nothing is sent again before the next round.
In each round every metric is attempted by one tick, and it is sent if and only if the stream of
that tick and its own `Send` succeed.
-/

set_option autoImplicit false

namespace GpuTel.Telemetry.Streamer

open Transition Chunk

variable (lib : Library)

/-- A tick that got its metrics: the batch it cut out and the calls it made for it. -/
structure Attempted where
  tick : Tick
  batch : List GPUMetric
  calls : List Call

def attempted (s : Streamer) (tick : Tick) : Option Attempted :=
  match collectAndProcess lib s tick with
  | .ok processed => processed.batch.map fun batch => ⟨tick, batch, processed.calls⟩
  | .error _ => none

/-- The request made for the metric at position `j` of the batch was sent without an error, with the
telemetry of the metric as its payload. -/
def Sends (a : Attempted) (j : Nat) : Prop :=
  ∃ metric req, a.batch[j]? = some metric ∧ .send req none ∈ sendMetric lib a.tick (metric, j) ∧
    .send req none ∈ a.calls ∧
    req.message.map Mq.Message.payload = lib.marshal (telemetryOf lib metric (a.tick.clock j))

def Marshalled (metric : GPUMetric) (clock : Clock) : Prop :=
  lib.marshal (telemetryOf lib metric clock) ≠ none

/-- By the time the streamer starts over, every metric that can be marshalled has been sent; and a
tick whose `Publish` fails leaves the cursor where it was. -/
def NoMetricLost : Prop :=
  ∀ lib l s t ticks, s.metrics = l → 1 ≤ s.config.batchSize → s.config.batchSize < 2 ^ 63 →
    s.currentIdx = 0 → (streamer lib).Run s ticks t →
    (∀ metric ∈ l, (∀ clock, Marshalled lib metric clock) →
      count s.config.batchSize.toNat l.length ≤
        ((streamer lib).trace (attempted lib) s ticks).length →
      ∃ a ∈ ((streamer lib).trace (attempted lib) s ticks).take
          (count s.config.batchSize.toNat l.length),
        ∃ j, a.batch[j]? = some metric ∧ Sends lib a j) ∧
    ∀ tick u, tick.publish ≠ none → (streamer lib).Step t tick u → u.currentIdx = t.currentIdx

def publishCalls (tick : Tick) (batch : List GPUMetric) : List Call :=
  match tick.publish with
  | some err => [.publish (some err)]
  | none =>
    .publish none :: batch.zipIdx.flatMap (sendMetric lib tick) ++ [.closeSend tick.closeSend]

theorem collectAndProcess_of_loaded {s u : Streamer} {tick : Tick}
    (hload : ensureLoaded lib s tick.file = .ok (.ok u)) : collectAndProcess lib s tick =
      (nextBatch u).map fun x => ⟨x.2, some x.1, publishCalls lib tick x.1⟩ := by
  unfold collectAndProcess publishCalls
  simp only [hload, bind, Except.bind]
  cases nextBatch u with
  | error panic => rfl
  | ok x => cases tick.publish <;> rfl

theorem mem_sendMetric {tick : Tick} {metric : GPUMetric} {j : Nat} {req : Mq.PublishRequest} :
    .send req none ∈ sendMetric lib tick (metric, j) →
      Marshalled lib metric (tick.clock j) ∧ tick.send j = none := by
  intro h
  simp only [sendMetric] at h
  split at h
  · cases h
  · rename_i payload hpayload
    obtain ⟨-, hsend⟩ := Call.send.inj (List.mem_singleton.mp h)
    exact ⟨by simp [Marshalled, hpayload], hsend.symm⟩

theorem exists_mem_sendMetric {tick : Tick} {metric : GPUMetric} {j : Nat}
    (hmarshal : Marshalled lib metric (tick.clock j)) (hsend : tick.send j = none) :
    ∃ req, .send req none ∈ sendMetric lib tick (metric, j) ∧
      req.message.map Mq.Message.payload =
        lib.marshal (telemetryOf lib metric (tick.clock j)) := by
  obtain ⟨payload, hpayload⟩ := Option.ne_none_iff_exists'.mp hmarshal
  simp only [sendMetric, hpayload, hsend]
  exact ⟨_, List.mem_singleton_self _, rfl⟩

theorem sends_iff {a : Attempted} (hcalls : a.calls = publishCalls lib a.tick a.batch) {j : Nat}
    {metric : GPUMetric} (hj : a.batch[j]? = some metric) : Sends lib a j ↔
      a.tick.publish = none ∧ Marshalled lib metric (a.tick.clock j) ∧ a.tick.send j = none := by
  constructor
  · rintro ⟨metric', req, hj', hmem, hcall, -⟩
    obtain rfl := Option.some.inj (hj.symm.trans hj')
    refine ⟨?_, mem_sendMetric lib hmem⟩
    rw [hcalls, publishCalls] at hcall
    split at hcall
    · simp at hcall
    · rename_i hpub
      exact hpub
  · rintro ⟨hpub, hmarshal, hsend⟩
    obtain ⟨req, hreq, hpayload⟩ := exists_mem_sendMetric lib hmarshal hsend
    refine ⟨metric, req, hj, hreq, ?_, hpayload⟩
    have hidx : (metric, j) ∈ a.batch.zipIdx := List.mem_zipIdx_iff_getElem?.mpr hj
    rw [hcalls, publishCalls, hpub]
    apply List.mem_append_left
    apply List.mem_cons_of_mem
    exact List.mem_flatMap.mpr ⟨(metric, j), hidx, hreq⟩

section Rounds

variable {l : List GPUMetric} {s t u : Streamer} {tick : Tick} {b k m : Nat}

/-- The tick finds the metrics loaded, loads them, or fails to. It may fail at `Publish` and at
`Send`. -/
def Loading (l : List GPUMetric) (s : Streamer) (tick : Tick) : Prop :=
  s.metrics = [] → LoadFails lib tick ∨ Loads lib l tick

/-- A batch that was cut out without a panic is the slice at the cursor: an addition out of range
would have given a negative end. -/
theorem nextBatch_of_ok (hb : 0 < b) (hb' : b < 2 ^ 63) (hn : l.length < 2 ^ 63)
    (hk : k < count b l.length) (h : At l b k s) {batch : List GPUMetric}
    (hok : nextBatch s = .ok (batch, t)) : batch = chunk b l k ∧
      t = { s with currentIdx := ((min (k * b + b) l.length : Nat) : Int) } := by
  have hlt := mul_lt_of_lt_count hb hk
  have hstart := h.startIdx
  have hsize := h.batchSize
  have hlen : s.metrics.length = l.length := congrArg List.length h.metrics
  have hin := (inBounds_iff (by omega) (by omega) (by omega) (by omega) (by omega)).mp
    (inBounds_of_ok hok).1
  rw [nextBatch_eq hb hb' hk (by omega) h] at hok
  obtain ⟨rfl, rfl⟩ := Prod.mk.inj (Except.ok.inj hok)
  exact ⟨rfl, rfl⟩

variable (hb : 0 < b) (hb' : b < 2 ^ 63) (hl : l ≠ []) (hn : l.length < 2 ^ 63)
include hb hb' hl hn

theorem attempted_cases (h : After l b m s) (hload : Loading lib l s tick)
    (hst : (streamer lib).Step s tick t) :
    (attempted lib s tick = none ∧ t = s) ∨
      (attempted lib s tick =
          some ⟨tick, cyclic b l m, publishCalls lib tick (cyclic b l m)⟩ ∧
        t = { s with
          metrics := l
          currentIdx := ((min (m % count b l.length * b + b) l.length : Nat) : Int) }) := by
  obtain ⟨batch, calls, hprocessed⟩ := ok_of_step lib hst
  have hp : 0 < count b l.length := count_pos hb (List.length_pos_iff.mpr hl)
  by_cases hfails : s.metrics = [] ∧ LoadFails lib tick
  · have hskip := collectAndProcess_of_loadFails lib hfails.1 hfails.2
    rw [hskip] at hprocessed
    obtain ⟨rfl, -, -⟩ := Processed.mk.inj (Except.ok.inj hprocessed)
    exact Or.inl ⟨by simp [attempted, hskip], rfl⟩
  · have hloads : s.metrics = [] → Loads lib l tick :=
      fun hnil => (hload hnil).resolve_left fun hf => hfails ⟨hnil, hf⟩
    have hprocess := collectAndProcess_of_loaded lib (ensureLoaded_of_after lib h hloads)
    cases hok : nextBatch { s with metrics := l } with
    | error panic =>
      rw [hprocess, hok] at hprocessed
      cases hprocessed
    | ok x =>
      obtain ⟨batch, u⟩ := x
      obtain ⟨rfl, rfl⟩ := nextBatch_of_ok hb hb' hn (Nat.mod_lt m hp) h.next hok
      rw [hok] at hprocess
      rw [hprocess] at hprocessed
      obtain ⟨rfl, -, -⟩ := Processed.mk.inj (Except.ok.inj hprocessed)
      refine Or.inr ⟨?_, rfl⟩
      simp [attempted, hprocess, Except.map, cyclic]

theorem attempted_run {ticks : List Tick} (hrun : (streamer lib).Run s ticks t)
    (h : After l b 0 s) (hticks : (streamer lib).EveryStep (Loading lib l) s ticks) :
    ((streamer lib).trace (attempted lib) s ticks).map Attempted.batch =
        (List.range ((streamer lib).trace (attempted lib) s ticks).length).map (cyclic b l) ∧
      (∀ a ∈ (streamer lib).trace (attempted lib) s ticks,
        a.calls = publishCalls lib a.tick a.batch) ∧
      After l b ((streamer lib).trace (attempted lib) s ticks).length t := by
  refine hrun.history (H := fun ticks t => (streamer lib).EveryStep (Loading lib l) s ticks →
    ((streamer lib).trace (attempted lib) s ticks).map Attempted.batch =
        (List.range ((streamer lib).trace (attempted lib) s ticks).length).map (cyclic b l) ∧
      (∀ a ∈ (streamer lib).trace (attempted lib) s ticks,
        a.calls = publishCalls lib a.tick a.batch) ∧
      After l b ((streamer lib).trace (attempted lib) s ticks).length t)
    (fun _ => ⟨rfl, fun a ha => absurd ha List.not_mem_nil, h⟩) ?_ hticks
  intro ticks u tick t hu ih hst hall
  obtain ⟨hbatches, hcalls, hafter⟩ := ih hall.of_append
  rw [hu.trace_snoc _ hst]
  rcases attempted_cases lib hb hb' hl hn hafter (hall.last hu) hst with
    ⟨hnone, rfl⟩ | ⟨hsome, rfl⟩
  · rw [hnone]
    simpa using ⟨hbatches, hcalls, hafter⟩
  · rw [hsome]
    refine ⟨?_, ?_, by simpa using after_succ hb hl hafter⟩
    · simp [List.range_succ, ← hbatches]
    · intro a ha
      rcases List.mem_append.mp ha with hold | hnew
      · exact hcalls a hold
      · rw [List.mem_singleton.mp hnew]

end Rounds

/-- For every metric of every list, every batch size and every run, whatever calls fail in it: each
full round of `⌈n/b⌉` ticks attempts the list once; the tick whose turn it is attempts the metric,
and sends it if and only if its stream opens, the payload can be encoded and that `Send` succeeds;
and the cursor moves on by the batch whether or not the tick succeeds. -/
theorem round_attempts {l : List GPUMetric} {s t : Streamer} {ticks : List Tick} {i : Nat}
    {metric : GPUMetric} (hi : l[i]? = some metric) (hn : l.length < 2 ^ 63)
    (hb : 1 ≤ s.config.batchSize) (hb' : s.config.batchSize < 2 ^ 63)
    (hmetrics : s.metrics = l ∨ s.metrics = []) (hidx : s.currentIdx = 0)
    (hticks : (streamer lib).EveryStep (Loading lib l) s ticks)
    (hrun : (streamer lib).Run s ticks t) :
    let b := s.config.batchSize.toNat
    let p := count b l.length
    let attempts := (streamer lib).trace (attempted lib) s ticks
    (∀ q, (q + 1) * p ≤ attempts.length →
        ((attempts.drop (q * p)).take p).flatMap Attempted.batch = l) ∧
      (∀ q a, attempts[q * p + i / b]? = some a → a.batch[i % b]? = some metric ∧
        (Sends lib a (i % b) ↔ a.tick.publish = none ∧
          Marshalled lib metric (a.tick.clock (i % b)) ∧ a.tick.send (i % b) = none)) ∧
      ∀ tick u, Loading lib l t tick → (streamer lib).Step t tick u →
        (attempted lib t tick = none ∧ u = t) ∨
          u.currentIdx = ((min (attempts.length % p * b + b) l.length : Nat) : Int) := by
  intro b p attempts
  have hbsize : s.config.batchSize = (b : Int) := by omega
  have hbpos : 0 < b := by omega
  have hbmax : b < 2 ^ 63 := by omega
  obtain ⟨hlt, -⟩ := List.getElem?_eq_some_iff.mp hi
  have hl : l ≠ [] := List.ne_nil_of_length_pos (Nat.zero_lt_of_lt hlt)
  obtain ⟨hbatches, hcalls, hafter⟩ := attempted_run lib hbpos hbmax hl hn hrun
    (after_zero hmetrics hbsize hidx) hticks
  refine ⟨?_, ?_, ?_⟩
  · intro q hq
    rw [List.flatMap_def, List.map_take, List.map_drop, show attempts.map _ = _ from hbatches,
      round_eq_chunks b l hq, flatten_chunks hbpos]
  · intro q a ha
    have hbatch : a.batch = cyclic b l (q * p + i / b) := by
      have hmap := congrArg (fun batches => batches[q * p + i / b]?) hbatches
      have hlen : q * p + i / b < attempts.length := (List.getElem?_eq_some_iff.mp ha).1
      simp only [List.getElem?_map] at hmap
      rw [show attempts[q * p + i / b]? = _ from ha, List.getElem?_range hlen] at hmap
      exact Option.some.inj hmap
    have hmetric : a.batch[i % b]? = some metric := by
      rw [hbatch, getElem?_cyclic hbpos hlt, hi]
    exact ⟨hmetric, sends_iff lib (hcalls a (List.mem_of_getElem? ha)) hmetric⟩
  · intro tick u hload hst
    rcases attempted_cases lib hbpos hbmax hl hn hafter hload hst with hskip | ⟨-, rfl⟩
    · exact Or.inl hskip
    · exact Or.inr rfl

def withoutStream : Tick := { threeRowsFile with publish := some "unavailable" }

def withoutSend : Tick := { threeRowsFile with send := fun _ => some "unavailable" }

theorem round_attempts_withoutSend : ∃ t,
    (streamer plainLibrary).Run ⟨⟨2⟩, [], 0⟩ [withoutStream, threeRowsFile] t ∧
      ∀ q a, ((streamer plainLibrary).trace (attempted plainLibrary) ⟨⟨2⟩, [], 0⟩
          [withoutStream, threeRowsFile])[q * 2 + 2 / 2]? = some a →
        (Sends plainLibrary a (2 % 2) ↔ a.tick.publish = none ∧
          Marshalled plainLibrary (rowMetric "c") (a.tick.clock (2 % 2)) ∧
            a.tick.send (2 % 2) = none) := by
  obtain ⟨t, hrun, -⟩ := Machine.exists_run (M := streamer plainLibrary) (fun _ => True)
    ⟨⟨2⟩, [], 0⟩ [withoutStream, threeRowsFile] (by decide)
  have hticks : (streamer plainLibrary).EveryStep (Loading plainLibrary threeRows) ⟨⟨2⟩, [], 0⟩
      [withoutStream, threeRowsFile] := by
    intro before tick after m hes _ _
    have hmem : tick ∈ [withoutStream, threeRowsFile] := by
      rw [hes]
      simp
    have hfile : tick.file = threeRowsFile.file := by
      rcases List.mem_cons.mp hmem with rfl | htick
      · rfl
      · rw [List.mem_singleton.mp htick]
    refine Or.inr fun s hs => ?_
    rw [hfile]
    exact loads_threeRowsFile s hs
  have hi : threeRows[2]? = some (rowMetric "c") := rfl
  have h := round_attempts plainLibrary hi
    (by decide) (by decide) (by decide) (Or.inr rfl) rfl hticks hrun
  exact ⟨t, hrun, fun q a ha => (h.2.1 q a ha).2⟩

def oneRow : Streamer := ⟨⟨1⟩, [rowMetric "a"], 0⟩

theorem collectAndProcess_oneRow (tick : Tick) : collectAndProcess plainLibrary oneRow tick =
    .ok ⟨⟨⟨1⟩, [rowMetric "a"], 1⟩, some [rowMetric "a"],
      publishCalls plainLibrary tick [rowMetric "a"]⟩ := by
  have hload : ensureLoaded plainLibrary oneRow tick.file = .ok (.ok oneRow) := rfl
  have hbatch : nextBatch oneRow = .ok ([rowMetric "a"], ⟨⟨1⟩, [rowMetric "a"], 1⟩) := by decide
  rw [collectAndProcess_of_loaded plainLibrary hload, hbatch]
  rfl

theorem run_oneRow (tick : Tick) :
    (streamer plainLibrary).Run oneRow [tick] ⟨⟨1⟩, [rowMetric "a"], 1⟩ := by
  refine .cons ⟨trivial, ?_⟩ (.nil _)
  simp only [streamer, collectAndProcess_oneRow]
  rfl

theorem attempted_oneRow (tick : Tick) :
    (streamer plainLibrary).trace (attempted plainLibrary) oneRow [tick] =
      [⟨tick, [rowMetric "a"], publishCalls plainLibrary tick [rowMetric "a"]⟩] := by
  simp [Machine.trace, streamer, attempted, collectAndProcess_oneRow, Except.map]

/-- The row is lost with its stream, and with its `Send`. -/
theorem not_sends_oneRow {tick : Tick} (hfails : tick.publish ≠ none ∨ ∀ j, tick.send j ≠ none)
    {a : Attempted}
    (ha : a ∈ (streamer plainLibrary).trace (attempted plainLibrary) oneRow [tick]) (j : Nat) :
    ¬ Sends plainLibrary a j := by
  intro hsends
  rw [attempted_oneRow] at ha
  obtain rfl := List.mem_singleton.mp ha
  obtain ⟨metric, req, hj, -⟩ := id hsends
  obtain ⟨hpub, -, hsend⟩ := (sends_iff plainLibrary (by rfl) hj).mp hsends
  rcases hfails with hpub' | hsend'
  · exact hpub' hpub
  · exact hsend' j hsend

theorem not_noMetricLost : ¬ NoMetricLost ∧ ∀ tick ∈ [withoutStream, withoutSend],
    ∃ t, (streamer plainLibrary).Run oneRow [tick] t ∧ t.currentIdx = 1 ∧
      ∀ a ∈ (streamer plainLibrary).trace (attempted plainLibrary) oneRow [tick],
        ∀ j, ¬ Sends plainLibrary a j := by
  have hstream : withoutStream.publish ≠ none := by simp [withoutStream]
  have hsend : ∀ j, withoutSend.send j ≠ none := by simp [withoutSend]
  refine ⟨?_, ?_⟩
  · intro h
    obtain ⟨hround, -⟩ := h plainLibrary [rowMetric "a"] oneRow _ [withoutStream] rfl (by decide)
      (by decide) rfl (run_oneRow withoutStream)
    obtain ⟨a, ha, j, -, hsends⟩ := hround (rowMetric "a") List.mem_cons_self
      (fun _ => by simp [Marshalled, plainLibrary]) (by rw [attempted_oneRow]; decide)
    exact not_sends_oneRow (Or.inl hstream) (List.mem_of_mem_take ha) j hsends
  · intro tick htick
    have hfails : tick.publish ≠ none ∨ ∀ j, tick.send j ≠ none := by
      rcases List.mem_cons.mp htick with rfl | htick
      · exact Or.inl hstream
      · rw [List.mem_singleton.mp htick]
        exact Or.inr hsend
    exact ⟨_, run_oneRow tick, rfl, fun a ha j => not_sends_oneRow hfails ha j⟩

end GpuTel.Telemetry.Streamer
