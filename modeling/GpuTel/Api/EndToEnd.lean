import GpuTel.Api.Handlers
import GpuTel.Mq.InMemoryStore
import GpuTel.Telemetry.CollectorTrace
import GpuTel.Telemetry.CsvColumns
import GpuTel.Telemetry.StreamerFailures
import GpuTel.Telemetry.TelemetryJson

/-!
# From the file to the answer

A row of the metrics file goes through five representations: its cells, a `GPUMetric`, a
`GPUTelemetry`, a JSON object, and the `Telemetry` of the API, which is a JSON object again. What
was published, collected and stored is shown with the cells that it came from.
-/

set_option autoImplicit false

namespace GpuTel.Api

open GpuTel.Mq GpuTel.Telemetry Json Transition

/-- A metrics file that has the documented columns, each once. `encoding/csv` accepts only records
that are as long as the first one. -/
structure CsvFile where
  header : List String
  records : List (List String)
  distinct : header.Nodup
  documented : ∀ column ∈ Streamer.documentedHeader, column ∈ header
  rectangular : ∀ record ∈ records, record.length = header.length

def CsvFile.file (csv : CsvFile) : MetricsFile := ⟨none, .ok csv.header, .ok csv.records⟩

def Telemetry.fields (t : Telemetry) : List (String × Option (Value Time (BitVec 64))) :=
  [field "timestamp" (.time t.timestamp), field "metric_name" (.string t.metricName),
    field "gpu_id" (.string t.gpuIndex), field "device" (.string t.device),
    field "uuid" (.string t.uuid), field "model_name" (.string t.modelName),
    field "hostname" (.string t.hostname), omitEmpty "container" t.container,
    omitEmpty "pod" t.pod, omitEmpty "namespace" t.namespace_, field "value" (.number t.value),
    omitEmpty "labels_raw" t.labelsRaw]

theorem Telemetry.nodup_fields (t : Telemetry) : (t.fields.map Prod.fst).Nodup := by
  simp [fields, field, omitEmpty]

section Journey

variable (lib : Library) (codec : TelemetryCodec)

/-- A streamer that reads the file published row `i`, with the request `req`. -/
def Published (csv : CsvFile) (i : Nat) (clock : Clock) (req : PublishRequest) : Prop :=
  ∃ config ticks s tick processed batch j metric,
    (∀ f ∈ ticks ++ [tick], f.file = csv.file) ∧ (streamer lib).Run ⟨config, [], 0⟩ ticks s ∧
    Streamer.collectAndProcess lib s tick = .ok processed ∧ processed.batch = some batch ∧
    batch[j]? = some metric ∧ processed.streamer.metrics[i]? = some metric ∧
    tick.clock j = clock ∧ .send req none ∈ Streamer.sendMetric lib tick (metric, j) ∧
    .send req none ∈ processed.calls

/-- The collector received the message of `req` from the broker, which may fill in an id and a
timestamp, and stored the batch it was in; and the storage was not closed since. -/
def Collected (req : PublishRequest) (es : List StorageEvent) : Prop :=
  ∃ msg newID now consumerID resp reply batch before after,
    req.message = some msg ∧ stamp msg newID now ∈ resp.messages ∧
    .store batch none ∈
      Collector.processResponse (GPUTelemetry.unmarshal codec) consumerID resp reply ∧
    es = before ++ .store batch :: after ∧ .close ∉ after

/-- The columns of the file with the keys of the answer, for the fields that are texts. -/
def textColumns : List (String × String) :=
  [("metric_name", "metric_name"), ("gpu_id", "gpu_id"), ("device", "device"), ("uuid", "uuid"),
    ("modelName", "model_name"), ("Hostname", "hostname"), ("container", "container"),
    ("pod", "pod"), ("namespace", "namespace"), ("labels_raw", "labels_raw")]

/-- The object shows the cells of the record, and as its value the number that the cell stands for.
A key that is missing shows the empty text. -/
structure Shows (header record : List String) (entry : Object Time (BitVec 64)) : Prop where
  texts : ∀ p ∈ textColumns, ∃ text, Streamer.under header record p.1 = some text ∧
    entry.text p.2 = some text
  value : ∃ text, Streamer.under header record "value" = some text ∧
    entry.number "value" 0 = some (lib.parseFloat text)

end Journey

section Steps

variable (lib : Library)
variable {csv : CsvFile} {loaded : List GPUMetric}
variable (hloaded : Streamer.parseRecords lib csv.header csv.records [] = .ok loaded)
include hloaded

theorem metrics_of_tick {s : Streamer} {tick : Tick} {processed : Streamer.Processed}
    (hfile : tick.file = csv.file) (hs : s.metrics = [] ∨ s.metrics = loaded)
    (hok : Streamer.collectAndProcess lib s tick = .ok processed) :
    processed.streamer.metrics = loaded := by
  obtain ⟨u, hu, hmetrics⟩ : ∃ u, Streamer.ensureLoaded lib s tick.file = .ok (.ok u) ∧
      u.metrics = loaded := by
    unfold Streamer.ensureLoaded
    by_cases hnil : s.metrics = []
    · refine ⟨{ s with metrics := loaded }, ?_, rfl⟩
      rw [if_pos hnil, hfile]
      simp only [Streamer.loadMetrics, CsvFile.file, hnil, hloaded, bind, Except.bind]
    · exact ⟨s, if_neg hnil, hs.resolve_left hnil⟩
  rw [Streamer.collectAndProcess_of_loaded lib hu] at hok
  cases hbatch : u.nextBatch with
  | error panic => simp [hbatch, Except.map] at hok
  | ok x =>
    obtain ⟨batch, t⟩ := x
    rw [hbatch] at hok
    obtain rfl := Except.ok.inj hok
    obtain ⟨-, rfl⟩ := Streamer.inBounds_of_ok hbatch
    exact hmetrics

theorem metrics_of_run {config : StreamerConfig} {ticks : List Tick} {s : Streamer}
    (hfiles : ∀ tick ∈ ticks, tick.file = csv.file)
    (hrun : (streamer lib).Run ⟨config, [], 0⟩ ticks s) : s.metrics = [] ∨ s.metrics = loaded := by
  refine hrun.invariant_on (I := fun s => s.metrics = [] ∨ s.metrics = loaded)
    (L := fun tick => tick.file = csv.file) ?_ hfiles (Or.inl rfl)
  intro s tick t hfile hs hst
  obtain ⟨batch, calls, hok⟩ := Streamer.ok_of_step lib hst
  exact Or.inr (metrics_of_tick lib hloaded hfile hs hok)

end Steps

theorem payload_of_published {lib : Library} {csv : CsvFile} {i : Nat} {clock : Clock}
    {req : PublishRequest} {record : List String} (hrecord : csv.records[i]? = some record)
    (h : Published lib csv i clock req) : ∃ metric msg,
      Streamer.Cells lib csv.header record metric ∧ req.message = some msg ∧
      lib.marshal (Streamer.telemetryOf lib metric clock) = some msg.payload := by
  obtain ⟨config, ticks, s, tick, processed, batch, j, metric, hfiles, hrun, hok, -, -, hrow, rfl,
    hsend, -⟩ := h
  have hlen : ∀ record ∈ csv.records, csv.header.length ≤ record.length :=
    fun record hmem => (csv.rectangular record hmem).ge
  obtain ⟨loaded, hloaded, hcells⟩ :=
    Streamer.parseRecords_cells lib csv.distinct csv.documented hlen []
  rw [List.nil_append] at hloaded
  have hmetrics := metrics_of_tick lib hloaded (hfiles tick (by simp))
    (metrics_of_run lib hloaded (fun f hf => hfiles f (List.mem_append_left _ hf)) hrun) hok
  rw [hmetrics] at hrow
  refine ⟨metric, ?_⟩
  simp only [Streamer.sendMetric] at hsend
  split at hsend
  · cases hsend
  · rename_i payload hpayload
    obtain ⟨rfl, -⟩ := Streamer.Call.send.inj (List.mem_singleton.mp hsend)
    refine ⟨_, ?_, rfl, hpayload⟩
    obtain ⟨hi, hri⟩ := List.getElem?_eq_some_iff.mp hrecord
    obtain ⟨hi', hmi⟩ := List.getElem?_eq_some_iff.mp hrow
    have hcell := hcells.get hi hi'
    simpa [← hri, ← hmi] using hcell

theorem mem_stored {before after : List StorageEvent} {batch : TelemetryBatch} {t : GPUTelemetry}
    (ht : t ∈ batch.telemetry) (hopen : .close ∉ after) :
    t ∈ MemoryStorage.stored (before ++ .store batch :: after) := by
  induction after using List.reverseRecOn with
  | nil =>
    rw [MemoryStorage.stored, History.sinceReset_snoc]
    exact List.mem_append_right _ ht
  | append_singleton after e ih =>
    have hmem := ih fun h => hopen (List.mem_append_left _ h)
    rw [← List.cons_append, ← List.append_assoc, MemoryStorage.stored, History.sinceReset_snoc]
    cases e with
    | close => exact absurd (List.mem_append_right after (List.mem_singleton_self _)) hopen
    | _ => exact List.mem_append_left _ hmem

theorem stored_of_collected {codec : TelemetryCodec} {req : PublishRequest} {msg : Message}
    {es : List StorageEvent} {t : GPUTelemetry} (hmsg : req.message = some msg)
    (hdecode : GPUTelemetry.unmarshal codec msg.payload = some t) (h : Collected codec req es) :
    t ∈ MemoryStorage.stored es := by
  obtain ⟨msg', newID, now, consumerID, resp, reply, batch, before, after, hmsg', hresp, hstore,
    rfl, hopen⟩ := h
  obtain rfl := Option.some.inj (hmsg.symm.trans hmsg')
  apply mem_stored _ hopen
  have hbatch : batch ∈ (Collector.processResponse (GPUTelemetry.unmarshal codec) consumerID resp
      reply).filterMap Collector.Call.stored := List.mem_filterMap.mpr ⟨_, hstore, rfl⟩
  rw [Collector.stored_processResponse] at hbatch
  split at hbatch
  · rw [List.mem_singleton.mp hbatch]
    refine List.mem_map.mpr ⟨(stamp msg newID now, t), ?_, rfl⟩
    refine List.mem_filterMap.mpr ⟨_, hresp, ?_⟩
    rw [show (stamp msg newID now).payload = msg.payload from rfl, hdecode, Option.map_some]
  · cases hbatch

theorem mem_records {m : MemoryStorage} {es : List StorageEvent} {t : GPUTelemetry}
    (hrun : storage.Run MemoryStorage.newMemoryStorage es m) (ht : t ∈ MemoryStorage.stored es) :
    t ∈ m.records t.uuid := by
  rw [MemoryStorage.records_eq (MemoryStorage.indexes_run hrun)]
  exact List.mem_filter.mpr ⟨ht, decide_eq_true rfl⟩

theorem shows_convert {lib : Library} {header record : List String} {metric : GPUMetric}
    (h : Streamer.Cells lib header record metric) (clock : Clock) :
    Shows lib header record (object (convert (Streamer.telemetryOf lib metric clock)).fields) := by
  have hkeys := (convert (Streamer.telemetryOf lib metric clock)).nodup_fields
  refine ⟨?_, metric.value, h.value, number_field hkeys rfl 0⟩
  simp only [textColumns, List.forall_mem_cons]
  exact ⟨⟨_, h.metricName, text_field hkeys rfl⟩, ⟨_, h.gpuIndex, text_field hkeys rfl⟩,
    ⟨_, h.device, text_field hkeys rfl⟩, ⟨_, h.uuid, text_field hkeys rfl⟩,
    ⟨_, h.modelName, text_field hkeys rfl⟩, ⟨_, h.hostname, text_field hkeys rfl⟩,
    ⟨_, h.container, text_omitEmpty hkeys rfl⟩, ⟨_, h.pod, text_omitEmpty hkeys rfl⟩,
    ⟨_, h.namespace_, text_omitEmpty hkeys rfl⟩, ⟨_, h.labels, text_omitEmpty hkeys rfl⟩,
    by simp⟩

/-- The library functions of the streamer, with `codec` behind `json.Marshal`. -/
def withCodec (codec : TelemetryCodec) (parseTime : String → Time)
    (parseFloat : String → BitVec 64) : Library :=
  ⟨parseTime, parseFloat, GPUTelemetry.marshal codec⟩

/-- Row `i` was published at `clock` and is in the storage. -/
structure Journey (codec : TelemetryCodec) (lib : Library) (csv : CsvFile) (i : Nat)
    (record : List String) (clock : Clock) (req : PublishRequest) (es : List StorageEvent)
    (m : MemoryStorage) : Prop where
  row : csv.records[i]? = some record
  published : Published lib csv i clock req
  /-- The clock is `time.Now().UTC()`. -/
  utc : clock.utc.offset = 0
  collected : Collected codec req es
  run : storage.Run MemoryStorage.newMemoryStorage es m

/-- The request has a window, and the time is in it. -/
structure Covers (timeParse : String → Except String Time) (now : Time) (query : Query)
    (t : Time) : Prop where
  window : ¬ Rejected timeParse now query
  start : (resolvedStart timeParse now query).instant ≤ t.instant
  stop : t.instant ≤ (resolvedEnd timeParse now query).instant

def IsFinite (x : BitVec 64) : Prop := x.extractLsb' 52 11 ≠ 0x7ff

/-- Every row with a finite value is shown to who asks for its `uuid`. -/
def EndToEnd : Prop :=
  ∀ codec parseTime parseFloat csv i record clock req es m sortSlice timeParse now query uuid text,
    Journey codec (withCodec codec parseTime parseFloat) csv i record clock req es m →
    Streamer.under csv.header record "uuid" = some uuid →
    Streamer.under csv.header record "value" = some text → IsFinite (parseFloat text) →
    Covers timeParse now query clock.utc → ∃ result entry,
      (getGPUTelemetry (ofMemory sortSlice m) timeParse now uuid query).2 =
        ⟨200, .telemetry result⟩ ∧ entry ∈ result ∧
      Shows (withCodec codec parseTime parseFloat) csv.header record (object entry.fields)

/-- A row with a `uuid` that was published, collected and stored is in the answer to every request
for its `uuid` with a window around its time, with the cells that it has in the file. Whoever asks
for a row without a `uuid` is refused, whatever the storage. -/
theorem row_shown {codec : TelemetryCodec} {parseTime : String → Time}
    {parseFloat : String → BitVec 64} {csv : CsvFile} {i : Nat} {record : List String}
    {clock : Clock} {req : PublishRequest} {es : List StorageEvent} {m : MemoryStorage}
    (sortSlice : Sorting MemoryStorage.earlier) {timeParse : String → Except String Time}
    {now : Time} {query : Query} {uuid : String}
    (hrow : Journey codec (withCodec codec parseTime parseFloat) csv i record clock req es m)
    (huuid : Streamer.under csv.header record "uuid" = some uuid) :
    (uuid ≠ "" → Covers timeParse now query clock.utc → ∃ result entry,
      (getGPUTelemetry (ofMemory sortSlice m) timeParse now uuid query).2 =
        ⟨200, .telemetry result⟩ ∧ entry ∈ result ∧
      entry.timestamp.instant = clock.utc.instant ∧
      Shows (withCodec codec parseTime parseFloat) csv.header record (object entry.fields)) ∧
    (uuid = "" → ∀ storage, getGPUTelemetry storage timeParse now uuid query =
      ([], ⟨400, .error ⟨400, "GPU ID is required", ""⟩⟩)) := by
  obtain ⟨metric, msg, hcells, hmsg, hpayload⟩ := payload_of_published hrow.row hrow.published
  have hdecode := GPUTelemetry.unmarshal_marshal codec hrow.utc hpayload
  have hmem := mem_records hrow.run (stored_of_collected hmsg hdecode hrow.collected)
  obtain rfl := Option.some.inj (hcells.uuid.symm.trans huuid)
  constructor
  · intro hid hquery
    have hanswer := getGPUTelemetry_of_window sortSlice m timeParse now query hid hquery.window
    refine ⟨_, convert (Streamer.telemetryOf _ metric clock), congrArg Prod.snd hanswer, ?_, rfl,
      shows_convert hcells clock⟩
    apply List.mem_map_of_mem
    rw [(sortSlice.perm _).mem_iff]
    exact List.mem_filter.mpr ⟨hmem, decide_eq_true ⟨hquery.start, hquery.stop⟩⟩
  · intro hempty storage
    rw [getGPUTelemetry, if_pos hempty]
    rfl

section OneRow

variable (uuid : String)

def oneRowFile : CsvFile where
  header := Streamer.documentedHeader
  records := [Streamer.row uuid]
  distinct := by decide
  documented := fun _ hmem => hmem
  rectangular := by
    intro record hmem
    rw [List.mem_singleton.mp hmem]
    rfl

def atOneSecond : Clock := ⟨⟨10 ^ 9, 0⟩, 10 ^ 9, ⟨1, 0⟩⟩

def parseOne (text : String) : BitVec 64 := if text = "1" then 0x3ff0000000000000 else 0

def oneRecord : GPUTelemetry :=
  ⟨⟨10 ^ 9, 0⟩, "util", "0", "nvidia0", uuid, "H100", "host", "", "", "", 0x3ff0000000000000, ""⟩

def oneEntry : Telemetry :=
  ⟨⟨10 ^ 9, 0⟩, "util", "0", "nvidia0", uuid, "H100", "host", "", "", "", 0x3ff0000000000000, ""⟩

def onePayload : List UInt8 :=
  ("\x7b\"timestamp\":\"1970-01-01T00:00:01Z\",\"metric_name\":\"util\",\"gpu_id\":\"0\"," ++
    "\"device\":\"nvidia0\",\"uuid\":\"" ++ uuid ++ "\",\"model_name\":\"H100\"," ++
    "\"hostname\":\"host\",\"value\":1\x7d").toUTF8.toList

def oneCodec : TelemetryCodec := .single (object (oneRecord uuid).fields) (onePayload uuid)

def oneLibrary : Library := withCodec (oneCodec uuid) (fun _ => .zero) parseOne

def oneTick : Tick :=
  { Streamer.tickOn (oneRowFile uuid).file with clock := fun _ => atOneSecond }

def oneMessage : Message :=
  ⟨"msg-" ++ uuid ++ "-" ++ toString (10 ^ 9 : Int), "gpu_metrics", onePayload uuid, some ⟨1, 0⟩⟩

def oneRequest : PublishRequest := ⟨some (oneMessage uuid), true, 5⟩

def oneBatch : TelemetryBatch := ⟨"batch", [oneRecord uuid], ⟨10 ^ 9, 0⟩⟩

def oneStorage : MemoryStorage := MemoryStorage.newMemoryStorage.store (oneBatch uuid)

theorem marshal_oneRecord :
    (oneLibrary uuid).marshal (Streamer.telemetryOf (oneLibrary uuid) (Streamer.rowMetric uuid)
      atOneSecond) = some (onePayload uuid) := if_pos rfl

theorem published_oneRow :
    Published (oneLibrary uuid) (oneRowFile uuid) 0 atOneSecond (oneRequest uuid) := by
  have hload : Streamer.ensureLoaded (oneLibrary uuid) ⟨⟨1⟩, [], 0⟩ (oneTick uuid).file =
      .ok (.ok ⟨⟨1⟩, [Streamer.rowMetric uuid], 0⟩) := rfl
  have hbatch : Streamer.nextBatch ⟨⟨1⟩, [Streamer.rowMetric uuid], 0⟩ =
      .ok ([Streamer.rowMetric uuid], ⟨⟨1⟩, [Streamer.rowMetric uuid], 1⟩) := rfl
  have hprocess := Streamer.collectAndProcess_of_loaded (oneLibrary uuid) hload
  rw [hbatch, Except.map] at hprocess
  have hsend : .send (oneRequest uuid) none ∈
      Streamer.sendMetric (oneLibrary uuid) (oneTick uuid) (Streamer.rowMetric uuid, 0) := by
    have hmarshal : (oneLibrary uuid).marshal (Streamer.telemetryOf (oneLibrary uuid)
        (Streamer.rowMetric uuid) ((oneTick uuid).clock 0)) = some (onePayload uuid) :=
      marshal_oneRecord uuid
    simp only [Streamer.sendMetric, hmarshal]
    exact List.mem_singleton.mpr rfl
  refine ⟨⟨1⟩, [], _, oneTick uuid, _, _, 0, Streamer.rowMetric uuid, ?_, .nil _, hprocess, rfl,
    rfl, rfl, rfl, hsend, ?_⟩
  · intro f hf
    rw [List.mem_singleton.mp hf]
    rfl
  · refine List.mem_append_left _ (List.mem_cons_of_mem _ ?_)
    exact List.mem_flatMap.mpr ⟨(Streamer.rowMetric uuid, 0), List.mem_singleton_self _, hsend⟩

theorem collected_oneRow :
    Collected (oneCodec uuid) (oneRequest uuid) [.store (oneBatch uuid)] := by
  have hstamp : stamp (oneMessage uuid) "" ⟨1, 0⟩ = oneMessage uuid := by
    have hid : (oneMessage uuid).id ≠ "" := by simp [oneMessage]
    simp only [stamp, if_neg hid]
    rfl
  have hdecode : GPUTelemetry.unmarshal (oneCodec uuid) (onePayload uuid) = some (oneRecord uuid) :=
    GPUTelemetry.unmarshal_marshal (oneCodec uuid) rfl (marshal_oneRecord uuid)
  refine ⟨oneMessage uuid, "", ⟨1, 0⟩, "collector", ⟨[oneMessage uuid], false⟩,
    ⟨"batch", ⟨10 ^ 9, 0⟩, none, none, fun _ => none, fun _ => none⟩, oneBatch uuid, [], [], rfl,
    ?_, ?_, rfl, List.not_mem_nil⟩
  · rw [hstamp]
    exact List.mem_singleton_self _
  · have hdecoded : Collector.decodeMessages (GPUTelemetry.unmarshal (oneCodec uuid))
        [oneMessage uuid] ([], []) = ([oneRecord uuid], [(oneMessage uuid).id]) := by
      have hpayload : (oneMessage uuid).payload = onePayload uuid := rfl
      simp only [Collector.decodeMessages, hpayload, hdecode, List.nil_append]
    simp [Collector.processResponse, hdecoded, oneBatch]

theorem journey_oneRow : Journey (oneCodec uuid) (oneLibrary uuid) (oneRowFile uuid) 0
    (Streamer.row uuid) atOneSecond (oneRequest uuid) [.store (oneBatch uuid)]
    (oneStorage uuid) :=
  ⟨rfl, published_oneRow uuid, rfl, collected_oneRow uuid, .cons ⟨trivial, rfl⟩ (.nil _)⟩

theorem under_oneRow :
    Streamer.under (oneRowFile uuid).header (Streamer.row uuid) "uuid" = some uuid := rfl

end OneRow

theorem covers_firstSecond : Covers parseSeconds ⟨0, 0⟩ firstSecond atOneSecond.utc :=
  ⟨not_rejected_firstSecond, by decide, by decide⟩

theorem row_shown_oneRow :
    (∃ result entry, (getGPUTelemetry (ofMemory MemoryStorage.byTimestamp (oneStorage "a"))
        parseSeconds ⟨0, 0⟩ "a" firstSecond).2 = ⟨200, .telemetry result⟩ ∧ entry ∈ result ∧
      Shows (oneLibrary "a") Streamer.documentedHeader (Streamer.row "a") (object entry.fields)) ∧
    getGPUTelemetry (ofMemory MemoryStorage.byTimestamp (oneStorage "")) parseSeconds ⟨0, 0⟩ ""
      firstSecond = ([], ⟨400, .error ⟨400, "GPU ID is required", ""⟩⟩) := by
  constructor
  · obtain ⟨result, entry, hanswer, hmem, -, hshows⟩ := (row_shown MemoryStorage.byTimestamp
      (journey_oneRow "a") (under_oneRow "a")).1 (by decide) covers_firstSecond
    exact ⟨result, entry, hanswer, hmem, hshows⟩
  · exact (row_shown MemoryStorage.byTimestamp (journey_oneRow "") (under_oneRow "")).2 rfl _

/-- The handler does not look up an empty `uuid`. -/
theorem not_endToEnd : ¬ EndToEnd := by
  intro h
  have hfinite : IsFinite (parseOne "1") := by
    unfold IsFinite
    decide
  obtain ⟨result, entry, hanswer, -⟩ := h (oneCodec "") (fun _ => .zero) parseOne (oneRowFile "") 0
    (Streamer.row "") atOneSecond (oneRequest "") [.store (oneBatch "")] (oneStorage "")
    MemoryStorage.byTimestamp parseSeconds ⟨0, 0⟩ firstSecond "" "1" (journey_oneRow "")
    (under_oneRow "") rfl hfinite covers_firstSecond
  rw [getGPUTelemetry, if_pos rfl] at hanswer
  simp [sendError] at hanswer

end GpuTel.Api
