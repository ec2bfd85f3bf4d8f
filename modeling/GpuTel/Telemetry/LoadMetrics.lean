import GpuTel.Telemetry.CsvColumns

/-!
# What is loaded from the file

A field whose column is missing is made from the first cell. The order of the columns, and columns
beyond the documented ones, make no difference. A record of another length than the header never
gets as far as the test that would skip it: the CSV reader has already refused the file.
-/

set_option autoImplicit false

namespace GpuTel.Telemetry.Streamer

section Names

variable (lib : Library) (header record : List String)

/-- The value is made from the cell under the column, or is the empty one if there is none. -/
def FromColumn {α : Type} (column : String) (parse : String → α) (empty value : α) : Prop :=
  (column ∈ header → (under header record column).map parse = some value) ∧
    (column ∉ header → value = empty)

/-- The fields that are taken over as text, each with the name of its column. -/
def textFields (metric : GPUMetric) : List (String × String) :=
  [("metric_name", metric.metricName), ("gpu_id", metric.gpuIndex), ("device", metric.device),
    ("uuid", metric.uuid), ("modelName", metric.modelName), ("Hostname", metric.hostname),
    ("container", metric.container), ("pod", metric.pod), ("namespace", metric.namespace_),
    ("value", metric.value), ("labels_raw", metric.labels)]

structure ByName (metric : GPUMetric) : Prop where
  timestamp : FromColumn header record "timestamp" lib.parseTime Time.zero metric.timestamp
  texts : ∀ field ∈ textFields metric, FromColumn header record field.1 id "" field.2

/-- What the first cell yields for a column that the header lacks is the empty value. -/
def EmptyFirst : Prop :=
  ∀ first ∈ record.head?, ("timestamp" ∉ header → lib.parseTime first = Time.zero) ∧
    ∀ column ∈ documentedHeader.tail, column ∉ header → first = ""

/-- Loading fails, for want of a column, or makes every field from the column of its name. -/
def ReadsByName (s : Streamer) (records : List (List String)) : Prop :=
  match loadMetrics lib s ⟨none, .ok header, .ok records⟩ with
  | .ok (.ok t) => ∃ loaded, t.metrics = s.metrics ++ loaded ∧
      List.Forall₂ (ByName lib header) records loaded
  | _ => ∃ column ∈ documentedHeader, column ∉ header

theorem textFields_metricOf (text : String → String) :
    textFields (metricOf lib text) = documentedHeader.tail.map fun column =>
      (column, text column) := rfl

variable {header record}

theorem fromColumn_iff {α : Type} (hdistinct : header.Nodup)
    (hlen : header.length ≤ record.length) (column : String) (parse : String → α) (empty : α) :
    FromColumn header record column parse empty (parse (cellText header record column)) ↔
      (column ∉ header → parse (record.head?.getD "") = empty) := by
  by_cases hmem : column ∈ header
  · simp [FromColumn, hmem, under_of_mem hdistinct hlen hmem]
  · simp [FromColumn, hmem, cellText_of_not_mem hmem]

theorem byName_iff (hdistinct : header.Nodup) (hne : header ≠ [])
    (hlen : header.length ≤ record.length) :
    ByName lib header record (metricOf lib (cellText header record)) ↔
      EmptyFirst lib header record := by
  obtain ⟨first, rest, rfl⟩ : ∃ first rest, record = first :: rest := by
    apply List.exists_cons_of_length_pos
    have hpos : 0 < header.length := List.length_pos_iff.mpr hne
    omega
  have htime := fromColumn_iff hdistinct hlen "timestamp" lib.parseTime Time.zero
  have htext := fun column => fromColumn_iff hdistinct hlen column id ""
  rw [List.head?_cons, Option.getD_some] at htime
  simp only [List.head?_cons, Option.getD_some, id_eq] at htext
  have hsplit : ByName lib header (first :: rest)
      (metricOf lib (cellText header (first :: rest))) ↔
      ("timestamp" ∉ header → lib.parseTime first = Time.zero) ∧
        ∀ column ∈ documentedHeader.tail, column ∉ header → first = "" := by
    constructor
    · intro h
      refine ⟨htime.mp h.timestamp, fun column hcolumn => (htext column).mp ?_⟩
      apply h.texts (column, cellText header (first :: rest) column)
      rw [textFields_metricOf]
      exact List.mem_map_of_mem hcolumn
    · rintro ⟨hzero, hempty⟩
      refine ⟨htime.mpr hzero, ?_⟩
      intro field hfield
      rw [textFields_metricOf] at hfield
      obtain ⟨column, hcolumn, rfl⟩ := List.mem_map.mp hfield
      exact (htext column).mpr (hempty column hcolumn)
  rw [hsplit]
  simp [EmptyFirst]

/-- For every header of distinct names and all records of its length: fields come from the columns
of their names if and only if the first cell of every record gives an empty value for each
documented column that is missing. -/
theorem readsByName_iff_emptyFirst (s : Streamer) (hdistinct : header.Nodup)
    {records : List (List String)} (hlen : ∀ record ∈ records, record.length = header.length) :
    ReadsByName lib header s records ↔ ∀ record ∈ records, EmptyFirst lib header record := by
  by_cases hne : header = []
  · subst hne
    have hempty : ∀ record ∈ records, EmptyFirst lib [] record := by
      intro record hrecord first hfirst
      rw [List.eq_nil_of_length_eq_zero (hlen record hrecord)] at hfirst
      cases hfirst
    refine iff_of_true ?_ hempty
    cases records with
    | nil => exact ⟨[], (List.append_nil _).symm, .nil⟩
    | cons record records =>
      rw [List.eq_nil_of_length_eq_zero (hlen record List.mem_cons_self)]
      exact ⟨"timestamp", by decide, by decide⟩
  · have hload := loadMetrics_eq lib hne s fun record hrecord => (hlen record hrecord).ge
    rw [ReadsByName, hload]
    simp only [List.append_cancel_left_eq, exists_eq_left', List.forall₂_map_right_iff,
      List.forall₂_same]
    apply forall₂_congr
    intro record hrecord
    exact byName_iff lib hdistinct hne (hlen record hrecord).ge

def emptyStreamer : Streamer := ⟨⟨1⟩, [], 0⟩

theorem readsByName_iff_emptyFirst_twoColumns :
    ReadsByName plainLibrary ["pod", "uuid"] emptyStreamer [["", "a"]] ↔
      ∀ record ∈ [["", "a"]], EmptyFirst plainLibrary ["pod", "uuid"] record :=
  readsByName_iff_emptyFirst plainLibrary emptyStreamer (by decide) (by decide)

/-- With `uuid` as the only column, the metric name is the uuid. -/
theorem not_readsByName : ["uuid"].Nodup ∧
    loadMetrics plainLibrary emptyStreamer ⟨none, .ok ["uuid"], .ok [["a"]]⟩ =
      .ok (.ok ⟨⟨1⟩, [⟨.zero, "a", "a", "a", "a", "a", "a", "a", "a", "a", "a", "a"⟩], 0⟩) ∧
    ¬ ReadsByName plainLibrary ["uuid"] emptyStreamer [["a"]] := by
  have hload : loadMetrics plainLibrary emptyStreamer ⟨none, .ok ["uuid"], .ok [["a"]]⟩ =
      .ok (.ok ⟨⟨1⟩, [⟨.zero, "a", "a", "a", "a", "a", "a", "a", "a", "a", "a", "a"⟩], 0⟩) := by
    decide
  refine ⟨by decide, hload, ?_⟩
  rw [ReadsByName, hload]
  rintro ⟨loaded, hmetrics, hnames⟩
  rw [← show _ = loaded from hmetrics] at hnames
  cases hnames with
  | cons hname _ =>
    have hempty := (hname.texts ("metric_name", "a") (by decide)).2 (by decide)
    exact absurd hempty (by decide)

end Names

def select (is : List Nat) (l : List String) : List String := is.map fun i => (l[i]?).getD ""

section Select

variable {header record : List String} {is : List Nat}

theorem getElem?_select {l : List String} (hbound : ∀ i ∈ is, i < l.length) (j : Nat) :
    (select is l)[j]? = is[j]?.bind fun i => l[i]? := by
  rw [select, List.getElem?_map]
  cases hj : is[j]? with
  | none => rfl
  | some i =>
    have hlt : i < l.length := hbound i (List.mem_of_getElem? hj)
    simp [List.getElem?_eq_getElem hlt]

theorem nodup_select (hdistinct : header.Nodup) (hnodup : is.Nodup)
    (hbound : ∀ i ∈ is, i < header.length) : (select is header).Nodup := by
  apply hnodup.map_on
  intro i hi j hj heq
  rw [List.getElem?_eq_getElem (hbound i hi), List.getElem?_eq_getElem (hbound j hj)] at heq
  exact hdistinct.getElem_inj_iff.mp (by simpa using heq)

theorem under_select (hdistinct : header.Nodup) (hnodup : is.Nodup)
    (hbound : ∀ i ∈ is, i < header.length) (hlen : record.length = header.length) {column : String}
    (hcolumn : column ∈ select is header) :
    under (select is header) (select is record) column = under header record column := by
  obtain ⟨j, hj⟩ := List.mem_iff_getElem?.mp hcolumn
  have hheader := hj
  rw [getElem?_select hbound] at hheader
  obtain ⟨i, hi, hcol⟩ := Option.bind_eq_some_iff.mp hheader
  have hlt : i < record.length := by
    rw [hlen]
    exact hbound i (List.mem_of_getElem? hi)
  have htext : (select is record)[j]? = some record[i] := by
    rw [getElem?_select (fun k hk => hlen.symm ▸ hbound k hk), hi]
    exact List.getElem?_eq_getElem hlt
  rw [lookup_zip (nodup_select hdistinct hnodup hbound) hj htext,
    lookup_zip hdistinct hcol (List.getElem?_eq_getElem hlt)]

theorem mem_select_of_perm (hperm : is.Perm (List.range header.length)) {column : String}
    (hcolumn : column ∈ header) : column ∈ select is header := by
  obtain ⟨i, hi, rfl⟩ := List.mem_iff_getElem.mp hcolumn
  apply List.mem_map.mpr
  refine ⟨i, hperm.mem_iff.mpr (List.mem_range.mpr hi), ?_⟩
  rw [List.getElem?_eq_getElem hi, Option.getD_some]

end Select

section Order

variable (lib : Library) (s : Streamer) {header : List String} {records : List (List String)}
variable (hdistinct : header.Nodup) (hcolumns : ∀ column ∈ documentedHeader, column ∈ header)
variable (hlen : ∀ record ∈ records, record.length = header.length)
include hdistinct hcolumns hlen

theorem loadMetrics_of_documented : loadMetrics lib s ⟨none, .ok header, .ok records⟩ =
    .ok (.ok { s with
      metrics := s.metrics ++ records.map fun record =>
        metricOf lib fun column => (under header record column).getD "" }) := by
  have hne : header ≠ [] := List.ne_nil_of_mem (hcolumns "timestamp" (by decide))
  rw [loadMetrics_eq lib hne s fun record hrecord => (hlen record hrecord).ge]
  have hmap : (records.map fun record => metricOf lib (cellText header record)) =
      records.map fun record =>
        metricOf lib fun column => (under header record column).getD "" := by
    apply List.map_congr_left
    intro record hrecord
    apply metricOf_congr
    intro column hcolumn
    rw [under_of_mem hdistinct (hlen record hrecord).ge (hcolumns column hcolumn), Option.getD_some]
  rw [hmap]

theorem loadMetrics_select {is : List Nat} (hnodup : is.Nodup)
    (hbound : ∀ i ∈ is, i < header.length)
    (hkeep : ∀ column ∈ documentedHeader, column ∈ select is header) :
    loadMetrics lib s ⟨none, .ok (select is header), .ok (records.map (select is))⟩ =
      loadMetrics lib s ⟨none, .ok header, .ok records⟩ := by
  have hlen' : ∀ record ∈ records.map (select is), record.length = (select is header).length := by
    intro record' hrecord'
    obtain ⟨record, -, rfl⟩ := List.mem_map.mp hrecord'
    simp [select]
  rw [loadMetrics_of_documented lib s hdistinct hcolumns hlen,
    loadMetrics_of_documented lib s (nodup_select hdistinct hnodup hbound) hkeep hlen',
    List.map_map]
  have hmap : (records.map ((fun record => metricOf lib fun column =>
      (under (select is header) record column).getD "") ∘ select is)) =
      records.map fun record =>
        metricOf lib fun column => (under header record column).getD "" := by
    apply List.map_congr_left
    intro record hrecord
    rw [Function.comp_apply]
    apply metricOf_congr
    intro column hcolumn
    rw [under_select hdistinct hnodup hbound (hlen record hrecord) (hkeep column hcolumn)]
  rw [hmap]

/-- For every file whose header has distinct names, the documented ones among them: each record
gives one metric, in the order of the file and from its own cells; any permutation of the columns
gives the same metrics; and so does any choice of columns that keeps the documented ones. Read from
right to left, that is the addition of undocumented columns anywhere. -/
theorem column_order_irrelevant :
    (∃ loaded, loadMetrics lib s ⟨none, .ok header, .ok records⟩ =
        .ok (.ok { s with metrics := s.metrics ++ loaded }) ∧
      List.Forall₂ (Cells lib header) records loaded) ∧
    (∀ is : List Nat, is.Perm (List.range header.length) →
      loadMetrics lib s ⟨none, .ok (select is header), .ok (records.map (select is))⟩ =
        loadMetrics lib s ⟨none, .ok header, .ok records⟩) ∧
    ∀ is : List Nat, is.Nodup → (∀ i ∈ is, i < header.length) →
      (∀ column ∈ documentedHeader, column ∈ select is header) →
      loadMetrics lib s ⟨none, .ok (select is header), .ok (records.map (select is))⟩ =
        loadMetrics lib s ⟨none, .ok header, .ok records⟩ := by
  refine ⟨?_, ?_, ?_⟩
  · obtain ⟨loaded, hparse, hcells⟩ := parseRecords_cells lib hdistinct hcolumns
      (fun record hrecord => (hlen record hrecord).ge) s.metrics
    exact ⟨loaded, by simp only [loadMetrics, hparse, bind, Except.bind], hcells⟩
  · intro is hperm
    apply loadMetrics_select lib s hdistinct hcolumns hlen (hperm.nodup_iff.mpr List.nodup_range)
    · intro i hi
      exact List.mem_range.mp (hperm.mem_iff.mp hi)
    · exact fun column hcolumn => mem_select_of_perm hperm (hcolumns column hcolumn)
  · intro is hnodup hbound hkeep
    exact loadMetrics_select lib s hdistinct hcolumns hlen hnodup hbound hkeep

end Order

theorem column_order_irrelevant_reversed :
    loadMetrics plainLibrary emptyStreamer
        ⟨none, .ok (select [11, 10, 9, 8, 7, 6, 5, 4, 3, 2, 1, 0] documentedHeader),
          .ok ([row "a", row "b"].map (select [11, 10, 9, 8, 7, 6, 5, 4, 3, 2, 1, 0]))⟩ =
      loadMetrics plainLibrary emptyStreamer ⟨none, .ok documentedHeader, .ok [row "a", row "b"]⟩ :=
  (column_order_irrelevant plainLibrary emptyStreamer (by decide) (fun _ h => h) (by decide)).2.1
    [11, 10, 9, 8, 7, 6, 5, 4, 3, 2, 1, 0] (by decide)

/-- A file that can be read as CSV: every line has at least one field. -/
structure CsvLines where
  header : List String
  rows : List (List String)
  header_ne : header ≠ []

namespace CsvLines

/-- `ReadAll` after the header has been read. `FieldsPerRecord` is 0, so that the header fixes the
number of fields; `err` is the text of the error that a line with another number of them gives. -/
def readAll (csv : CsvLines) (err : String) : Except String (List (List String)) :=
  if ∀ row ∈ csv.rows, row.length = csv.header.length then .ok csv.rows else .error err

def file (csv : CsvLines) (err : String) : MetricsFile := ⟨none, .ok csv.header, csv.readAll err⟩

/-- Loading succeeds and adds the rows that have a field for every column, in order, each with what
its cells say. -/
def SkipsMalformed (lib : Library) (s : Streamer) (csv : CsvLines) (err : String) : Prop :=
  loadMetrics lib s (csv.file err) = .ok (.ok { s with
    metrics := s.metrics ++ (csv.rows.filter fun row => csv.header.length ≤ row.length).map
      fun row => metricOf lib (cellText csv.header row) })

theorem loadMetrics_of_uneven (lib : Library) (s : Streamer) {csv : CsvLines} (err : String)
    (h : ¬ ∀ row ∈ csv.rows, row.length = csv.header.length) :
    loadMetrics lib s (csv.file err) = .ok (.error ("failed to read CSV records: " ++ err)) := by
  simp only [file, readAll, if_neg h, loadMetrics]

/-- Malformed rows are skipped if and only if there are none. -/
theorem skipsMalformed_iff (lib : Library) (s : Streamer) (csv : CsvLines) (err : String) :
    SkipsMalformed lib s csv err ↔ ∀ row ∈ csv.rows, row.length = csv.header.length := by
  constructor
  · intro hload
    by_contra huneven
    rw [SkipsMalformed, loadMetrics_of_uneven lib s err huneven] at hload
    cases hload
  · intro heven
    have hfull : ∀ row ∈ csv.rows, csv.header.length ≤ row.length := fun row hrow =>
      (heven row hrow).ge
    rw [SkipsMalformed, filter_full hfull, file, readAll, if_pos heven]
    exact loadMetrics_eq lib csv.header_ne s hfull

/-- One short row, and nothing is loaded. -/
theorem not_skipsMalformed : ¬ SkipsMalformed plainLibrary emptyStreamer
    ⟨documentedHeader, [row "a", ["only one field"], row "b"], by decide⟩
    "record on line 3: wrong number of fields" := by
  intro hload
  rw [SkipsMalformed, loadMetrics_of_uneven plainLibrary emptyStreamer _ (by decide)] at hload
  cases hload

end CsvLines

end GpuTel.Telemetry.Streamer
