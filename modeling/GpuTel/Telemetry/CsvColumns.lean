import GpuTel.Telemetry.StreamerBatches

/-!
# The columns of the metrics file

`loadMetrics` finds its cells through a map from column names to indices. With distinct names, that
is the cell under the column; a name that the header lacks is read from the first cell, since the
map answers 0 for it. From that `loadMetrics` has a closed form, for any header and any records.
-/

set_option autoImplicit false

namespace GpuTel.Telemetry.Streamer

def under (header record : List String) (column : String) : Option String :=
  (header.zip record).lookup column

theorem colMap_append (header : List String) (name : String) :
    colMap (header ++ [name]) = (colMap header).insert name header.length := by
  simp [colMap, List.zipIdx_append]

theorem lookup_colMap {header : List String} (hdistinct : header.Nodup) {i : Nat} {name : String}
    (hi : header[i]? = some name) : (colMap header).lookup name = some i := by
  induction header using List.reverseRecOn with
  | nil => simp at hi
  | append_singleton header last ih =>
    obtain ⟨hheader, hlast⟩ : header.Nodup ∧ last ∉ header := by
      rw [List.nodup_append] at hdistinct
      refine ⟨hdistinct.1, fun hmem => ?_⟩
      exact hdistinct.2.2 last hmem last (List.mem_singleton_self last) rfl
    rw [colMap_append, Finmap.lookup_insert_eq]
    rcases Nat.lt_or_ge i header.length with hlt | hge
    · rw [List.getElem?_append_left hlt] at hi
      have hne : name ≠ last := fun heq => hlast (heq ▸ List.mem_of_getElem? hi)
      rw [if_neg hne, ih hheader hi]
    · rw [List.getElem?_append_right hge, List.getElem?_singleton] at hi
      split at hi
      · rename_i hzero
        rw [if_pos (Option.some.inj hi).symm]
        congr 1
        omega
      · cases hi

theorem lookup_zip {header record : List String} (hdistinct : header.Nodup) {i : Nat}
    {name text : String} (hi : header[i]? = some name) (htext : record[i]? = some text) :
    under header record name = some text := by
  unfold under
  induction header generalizing record i with
  | nil => simp at hi
  | cons first header ih =>
    obtain ⟨hfirst, hheader⟩ := List.nodup_cons.mp hdistinct
    cases record with
    | nil => simp at htext
    | cons cell record =>
      rw [List.zip_cons_cons, List.lookup_cons]
      cases i with
      | zero =>
        obtain rfl := Option.some.inj hi
        obtain rfl := Option.some.inj htext
        simp
      | succ i =>
        rw [List.getElem?_cons_succ] at hi htext
        have hne : (name == first) = false := by
          rw [beq_eq_false_iff_ne]
          rintro rfl
          exact hfirst (List.mem_of_getElem? hi)
        rw [hne]
        exact ih hheader hi htext

/-- The text read for a name, if the record is long enough. -/
def cellText (header record : List String) (name : String) : String :=
  (record[((colMap header).lookup name).getD 0]?).getD ""

section Cell

variable {header record : List String} {name : String}

theorem getElem?_of_lookup_colMap {i : Nat} (h : (colMap header).lookup name = some i) :
    header[i]? = some name := by
  induction header using List.reverseRecOn with
  | nil => simp [colMap] at h
  | append_singleton header last ih =>
    rw [colMap_append, Finmap.lookup_insert_eq] at h
    split at h
    · rename_i heq
      rw [← Option.some.inj h, heq, List.getElem?_concat_length]
    · have hold := ih h
      have hlt : i < header.length := (List.getElem?_eq_some_iff.mp hold).1
      rw [List.getElem?_append_left hlt]
      exact hold

theorem lookup_colMap_of_not_mem (h : name ∉ header) : (colMap header).lookup name = none := by
  cases hlookup : (colMap header).lookup name with
  | none => rfl
  | some i => exact absurd (List.mem_of_getElem? (getElem?_of_lookup_colMap hlookup)) h

theorem cell_eq (hne : header ≠ []) (hlen : header.length ≤ record.length) (name : String) :
    cell header record name = .ok (cellText header record name) := by
  have hlt : ((colMap header).lookup name).getD 0 < record.length := by
    cases hlookup : (colMap header).lookup name with
    | none =>
      have hpos : 0 < header.length := List.length_pos_iff.mpr hne
      simp only [Option.getD_none]
      omega
    | some i =>
      have hi := (List.getElem?_eq_some_iff.mp (getElem?_of_lookup_colMap hlookup)).1
      simp only [Option.getD_some]
      omega
  simp [cell, cellText, List.getElem?_eq_getElem hlt]

theorem under_of_mem (hdistinct : header.Nodup) (hlen : header.length ≤ record.length)
    (hname : name ∈ header) : under header record name = some (cellText header record name) := by
  obtain ⟨i, hi⟩ := List.mem_iff_getElem?.mp hname
  have hlt : i < record.length := by
    have := (List.getElem?_eq_some_iff.mp hi).1
    omega
  rw [lookup_zip hdistinct hi (List.getElem?_eq_getElem hlt), cellText, lookup_colMap hdistinct hi,
    Option.getD_some, List.getElem?_eq_getElem hlt, Option.getD_some]

theorem cellText_of_not_mem (hname : name ∉ header) :
    cellText header record name = record.head?.getD "" := by
  rw [cellText, lookup_colMap_of_not_mem hname, Option.getD_none, List.head?_eq_getElem?]

end Cell

section Load

variable (lib : Library)

/-- A metric from the texts of its cells. -/
def metricOf (text : String → String) : GPUMetric :=
  ⟨lib.parseTime (text "timestamp"), text "metric_name", text "gpu_id", text "device", text "uuid",
    text "modelName", text "Hostname", text "container", text "pod", text "namespace",
    text "value", text "labels_raw"⟩

theorem metricOf_congr {text text' : String → String}
    (h : ∀ column ∈ documentedHeader, text column = text' column) :
    metricOf lib text = metricOf lib text' := by
  simp only [documentedHeader, List.forall_mem_cons] at h
  simp only [metricOf, h]

variable {header : List String} (hne : header ≠ [])
include hne

theorem parseRecord_eq {record : List String} (hlen : header.length ≤ record.length) :
    parseRecord lib header record = .ok (metricOf lib (cellText header record)) := by
  simp only [parseRecord, cell_eq hne hlen]
  rfl

theorem parseRecords_eq (records : List (List String)) (metrics : List GPUMetric) :
    parseRecords lib header records metrics = .ok (metrics ++
      (records.filter fun record => header.length ≤ record.length).map fun record =>
        metricOf lib (cellText header record)) := by
  induction records generalizing metrics with
  | nil => simp [parseRecords]
  | cons record records ih =>
    unfold parseRecords
    rcases Nat.lt_or_ge record.length header.length with hshort | hfull
    · rw [if_pos hshort, ih, List.filter_cons_of_neg (by simpa using hshort)]
    · rw [if_neg (Nat.not_lt.mpr hfull), parseRecord_eq lib hne hfull,
        List.filter_cons_of_pos (by simpa using hfull)]
      simp only [bind, Except.bind, ih, List.map_cons, List.append_assoc, List.singleton_append]

omit hne in
theorem filter_full {records : List (List String)}
    (hlen : ∀ record ∈ records, header.length ≤ record.length) :
    (records.filter fun record => header.length ≤ record.length) = records := by
  apply List.filter_eq_self.mpr
  intro record hrecord
  simpa using hlen record hrecord

theorem parseRecords_of_full {records : List (List String)}
    (hlen : ∀ record ∈ records, header.length ≤ record.length) (metrics : List GPUMetric) :
    parseRecords lib header records metrics =
      .ok (metrics ++ records.map fun record => metricOf lib (cellText header record)) := by
  rw [parseRecords_eq lib hne, filter_full hlen]

theorem loadMetrics_eq (s : Streamer) {records : List (List String)}
    (hlen : ∀ record ∈ records, header.length ≤ record.length) :
    loadMetrics lib s ⟨none, .ok header, .ok records⟩ = .ok (.ok { s with
      metrics := s.metrics ++
        records.map fun record => metricOf lib (cellText header record) }) := by
  simp only [loadMetrics, parseRecords_of_full lib hne hlen, bind, Except.bind]

end Load

section Documented

variable (lib : Library)

/-- The metric has its fields from the cells under the documented columns. -/
structure Cells (header record : List String) (metric : GPUMetric) : Prop where
  timestamp : (under header record "timestamp").map lib.parseTime = some metric.timestamp
  metricName : under header record "metric_name" = some metric.metricName
  gpuIndex : under header record "gpu_id" = some metric.gpuIndex
  device : under header record "device" = some metric.device
  uuid : under header record "uuid" = some metric.uuid
  modelName : under header record "modelName" = some metric.modelName
  hostname : under header record "Hostname" = some metric.hostname
  container : under header record "container" = some metric.container
  pod : under header record "pod" = some metric.pod
  namespace_ : under header record "namespace" = some metric.namespace_
  value : under header record "value" = some metric.value
  labels : under header record "labels_raw" = some metric.labels

variable {header : List String} (hdistinct : header.Nodup)
variable (hcolumns : ∀ column ∈ documentedHeader, column ∈ header)
include hdistinct hcolumns

theorem cells_metricOf {record : List String} (hlen : header.length ≤ record.length) :
    Cells lib header record (metricOf lib (cellText header record)) := by
  have htext : ∀ column ∈ documentedHeader,
      under header record column = some (cellText header record column) :=
    fun column hcolumn => under_of_mem hdistinct hlen (hcolumns column hcolumn)
  exact {
    timestamp := by rw [htext "timestamp" (by decide), Option.map_some]; rfl
    metricName := htext "metric_name" (by decide)
    gpuIndex := htext "gpu_id" (by decide)
    device := htext "device" (by decide)
    uuid := htext "uuid" (by decide)
    modelName := htext "modelName" (by decide)
    hostname := htext "Hostname" (by decide)
    container := htext "container" (by decide)
    pod := htext "pod" (by decide)
    namespace_ := htext "namespace" (by decide)
    value := htext "value" (by decide)
    labels := htext "labels_raw" (by decide) }

/-- Records of full length are all loaded, one metric each, in the order of the file. -/
theorem parseRecords_cells {records : List (List String)}
    (hlen : ∀ record ∈ records, header.length ≤ record.length) (metrics : List GPUMetric) :
    ∃ loaded, parseRecords lib header records metrics = .ok (metrics ++ loaded) ∧
      List.Forall₂ (Cells lib header) records loaded := by
  have hne : header ≠ [] := List.ne_nil_of_mem (hcolumns "timestamp" (by decide))
  refine ⟨_, parseRecords_of_full lib hne hlen metrics, ?_⟩
  rw [List.forall₂_map_right_iff, List.forall₂_same]
  exact fun record hrecord => cells_metricOf lib hdistinct hcolumns (hlen record hrecord)

end Documented

end GpuTel.Telemetry.Streamer
