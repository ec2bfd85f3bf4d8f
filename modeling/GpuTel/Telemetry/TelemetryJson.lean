import GpuTel.Lib.Json
import GpuTel.Telemetry.Models

/-!
# The payload of a message

A `GPUTelemetry` as JSON: the tags of the struct serve the streamer to encode it and the collector
to decode it.
-/

set_option autoImplicit false

namespace GpuTel.Telemetry

open Json

/-- `encoding/json` keeps a time in UTC to the nanosecond. -/
abbrev TelemetryCodec := Codec Time (BitVec 64) fun t => t.offset = 0

namespace GPUTelemetry

def fields (t : GPUTelemetry) : List (String × Option (Value Time (BitVec 64))) :=
  [field "timestamp" (.time t.timestamp), field "metric_name" (.string t.metricName),
    field "gpu_id" (.string t.gpuIndex), field "device" (.string t.device),
    field "uuid" (.string t.uuid), field "model_name" (.string t.modelName),
    field "hostname" (.string t.hostname), omitEmpty "container" t.container,
    omitEmpty "pod" t.pod, omitEmpty "namespace" t.namespace_, field "value" (.number t.value),
    omitEmpty "labels_raw" t.labelsRaw]

def ofObject (o : Object Time (BitVec 64)) : Option GPUTelemetry := do
  let timestamp ← o.time "timestamp" .zero
  let metricName ← o.text "metric_name"
  let gpuIndex ← o.text "gpu_id"
  let device ← o.text "device"
  let uuid ← o.text "uuid"
  let modelName ← o.text "model_name"
  let hostname ← o.text "hostname"
  let container ← o.text "container"
  let pod ← o.text "pod"
  let namespace_ ← o.text "namespace"
  let value ← o.number "value" 0
  let labelsRaw ← o.text "labels_raw"
  some ⟨timestamp, metricName, gpuIndex, device, uuid, modelName, hostname, container, pod,
    namespace_, value, labelsRaw⟩

def marshal (codec : TelemetryCodec) (t : GPUTelemetry) : Option (List UInt8) :=
  codec.encode (object t.fields)

def unmarshal (codec : TelemetryCodec) (payload : List UInt8) : Option GPUTelemetry :=
  (codec.decode payload).bind ofObject

theorem nodup_fields (t : GPUTelemetry) : (t.fields.map Prod.fst).Nodup := by
  simp [fields, field, omitEmpty]

theorem ofObject_fields (t : GPUTelemetry) : ofObject (object t.fields) = some t := by
  have hkeys := t.nodup_fields
  have htext : ∀ key text, t.fields.lookup key = some (field key (.string text)).2 →
      (object t.fields).text key = some text := fun _ _ => text_field hkeys
  have homit : ∀ key text, t.fields.lookup key = some (omitEmpty key text).2 →
      (object t.fields).text key = some text := fun _ _ => text_omitEmpty hkeys
  have htime : (object t.fields).time "timestamp" .zero = some t.timestamp :=
    time_field hkeys rfl .zero
  have hnumber : (object t.fields).number "value" 0 = some t.value := number_field hkeys rfl 0
  unfold ofObject
  rw [htime, htext "metric_name" t.metricName rfl, htext "gpu_id" t.gpuIndex rfl,
    htext "device" t.device rfl, htext "uuid" t.uuid rfl, htext "model_name" t.modelName rfl,
    htext "hostname" t.hostname rfl, homit "container" t.container rfl, homit "pod" t.pod rfl,
    homit "namespace" t.namespace_ rfl, hnumber, homit "labels_raw" t.labelsRaw rfl]
  rfl

theorem exact_of_mem_fields {t : GPUTelemetry} (h : t.timestamp.offset = 0) :
    ∀ key time, (key, some (.time time)) ∈ t.fields → time.offset = 0 := by
  intro key time hmem
  simp only [fields, field, omitEmpty, List.mem_cons, Prod.mk.injEq, Option.some.injEq,
    Value.time.injEq, reduceCtorEq, and_false, List.not_mem_nil, or_false, false_or] at hmem
  rcases hmem with ⟨-, rfl⟩ | h' | h' | h' | h'
  · exact h
  all_goals
    obtain ⟨-, h'⟩ := h'
    split at h' <;> cases h'

/-- What the streamer can encode, the collector decodes to the same record. -/
theorem unmarshal_marshal (codec : TelemetryCodec) {t : GPUTelemetry} {payload : List UInt8}
    (hutc : t.timestamp.offset = 0) (h : marshal codec t = some payload) :
    unmarshal codec payload = some t := by
  rw [unmarshal, codec.decode_object t.nodup_fields (exact_of_mem_fields hutc) h, Option.bind_some,
    ofObject_fields]

end GPUTelemetry

end GpuTel.Telemetry
