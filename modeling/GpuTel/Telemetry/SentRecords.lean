import GpuTel.Telemetry.StreamerFailures

/-!
# What a tick sends

The requests of a tick that get through to the stream, as the records that they carry. They have an
id and a timestamp of their own, so that the queue has nothing to fill in.
-/

set_option autoImplicit false

namespace GpuTel.Telemetry

open Mq

/-- The clock is `time.Now().UTC()`. -/
def Tick.atUTC (tick : Tick) : Tick :=
  { tick with clock := fun i => { tick.clock i with utc := (tick.clock i).utc.utc } }

namespace Streamer

def Call.sent : Call → Option PublishRequest
  | .send req none => some req
  | _ => none

/-- Who decodes a payload gets the record that it was made of. -/
def RoundTrip (lib : Library) (decode : List UInt8 → Option GPUTelemetry) : Prop :=
  ∀ t payload, t.timestamp.offset = 0 → lib.marshal t = some payload → decode payload = some t

def decodeRequest (decode : List UInt8 → Option GPUTelemetry) (req : PublishRequest) :
    Option GPUTelemetry := req.message.bind fun msg => decode msg.payload

/-- The message has all that the queue would fill in, and the topic of the streamer. -/
structure Complete (req : PublishRequest) (msg : Message) : Prop where
  message : req.message = some msg
  id : msg.id ≠ ""
  timestamp : msg.timestamp ≠ none
  topic : msg.topic = "gpu_metrics"

section Sent

variable (lib : Library)

/-- The record of a metric, if it can be encoded and sent. -/
def sentRecord (tick : Tick) : GPUMetric × Nat → Option GPUTelemetry
  | (metric, i) =>
    if lib.marshal (telemetryOf lib metric (tick.clock i)) ≠ none ∧ tick.send i = none then
      some (telemetryOf lib metric (tick.clock i))
    else none

def sentRecords (s : Streamer) (tick : Tick) : List GPUTelemetry :=
  ((batchOf lib s tick).getD []).zipIdx.filterMap (sentRecord lib tick)

def sentRequests (s : Streamer) (tick : Tick) : List PublishRequest :=
  match collectAndProcess lib s tick with
  | .ok processed => processed.calls.filterMap Call.sent
  | .error _ => []

theorem filterMap_sent_publishCalls (tick : Tick) (batch : List GPUMetric) :
    (publishCalls lib tick batch).filterMap Call.sent =
      if tick.publish = none then
        batch.zipIdx.flatMap fun x => (sendMetric lib tick x).filterMap Call.sent
      else [] := by
  unfold publishCalls
  cases tick.publish with
  | some err => simp [Call.sent]
  | none =>
    rw [if_pos rfl, List.filterMap_append, List.filterMap_cons_none rfl, List.filterMap_flatMap]
    exact List.append_nil _

theorem calls_of_ok {s : Streamer} {tick : Tick} {processed : Processed}
    (hok : collectAndProcess lib s tick = .ok processed) :
    (processed.batch = none ∧ processed.calls = []) ∨ ∃ batch, processed.batch = some batch ∧
      processed.calls = publishCalls lib tick batch := by
  cases hload : ensureLoaded lib s tick.file with
  | error panic => simp [collectAndProcess, hload, bind, Except.bind] at hok
  | ok result =>
    cases result with
    | error err =>
      simp only [collectAndProcess, hload, bind, Except.bind] at hok
      obtain rfl := Except.ok.inj hok
      exact Or.inl ⟨rfl, rfl⟩
    | ok u =>
      rw [collectAndProcess_of_loaded lib hload] at hok
      cases hbatch : nextBatch u with
      | error panic => simp [hbatch, Except.map] at hok
      | ok x =>
        rw [hbatch] at hok
        obtain rfl := Except.ok.inj hok
        exact Or.inr ⟨x.1, rfl, rfl⟩

theorem sentRequests_of_refused (s : Streamer) {tick : Tick} (hpublish : tick.publish ≠ none) :
    sentRequests lib s tick = [] := by
  unfold sentRequests
  cases hok : collectAndProcess lib s tick with
  | error panic => rfl
  | ok processed =>
    rcases calls_of_ok lib hok with ⟨-, hcalls⟩ | ⟨batch, -, hcalls⟩
    · simp [hcalls]
    · simp only [hcalls, filterMap_sent_publishCalls, if_neg hpublish]

theorem sentRequests_eq (s : Streamer) (tick : Tick) : sentRequests lib s tick =
    ((batchOf lib s tick).getD []).zipIdx.flatMap fun x =>
      (sendMetric lib tick x).filterMap Call.sent := by
  unfold sentRequests batchOf
  cases hok : collectAndProcess lib s tick with
  | error panic => rfl
  | ok processed =>
    rcases calls_of_ok lib hok with ⟨hbatch, hcalls⟩ | ⟨batch, hbatch, hcalls⟩
    · simp [hbatch, hcalls]
    · simp only [hbatch, hcalls, filterMap_sent_publishCalls]
      split <;> simp

theorem filterMap_decode_sendMetric {decode : List UInt8 → Option GPUTelemetry} {tick : Tick}
    (hutc : ∀ i, (tick.clock i).utc.offset = 0) (htrip : RoundTrip lib decode)
    (x : GPUMetric × Nat) : ((sendMetric lib tick x).filterMap Call.sent).filterMap
      (decodeRequest decode) = (sentRecord lib tick x).toList := by
  obtain ⟨metric, i⟩ := x
  unfold sendMetric sentRecord
  cases hpayload : lib.marshal (telemetryOf lib metric (tick.clock i)) with
  | none => simp [hpayload]
  | some payload =>
    have hdecode := htrip _ payload (hutc i) hpayload
    cases hsend : tick.send i with
    | some err => simp [hpayload, hsend, Call.sent]
    | none => simp [hpayload, hsend, Call.sent, decodeRequest, hdecode]

theorem filterMap_decode_sentRequests {decode : List UInt8 → Option GPUTelemetry} {tick : Tick}
    (hutc : ∀ i, (tick.clock i).utc.offset = 0) (htrip : RoundTrip lib decode) (s : Streamer) :
    (sentRequests lib s tick).filterMap (decodeRequest decode) = sentRecords lib s tick := by
  rw [sentRequests_eq, sentRecords, List.filterMap_flatMap]
  simp only [filterMap_decode_sendMetric lib hutc htrip]
  induction ((batchOf lib s tick).getD []).zipIdx with
  | nil => rfl
  | cons x l ih =>
    rw [List.flatMap_cons, ih]
    cases hx : sentRecord lib tick x <;> simp [hx]

theorem complete_of_mem_sentRequests {s : Streamer} {tick : Tick} {req : PublishRequest}
    (h : req ∈ sentRequests lib s tick) : ∃ msg, Complete req msg := by
  rw [sentRequests_eq] at h
  obtain ⟨⟨metric, i⟩, -, hx⟩ := List.mem_flatMap.mp h
  obtain ⟨k, hk, hsent⟩ := List.mem_filterMap.mp hx
  simp only [sendMetric] at hk
  split at hk
  · cases hk
  · rename_i payload _
    rw [List.mem_singleton.mp hk] at hsent
    cases hsend : tick.send i with
    | some err => simp [hsend, Call.sent] at hsent
    | none =>
      rw [hsend] at hsent
      obtain rfl := Option.some.inj hsent
      refine ⟨_, rfl, ?_, by simp, rfl⟩
      intro hempty
      have hlen := congrArg String.length hempty
      simp only [String.length_append] at hlen
      simp at hlen

end Sent

end Streamer

end GpuTel.Telemetry
