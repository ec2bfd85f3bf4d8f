import GpuTel.Telemetry.Collector

/-!
# What the collector stores and acknowledges

Each response is processed on its own. If it has telemetry, that is stored first; the
acknowledgements that follow run through the stored messages in order, and stop at the first error.
-/

set_option autoImplicit false

namespace GpuTel.Telemetry.Collector

open Mq

section Calls

def Call.stored : Call → Option TelemetryBatch
  | .store batch _ => some batch
  | _ => none

def Call.acked : Call → Option AcknowledgeRequest
  | .sendAck req _ => some req
  | _ => none

theorem follows_sendAck (consumerID : String) (reply : Reply) (x : String × Nat) :
    (sendAck consumerID reply x).Follows Call.acked [ackRequest consumerID x.1] :=
  (Attempt.follows_call (fun _ => rfl) _).wrap _

theorem follows_sendBatch (consumerID : String) (reply : Reply) (x : List (String × Nat) × Nat) :
    (sendBatch consumerID reply x).Follows Call.acked
      (x.1.map fun y => ackRequest consumerID y.1) := by
  have hsends := Attempt.follows_each fun y (_ : y ∈ x.1) => follows_sendAck consumerID reply y
  have hclose := (Attempt.follows_call_nil (p := Call.acked) (k := Call.closeAck) (fun _ => rfl)
    (reply.closeAck x.2)).wrap ("failed to close ack stream: " ++ ·)
  rw [List.map_eq_flatMap, ← List.append_nil (List.flatMap _ _)]
  exact hsends.andThen hclose

theorem flatMap_batches (messageIDs : List String) (consumerID : String) :
    ((Chunk.chunks 100 messageIDs.zipIdx).zipIdx.flatMap
      fun y => y.1.map fun z => ackRequest consumerID z.1) =
        messageIDs.map (ackRequest consumerID) := by
  calc ((Chunk.chunks 100 messageIDs.zipIdx).zipIdx.flatMap
        fun y => y.1.map fun z => ackRequest consumerID z.1)
      = ((Chunk.chunks 100 messageIDs.zipIdx).zipIdx.map Prod.fst).flatMap
          (List.map fun z => ackRequest consumerID z.1) := by rw [List.flatMap_map]
    _ = (Chunk.chunks 100 messageIDs.zipIdx).flatten.map fun z => ackRequest consumerID z.1 := by
      rw [List.zipIdx_map_fst, List.flatMap_def, List.map_flatten]
    _ = (messageIDs.zipIdx.map Prod.fst).map (ackRequest consumerID) := by
      rw [Chunk.flatten_chunks (by decide), List.map_map]
      rfl
    _ = messageIDs.map (ackRequest consumerID) := by rw [List.zipIdx_map_fst]

theorem follows_acknowledgeMessages (messageIDs : List String) (consumerID : String)
    (reply : Reply) : (acknowledgeMessages messageIDs consumerID reply).Follows Call.acked
      (messageIDs.map (ackRequest consumerID)) := by
  unfold acknowledgeMessages
  split
  · rename_i hnil
    rw [hnil]
    exact Attempt.follows_done
  · have hopen := (Attempt.follows_call_nil (p := Call.acked) (k := Call.openAck) (fun _ => rfl)
      reply.openAck).wrap ("failed to create ack stream: " ++ ·)
    have hbatches := Attempt.follows_each fun y
      (_ : y ∈ (Chunk.chunks 100 messageIDs.zipIdx).zipIdx) => follows_sendBatch consumerID reply y
    rw [flatMap_batches] at hbatches
    exact hopen.andThen hbatches

theorem stored_of_mem_acknowledgeMessages {messageIDs : List String} {consumerID : String}
    {reply : Reply} {k : Call}
    (hk : k ∈ (acknowledgeMessages messageIDs consumerID reply).calls) : k.stored = none := by
  unfold acknowledgeMessages at hk
  split at hk
  · cases hk
  · rcases Attempt.mem_calls_andThen hk with hopen | hbatches
    · rw [List.mem_singleton.mp hopen]
      rfl
    · obtain ⟨batch, -, hbatch⟩ := Attempt.mem_calls_each hbatches
      rcases Attempt.mem_calls_andThen hbatch with hsends | hclose
      · obtain ⟨x, -, hsend⟩ := Attempt.mem_calls_each hsends
        rw [List.mem_singleton.mp hsend]
        rfl
      · rw [List.mem_singleton.mp hclose]
        rfl

end Calls

section Responses

variable (decode : List UInt8 → Option GPUTelemetry)

def decoded (msgs : List Message) : List (Message × GPUTelemetry) :=
  msgs.filterMap fun msg => (decode msg.payload).map (msg, ·)

def Storable (resp : Response) : Prop := resp.heartbeat = false ∧ decoded decode resp.messages ≠ []

instance (resp : Response) : Decidable (Storable decode resp) :=
  inferInstanceAs (Decidable (_ ∧ _))

def batchOf (resp : Response) (reply : Reply) : TelemetryBatch :=
  ⟨reply.batchID, (decoded decode resp.messages).map Prod.snd, reply.now⟩

/-- The two lists stay aligned: they are the two sides of one list. -/
theorem decodeMessages_eq (msgs : List Message) (telemetry : List GPUTelemetry)
    (messageIDs : List String) : decodeMessages decode msgs (telemetry, messageIDs) =
      (telemetry ++ (decoded decode msgs).map Prod.snd,
        messageIDs ++ (decoded decode msgs).map fun x => x.1.id) := by
  induction msgs generalizing telemetry messageIDs with
  | nil => simp [decodeMessages, decoded]
  | cons msg msgs ih =>
    unfold decodeMessages
    split
    · rename_i hnone
      rw [ih]
      simp [decoded, hnone]
    · rename_i t hsome
      rw [ih]
      simp [decoded, hsome]

theorem processResponse_eq (consumerID : String) (resp : Response) (reply : Reply) :
    processResponse decode consumerID resp reply =
      if Storable decode resp then
        .store (batchOf decode resp reply) reply.store ::
          if reply.store = none then
            (acknowledgeMessages ((decoded decode resp.messages).map fun x => x.1.id) consumerID
              reply).calls
          else []
      else [] := by
  unfold processResponse
  rw [decodeMessages_eq]
  by_cases hskip : resp.heartbeat = true ∨ resp.messages = []
  · have hout : ¬ Storable decode resp := by
      rintro ⟨hbeat, hne⟩
      rcases hskip with htrue | hnil
      · simp [hbeat] at htrue
      · exact hne (by simp [decoded, hnil])
    rw [if_pos hskip, if_neg hout]
  · by_cases hnil : decoded decode resp.messages = []
    · have hout : ¬ Storable decode resp := fun h => h.2 hnil
      simp [hskip, hnil, hout]
    · have hin : Storable decode resp := ⟨by simpa using (not_or.mp hskip).1, hnil⟩
      rw [if_neg hskip, if_pos hin]
      cases hstore : reply.store <;> simp [hnil, batchOf]

theorem acked_processResponse (consumerID : String) (resp : Response) (reply : Reply) :
    (processResponse decode consumerID resp reply).filterMap Call.acked <+:
      (decoded decode resp.messages).map fun x => ackRequest consumerID x.1.id := by
  rw [processResponse_eq]
  split
  · split
    · have h := (follows_acknowledgeMessages
        ((decoded decode resp.messages).map fun x => x.1.id) consumerID reply).1
      rw [List.map_map] at h
      rw [List.filterMap_cons_none rfl]
      exact h
    · exact List.nil_prefix
  · exact List.nil_prefix

theorem stored_processResponse (consumerID : String) (resp : Response) (reply : Reply) :
    (processResponse decode consumerID resp reply).filterMap Call.stored =
      if Storable decode resp then [batchOf decode resp reply] else [] := by
  rw [processResponse_eq]
  split
  · rw [List.filterMap_cons_some (b := batchOf decode resp reply) (by rfl)]
    split
    · rw [List.filterMap_eq_nil_iff.mpr fun k hk => stored_of_mem_acknowledgeMessages hk]
    · rfl
  · rfl

/-- The responses before the first error, or the end of the context. -/
def responses : List Received → List (Response × Reply)
  | .response resp reply :: rest => (resp, reply) :: responses rest
  | _ => []

def handled (opening : Opening) (received : List Received) : List (Response × Reply) :=
  if opening.subscribe = none ∧ opening.sendRequest = none then responses received else []

theorem receiveLoop_calls (consumerID : String) (received : List Received) :
    (receiveLoop decode consumerID received).1 =
      (responses received).flatMap fun r => processResponse decode consumerID r.1 r.2 := by
  induction received with
  | nil => rfl
  | cons first rest ih =>
    cases first with
    | response resp reply => simp [receiveLoop, responses, ih]
    | _ => rfl

theorem processSubscription_calls (config : CollectorConfig) (consumerID : String)
    (opening : Opening) (received : List Received) : ∃ before after,
    (processSubscription decode config consumerID opening received).1 = before ++
      ((handled opening received).flatMap fun r => processResponse decode consumerID r.1 r.2) ++
        after ∧ ∀ k ∈ before ++ after, k.stored = none ∧ k.acked = none := by
  unfold processSubscription handled
  cases hsub : opening.subscribe with
  | some err => exact ⟨[.subscribe (some err)], [], by simp, by simp [Call.stored, Call.acked]⟩
  | none =>
    cases hreq : opening.sendRequest with
    | some err =>
      exact ⟨[.subscribe none, .sendRequest (subscribeRequest config consumerID) (some err),
        .closeSend opening.closeSend], [], by simp, by simp [Call.stored, Call.acked]⟩
    | none =>
      rw [if_pos ⟨rfl, rfl⟩, ← receiveLoop_calls]
      obtain ⟨calls, outcome⟩ := receiveLoop decode consumerID received
      cases outcome with
      | waiting =>
        exact ⟨[.subscribe none, .sendRequest (subscribeRequest config consumerID) none], [],
          by simp, by simp [Call.stored, Call.acked]⟩
      | returned err =>
        exact ⟨[.subscribe none, .sendRequest (subscribeRequest config consumerID) none],
          [.closeSend opening.closeSend], by simp, by simp [Call.stored, Call.acked]⟩

/-- The acknowledged message is one of the responses', and the batch with its telemetry was stored
before. -/
def StoredBefore (consumerID : String) (rs : List (Response × Reply)) (before : List Call)
    (k : Call) : Prop :=
  ∀ req, k.acked = some req → ∃ r ∈ rs, ∃ x ∈ decoded decode r.1.messages,
    req = ⟨x.1.id, consumerID, true⟩ ∧ x.2 ∈ (batchOf decode r.1 r.2).telemetry ∧
      .store (batchOf decode r.1 r.2) none ∈ before

theorem StoredBefore.more (consumerID : String) (rs : List (Response × Reply))
    (front before : List Call) (k : Call) (h : StoredBefore decode consumerID rs before k) :
    StoredBefore decode consumerID rs (front ++ before) k := by
  intro req hreq
  obtain ⟨r, hr, x, hx, heq, htelemetry, hstore⟩ := h req hreq
  exact ⟨r, hr, x, hx, heq, htelemetry, List.mem_append_right front hstore⟩

theorem ordered_processResponse (consumerID : String) {rs : List (Response × Reply)}
    {r : Response × Reply} (hr : r ∈ rs) : Attempt.Ordered (StoredBefore decode consumerID rs)
      (processResponse decode consumerID r.1 r.2) := by
  intro before k after heq req hreq
  have hacked : req ∈ (processResponse decode consumerID r.1 r.2).filterMap Call.acked :=
    List.mem_filterMap.mpr ⟨k, by rw [heq]; simp, hreq⟩
  have hfront := acked_processResponse decode consumerID r.1 r.2
  obtain ⟨x, hx, rfl⟩ := List.mem_map.mp (hfront.subset hacked)
  refine ⟨r, hr, x, hx, rfl, List.mem_map_of_mem hx, ?_⟩
  rw [processResponse_eq] at heq
  split at heq
  · cases before with
    | nil =>
      obtain ⟨rfl, -⟩ := List.cons.inj heq
      cases hreq
    | cons j before =>
      obtain ⟨rfl, hrest⟩ := List.cons.inj heq
      split at hrest
      · rename_i hstore
        rw [hstore]
        exact List.mem_cons_self
      · simp at hrest
  · simp at heq

theorem stored_flatMap (consumerID : String) (rs : List (Response × Reply)) :
    (rs.flatMap fun r => processResponse decode consumerID r.1 r.2).filterMap Call.stored =
      (rs.filter fun r => Storable decode r.1).map fun r => batchOf decode r.1 r.2 := by
  induction rs with
  | nil => rfl
  | cons r rs ih =>
    rw [List.flatMap_cons, List.filterMap_append, ih, stored_processResponse, List.filter_cons]
    by_cases hr : Storable decode r.1 <;> simp [hr]

/-- For all responses and all answers: the storage is called once for each response with telemetry,
in order; every acknowledgement comes after a successful `Store` of its message; those of one
response run through its decoded messages in order, and there is none if its `Store` failed; and
each response is processed as if it were the only one. -/
theorem acknowledges_only_stored (config : CollectorConfig) (consumerID : String)
    (opening : Opening) (received : List Received) :
    let calls := (processSubscription decode config consumerID opening received).1
    let rs := handled opening received
    calls.filterMap Call.stored =
        (rs.filter fun r => Storable decode r.1).map (fun r => batchOf decode r.1 r.2) ∧
      (∀ before k after, calls = before ++ k :: after →
        StoredBefore decode consumerID rs before k) ∧
      (∀ r ∈ rs, (processResponse decode consumerID r.1 r.2).filterMap Call.acked <+:
          ((decoded decode r.1.messages).map fun x => ⟨x.1.id, consumerID, true⟩) ∧
        (r.2.store ≠ none →
          (processResponse decode consumerID r.1 r.2).filterMap Call.acked = [])) ∧
      ∃ before after,
        calls = before ++ (rs.flatMap fun r => processResponse decode consumerID r.1 r.2) ++ after ∧
          ∀ k ∈ before ++ after, k.stored = none ∧ k.acked = none := by
  intro calls rs
  obtain ⟨before, after, hcalls, hquiet⟩ :=
    processSubscription_calls decode config consumerID opening received
  have hbefore := fun k hk => hquiet k (List.mem_append_left after hk)
  have hafter := fun k hk => hquiet k (List.mem_append_right before hk)
  refine ⟨?_, ?_, ?_, before, after, hcalls, hquiet⟩
  · have hnone : ∀ {l : List Call}, (∀ k ∈ l, k.stored = none ∧ k.acked = none) →
        l.filterMap Call.stored = [] :=
      fun hl => List.filterMap_eq_nil_iff.mpr fun k hk => (hl k hk).1
    rw [show calls = _ from hcalls, List.filterMap_append, List.filterMap_append, hnone hbefore,
      hnone hafter, stored_flatMap, List.nil_append, List.append_nil]
  · have hnone : ∀ {l : List Call}, (∀ k ∈ l, k.stored = none ∧ k.acked = none) →
        Attempt.Ordered (StoredBefore decode consumerID rs) l := by
      intro l hl
      apply Attempt.ordered_of_forall
      intro k hk before req hreq
      rw [(hl k hk).2] at hreq
      cases hreq
    have hmore := StoredBefore.more decode consumerID rs
    have hmiddle := Attempt.ordered_flatMap hmore fun r hr =>
      ordered_processResponse decode consumerID hr
    have hall := ((hnone hbefore).append hmore hmiddle).append hmore (hnone hafter)
    rw [show calls = _ from hcalls]
    exact hall
  · intro r hr
    refine ⟨acked_processResponse decode consumerID r.1 r.2, fun hfail => ?_⟩
    rw [processResponse_eq, if_neg hfail]
    split <;> rfl

end Responses

end GpuTel.Telemetry.Collector
