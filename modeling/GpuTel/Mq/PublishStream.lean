import GpuTel.Lib.Attempt
import GpuTel.Mq.Services
import Mathlib.Data.List.TakeWhile

/-!
# The publish stream

One call of `PublisherService.Publish`, as the calls it makes to the store and to its stream. Which
of them fail, and when the context of an acknowledgement is done, is given from outside. The loop
ends with the first request that fails, and the messages before it stay stored.
-/

set_option autoImplicit false

namespace GpuTel.Mq

structure PublishResponse where
  messageID : String
  success : Bool
  error : String
  timestamp : Timestamp
  deriving DecidableEq, Repr

/-- What `uuid.New().String()` returns. -/
abbrev UUID := { text : String // text ≠ "" }

namespace PublisherService

/-- The answers while one request is processed. `ctxDone` says of a timeout, in nanoseconds, whether
the context made with it is done when it is looked at. -/
structure Reply where
  newID : UUID
  now : Timestamp
  store : Option String
  ackedAt : Timestamp
  ctxDone : Int → Bool
  send : Option String

/-- What `stream.Recv` returns. The code knows the end of the stream by the text of the error. -/
inductive Received where
  | request (req : PublishRequest) (reply : Reply)
  | error (err : String)

inductive Call where
  | store (msg : Message) (err : Option String)
  | send (resp : PublishResponse) (err : Option String)
  deriving DecidableEq, Repr

inductive Outcome where
  | waiting
  | returned (err : Option Status)
  deriving DecidableEq, Repr

def ackTimeout (req : PublishRequest) : Int :=
  let timeout := req.ackTimeoutSeconds * 10 ^ 9
  if timeout = 0 then 5 * 10 ^ 9 else timeout

def response (msg : Message) (reply : Reply) : PublishResponse := ⟨msg.id, true, "", reply.ackedAt⟩

def sendResponse (req : PublishRequest) (msg : Message) (reply : Reply) : Attempt Call Status :=
  if req.waitForAck = true then
    if reply.ctxDone (ackTimeout req) = true then
      .fail ⟨.deadlineExceeded, "timed out waiting to send acknowledgment"⟩
    else
      (Attempt.call (.send (response msg reply)) reply.send).mapErr fun err =>
        ⟨.internal, "failed to send acknowledgment: " ++ err⟩
  else .done

/-- The body of the loop, after the request is received. -/
def processRequest (req : PublishRequest) (reply : Reply) : Attempt Call Status :=
  match prepare req reply.newID.1 reply.now with
  | .error status => .fail status
  | .ok msg =>
    ((Attempt.call (.store msg) reply.store).mapErr fun err =>
      ⟨.internal, "failed to store message: " ++ err⟩).andThen (sendResponse req msg reply)

def publish : List Received → List Call × Outcome
  | [] => ([], .waiting)
  | .error err :: _ =>
    if err = "EOF" then ([], .returned none)
    else ([], .returned (some ⟨.internal, "failed to receive publish request: " ++ err⟩))
  | .request req reply :: rest =>
    match (processRequest req reply).err with
    | some status => ((processRequest req reply).calls, .returned (some status))
    | none =>
      let (calls, outcome) := publish rest
      ((processRequest req reply).calls ++ calls, outcome)

def Call.stored : Call → Option Message
  | .store msg _ => some msg
  | .send _ _ => none

def Call.answered : Call → Option PublishResponse
  | .send resp none => some resp
  | _ => none

section Request

variable (req : PublishRequest) (reply : Reply)

/-- The code that the request fails with, read off the request and the answers. -/
def failure : Option Code :=
  if req.message = none then some .invalidArgument
  else if reply.store ≠ none then some .internal
  else if req.waitForAck = true then
    if reply.ctxDone (ackTimeout req) = true then some .deadlineExceeded
    else if reply.send ≠ none then some .internal
    else none
  else none

/-- The message under the id, and with the timestamp, that it is stored with. -/
def storedAs : Option Message := req.message.map fun msg => msg.filledIn reply.newID.1 reply.now

theorem err_processRequest :
    (processRequest req reply).err.map Status.code = failure req reply := by
  unfold processRequest failure prepare sendResponse
  cases req.message with
  | none => rfl
  | some msg =>
    cases hstore : reply.store with
    | some err => simp [Attempt.andThen, Attempt.call, Attempt.mapErr]
    | none =>
      by_cases hwait : req.waitForAck = true
      · by_cases hdone : reply.ctxDone (ackTimeout req) = true
        · simp [Attempt.andThen, Attempt.call, Attempt.mapErr, Attempt.fail, hwait, hdone]
        · cases hsend : reply.send <;>
            simp [Attempt.andThen, Attempt.call, Attempt.mapErr, hwait, hdone]
      · simp [Attempt.andThen, Attempt.call, Attempt.mapErr, Attempt.done, hwait]

theorem calls_processRequest : (processRequest req reply).calls =
    match storedAs req reply with
    | none => []
    | some msg => .store msg reply.store ::
      if reply.store = none ∧ req.waitForAck = true ∧ reply.ctxDone (ackTimeout req) = false then
        [.send (response msg reply) reply.send]
      else [] := by
  unfold processRequest storedAs prepare sendResponse
  cases req.message with
  | none => rfl
  | some msg =>
    cases hstore : reply.store with
    | some err => simp [Attempt.andThen, Attempt.call, Attempt.mapErr, stamp_eq]
    | none =>
      by_cases hwait : req.waitForAck = true
      · cases hdone : reply.ctxDone (ackTimeout req) <;>
          simp [Attempt.andThen, Attempt.call, Attempt.mapErr, Attempt.fail, hwait, stamp_eq]
      · simp [Attempt.andThen, Attempt.call, Attempt.mapErr, Attempt.done, hwait, stamp_eq]

theorem stored_processRequest :
    (processRequest req reply).calls.filterMap Call.stored = (storedAs req reply).toList := by
  rw [calls_processRequest]
  cases storedAs req reply with
  | none => rfl
  | some msg =>
    dsimp only
    rw [List.filterMap_cons_some (b := msg) (by rfl)]
    split <;> rfl

theorem answered_processRequest : (processRequest req reply).calls.filterMap Call.answered =
    if failure req reply = none ∧ req.waitForAck = true then
      ((storedAs req reply).map (response · reply)).toList
    else [] := by
  rw [calls_processRequest]
  unfold failure storedAs
  cases req.message with
  | none => simp
  | some msg =>
    cases reply.store <;> cases req.waitForAck <;> cases reply.ctxDone (ackTimeout req) <;>
      cases reply.send <;> simp [Call.answered, List.filterMap_cons]

theorem storedAs_spec {msg stored : Message} (hmsg : req.message = some msg)
    (hstored : storedAs req reply = some stored) : stored.id ≠ "" ∧ stored.timestamp ≠ none ∧
      stored.topic = msg.topic ∧ stored.payload = msg.payload := by
  rw [storedAs, hmsg] at hstored
  obtain rfl := Option.some.inj hstored
  refine ⟨?_, ?_, rfl, rfl⟩
  · simp only [Message.filledIn]
    split
    · exact reply.newID.2
    · assumption
  · simp [Message.filledIn]

/-- A response is only sent after its message was stored. -/
def AfterStore (before : List Call) (k : Call) : Prop :=
  ∀ resp err, k = .send resp err →
    resp.success = true ∧ ∃ msg, .store msg none ∈ before ∧ resp.messageID = msg.id

theorem ordered_processRequest : Attempt.Ordered AfterStore (processRequest req reply).calls := by
  rw [calls_processRequest]
  intro before k after heq resp err hk
  subst hk
  cases hstored : storedAs req reply with
  | none => simp [hstored] at heq
  | some msg =>
    simp only [hstored] at heq
    cases before with
    | nil => cases heq
    | cons j before =>
      obtain ⟨rfl, hrest⟩ := List.cons.inj heq
      split at hrest
      · rename_i hin
        cases before with
        | nil =>
          obtain ⟨hsend, -⟩ := List.cons.inj hrest
          obtain ⟨rfl, -⟩ := Call.send.inj hsend
          rw [hin.1]
          exact ⟨rfl, msg, List.mem_cons_self, rfl⟩
        | cons j before => simp at hrest
      · simp at hrest

end Request

def requests : List Received → List (PublishRequest × Reply)
  | .request req reply :: rest => (req, reply) :: requests rest
  | _ => []

def ending : List Received → Option String
  | [] => none
  | .error err :: _ => some err
  | .request _ _ :: rest => ending rest

/-- What the loop does about an error of `Recv`. -/
def atEnd : Option String → Outcome
  | none => .waiting
  | some err =>
    if err = "EOF" then .returned none
    else .returned (some ⟨.internal, "failed to receive publish request: " ++ err⟩)

/-- The requests that are processed to their end, and the first that is not. -/
def processed (items : List Received) : List (PublishRequest × Reply) :=
  (requests items).takeWhile fun r => (failure r.1 r.2).isNone

def failing (items : List Received) : Option (PublishRequest × Reply) :=
  (requests items).find? fun r => (failure r.1 r.2).isSome

def attempts (items : List Received) : Attempt Call Status :=
  Attempt.each (fun r => processRequest r.1 r.2) (requests items)

theorem publish_eq (items : List Received) : publish items = ((attempts items).calls,
    match (attempts items).err with
    | some status => .returned (some status)
    | none => atEnd (ending items)) := by
  induction items with
  | nil => rfl
  | cons item rest ih =>
    cases item with
    | error err =>
      simp only [publish, ending, atEnd]
      split <;> rfl
    | request req reply =>
      simp only [publish, ending, attempts, requests, Attempt.each, Attempt.andThen] at ih ⊢
      cases herr : (processRequest req reply).err with
      | some status => simp only [herr]
      | none => simp only [ih]

theorem passed_requests (items : List Received) :
    Attempt.passed (fun r => processRequest r.1 r.2) (requests items) = processed items := by
  simp only [Attempt.passed, processed, ← err_processRequest, Option.isNone_map]

theorem stopped_requests (items : List Received) :
    Attempt.stopped (fun r => processRequest r.1 r.2) (requests items) = failing items := by
  simp only [Attempt.stopped, failing, ← err_processRequest, Option.isSome_map]

theorem calls_publish (items : List Received) :
    (publish items).1 = (processed items ++ (failing items).toList).flatMap fun r =>
      (processRequest r.1 r.2).calls := by
  rw [publish_eq, attempts, Attempt.each_eq, passed_requests, stopped_requests]

theorem err_attempts (items : List Received) :
    (attempts items).err = (failing items).bind fun r => (processRequest r.1 r.2).err := by
  rw [attempts, Attempt.each_eq, stopped_requests]

theorem failure_of_mem_processed {items : List Received} {r : PublishRequest × Reply}
    (h : r ∈ processed items) : failure r.1 r.2 = none := by
  have hnone := List.mem_takeWhile_imp h
  exact Option.isNone_iff_eq_none.mp hnone

theorem failure_of_failing {items : List Received} {r : PublishRequest × Reply}
    (h : failing items = some r) : failure r.1 r.2 ≠ none := by
  have hsome := List.find?_some h
  exact Option.isSome_iff_ne_none.mp hsome

theorem stored_publish (items : List Received) : (publish items).1.filterMap Call.stored =
    (processed items ++ (failing items).toList).filterMap fun r => storedAs r.1 r.2 := by
  rw [calls_publish, List.filterMap_flatMap, List.filterMap_eq_flatMap_toList]
  simp only [stored_processRequest]

theorem answered_publish (items : List Received) : (publish items).1.filterMap Call.answered =
    ((processed items).filter fun r => r.1.waitForAck).filterMap fun r =>
      (storedAs r.1 r.2).map (response · r.2) := by
  rw [calls_publish, List.filterMap_flatMap, List.flatMap_append]
  have hfailing : (failing items).toList.flatMap
      (fun r => (processRequest r.1 r.2).calls.filterMap Call.answered) = [] := by
    cases hr : failing items with
    | none => rfl
    | some r => simp [answered_processRequest, failure_of_failing hr]
  rw [hfailing, List.append_nil, List.filterMap_filter, List.filterMap_eq_flatMap_toList]
  apply List.flatMap_congr
  intro r hr
  rw [answered_processRequest]
  simp only [failure_of_mem_processed hr, true_and]
  split <;> rfl

theorem ordered_publish (items : List Received) :
    Attempt.Ordered AfterStore (publish items).1 := by
  rw [calls_publish]
  apply Attempt.ordered_flatMap
  · intro front before k h resp err hk
    obtain ⟨hsuccess, msg, hmsg, hid⟩ := h resp err hk
    exact ⟨hsuccess, msg, List.mem_append_right front hmsg, hid⟩
  · exact fun r _ => ordered_processRequest r.1 r.2

def Call.kept : Call → Option Message
  | .store msg none => some msg
  | _ => none

/-- The maps of the store after the calls: a message whose `Store` returned an error is not in them.
-/
def leftStored (s : InMemoryStore) (calls : List Call) : InMemoryStore :=
  (calls.filterMap Call.kept).foldl InMemoryStore.put s

theorem live_foldl_put {msgs : List Message} {s : InMemoryStore} {id : String}
    (h : s.Live id ∨ ∃ msg ∈ msgs, msg.id = id) : (msgs.foldl InMemoryStore.put s).Live id := by
  induction msgs generalizing s with
  | nil => simpa using h
  | cons msg msgs ih =>
    rw [List.foldl_cons]
    apply ih
    by_cases hid : id = msg.id
    · rw [hid]
      exact Or.inl ⟨msg, Finmap.lookup_insert s.messages⟩
    · rcases h with ⟨old, hold⟩ | ⟨other, hother, rfl⟩
      · exact Or.inl ⟨old, by simp [InMemoryStore.put, hid, hold]⟩
      · rcases List.mem_cons.mp hother with rfl | hmem
        · exact absurd rfl hid
        · exact Or.inr ⟨other, hmem, rfl⟩

theorem kept_processRequest {req : PublishRequest} {reply : Reply} {msg : Message}
    (hfail : failure req reply = none) (hmsg : storedAs req reply = some msg) :
    .store msg none ∈ (processRequest req reply).calls := by
  have hstore : reply.store = none := by
    unfold failure at hfail
    split at hfail
    · cases hfail
    · split at hfail
      · cases hfail
      · rename_i hstore
        exact not_not.mp hstore
  rw [calls_processRequest, hmsg, hstore]
  exact List.mem_cons_self

theorem live_leftStored {items : List Received} {r : PublishRequest × Reply} {msg : Message}
    (hr : r ∈ processed items) (hmsg : storedAs r.1 r.2 = some msg) (s : InMemoryStore) :
    (leftStored s (publish items).1).Live msg.id := by
  refine live_foldl_put (Or.inr ⟨msg, ?_, rfl⟩)
  rw [calls_publish]
  refine List.mem_filterMap.mpr ⟨.store msg none, ?_, rfl⟩
  exact List.mem_flatMap.mpr ⟨r, List.mem_append_left _ hr,
    kept_processRequest (failure_of_mem_processed hr) hmsg⟩

theorem outcome_of_failing {items : List Received} {r : PublishRequest × Reply}
    (h : failing items = some r) : ∃ status, (publish items).2 = .returned (some status) ∧
      failure r.1 r.2 = some status.code := by
  obtain ⟨status, hstatus⟩ : ∃ status, (processRequest r.1 r.2).err = some status := by
    rw [← Option.ne_none_iff_exists']
    intro hnone
    have hfail := failure_of_failing h
    rw [← err_processRequest, hnone] at hfail
    exact hfail rfl
  refine ⟨status, ?_, ?_⟩
  · rw [publish_eq, err_attempts, h, Option.bind_some, hstatus]
  · rw [← err_processRequest, hstatus, Option.map_some]

theorem outcome_of_not_failing {items : List Received} (h : failing items = none) :
    (publish items).2 = atEnd (ending items) := by
  rw [publish_eq, err_attempts, h, Option.bind_none]

theorem atEnd_eq_returned_none (err : Option String) :
    atEnd err = .returned none ↔ err = some "EOF" := by
  cases err with
  | none => simp [atEnd]
  | some err =>
    simp only [atEnd, Option.some.injEq]
    split <;> simp_all

/-- For every sequence of requests, with every pattern of failures. The calls of `Store` are the
messages of the requests up to the first failing one, under an id and with a timestamp. The
responses sent are one for each processed request that waits, under the id it was stored with, and
no response comes before its message is stored. The first failure decides the status; what was
stored before it stays. -/
theorem publish_trace (items : List Received) :
    ((publish items).1.filterMap Call.stored =
        (processed items ++ (failing items).toList).filterMap (fun r => storedAs r.1 r.2) ∧
      ∀ req reply msg, req.message = some msg → ∃ stored, storedAs req reply = some stored ∧
        stored.id ≠ "" ∧ stored.timestamp ≠ none ∧ stored.topic = msg.topic ∧
        stored.payload = msg.payload) ∧
    (((publish items).1.filterMap Call.answered).map (fun resp => (resp.messageID, resp.success)) =
        (((processed items).filter fun r => r.1.waitForAck).filterMap fun r =>
          storedAs r.1 r.2).map (fun msg => (msg.id, true)) ∧
      Attempt.Ordered AfterStore (publish items).1) ∧
    (∀ r, failing items = some r → ∃ status, (publish items).2 = .returned (some status) ∧
      failure r.1 r.2 = some status.code) ∧
    (∀ err, failing items = none → ending items = some err → err ≠ "EOF" →
      ∃ status, (publish items).2 = .returned (some status) ∧ status.code = .internal) ∧
    ((publish items).2 = .returned none ↔ failing items = none ∧ ending items = some "EOF") ∧
    ∀ s r msg, r ∈ processed items → storedAs r.1 r.2 = some msg →
      (leftStored s (publish items).1).Live msg.id := by
  refine ⟨⟨stored_publish items, ?_⟩, ⟨?_, ordered_publish items⟩,
    fun r hr => outcome_of_failing hr, ?_, ?_, fun s r msg hr hmsg => live_leftStored hr hmsg s⟩
  · intro req reply msg hmsg
    have hstored : storedAs req reply = some (msg.filledIn reply.newID.1 reply.now) := by
      rw [storedAs, hmsg, Option.map_some]
    exact ⟨_, hstored, storedAs_spec req reply hmsg hstored⟩
  · rw [answered_publish, List.map_filterMap, List.map_filterMap]
    simp only [Option.map_map, Function.comp_def, response]
  · intro err hnone hend herr
    refine ⟨⟨.internal, "failed to receive publish request: " ++ err⟩, ?_, rfl⟩
    rw [outcome_of_not_failing hnone, hend, atEnd, if_neg herr]
  · cases h : failing items with
    | some r =>
      obtain ⟨status, hstatus, -⟩ := outcome_of_failing h
      simp [hstatus]
    | none => simp [outcome_of_not_failing h, atEnd_eq_returned_none]

end PublisherService

end GpuTel.Mq
