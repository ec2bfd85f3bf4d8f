import GpuTel.Mq.Services
import Mathlib.Data.List.TakeWhile

/-!
# The acknowledge stream

One call of `SubscriberService.Acknowledge` against an `InMemoryStore`: a loop over the requests
that ends with the first one that is refused. Only the requests before it reach the store.
-/

set_option autoImplicit false

namespace GpuTel.Mq.SubscriberService

/-- How the stream of requests ends; after an EOF, with the error of `SendAndClose`. -/
inductive StreamEnd where
  | eof (reply : Option String)
  | error (err : String)
  deriving DecidableEq, Repr

/-- An error made by the handler, or the one of `SendAndClose`, which it returns as it is. -/
inductive HandlerError where
  | status (status : Status)
  | reply (err : String)
  deriving DecidableEq, Repr

/-- `replies` are the calls of `SendAndClose` with the empty message, each with its error. -/
structure AckResult where
  store : InMemoryStore
  replies : List (Option String)
  err : Option HandlerError
  deriving DecidableEq

def acknowledge (s : InMemoryStore) : List AcknowledgeRequest → StreamEnd → AckResult
  | [], .eof reply => ⟨s, [reply], reply.map .reply⟩
  | [], .error _ => ⟨s, [], some (.status ⟨.internal, "failed to receive request"⟩)⟩
  | req :: rest, ending =>
    match validateAck req with
    | .error status => ⟨s, [], some (.status status)⟩
    | .ok req =>
      match s.acknowledge req.messageID req.consumerID with
      | (some _, s) => ⟨s, [], some (.status ⟨.internal, "failed to acknowledge message"⟩)⟩
      | (none, s) => acknowledge s rest ending

def Acceptable (s : InMemoryStore) (req : AcknowledgeRequest) : Prop :=
  req.messageID ≠ "" ∧ req.consumerID ≠ "" ∧ s.Live req.messageID

instance (s : InMemoryStore) (req : AcknowledgeRequest) : Decidable (Acceptable s req) :=
  inferInstanceAs (Decidable (_ ∧ _ ∧ _))

/-- The longest beginning of the requests that is acceptable, and the request after it. -/
def accepted (s : InMemoryStore) (reqs : List AcknowledgeRequest) : List AcknowledgeRequest :=
  reqs.takeWhile (Acceptable s)

def refused (s : InMemoryStore) (reqs : List AcknowledgeRequest) : Option AcknowledgeRequest :=
  reqs.find? fun req => ¬ Acceptable s req

def record (s : InMemoryStore) (req : AcknowledgeRequest) : InMemoryStore :=
  (s.acknowledge req.messageID req.consumerID).2

def refusal (req : AcknowledgeRequest) : Code :=
  if req.messageID = "" ∨ req.consumerID = "" then .invalidArgument else .internal

theorem acceptable_record (s : InMemoryStore) (req : AcknowledgeRequest) :
    Acceptable (record s req) = Acceptable s := by
  funext other
  simp only [Acceptable, record, InMemoryStore.live_acknowledge]

section Step

variable {s : InMemoryStore} {req : AcknowledgeRequest} (rest : List AcknowledgeRequest)
variable (ending : StreamEnd)

theorem acknowledge_of_acceptable (h : Acceptable s req) :
    acknowledge s (req :: rest) ending = acknowledge (record s req) rest ending := by
  obtain ⟨hmsg, hconsumer, hlive⟩ := h
  have hvalid : validateAck req = .ok req := by simp [validateAck, hmsg, hconsumer]
  simp only [acknowledge, hvalid, record, InMemoryStore.acknowledge_of_live hlive]

theorem acknowledge_of_not_acceptable (h : ¬ Acceptable s req) : ∃ status,
    acknowledge s (req :: rest) ending = ⟨s, [], some (.status status)⟩ ∧
      status.code = refusal req := by
  unfold acknowledge validateAck refusal
  by_cases hmsg : req.messageID = ""
  · exact ⟨_, by rw [if_pos hmsg], by simp [hmsg]⟩
  · by_cases hconsumer : req.consumerID = ""
    · exact ⟨_, by rw [if_neg hmsg, if_pos hconsumer], by simp [hconsumer]⟩
    · have hdead : ¬ s.Live req.messageID := fun hlive => h ⟨hmsg, hconsumer, hlive⟩
      refine ⟨⟨.internal, "failed to acknowledge message"⟩, ?_, by simp [hmsg, hconsumer]⟩
      simp only [if_neg hmsg, if_neg hconsumer, InMemoryStore.acknowledge_of_not_live hdead]

end Step

/-- What the handler returns, and which replies it sends, read off the requests and the initial
store. -/
theorem acknowledge_eq (s : InMemoryStore) (reqs : List AcknowledgeRequest) (ending : StreamEnd) :
    (acknowledge s reqs ending).store = (accepted s reqs).foldl record s ∧
      match refused s reqs with
      | none => (acknowledge s reqs ending).replies = (acknowledge s [] ending).replies ∧
        (acknowledge s reqs ending).err = (acknowledge s [] ending).err
      | some req => (acknowledge s reqs ending).replies = [] ∧ ∃ status,
        (acknowledge s reqs ending).err = some (.status status) ∧ status.code = refusal req := by
  induction reqs generalizing s with
  | nil =>
    refine ⟨?_, rfl, rfl⟩
    cases ending <;> rfl
  | cons req rest ih =>
    by_cases h : Acceptable s req
    · have hempty : acknowledge (record s req) [] ending =
          { acknowledge s [] ending with store := record s req } := by
        cases ending <;> rfl
      have hrest := ih (record s req)
      simp only [accepted, refused, acceptable_record, hempty] at hrest
      rw [acknowledge_of_acceptable rest ending h]
      simpa [accepted, refused, h] using hrest
    · obtain ⟨status, heq, hcode⟩ := acknowledge_of_not_acceptable rest ending h
      rw [heq]
      simp [accepted, refused, h, hcode]

theorem refused_eq_none_iff (s : InMemoryStore) (reqs : List AcknowledgeRequest) :
    refused s reqs = none ↔ accepted s reqs = reqs := by
  simp [refused, accepted, List.takeWhile_eq_self_iff]

/-- The law that would hold if the handler made all of its errors itself. -/
def AckLaw : Prop :=
  ∀ s reqs ending, (acknowledge s reqs ending).store = (accepted s reqs).foldl record s ∧
    ((acknowledge s reqs ending).err = none ∧ (acknowledge s reqs ending).replies = [none] ↔
      accepted s reqs = reqs ∧ ending = .eof none) ∧
    ((acknowledge s reqs ending).err ≠ none → ∃ status,
      (acknowledge s reqs ending).err = some (.status status) ∧
        (status.code = .invalidArgument ∨ status.code = .internal))

/-- For every store and every sequence of requests. The store ends up as after acknowledging the
longest acceptable beginning of them, and nothing else. The handler replies and returns nil if and
only if that is all of them, the stream ended with an EOF, and the reply was sent. It returns the
status of the request after them, or else of the receive error; an error of the reply is returned
as it is. -/
theorem acknowledge_stream (s : InMemoryStore) (reqs : List AcknowledgeRequest)
    (ending : StreamEnd) :
    (acknowledge s reqs ending).store = (accepted s reqs).foldl record s ∧
    ((acknowledge s reqs ending).err = none ∧ (acknowledge s reqs ending).replies = [none] ↔
      accepted s reqs = reqs ∧ ending = .eof none) ∧
    ((acknowledge s reqs ending).err = none → (acknowledge s reqs ending).replies = [none]) ∧
    (∀ req, refused s reqs = some req → (acknowledge s reqs ending).replies = [] ∧
      ∃ status, (acknowledge s reqs ending).err = some (.status status) ∧
        status.code = refusal req) ∧
    (∀ err, accepted s reqs = reqs → ending = .error err →
      (acknowledge s reqs ending).replies = [] ∧
      ∃ status, (acknowledge s reqs ending).err = some (.status status) ∧
        status.code = .internal) ∧
    (∀ err, accepted s reqs = reqs → ending = .eof (some err) →
      (acknowledge s reqs ending).replies = [some err] ∧
      (acknowledge s reqs ending).err = some (.reply err)) := by
  obtain ⟨hstore, hmatch⟩ := acknowledge_eq s reqs ending
  refine ⟨hstore, ?_⟩
  cases hrefused : refused s reqs with
  | none =>
    rw [hrefused] at hmatch
    have hall := (refused_eq_none_iff s reqs).mp hrefused
    rw [hmatch.1, hmatch.2]
    cases ending with
    | error err => simp [acknowledge, hall]
    | eof reply => cases reply <;> simp [acknowledge, hall]
  | some req =>
    rw [hrefused] at hmatch
    obtain ⟨hreplies, status, hstatus, hcode⟩ := hmatch
    have hnot : accepted s reqs ≠ reqs := by
      rw [Ne, ← refused_eq_none_iff, hrefused]
      simp
    simp [hreplies, hstatus, hcode, hnot]

theorem not_ackLaw : ¬ AckLaw := by
  intro h
  obtain ⟨-, -, hstatus⟩ := h .newInMemoryStore [] (.eof (some "transport is closing"))
  obtain ⟨status, herr, -⟩ := hstatus (by simp [acknowledge])
  simp [acknowledge] at herr

end GpuTel.Mq.SubscriberService
