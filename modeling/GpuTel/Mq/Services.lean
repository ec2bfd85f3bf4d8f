import GpuTel.Mq.InMemoryStore

/-!
# The request handling of the services

What `PublisherService` and `SubscriberService` do with one request before they call the store: the
checks, with the status each failing one ends the stream with, and the defaults.
-/

set_option autoImplicit false

namespace GpuTel.Mq

inductive Code where
  | invalidArgument
  | internal
  | deadlineExceeded
  deriving DecidableEq, Repr

structure Status where
  code : Code
  message : String
  deriving DecidableEq, Repr

namespace PublisherService

/-- The message that the loop of `Publish` passes to `Store`. -/
def prepare (req : PublishRequest) (newID : String) (now : Timestamp) : Except Status Message :=
  match req.message with
  | none => .error ⟨.invalidArgument, "message is required"⟩
  | some msg => .ok (stamp msg newID now)

end PublisherService

/-- What `Subscribe` takes from its first request, defaults filled in. -/
structure SubscribeConfig where
  consumerID : String
  topic : String
  batchSize : Int
  maxInFlight : Int
  filter : GoMap String
  deriving DecidableEq

def SubscribeConfig.subscriber (config : SubscribeConfig) : Subscriber where
  id := config.consumerID
  topic := config.topic
  batchSize := config.batchSize
  messageFilter := config.filter

namespace SubscriberService

def configure (req : SubscribeRequest) (newID : String) : Except Status SubscribeConfig :=
  if req.topic = "" then .error ⟨.invalidArgument, "topic is required"⟩
  else .ok {
    consumerID := if req.consumerID = "" then newID else req.consumerID
    topic := req.topic
    batchSize := if req.batchSize ≤ 0 then 10 else req.batchSize
    maxInFlight := if req.maxInFlight ≤ 0 then 100 else req.maxInFlight
    filter := req.filter }

/-- The checks that the loop of `Acknowledge` makes before it calls the store. -/
def validateAck (req : AcknowledgeRequest) : Except Status AcknowledgeRequest :=
  if req.messageID = "" then .error ⟨.invalidArgument, "message_id is required"⟩
  else if req.consumerID = "" then .error ⟨.invalidArgument, "consumer_id is required"⟩
  else .ok req

theorem configure_pos {req : SubscribeRequest} {newID : String} {config : SubscribeConfig}
    (h : configure req newID = .ok config) :
    config.topic = req.topic ∧ config.topic ≠ "" ∧ 0 < config.batchSize ∧
      0 < config.maxInFlight := by
  unfold configure at h
  split at h
  · cases h
  · rename_i htopic
    obtain rfl := Except.ok.inj h
    refine ⟨rfl, htopic, ?_, ?_⟩
    · dsimp only
      split <;> omega
    · dsimp only
      split <;> omega

end SubscriberService

end GpuTel.Mq
