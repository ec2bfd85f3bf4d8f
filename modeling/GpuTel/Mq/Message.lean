import GpuTel.Lib.SetMap

/-!
# Messages and requests of the queue

The protobuf messages of `mq.proto`, with the fields that the services and the store read.
-/

set_option autoImplicit false

namespace GpuTel.Mq

structure Timestamp where
  seconds : Int
  nanos : Int
  deriving DecidableEq, Repr

structure Message where
  id : String
  topic : String
  payload : List UInt8
  timestamp : Option Timestamp
  deriving DecidableEq, Repr

/-- The message with an id and a timestamp where it had none, and otherwise as it was. -/
def Message.filledIn (msg : Message) (newID : String) (now : Timestamp) : Message :=
  { msg with
    id := if msg.id = "" then newID else msg.id
    timestamp := msg.timestamp.or (some now) }

@[simp] theorem Message.filledIn_topic (msg : Message) (newID : String) (now : Timestamp) :
    (msg.filledIn newID now).topic = msg.topic := rfl

theorem Message.filledIn_filledIn (msg : Message) (newID : String) (now : Timestamp) :
    (msg.filledIn newID now).filledIn newID now = msg.filledIn newID now := by
  unfold Message.filledIn
  cases htime : msg.timestamp <;> by_cases hid : msg.id = "" <;> simp [hid]

/-- What the store knows about a consumer. -/
structure Subscriber where
  id : String
  topic : String
  batchSize : Int
  messageFilter : GoMap String
  deriving DecidableEq

structure PublishRequest where
  message : Option Message
  waitForAck : Bool
  ackTimeoutSeconds : Int
  deriving DecidableEq, Repr

structure SubscribeRequest where
  topic : String
  consumerID : String
  batchSize : Int
  maxInFlight : Int
  ackTimeoutSeconds : Int
  filter : GoMap String
  deriving DecidableEq

structure AcknowledgeRequest where
  messageID : String
  consumerID : String
  success : Bool
  deriving DecidableEq, Repr

/-- A nil element of `messages` is `none`. -/
structure SubscribeResponse where
  messages : List (Option Message)
  heartbeat : Bool
  deriving DecidableEq, Repr

structure MessageError where
  message : String
  deriving DecidableEq, Repr

def errMessageNotFound : MessageError := ⟨"message not found"⟩

end GpuTel.Mq
