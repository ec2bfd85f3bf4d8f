import GpuTel.Lib.Attempt
import GpuTel.Lib.Chunk
import GpuTel.Mq.Message
import GpuTel.Telemetry.Models

/-!
# The collector

`processSubscription` and `acknowledgeMessages`, as the calls they make to the storage and to the
queue. What these answer, and what the subscribe stream delivers, is given from outside.
`json.Unmarshal` is a parameter.
-/

set_option autoImplicit false

namespace GpuTel.Telemetry

open Mq

structure CollectorConfig where
  topic : String
  batchSize : Int
  maxInFlight : Int
  ackTimeoutSeconds : Int

namespace Collector

/-- A `SubscribeResponse` as `Recv` returns it: decoding leaves no element of `messages` nil. -/
structure Response where
  messages : List Message
  heartbeat : Bool
  deriving DecidableEq, Repr

inductive Call where
  | subscribe (err : Option String)
  | sendRequest (req : SubscribeRequest) (err : Option String)
  | closeSend (err : Option String)
  | store (batch : TelemetryBatch) (err : Option String)
  | openAck (err : Option String)
  | sendAck (req : AcknowledgeRequest) (err : Option String)
  | closeAck (err : Option String)
  deriving DecidableEq

/-- The answers while one response is processed: the clock, the storage, and the acknowledgement
stream with its sends and its closes numbered. -/
structure Reply where
  batchID : String
  now : Time
  store : Option String
  openAck : Option String
  sendAck : Nat → Option String
  closeAck : Nat → Option String

/-- The answers before the first response, and the one to the deferred `CloseSend`. -/
structure Opening where
  subscribe : Option String
  sendRequest : Option String
  closeSend : Option String

inductive Received where
  | ctxDone
  | error (err : String)
  | response (resp : Response) (reply : Reply)

inductive Outcome where
  | waiting
  | returned (err : Option String)
  deriving DecidableEq, Repr

def int32 (x : Int) : Int := x.bmod (2 ^ 32)

def subscribeRequest (config : CollectorConfig) (consumerID : String) : SubscribeRequest where
  topic := config.topic
  consumerID := consumerID
  batchSize := int32 config.batchSize
  maxInFlight := int32 config.maxInFlight
  ackTimeoutSeconds := int32 config.ackTimeoutSeconds
  filter := ∅

def ackRequest (consumerID msgID : String) : AcknowledgeRequest := ⟨msgID, consumerID, true⟩

def sendAck (consumerID : String) (reply : Reply) : String × Nat → Attempt Call String
  | (msgID, n) =>
    (Attempt.call (.sendAck (ackRequest consumerID msgID)) (reply.sendAck n)).wrap
      ("failed to send ack for message " ++ msgID ++ ": " ++ ·)

def sendBatch (consumerID : String) (reply : Reply) :
    List (String × Nat) × Nat → Attempt Call String
  | (batch, k) =>
    (Attempt.each (sendAck consumerID reply) batch).andThen
      ((Attempt.call .closeAck (reply.closeAck k)).wrap ("failed to close ack stream: " ++ ·))

def acknowledgeMessages (messageIDs : List String) (consumerID : String) (reply : Reply) :
    Attempt Call String :=
  if messageIDs = [] then .done
  else
    ((Attempt.call .openAck reply.openAck).wrap ("failed to create ack stream: " ++ ·)).andThen
      (Attempt.each (sendBatch consumerID reply) (Chunk.chunks 100 messageIDs.zipIdx).zipIdx)

section Decode

variable (decode : List UInt8 → Option GPUTelemetry)

/-- The loop over the messages of a response, with the telemetry and the message ids collected so
far. -/
def decodeMessages : List Message → List GPUTelemetry × List String →
    List GPUTelemetry × List String
  | [], acc => acc
  | msg :: rest, (telemetry, messageIDs) =>
    match decode msg.payload with
    | none => decodeMessages rest (telemetry, messageIDs)
    | some t => decodeMessages rest (telemetry ++ [t], messageIDs ++ [msg.id])

/-- The body of the receive loop. All its errors are logged, and none leaves the loop. -/
def processResponse (consumerID : String) (resp : Response) (reply : Reply) : List Call :=
  if resp.heartbeat = true ∨ resp.messages = [] then []
  else
    let (telemetry, messageIDs) := decodeMessages decode resp.messages ([], [])
    if telemetry = [] then []
    else
      let batch : TelemetryBatch := ⟨reply.batchID, telemetry, reply.now⟩
      match reply.store with
      | some err => [.store batch (some err)]
      | none => .store batch none :: (acknowledgeMessages messageIDs consumerID reply).calls

def receiveLoop (consumerID : String) : List Received → List Call × Outcome
  | [] => ([], .waiting)
  | .ctxDone :: _ => ([], .returned none)
  | .error err :: _ => ([], .returned (some ("failed to receive messages: " ++ err)))
  | .response resp reply :: rest =>
    let (calls, outcome) := receiveLoop consumerID rest
    (processResponse decode consumerID resp reply ++ calls, outcome)

def processSubscription (config : CollectorConfig) (consumerID : String) (opening : Opening)
    (received : List Received) : List Call × Outcome :=
  match opening.subscribe with
  | some err => ([.subscribe (some err)],
      .returned (some ("failed to create subscribe stream: " ++ err)))
  | none =>
    let req := subscribeRequest config consumerID
    match opening.sendRequest with
    | some err => ([.subscribe none, .sendRequest req (some err), .closeSend opening.closeSend],
        .returned (some ("failed to send subscribe request: " ++ err)))
    | none =>
      match receiveLoop decode consumerID received with
      | (calls, .waiting) => (.subscribe none :: .sendRequest req none :: calls, .waiting)
      | (calls, .returned err) =>
        (.subscribe none :: .sendRequest req none :: calls ++ [.closeSend opening.closeSend],
          .returned err)

end Decode

end Collector

end GpuTel.Telemetry
