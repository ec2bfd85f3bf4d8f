import GpuTel.Api.EndToEnd
import GpuTel.Mq.OnTheWay
import GpuTel.Mq.ServerShutdown
import GpuTel.Telemetry.CollectorLoop
import GpuTel.Telemetry.SentRecords

/-!
# The pipeline

Streamers, the queue server and sinks, as they run side by side. A tick puts its requests on a lane
of the server; a sink reads its subscription response by response, stores what it can decode, and
puts its acknowledgements on a lane. Any call may break off, and any streamer or sink may be started
again, with an empty storage and under the same consumer id or another.
-/

set_option autoImplicit false

namespace GpuTel

open GpuTel.Mq GpuTel.Telemetry Fifo Transition

/-- What streamers and sinks take from the libraries. No JSON text is empty. -/
structure Environment where
  codec : TelemetryCodec
  parseTime : String → Time
  parseFloat : String → BitVec 64
  decode_empty : GPUTelemetry.unmarshal codec [] = none

def Environment.lib (env : Environment) : Library :=
  Api.withCodec env.codec env.parseTime env.parseFloat

def Environment.decode (env : Environment) : List UInt8 → Option GPUTelemetry :=
  GPUTelemetry.unmarshal env.codec

/-- The subscription that a sink reads, and how many of its responses it has read. -/
structure Connection where
  stream : Nat
  received : Nat
  deriving DecidableEq, Repr

structure Sink where
  config : CollectorConfig
  consumerID : String
  storage : MemoryStorage
  connection : Option Connection

/-- The processes, by the number of their slot. -/
structure Pipeline where
  queue : Server
  streamers : Nat → Option Streamer
  sinks : Nat → Option Sink

inductive PipelineEvent where
  | startStreamer (k : Nat) (config : StreamerConfig)
  | tick (k : Nat) (tick : Tick)
  | startSink (k : Nat) (config : CollectorConfig) (consumerGroup : String) (host : Host)
  | connect (k : Nat) (newID : String)
  | recv (k : Nat) (reply : Collector.Reply)
  | giveUp (k : Nat)
  | queue (e : ServerEvent)

def Telemetry.Collector.Call.sent : Collector.Call → Option AcknowledgeRequest
  | .sendAck req none => some req
  | _ => none

/-- A nil message is encoded as an empty one. -/
def decodeMessage (msg : Option Message) : Message := msg.getD ⟨"", "", [], none⟩

def decodeResponse (resp : SubscribeResponse) : Collector.Response :=
  ⟨resp.messages.map decodeMessage, resp.heartbeat⟩

def Sink.new (config : CollectorConfig) (consumerGroup : String) (host : Host) : Sink :=
  ⟨config, Collector.consumerID consumerGroup host, .newMemoryStorage, none⟩

def Sink.request (sink : Sink) : SubscribeRequest :=
  Collector.subscribeRequest sink.config sink.consumerID

namespace Pipeline

def init : Pipeline := ⟨.init, fun _ => none, fun _ => none⟩

def connection (p : Pipeline) (k : Nat) : Option Connection := (p.sinks k).bind Sink.connection

def nextResponse (p : Pipeline) (k : Nat) : Option SubscribeResponse :=
  (p.connection k).bind fun c => (p.queue.services.streams c.stream).delivered[c.received]?

def response (p : Pipeline) (k : Nat) : Option Collector.Response :=
  (p.nextResponse k).map decodeResponse

section Environment

variable (env : Environment)

/-- A streamer that panics is gone. -/
def ticked (p : Pipeline) (k : Nat) (tick : Tick) : Option Streamer :=
  (p.streamers k).bind fun s =>
    (Streamer.collectAndProcess env.lib s tick.atUTC).toOption.map Streamer.Processed.streamer

def sends (p : Pipeline) (k : Nat) (tick : Tick) : List PublishRequest :=
  (p.streamers k).elim [] fun s => Streamer.sentRequests env.lib s tick.atUTC

def calls (p : Pipeline) (k : Nat) (reply : Collector.Reply) : List Collector.Call :=
  match p.sinks k, p.response k with
  | some sink, some resp => Collector.processResponse env.decode sink.consumerID resp reply
  | _, _ => []

def batches (p : Pipeline) (k : Nat) (reply : Collector.Reply) : List TelemetryBatch :=
  (p.calls env k reply).filterMap Collector.Call.stored

def acks (p : Pipeline) (k : Nat) (reply : Collector.Reply) : List AcknowledgeRequest :=
  (p.calls env k reply).filterMap Collector.Call.sent

/-- What a label is to the queue server. A call without a request is not made. -/
def serverEvent (p : Pipeline) : PipelineEvent → Option ServerEvent
  | .tick k tick =>
    if p.queue.phase = .serving ∧ p.sends env k tick ≠ [] then
      some (.publishCall (p.sends env k tick))
    else none
  | .connect k newID => (p.sinks k).map fun sink => .subscribeCall sink.request newID
  | .recv k reply =>
    if p.queue.phase = .serving ∧ p.acks env k reply ≠ [] then
      some (.acknowledgeCall (p.acks env k reply))
    else none
  | .queue e => some e
  | .startStreamer _ _ | .startSink _ _ _ _ | .giveUp _ => none

def setSink (p : Pipeline) (k : Nat) (sink : Option Sink) : Pipeline :=
  { p with sinks := Function.update p.sinks k sink }

/-- A subscription that is refused leaves the sink without a connection. -/
def connected (p : Pipeline) (newID : String) (sink : Sink) : Sink :=
  { sink with
    connection := (SubscriberService.configure sink.request newID).toOption.map fun _ =>
      ⟨p.queue.services.opened, 0⟩ }

def received (p : Pipeline) (k : Nat) (reply : Collector.Reply) (sink : Sink) : Sink :=
  { sink with
    storage := (p.batches env k reply).foldl MemoryStorage.store sink.storage
    connection := sink.connection.map fun c => ⟨c.stream, c.received + 1⟩ }

def advance (p : Pipeline) : PipelineEvent → Pipeline
  | .startStreamer k config =>
    { p with streamers := Function.update p.streamers k (some ⟨config, [], 0⟩) }
  | .tick k tick =>
    { p with streamers := Function.update p.streamers k (p.ticked env k tick) }
  | .startSink k config consumerGroup host =>
    p.setSink k (some (Sink.new config consumerGroup host))
  | .connect k newID => p.setSink k ((p.sinks k).map (p.connected newID))
  | .recv k reply => p.setSink k ((p.sinks k).map (p.received env k reply))
  | .giveUp k => p.setSink k ((p.sinks k).map fun sink => { sink with connection := none })
  | .queue _ => p

def exec (p : Pipeline) (e : PipelineEvent) : Except Fault Pipeline :=
  match p.serverEvent env e with
  | none => .ok (p.advance env e)
  | some d => do
    let s ← p.queue.exec d
    .ok { p.advance env e with queue := s }

/-- The labels of the server that no client makes. -/
def Own : ServerEvent → Prop
  | .publishCall _ | .acknowledgeCall _ | .subscribeCall _ _ => False
  | _ => True

instance : DecidablePred Own
  | .publishCall _ | .acknowledgeCall _ | .subscribeCall _ _ => .isFalse fun h => h
  | .publish _ _ _ _ | .publishEnd _ | .acknowledge _ | .acknowledgeEnd _ | .handler _
  | .gracefulStop | .close _ => .isTrue trivial

/-- `MemoryStorage.Store` returns no error. -/
def processGuard (p : Pipeline) : PipelineEvent → Prop
  | .startStreamer _ _ | .startSink _ _ _ _ => True
  | .tick k _ => (p.streamers k).isSome
  | .connect k _ => (p.sinks k).isSome ∧ p.connection k = none
  | .recv k reply => (p.nextResponse k).isSome ∧ reply.store = none
  | .giveUp k => (p.connection k).isSome
  | .queue e => Own e

def guard (p : Pipeline) (e : PipelineEvent) : Prop :=
  p.processGuard e ∧ ∀ d ∈ p.serverEvent env e, p.queue.guard d

instance (p : Pipeline) : (e : PipelineEvent) → Decidable (p.processGuard e)
  | .startStreamer _ _ | .startSink _ _ _ _ => .isTrue trivial
  | .tick _ _ | .giveUp _ => inferInstanceAs (Decidable (_ = true))
  | .connect k _ => inferInstanceAs (Decidable (_ = true ∧ p.connection k = none))
  | .recv _ reply => inferInstanceAs (Decidable (_ = true ∧ reply.store = none))
  | .queue e => inferInstanceAs (Decidable (Own e))

instance (p : Pipeline) (e : PipelineEvent) : Decidable (p.guard env e) :=
  inferInstanceAs (Decidable (p.processGuard e ∧ ∀ d ∈ p.serverEvent env e, p.queue.guard d))

end Environment

end Pipeline

def pipeline (env : Environment) : Machine Pipeline PipelineEvent Fault :=
  ⟨Pipeline.guard env, Pipeline.exec env⟩

instance (env : Environment) (p : Pipeline) (e : PipelineEvent) :
    Decidable ((pipeline env).guard p e) :=
  inferInstanceAs (Decidable (p.guard env e))

namespace Pipeline

variable {env : Environment}

section Step

variable {p q : Pipeline} {e : PipelineEvent} (hst : (pipeline env).Step p e q)
include hst

theorem step_advance : q = { p.advance env e with queue := q.queue } := by
  have hexec : p.exec env e = .ok q := hst.2
  unfold exec at hexec
  split at hexec
  · obtain rfl := Except.ok.inj hexec
    rfl
  · rename_i d _
    cases hs : p.queue.exec d with
    | error f => simp [hs, bind, Except.bind] at hexec
    | ok s =>
      simp only [hs, bind, Except.bind] at hexec
      obtain rfl := Except.ok.inj hexec
      rfl

theorem step_queue_of_none (hd : p.serverEvent env e = none) : q.queue = p.queue := by
  have hexec : p.exec env e = .ok q := hst.2
  simp only [exec, hd] at hexec
  obtain rfl := Except.ok.inj hexec
  cases e <;> rfl

theorem step_queue {d : ServerEvent} (hd : p.serverEvent env e = some d) :
    server.Step p.queue d q.queue := by
  have hexec : p.exec env e = .ok q := hst.2
  refine ⟨hst.1.2 d hd, ?_⟩
  simp only [exec, hd] at hexec
  cases hs : p.queue.exec d with
  | error f => simp [hs, bind, Except.bind] at hexec
  | ok s =>
    simp only [hs, bind, Except.bind] at hexec
    obtain rfl := Except.ok.inj hexec
    exact hs

end Step

def toServer (env : Environment) : Simulation (pipeline env) server where
  state := Pipeline.queue
  label := serverEvent env
  stutter := step_queue_of_none
  step h hd := step_queue h hd

def toBroker (env : Environment) : Simulation (pipeline env) broker :=
  (toServer env).trans Server.toBroker

/-- The queue has just been started, and nobody has subscribed yet. -/
structure Launched (p : Pipeline) : Prop where
  queue : p.queue = .init
  connection : ∀ k, p.connection k = none

theorem launched_init : Launched init := ⟨rfl, fun _ => rfl⟩

section Launched

variable {p₀ p : Pipeline} {es : List PipelineEvent} (h₀ : p₀.Launched)
variable (hrun : (pipeline env).Run p₀ es p)
include h₀ hrun

theorem broker_run : broker.Run .init ((pipeline env).trace (toBroker env).label p₀ es)
    p.queue.services := by
  have h := (toBroker env).run hrun
  rwa [show (toBroker env).state p₀ = Broker.init from congrArg Server.services h₀.queue] at h

theorem services_inv : p.queue.services.Inv := Broker.inv_run (broker_run h₀ hrun)

end Launched

end Pipeline

end GpuTel
