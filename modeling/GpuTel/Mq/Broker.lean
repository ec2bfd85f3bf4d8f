import GpuTel.Mq.Services
import GpuTel.Mq.World

/-!
# The broker

The store with the handlers of the services on top of it. A `Stream` is one call of
`SubscriberService.Subscribe`, from its registration to the deferred removal; the calls of `Publish`
and `Acknowledge` keep no state between two requests, so their labels are single requests. A label
makes at most one call of the store, and the broker is simulated by `world`.
-/

set_option autoImplicit false

namespace GpuTel.Mq

open Fifo Transition

/-- Where a call of `Subscribe` stands. In `sending` it holds what it received from its channel. -/
inductive Phase where
  | added
  | serving
  | sending (msg : Option Message)
  | leaving
  | finished
  deriving DecidableEq, Repr

/-- `sent` lists the responses passed to `stream.Send`, each with whether the call succeeded. -/
structure Stream where
  config : SubscribeConfig
  ctxDone : Bool
  channel : Option Nat
  phase : Phase
  sent : List (SubscribeResponse × Bool)
  deriving DecidableEq

structure Broker where
  messageStore : World
  streams : Nat → Stream
  opened : Nat

inductive BrokerEvent where
  | publish (req : PublishRequest) (newID : String) (now : Timestamp) (order : List Nat)
  | acknowledge (req : AcknowledgeRequest)
  | start (req : SubscribeRequest) (newID : String)
  | subscribe (i : Nat)
  | receive (i : Nat)
  | send (i : Nat) (ok : Bool)
  | disconnect (i : Nat)
  | cleanUp (i : Nat)
  | leave (i : Nat)
  | remove (i : Nat)
  | close (order : List (String × Nat))
  deriving DecidableEq

namespace Phase

def inHand : Phase → List (Option Message)
  | sending msg => [msg]
  | _ => []

end Phase

namespace Stream

def idle : Stream := ⟨⟨"", "", 10, 100, ∅⟩, false, none, .finished, []⟩

/-- The result of `Send` only decides whether an error is logged. -/
def send (s : Stream) (ok : Bool) : Stream :=
  match s.phase with
  | .sending msg => { s with phase := .serving, sent := s.sent ++ [(⟨[msg], false⟩, ok)] }
  | _ => s

end Stream

namespace Broker

def init : Broker := ⟨World.init, fun _ => .idle, 0⟩

def setStream (b : Broker) (i : Nat) (s : Stream) : Broker :=
  { b with streams := Function.update b.streams i s }

/-- What a receive of stream `i` yields: `none` is the nil message of a closed channel. -/
def received (b : Broker) (i : Nat) : Option Message :=
  (b.streams i).channel.bind fun c => (b.messageStore.subs c).ch.received

def storeCall (b : Broker) : BrokerEvent → Option Event
  | .publish req newID now order =>
    (PublisherService.prepare req newID now).toOption.map fun msg => .store msg newID now order
  | .acknowledge req =>
    (SubscriberService.validateAck req).toOption.map fun req =>
      .acknowledge req.messageID req.consumerID
  | .start req newID =>
    (SubscriberService.configure req newID).toOption.map fun config =>
      .addSubscriber config.subscriber
  | .subscribe i => some (.subscribe (b.streams i).ctxDone (b.streams i).config.topic)
  | .receive i => (b.streams i).channel.map Event.receive
  | .send _ _ => none
  | .disconnect i => (b.streams i).channel.map Event.cancel
  | .cleanUp i => (b.streams i).channel.map Event.cleanUp
  | .leave _ => none
  | .remove i => some (.removeSubscriber (b.streams i).config.consumerID (b.streams i).config.topic)
  | .close order => some (.close order)

def advance (b : Broker) : BrokerEvent → Broker
  | .start req newID =>
    match SubscriberService.configure req newID with
    | .ok config =>
      { b.setStream b.opened ⟨config, false, none, .added, []⟩ with opened := b.opened + 1 }
    | .error _ => b
  | .subscribe i =>
    b.setStream i { b.streams i with channel := some b.messageStore.made, phase := .serving }
  | .receive i => b.setStream i { b.streams i with phase := .sending (b.received i) }
  | .send i ok => b.setStream i ((b.streams i).send ok)
  | .disconnect i => b.setStream i { b.streams i with ctxDone := true }
  | .leave i => b.setStream i { b.streams i with phase := .leaving }
  | .remove i => b.setStream i { b.streams i with phase := .finished }
  | .publish _ _ _ _ | .acknowledge _ | .cleanUp _ | .close _ => b

def exec (b : Broker) (e : BrokerEvent) : Except Fault Broker :=
  match b.storeCall e with
  | none => .ok (b.advance e)
  | some call => do
    let w ← b.messageStore.exec call
    .ok { b.advance e with messageStore := w }

/-- `select` takes any case that is ready: the channel's, or the one of the context. -/
def handlerGuard (b : Broker) : BrokerEvent → Prop
  | .subscribe i => (b.streams i).phase = .added
  | .receive i => (b.streams i).phase = .serving ∧ (b.streams i).channel ≠ none
  | .send i _ => (b.streams i).phase.inHand ≠ []
  | .disconnect i => i < b.opened ∧ (b.streams i).ctxDone = false
  | .cleanUp i => (b.streams i).channel ≠ none
  | .leave i => (b.streams i).phase = .serving ∧ (b.streams i).ctxDone = true
  | .remove i => (b.streams i).phase = .leaving
  | .publish _ _ _ _ | .acknowledge _ | .start _ _ | .close _ => True

def guard (b : Broker) (e : BrokerEvent) : Prop :=
  b.handlerGuard e ∧ ∀ call ∈ b.storeCall e, b.messageStore.guard call

instance (b : Broker) : (e : BrokerEvent) → Decidable (b.handlerGuard e)
  | .subscribe i => inferInstanceAs (Decidable ((b.streams i).phase = .added))
  | .receive i => inferInstanceAs
    (Decidable ((b.streams i).phase = .serving ∧ (b.streams i).channel ≠ none))
  | .send i _ => inferInstanceAs (Decidable ((b.streams i).phase.inHand ≠ []))
  | .disconnect i => inferInstanceAs (Decidable (i < b.opened ∧ (b.streams i).ctxDone = false))
  | .cleanUp i => inferInstanceAs (Decidable ((b.streams i).channel ≠ none))
  | .leave i => inferInstanceAs
    (Decidable ((b.streams i).phase = .serving ∧ (b.streams i).ctxDone = true))
  | .remove i => inferInstanceAs (Decidable ((b.streams i).phase = .leaving))
  | .publish _ _ _ _ | .acknowledge _ | .start _ _ | .close _ => .isTrue trivial

instance (b : Broker) (e : BrokerEvent) : Decidable (b.guard e) :=
  inferInstanceAs (Decidable (b.handlerGuard e ∧ ∀ call ∈ b.storeCall e, b.messageStore.guard call))

end Broker

def broker : Machine Broker BrokerEvent Fault := ⟨Broker.guard, Broker.exec⟩

instance (b : Broker) (e : BrokerEvent) : Decidable (broker.guard b e) :=
  inferInstanceAs (Decidable (b.guard e))

namespace Broker

@[simp] theorem advance_messageStore (b : Broker) (e : BrokerEvent) :
    (b.advance e).messageStore = b.messageStore := by
  cases e with
  | start req newID =>
    simp only [advance]
    split <;> rfl
  | _ => rfl

section Step

variable {b t : Broker} {e : BrokerEvent} (hst : broker.Step b e t)
include hst

theorem step_advance : t.streams = (b.advance e).streams ∧ t.opened = (b.advance e).opened := by
  have hexec : b.exec e = .ok t := hst.2
  unfold exec at hexec
  split at hexec
  · obtain rfl := Except.ok.inj hexec
    exact ⟨rfl, rfl⟩
  · rename_i call _
    cases hw : b.messageStore.exec call with
    | error f => simp [hw, bind, Except.bind] at hexec
    | ok w =>
      simp only [hw, bind, Except.bind] at hexec
      obtain rfl := Except.ok.inj hexec
      exact ⟨rfl, rfl⟩

theorem step_world_of_none (hcall : b.storeCall e = none) : t.messageStore = b.messageStore := by
  have hexec : b.exec e = .ok t := hst.2
  simp only [exec, hcall] at hexec
  obtain rfl := Except.ok.inj hexec
  exact advance_messageStore b e

theorem step_world {call : Event} (hcall : b.storeCall e = some call) :
    world.Step b.messageStore call t.messageStore := by
  have hexec : b.exec e = .ok t := hst.2
  refine ⟨hst.1.2 call hcall, ?_⟩
  simp only [exec, hcall] at hexec
  cases hw : b.messageStore.exec call with
  | error f => simp [hw, bind, Except.bind] at hexec
  | ok w =>
    simp only [hw, bind, Except.bind] at hexec
    obtain rfl := Except.ok.inj hexec
    exact hw

end Step

def actsOn : BrokerEvent → Option Nat
  | .subscribe i | .receive i | .send i _ | .disconnect i | .leave i | .remove i => some i
  | .publish _ _ _ _ | .acknowledge _ | .start _ _ | .cleanUp _ | .close _ => none

inductive Moves (b : Broker) (i : Nat) : BrokerEvent → Stream → Prop where
  | other {e : BrokerEvent} : actsOn e ≠ some i → Moves b i e (b.streams i)
  | start {req : SubscribeRequest} {newID : String} {config : SubscribeConfig} :
    SubscriberService.configure req newID = .ok config → i = b.opened →
      Moves b i (.start req newID) ⟨config, false, none, .added, []⟩
  | subscribe : (b.streams i).phase = .added →
      Moves b i (.subscribe i)
        { b.streams i with channel := some b.messageStore.made, phase := .serving }
  | receive : (b.streams i).phase = .serving → (b.streams i).channel ≠ none →
      Moves b i (.receive i) { b.streams i with phase := .sending (b.received i) }
  | send {ok : Bool} {msg : Option Message} : (b.streams i).phase = .sending msg →
      Moves b i (.send i ok) ((b.streams i).send ok)
  | disconnect : i < b.opened → (b.streams i).ctxDone = false →
      Moves b i (.disconnect i) { b.streams i with ctxDone := true }
  | leave : (b.streams i).phase = .serving → (b.streams i).ctxDone = true →
      Moves b i (.leave i) { b.streams i with phase := .leaving }
  | remove : (b.streams i).phase = .leaving →
      Moves b i (.remove i) { b.streams i with phase := .finished }

theorem setStream_streams (b : Broker) (i j : Nat) (s : Stream) :
    (b.setStream i s).streams j = if j = i then s else b.streams j := by
  simp only [setStream, Function.update_apply]

theorem moves_setStream {b : Broker} {e : BrokerEvent} {i j : Nat} {s : Stream}
    (hacts : actsOn e = some j) (hself : i = j → Moves b i e s) :
    Moves b i e ((b.setStream j s).streams i) := by
  rw [setStream_streams]
  split
  · rename_i heq
    exact hself heq
  · rename_i hne
    exact .other fun h => hne (Option.some.inj (h.symm.trans hacts))

theorem step_moves {b t : Broker} {e : BrokerEvent} (hst : broker.Step b e t) (i : Nat) :
    Moves b i e (t.streams i) := by
  have hg : b.handlerGuard e := hst.1.1
  rw [(step_advance hst).1]
  cases e with
  | start req newID =>
    simp only [advance]
    split
    · rename_i config hconfig
      simp only [setStream_streams]
      split
      · rename_i heq
        exact .start hconfig heq
      · exact .other (by simp [actsOn])
    · exact .other (by simp [actsOn])
  | subscribe j => exact moves_setStream rfl fun h => by subst h; exact .subscribe hg
  | receive j => exact moves_setStream rfl fun h => by subst h; exact .receive hg.1 hg.2
  | send j ok =>
    apply moves_setStream rfl
    intro h
    subst h
    cases hphase : (b.streams i).phase with
    | sending msg => exact .send hphase
    | _ => simp [handlerGuard, hphase, Phase.inHand] at hg
  | disconnect j => exact moves_setStream rfl fun h => by subst h; exact .disconnect hg.1 hg.2
  | leave j => exact moves_setStream rfl fun h => by subst h; exact .leave hg.1 hg.2
  | remove j => exact moves_setStream rfl fun h => by subst h; exact .remove hg
  | _ => exact .other (by simp [actsOn])

inductive Calls (b : Broker) : BrokerEvent → Event → Prop where
  | publish {req : PublishRequest} {newID : String} {now : Timestamp} {order : List Nat}
      {msg : Message} : PublisherService.prepare req newID now = .ok msg →
      Calls b (.publish req newID now order) (.store msg newID now order)
  | acknowledge {req : AcknowledgeRequest} : req.messageID ≠ "" → req.consumerID ≠ "" →
      Calls b (.acknowledge req) (.acknowledge req.messageID req.consumerID)
  | start {req : SubscribeRequest} {newID : String} {config : SubscribeConfig} :
      SubscriberService.configure req newID = .ok config →
      Calls b (.start req newID) (.addSubscriber config.subscriber)
  | subscribe {i : Nat} :
      Calls b (.subscribe i) (.subscribe (b.streams i).ctxDone (b.streams i).config.topic)
  | receive {i c : Nat} : (b.streams i).channel = some c → Calls b (.receive i) (.receive c)
  | disconnect {i c : Nat} : (b.streams i).channel = some c → Calls b (.disconnect i) (.cancel c)
  | cleanUp {i c : Nat} : (b.streams i).channel = some c → Calls b (.cleanUp i) (.cleanUp c)
  | remove {i : Nat} : Calls b (.remove i)
      (.removeSubscriber (b.streams i).config.consumerID (b.streams i).config.topic)
  | close {order : List (String × Nat)} : Calls b (.close order) (.close order)

theorem storeCall_acknowledge (b : Broker) (req : AcknowledgeRequest) :
    b.storeCall (.acknowledge req) = if req.messageID ≠ "" ∧ req.consumerID ≠ "" then
      some (.acknowledge req.messageID req.consumerID) else none := by
  simp only [storeCall, SubscriberService.validateAck]
  by_cases hmsg : req.messageID = ""
  · simp [hmsg, Except.toOption]
  · by_cases hconsumer : req.consumerID = "" <;> simp [hmsg, hconsumer, Except.toOption]

theorem calls_of_storeCall {b : Broker} {e : BrokerEvent} {call : Event}
    (h : b.storeCall e = some call) : Calls b e call := by
  cases e with
  | publish req newID now order =>
    cases hmsg : PublisherService.prepare req newID now with
    | error status => simp [storeCall, hmsg, Except.toOption] at h
    | ok msg =>
      rw [storeCall, hmsg] at h
      obtain rfl := Option.some.inj h
      exact .publish hmsg
  | acknowledge req =>
    rw [storeCall_acknowledge] at h
    split at h
    · rename_i hids
      obtain rfl := Option.some.inj h
      exact .acknowledge hids.1 hids.2
    · cases h
  | start req newID =>
    cases hconfig : SubscriberService.configure req newID with
    | error status => simp [storeCall, hconfig, Except.toOption] at h
    | ok config =>
      rw [storeCall, hconfig] at h
      obtain rfl := Option.some.inj h
      exact .start hconfig
  | subscribe i =>
    obtain rfl := Option.some.inj h
    exact .subscribe
  | receive i =>
    obtain ⟨c, hc, rfl⟩ := Option.map_eq_some_iff.mp h
    exact .receive hc
  | send i ok => cases h
  | disconnect i =>
    obtain ⟨c, hc, rfl⟩ := Option.map_eq_some_iff.mp h
    exact .disconnect hc
  | cleanUp i =>
    obtain ⟨c, hc, rfl⟩ := Option.map_eq_some_iff.mp h
    exact .cleanUp hc
  | leave i => cases h
  | remove i =>
    obtain rfl := Option.some.inj h
    exact .remove
  | close order =>
    obtain rfl := Option.some.inj h
    exact .close

/-- The broker's store goes through a run of `world`. -/
def simulation : Simulation broker world where
  state := Broker.messageStore
  label := storeCall
  stutter := step_world_of_none
  step h hcall := step_world h hcall

end Broker

end GpuTel.Mq
