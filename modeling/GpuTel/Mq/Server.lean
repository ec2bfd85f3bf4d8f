import GpuTel.Lib.Lanes
import GpuTel.Mq.AcknowledgeStream
import GpuTel.Mq.BrokerInvariant

/-!
# The queue server

The broker behind its gRPC server. The requests of a call of `Publish` or `Acknowledge` are on a
lane, from which the handler takes them one by one, until it ends and the rest is lost. `Run` serves
until its context is done and then calls `Stop`: `GracefulStop` takes no new calls and waits for the
handlers of the old ones, and only then is the store closed.
-/

set_option autoImplicit false

namespace GpuTel.Mq

open Fifo Transition

inductive ServerPhase where
  | serving
  | stopping
  | stopped
  deriving DecidableEq, Repr

structure Server where
  services : Broker
  phase : ServerPhase
  publishing : Lanes PublishRequest
  acknowledging : Lanes AcknowledgeRequest

inductive ServerEvent where
  | publishCall (reqs : List PublishRequest)
  | publish (j : Nat) (newID : String) (now : Timestamp) (order : List Nat)
  | publishEnd (j : Nat)
  | acknowledgeCall (reqs : List AcknowledgeRequest)
  | acknowledge (j : Nat)
  | acknowledgeEnd (j : Nat)
  | subscribeCall (req : SubscribeRequest) (newID : String)
  | handler (e : BrokerEvent)
  | gracefulStop
  | close (order : List (String × Nat))
  deriving DecidableEq

namespace Server

def init : Server := ⟨.init, .serving, [], []⟩

/-- The labels of the broker that are not the beginning of a call, or a request of one. -/
def Internal : BrokerEvent → Prop
  | .publish _ _ _ _ | .acknowledge _ | .start _ _ | .close _ => False
  | _ => True

instance : DecidablePred Internal
  | .publish _ _ _ _ | .acknowledge _ | .start _ _ | .close _ => .isFalse fun h => h
  | .subscribe _ | .receive _ | .send _ _ | .disconnect _ | .cleanUp _ | .leave _ | .remove _ =>
    .isTrue trivial

def brokerEvent (s : Server) : ServerEvent → Option BrokerEvent
  | .publish j newID now order =>
    (Lanes.next s.publishing j).map fun req => .publish req newID now order
  | .acknowledge j => (Lanes.next s.acknowledging j).map .acknowledge
  | .subscribeCall req newID => some (.start req newID)
  | .handler e => some e
  | .close order => some (.close order)
  | .publishCall _ | .publishEnd _ | .acknowledgeCall _ | .acknowledgeEnd _ | .gracefulStop => none

/-- A request without a message ends the call. -/
def publishOp (s : Server) : ServerEvent → Option (Lanes.Op PublishRequest)
  | .publishCall reqs => some (.send reqs)
  | .publish j _ _ _ =>
    if (Lanes.next s.publishing j).any fun req => req.message.isSome then some (.take j)
    else some (.cut j)
  | .publishEnd j => some (.cut j)
  | _ => none

/-- A request that is refused ends the call. -/
def acknowledgeOp (s : Server) : ServerEvent → Option (Lanes.Op AcknowledgeRequest)
  | .acknowledgeCall reqs => some (.send reqs)
  | .acknowledge j =>
    if (Lanes.next s.acknowledging j).any fun req =>
        SubscriberService.Acceptable s.services.messageStore.mem req then some (.take j)
    else some (.cut j)
  | .acknowledgeEnd j => some (.cut j)
  | _ => none

def nextPhase (s : Server) : ServerEvent → ServerPhase
  | .gracefulStop => .stopping
  | .close _ => .stopped
  | _ => s.phase

def advance (s : Server) (e : ServerEvent) : Server where
  services := s.services
  phase := s.nextPhase e
  publishing := (s.publishOp e).elim s.publishing (Lanes.step s.publishing)
  acknowledging := (s.acknowledgeOp e).elim s.acknowledging (Lanes.step s.acknowledging)

def exec (s : Server) (e : ServerEvent) : Except Fault Server :=
  match s.brokerEvent e with
  | none => .ok (s.advance e)
  | some d => do
    let b ← s.services.exec d
    .ok { s.advance e with services := b }

/-- No handler of a call is running, or has anything left to do. -/
def Quiet (s : Server) : Prop :=
  s.publishing.flatten = [] ∧ s.acknowledging.flatten = [] ∧
    ∀ i < s.services.opened, (s.services.streams i).phase = .finished

instance (s : Server) : Decidable s.Quiet := inferInstanceAs (Decidable (_ ∧ _ ∧ _))

def callGuard (s : Server) : ServerEvent → Prop
  | .publishCall _ | .acknowledgeCall _ | .subscribeCall _ _ => s.phase = .serving
  | .publish j _ _ _ => Lanes.next s.publishing j ≠ none
  | .acknowledge j => Lanes.next s.acknowledging j ≠ none
  | .publishEnd _ | .acknowledgeEnd _ => True
  | .handler e => Internal e
  | .gracefulStop => s.phase = .serving
  | .close _ => s.phase = .stopping ∧ s.Quiet

def guard (s : Server) (e : ServerEvent) : Prop :=
  s.callGuard e ∧ ∀ d ∈ s.brokerEvent e, s.services.guard d

instance (s : Server) : (e : ServerEvent) → Decidable (s.callGuard e)
  | .publishCall _ | .acknowledgeCall _ | .subscribeCall _ _ | .gracefulStop =>
    inferInstanceAs (Decidable (s.phase = .serving))
  | .publish j _ _ _ => inferInstanceAs (Decidable (Lanes.next s.publishing j ≠ none))
  | .acknowledge j => inferInstanceAs (Decidable (Lanes.next s.acknowledging j ≠ none))
  | .publishEnd _ | .acknowledgeEnd _ => .isTrue trivial
  | .handler e => inferInstanceAs (Decidable (Internal e))
  | .close _ => inferInstanceAs (Decidable (s.phase = .stopping ∧ s.Quiet))

instance (s : Server) (e : ServerEvent) : Decidable (s.guard e) :=
  inferInstanceAs (Decidable (s.callGuard e ∧ ∀ d ∈ s.brokerEvent e, s.services.guard d))

end Server

def server : Machine Server ServerEvent Fault := ⟨Server.guard, Server.exec⟩

instance (s : Server) (e : ServerEvent) : Decidable (server.guard s e) :=
  inferInstanceAs (Decidable (s.guard e))

namespace Server

section Step

variable {s t : Server} {e : ServerEvent} (hst : server.Step s e t)
include hst

theorem step_advance : t = { s.advance e with services := t.services } := by
  have hexec : s.exec e = .ok t := hst.2
  unfold exec at hexec
  split at hexec
  · obtain rfl := Except.ok.inj hexec
    rfl
  · rename_i d _
    cases hb : s.services.exec d with
    | error f => simp [hb, bind, Except.bind] at hexec
    | ok b =>
      simp only [hb, bind, Except.bind] at hexec
      obtain rfl := Except.ok.inj hexec
      rfl

theorem step_phase : t.phase = s.nextPhase e := by
  rw [step_advance hst]
  rfl

theorem step_broker_of_none (hd : s.brokerEvent e = none) : t.services = s.services := by
  have hexec : s.exec e = .ok t := hst.2
  simp only [exec, hd] at hexec
  obtain rfl := Except.ok.inj hexec
  rfl

theorem step_broker {d : BrokerEvent} (hd : s.brokerEvent e = some d) :
    broker.Step s.services d t.services := by
  have hexec : s.exec e = .ok t := hst.2
  refine ⟨hst.1.2 d hd, ?_⟩
  simp only [exec, hd] at hexec
  cases hb : s.services.exec d with
  | error f => simp [hb, bind, Except.bind] at hexec
  | ok b =>
    simp only [hb, bind, Except.bind] at hexec
    obtain rfl := Except.ok.inj hexec
    exact hb

end Step

/-- The broker of a server goes through a run of `broker`. -/
def toBroker : Simulation server broker where
  state := Server.services
  label := brokerEvent
  stutter := step_broker_of_none
  step h hd := step_broker h hd

theorem next_of_publishOp {s : Server} {e : ServerEvent} {j : Nat}
    (h : s.publishOp e = some (.take j)) : Lanes.next s.publishing j ≠ none := by
  cases e with
  | publish i newID now order =>
    simp only [publishOp] at h
    split at h
    · rename_i hany
      obtain rfl := Lanes.Op.take.inj (Option.some.inj h)
      intro hnone
      simp [hnone] at hany
    · cases h
  | _ => cases h

theorem next_of_acknowledgeOp {s : Server} {e : ServerEvent} {j : Nat}
    (h : s.acknowledgeOp e = some (.take j)) : Lanes.next s.acknowledging j ≠ none := by
  cases e with
  | acknowledge i =>
    simp only [acknowledgeOp] at h
    split at h
    · rename_i hany
      obtain rfl := Lanes.Op.take.inj (Option.some.inj h)
      intro hnone
      simp [hnone] at hany
    · cases h
  | _ => cases h

def publishLanes : Simulation server (Lanes.machine PublishRequest Fault) where
  state := Server.publishing
  label := publishOp
  stutter := by
    intro s e t hst hop
    rw [step_advance hst]
    simp [advance, hop]
  step := by
    intro s e t op hst hop
    refine ⟨?_, ?_⟩
    · rintro j rfl
      exact next_of_publishOp hop
    · rw [step_advance hst]
      simp [advance, hop, Lanes.machine]

def acknowledgeLanes : Simulation server (Lanes.machine AcknowledgeRequest Fault) where
  state := Server.acknowledging
  label := acknowledgeOp
  stutter := by
    intro s e t hst hop
    rw [step_advance hst]
    simp [advance, hop]
  step := by
    intro s e t op hst hop
    refine ⟨?_, ?_⟩
    · rintro j rfl
      exact next_of_acknowledgeOp hop
    · rw [step_advance hst]
      simp [advance, hop, Lanes.machine]

end Server

end GpuTel.Mq
