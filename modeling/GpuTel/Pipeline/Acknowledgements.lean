import GpuTel.Mq.AckOutcomes
import GpuTel.Mq.Retention
import GpuTel.Pipeline.Broadcast

/-!
# Acknowledgements in the pipeline

A sink acknowledges a message when it has stored its record. Between its `Send` and the broker an
acknowledgement may be lost, but none that arrives is refused, since the queue never forgets a
message; and what the tracker says of a message and a consumer is true of some sink.
-/

set_option autoImplicit false

namespace GpuTel

open GpuTel.Mq GpuTel.Telemetry Fifo Transition

namespace Mq.Server

theorem processed_eq_taken (s : Server) {e : ServerEvent} (hguard : s.callGuard e) :
    (s.brokerEvent e).bind (Broker.processed s.services) =
      (s.acknowledgeOp e).bind (Lanes.taken s.acknowledging) := by
  cases e with
  | acknowledge j =>
    obtain ⟨req, hreq⟩ := Option.ne_none_iff_exists'.mp hguard
    by_cases hacc : SubscriberService.Acceptable s.services.messageStore.mem req
    · simp [brokerEvent, acknowledgeOp, hreq, Broker.processed, hacc, Lanes.taken]
    · simp [brokerEvent, acknowledgeOp, hreq, Broker.processed, hacc, Lanes.taken]
  | publish j newID now order =>
    simp only [brokerEvent, acknowledgeOp]
    cases Lanes.next s.publishing j <;> rfl
  | handler d =>
    cases d with
    | acknowledge req => exact hguard.elim
    | _ => rfl
  | acknowledgeCall reqs => rfl
  | acknowledgeEnd j => rfl
  | _ => rfl

end Mq.Server

namespace Pipeline

variable {env : Environment} {p q : Pipeline} {es : List PipelineEvent}

def toAckLanes (env : Environment) :
    Simulation (pipeline env) (Lanes.machine AcknowledgeRequest Fault) :=
  (toServer env).trans Server.acknowledgeLanes

/-- In this label, some sink stores the record of the message that the request acknowledges, and
sends the request. -/
structure Justifies (env : Environment) (p : Pipeline) (e : PipelineEvent)
    (req : AcknowledgeRequest) : Prop where
  success : req.success = true
  stored : ∃ k reply sink msg t, e = .recv k reply ∧ p.sinks k = some sink ∧
    sink.consumerID = req.consumerID ∧ msg ∈ (read k p e).getD [] ∧ msg.id = req.messageID ∧
    decodePayload env msg = some t ∧ t ∈ (collected env k p e).getD []

def Justified (env : Environment) (es : List PipelineEvent) (req : AcknowledgeRequest) : Prop :=
  ∃ before e after m, es = before ++ e :: after ∧ (pipeline env).Run init before m ∧
    Justifies env m e req

theorem justifies_of_mem_acks (hrun : (pipeline env).Run init es p) {k : Nat}
    {reply : Collector.Reply} (hguard : p.processGuard (.recv k reply)) {req : AcknowledgeRequest}
    (h : req ∈ p.acks env k reply) : Justifies env p (.recv k reply) req := by
  obtain ⟨r, hr⟩ := Option.isSome_iff_exists.mp hguard.1
  obtain ⟨c, hc, hget⟩ := Option.bind_eq_some_iff.mp hr
  obtain ⟨sink, hsink, -⟩ := Option.bind_eq_some_iff.mp hc
  have hcalls : p.calls env k reply =
      Collector.processResponse env.decode sink.consumerID (decodeResponse r) reply := by
    simp only [calls, hsink, response, hr, Option.map_some]
  obtain ⟨call, hcall, hsent⟩ := List.mem_filterMap.mp h
  have hacked : req ∈ (p.calls env k reply).filterMap Collector.Call.acked := by
    refine List.mem_filterMap.mpr ⟨call, hcall, ?_⟩
    cases call with
    | sendAck req' err =>
      cases err with
      | none => exact hsent
      | some err => cases hsent
    | _ => cases hsent
  rw [hcalls] at hacked
  obtain ⟨x, hx, rfl⟩ := List.mem_map.mp
    ((Collector.acked_processResponse env.decode sink.consumerID _ reply).subset hacked)
  obtain ⟨m, hm, hdecode⟩ := List.mem_filterMap.mp hx
  obtain ⟨t, ht, rfl⟩ := Option.map_eq_some_iff.mp hdecode
  obtain ⟨msg, hmsg, rfl⟩ := List.mem_map.mp hm
  cases msg with
  | none => simp [decodeMessage, Environment.decode, env.decode_empty] at ht
  | some msg =>
    have hread : msg ∈ r.messages.reduceOption := List.reduceOption_mem_iff.mpr hmsg
    have hgot : msg ∈ (read k p (.recv k reply)).getD [] := by simpa [read, hr] using hread
    refine ⟨rfl, k, reply, sink, msg, t, rfl, hsink, rfl, hgot, rfl, ht, ?_⟩
    rw [collected_eq launched_init hrun k _ hguard]
    simp only [read, if_true, hr, Option.map_some, Option.getD_some]
    exact List.mem_filterMap.mpr ⟨msg, hread, ht⟩

/-- The requests that the handlers of `Acknowledge` take from their lanes. -/
def takenAck (env : Environment) (p : Pipeline) (e : PipelineEvent) : Option AcknowledgeRequest :=
  ((toAckLanes env).label p e).bind (Lanes.taken p.queue.acknowledging)

theorem takenAck_eq_processed {e : PipelineEvent} (hguard : p.guard env e) :
    takenAck env p e =
      ((toBroker env).label p e).bind (Broker.processed p.queue.services) := by
  simp only [takenAck, toAckLanes, toBroker, Simulation.trans, toServer]
  cases hd : p.serverEvent env e with
  | none => rfl
  | some d => exact (Server.processed_eq_taken p.queue (hguard.2 d hd).1).symm

theorem acks_of_put {e : PipelineEvent} (hguard : p.processGuard e) {reqs : List AcknowledgeRequest}
    (h : ((toAckLanes env).label p e).bind (Lanes.put p.queue.acknowledging) = some reqs) :
    ∃ k reply, e = .recv k reply ∧ reqs = p.acks env k reply := by
  simp only [toAckLanes, Simulation.trans, toServer, Server.acknowledgeLanes] at h
  cases e with
  | recv k reply =>
    simp only [serverEvent] at h
    split at h
    · exact ⟨k, reply, rfl, (Option.some.inj h).symm⟩
    · cases h
  | tick k tick =>
    simp only [serverEvent] at h
    split at h <;> cases h
  | connect k newID =>
    simp only [serverEvent] at h
    cases hsink : p.sinks k <;> simp [hsink, Server.acknowledgeOp] at h
  | queue d =>
    cases d with
    | acknowledgeCall reqs => exact hguard.elim
    | acknowledge j =>
      simp only [serverEvent, Server.acknowledgeOp, Option.bind_some] at h
      split at h <;> cases h
    | _ => cases h
  | _ => cases h

section Run

variable (hrun : (pipeline env).Run init es p)
include hrun

theorem justified_of_mem {req : AcknowledgeRequest}
    (h : req ∈ (pipeline env).trace (takenAck env) init es ++ p.queue.acknowledging.flatten) :
    Justified env es req := by
  have hlanes := Lanes.taken_subperm ((toAckLanes env).run hrun)
  have htaken := (toAckLanes env).trace hrun Lanes.taken
  have hput := (toAckLanes env).trace hrun Lanes.put
  rw [show (toAckLanes env).state init = ([] : Lanes AcknowledgeRequest) from rfl] at htaken hput
  rw [htaken, hput] at hlanes
  obtain ⟨reqs, hreqs, hreq⟩ := List.mem_flatten.mp (hlanes.subset h)
  obtain ⟨before, e, after, m, r, hes, hbefore, hst, -, hobs⟩ := hrun.step_of_mem_trace hreqs
  obtain ⟨k, reply, rfl, rfl⟩ := acks_of_put hst.1.1 hobs
  exact ⟨before, _, after, m, hes, hbefore, justifies_of_mem_acks hbefore hst.1.1 hreq⟩

theorem tracked_of_takenAck {msgID consumerID : String}
    (h : p.queue.services.messageStore.mem.ackTracker.lookup msgID = some consumerID) :
    ∃ req ∈ (pipeline env).trace (takenAck env) init es,
      req.messageID = msgID ∧ req.consumerID = consumerID := by
  refine hrun.history (H := fun es p => ∀ msgID consumerID,
    p.queue.services.messageStore.mem.ackTracker.lookup msgID = some consumerID →
      ∃ req ∈ (pipeline env).trace (takenAck env) init es,
        req.messageID = msgID ∧ req.consumerID = consumerID) ?_ ?_ msgID consumerID h
  · intro msgID consumerID h
    cases h
  · intro es m e q hm ih hst msgID consumerID hq
    have hold : m.queue.services.messageStore.mem.ackTracker.lookup msgID = some consumerID →
        ∃ req ∈ (pipeline env).trace (takenAck env) init (es ++ [e]),
          req.messageID = msgID ∧ req.consumerID = consumerID := by
      intro hlookup
      obtain ⟨req, hreq, hids⟩ := ih msgID consumerID hlookup
      refine ⟨req, ?_, hids⟩
      rw [hm.trace_snoc _ hst]
      exact List.mem_append_left _ hreq
    have hinv := services_inv launched_init hm
    cases hd : (toBroker env).label m e with
    | none =>
      rw [step_services_of_none hst hd] at hq
      exact hold hq
    | some d =>
      have hstep := step_services hst hd
      cases hreq : Broker.processed m.queue.services d with
      | none => exact hold (Broker.tracked_of_not_processed hinv hstep hreq hq)
      | some req =>
        rw [Broker.tracker_of_processed hinv hstep hreq, Finmap.lookup_insert_eq] at hq
        split at hq
        · rename_i hid
          refine ⟨req, ?_, hid.symm, Option.some.inj hq⟩
          rw [hm.trace_snoc _ hst]
          apply List.mem_append_right
          rw [Option.mem_toList, takenAck_eq_processed hst.1, hd]
          exact hreq
        · exact hold hq

/-- In every run of the pipeline: if the tracker says that a consumer acknowledged a message, then
some sink with this consumer id, at some moment of the run, read this message, decoded its record
and stored it. -/
theorem tracked_was_stored {msgID consumerID : String}
    (h : p.queue.services.messageStore.mem.ackTracker.lookup msgID = some consumerID) :
    ∃ before k reply after m sink msg t, es = before ++ .recv k reply :: after ∧
      (pipeline env).Run init before m ∧ m.sinks k = some sink ∧ sink.consumerID = consumerID ∧
      msg ∈ (read k m (.recv k reply)).getD [] ∧ msg.id = msgID ∧
      decodePayload env msg = some t ∧ t ∈ (collected env k m (.recv k reply)).getD [] := by
  obtain ⟨req, hreq, rfl, rfl⟩ := tracked_of_takenAck hrun h
  obtain ⟨before, e, after, m, hes, hbefore, hjust⟩ :=
    justified_of_mem hrun (List.mem_append_left _ hreq)
  obtain ⟨k, reply, sink, msg, t, rfl, hsink, hconsumer, hread, hid, ht, hcollected⟩ := hjust.stored
  exact ⟨before, k, reply, after, m, sink, msg, t, hes, hbefore, hsink, hconsumer, hread, hid, ht,
    hcollected⟩

end Run

theorem tracked_was_stored_twoSinks : ∃ p, (pipeline oneEnvironment).Run init twoSinks p ∧
    ∃ before k reply after m sink msg t, twoSinks = before ++ .recv k reply :: after ∧
      (pipeline oneEnvironment).Run init before m ∧ m.sinks k = some sink ∧
      sink.consumerID = "gpu-node" ∧ msg ∈ (read k m (.recv k reply)).getD [] ∧
      msg.id = "msg-a-1000000000" ∧ decodePayload oneEnvironment msg = some t ∧
      t ∈ (collected oneEnvironment k m (.recv k reply)).getD [] := by
  obtain ⟨p, hrun, hlookup⟩ := Machine.exists_run (M := pipeline oneEnvironment) (fun p =>
    p.queue.services.messageStore.mem.ackTracker.lookup "msg-a-1000000000" = some "gpu-node") init
    twoSinks (by decide +kernel)
  exact ⟨p, hrun, tracked_was_stored hrun hlookup⟩

theorem consumerID_ne {k : Nat} {sink : Sink} (hrun : (pipeline env).Run init es p)
    (hsink : p.sinks k = some sink) : sink.consumerID ≠ "" := by
  refine hrun.invariant (I := fun p => ∀ k sink, p.sinks k = some sink → sink.consumerID ≠ "") ?_ ?_
    k sink hsink
  · intro m e q ih hst k sink hsink
    cases step_keeps hst hsink with
    | new hstart =>
      intro hempty
      have hlen := congrArg String.length hempty
      simp only [Sink.new, Collector.consumerID, String.length_append] at hlen
      simp at hlen
    | add hold hconfig hconsumer =>
      rw [hconsumer]
      exact ih k _ hold
  · intro k sink hsink
    cases hsink

section Run

variable (hrun : (pipeline env).Run init es p)
include hrun

theorem complete_of_published {msg : Message}
    (h : msg ∈ (pipeline env).trace (published env) init es) :
    ∃ req, Streamer.Complete req msg := by
  rw [trace_published launched_init hrun] at h
  obtain ⟨req, hreq, hmsg⟩ := List.mem_filterMap.mp h
  have hsent := (taken_subperm launched_init hrun).subset (List.mem_append_left _ hreq)
  obtain ⟨msg', hcomplete⟩ := complete_of_sent hrun hsent
  obtain rfl := Option.some.inj (hcomplete.message.symm.trans hmsg)
  exact ⟨req, hcomplete⟩

theorem live_of_published (hphase : p.queue.phase ≠ .stopped) {msg : Message}
    (h : msg ∈ (pipeline env).trace (published env) init es) :
    p.queue.services.messageStore.mem.Live msg.id := by
  have hserver := (toServer env).run hrun
  refine Broker.live_of_published (Server.toBroker.run hserver)
    (Server.open_of_not_stopped hserver hphase) ?_
  have hbroker := Server.toBroker.trace hserver fun _ => Broker.published
  have hpipeline := (toServer env).trace hrun fun s e =>
    (Server.toBroker.label s e).bind Broker.published
  rw [show Server.toBroker.state ((toServer env).state init) = Broker.init from rfl] at hbroker
  rw [show (toServer env).state init = Server.init from rfl] at hbroker hpipeline
  rw [hpipeline] at hbroker
  have hsame : (fun p e => ((toServer env).label p e).bind
      ((fun s e => (Server.toBroker.label s e).bind Broker.published) ((toServer env).state p))) =
        published env := by
    funext p e
    exact (Option.bind_assoc _ _ _).symm
  rw [hsame] at hbroker
  exact hbroker ▸ h

theorem mem_published_of_read {k : Nat} {before after : List PipelineEvent} {e : PipelineEvent}
    {m : Pipeline} (hes : es = before ++ e :: after) (hm : (pipeline env).Run init before m)
    {msg : Message} (h : msg ∈ (read k m e).getD []) :
    msg ∈ (pipeline env).trace (published env) init es := by
  cases hread : read k m e with
  | none => simp [hread] at h
  | some msgs =>
    rw [hread] at h
    subst hes
    have hmem := hrun.mem_trace_of_obs hm hread
    exact (read_append_ahead_sublist launched_init hrun k).subset
      (List.mem_append_left _ (List.mem_flatten.mpr ⟨msgs, hmem, h⟩))

/-- In every run of the pipeline, whatever was lost and whoever was started again: every
acknowledgement on its way to the broker is one that the broker takes. It has both ids, and it names
a message that is still in the store; and the step in which its turn comes records it. -/
theorem acknowledgements_accepted :
    (∀ req ∈ p.queue.acknowledging.flatten,
      SubscriberService.Acceptable p.queue.services.messageStore.mem req) ∧
    ∀ j req q, Lanes.next p.queue.acknowledging j = some req →
      (pipeline env).Step p (.queue (.acknowledge j)) q →
      q.queue.acknowledging = Lanes.step p.queue.acknowledging (.take j) ∧
      q.queue.services.messageStore.mem.ackTracker.lookup req.messageID =
        some req.consumerID := by
  have haccept : ∀ req ∈ p.queue.acknowledging.flatten,
      SubscriberService.Acceptable p.queue.services.messageStore.mem req := by
    intro req hreq
    have hphase : p.queue.phase ≠ .stopped := by
      intro hstopped
      have hidle := Server.idle_of_stopped ((toServer env).run hrun) hstopped
      have hempty : p.queue.acknowledging.flatten = [] := hidle.acknowledging
      rw [hempty] at hreq
      cases hreq
    obtain ⟨before, e, after, m, hes, hm, hjust⟩ :=
      justified_of_mem hrun (List.mem_append_right _ hreq)
    obtain ⟨k, reply, sink, msg, t, -, hsink, hconsumer, hread, hid, -⟩ := hjust.stored
    have hpub := mem_published_of_read hrun hes hm hread
    obtain ⟨req', hcomplete⟩ := complete_of_published hrun hpub
    refine ⟨hid ▸ hcomplete.id, hconsumer ▸ consumerID_ne hm hsink, ?_⟩
    exact hid ▸ live_of_published hrun hphase hpub
  refine ⟨haccept, ?_⟩
  intro j req q hnext hst
  have hacc := haccept req ((Lanes.perm_take hnext).subset List.mem_cons_self)
  have hserver : server.Step p.queue (.acknowledge j) q.queue := step_queue hst rfl
  have hlabel : (toBroker env).label p (.queue (.acknowledge j)) = some (.acknowledge req) := by
    simp [toBroker, Simulation.trans, toServer, serverEvent, Server.toBroker, Server.brokerEvent,
      hnext]
  have hprocessed : Broker.processed p.queue.services (.acknowledge req) = some req := if_pos hacc
  refine ⟨?_, ?_⟩
  · rw [Server.acknowledging_step hserver]
    simp [Server.acknowledgeOp, hnext, hacc]
  · rw [Broker.tracker_of_processed (services_inv launched_init hrun) (step_services hst hlabel)
      hprocessed]
    exact Finmap.lookup_insert _

end Run

theorem acknowledgements_accepted_twoSinks : ∃ p q req,
    (pipeline oneEnvironment).Run init twoSinks p ∧
    (pipeline oneEnvironment).Step p (.queue (.acknowledge 1)) q ∧
    Lanes.next p.queue.acknowledging 1 = some req ∧
    SubscriberService.Acceptable p.queue.services.messageStore.mem req ∧
    q.queue.services.messageStore.mem.ackTracker.lookup req.messageID = some req.consumerID := by
  obtain ⟨p, q, hp, hq, hnext⟩ := Machine.exists_run_run (M := pipeline oneEnvironment)
    (fun p _ => Lanes.next p.queue.acknowledging 1 =
      some (Collector.ackRequest "gpu-node" "msg-a-1000000000")) init twoSinks
    [.queue (.acknowledge 1)] (by decide +kernel)
  obtain ⟨r, hst, hr⟩ := Machine.Run.cons_iff.mp hq
  obtain rfl := Machine.Run.nil_iff.mp hr
  have h := acknowledgements_accepted hp
  exact ⟨p, q, _, hp, hst, hnext,
    h.1 _ ((Lanes.perm_take hnext).subset List.mem_cons_self), (h.2 1 _ q hnext hst).2⟩

end Pipeline

end GpuTel
