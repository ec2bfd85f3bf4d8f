import GpuTel.Pipeline.Readers

/-!
# Where the messages come from

Every message that the broker publishes was sent by a tick, and for one `Send` there is one
publication at most. The queue adds nothing to the messages.
-/

set_option autoImplicit false

namespace GpuTel

open GpuTel.Mq GpuTel.Telemetry Fifo Transition

namespace Mq.Server

open Streamer

variable {s : Server} {e : ServerEvent}

/-- The requests on the lanes have all that the queue would fill in. -/
def LanesComplete (s : Server) : Prop := ∀ req ∈ s.publishing.flatten, ∃ msg, Complete req msg

theorem prepare_of_complete {req : PublishRequest} {msg : Message} (h : Complete req msg)
    (newID : String) (now : Timestamp) : PublisherService.prepare req newID now = .ok msg := by
  obtain ⟨time, htime⟩ := Option.ne_none_iff_exists'.mp h.timestamp
  simp only [PublisherService.prepare, h.message, stamp, if_neg h.id, htime, Option.some_or]
  rw [← htime]

theorem published_eq_taken (hcomplete : s.LanesComplete) (hguard : s.callGuard e) :
    (s.brokerEvent e).bind Broker.published =
      ((s.publishOp e).bind (Lanes.taken s.publishing)).bind PublishRequest.message := by
  cases e with
  | publish j newID now order =>
    obtain ⟨req, hreq⟩ := Option.ne_none_iff_exists'.mp hguard
    have hmem : req ∈ s.publishing.flatten :=
      (Lanes.perm_take hreq).subset List.mem_cons_self
    obtain ⟨msg, hmsg⟩ := hcomplete req hmem
    simp [brokerEvent, publishOp, hreq, Broker.published_eq_prepare,
      prepare_of_complete hmsg, hmsg.message, Lanes.taken, Except.toOption]
  | handler d =>
    cases d with
    | publish req newID now order => exact hguard.elim
    | _ => rfl
  | acknowledge j =>
    simp only [brokerEvent, publishOp]
    cases Lanes.next s.acknowledging j <;> rfl
  | _ => rfl

end Mq.Server

theorem Environment.roundTrip (env : Environment) : Streamer.RoundTrip env.lib env.decode :=
  fun _ _ hutc hpayload => GPUTelemetry.unmarshal_marshal env.codec hutc hpayload

namespace Pipeline

variable {env : Environment} {p : Pipeline} {es : List PipelineEvent}

/-- The requests that a tick sends, whether they arrive or not. -/
def sent (env : Environment) (p : Pipeline) : PipelineEvent → Option (List PublishRequest)
  | .tick k tick => some (p.sends env k tick)
  | _ => none

def toLanes (env : Environment) :
    Simulation (pipeline env) (Lanes.machine PublishRequest Fault) :=
  (toServer env).trans Server.publishLanes

def taken (env : Environment) (p : Pipeline) (e : PipelineEvent) : Option PublishRequest :=
  ((toLanes env).label p e).bind (Lanes.taken p.queue.publishing)

theorem lanes_of_launched {p₀ : Pipeline} (h₀ : p₀.Launched) :
    (toLanes env).state p₀ = ([] : Lanes PublishRequest) :=
  congrArg Server.publishing h₀.queue

theorem lanes_run {p₀ : Pipeline} (h₀ : p₀.Launched) (hrun : (pipeline env).Run p₀ es p) :
    (Lanes.machine PublishRequest Fault).Run [] ((pipeline env).trace (toLanes env).label p₀ es)
      p.queue.publishing := by
  have h := (toLanes env).run hrun
  rwa [lanes_of_launched h₀] at h

theorem put_sublist (p : Pipeline) (e : PipelineEvent) (hown : p.processGuard e) :
    ((((toLanes env).label p e).bind (Lanes.put p.queue.publishing)).toList.flatten).Sublist
      ((sent env p e).toList.flatten) := by
  cases e with
  | tick k tick =>
    simp only [toLanes, Simulation.trans, toServer, serverEvent, sent]
    split
    · simp [Server.publishLanes, Server.publishOp, Lanes.put]
    · simp
  | connect k newID =>
    simp only [toLanes, Simulation.trans, toServer, serverEvent]
    cases p.sinks k <;> exact List.nil_sublist _
  | recv k reply =>
    simp only [toLanes, Simulation.trans, toServer, serverEvent]
    split <;> exact List.nil_sublist _
  | queue e =>
    cases e with
    | publishCall reqs => exact hown.elim
    | publish j newID now order =>
      simp only [toLanes, Simulation.trans, toServer, serverEvent, Server.publishLanes,
        Server.publishOp, Option.bind_some]
      split <;> exact List.nil_sublist _
    | _ => exact List.nil_sublist _
  | _ => exact List.nil_sublist _

section Run

variable {p₀ : Pipeline} (h₀ : p₀.Launched) (hrun : (pipeline env).Run p₀ es p)
include h₀ hrun

theorem put_trace_sublist : ((Lanes.machine PublishRequest Fault).trace Lanes.put []
    ((pipeline env).trace (toLanes env).label p₀ es)).flatten.Sublist
      ((pipeline env).trace (sent env) p₀ es).flatten := by
  have htrace := (toLanes env).trace hrun Lanes.put
  rw [lanes_of_launched h₀] at htrace
  rw [htrace]
  refine hrun.history (H := fun es _ => ((pipeline env).trace (fun p e =>
      ((toLanes env).label p e).bind (Lanes.put ((toLanes env).state p))) p₀ es).flatten.Sublist
    ((pipeline env).trace (sent env) p₀ es).flatten) (List.Sublist.refl _) ?_
  intro es m e q hm ih hst
  rw [hm.trace_snoc _ hst, hm.trace_snoc _ hst, List.flatten_append, List.flatten_append]
  exact ih.append (put_sublist m e hst.1.1)

/-- The requests taken from the lanes, and those still on them, were sent, each at most as often. -/
theorem taken_subperm : ((pipeline env).trace (taken env) p₀ es ++
    p.queue.publishing.flatten).Subperm ((pipeline env).trace (sent env) p₀ es).flatten := by
  have hlanes := Lanes.taken_subperm (lanes_run h₀ hrun)
  have htrace := (toLanes env).trace hrun Lanes.taken
  rw [lanes_of_launched h₀] at htrace
  rw [htrace] at hlanes
  exact hlanes.trans (put_trace_sublist h₀ hrun).subperm

omit h₀ in
theorem complete_of_sent {req : PublishRequest}
    (h : req ∈ ((pipeline env).trace (sent env) p₀ es).flatten) :
    ∃ msg, Streamer.Complete req msg := by
  obtain ⟨reqs, hreqs, hreq⟩ := List.mem_flatten.mp h
  obtain ⟨before, e, after, m, -, -, hsent⟩ := hrun.mem_trace hreqs
  cases e with
  | tick k tick =>
    obtain rfl := Option.some.inj hsent
    unfold sends at hreq
    cases hs : m.streamers k with
    | none => simp [hs] at hreq
    | some s =>
      rw [hs] at hreq
      exact Streamer.complete_of_mem_sentRequests env.lib hreq
  | _ => cases hsent

theorem lanesComplete : p.queue.LanesComplete := by
  intro req hreq
  exact complete_of_sent hrun ((taken_subperm h₀ hrun).subset (List.mem_append_right _ hreq))

end Run

theorem published_eq_taken (hcomplete : p.queue.LanesComplete) {e : PipelineEvent}
    (hguard : p.guard env e) :
    published env p e = (taken env p e).bind PublishRequest.message := by
  simp only [published, taken, toLanes, toBroker, Simulation.trans, toServer]
  cases hd : p.serverEvent env e with
  | none => rfl
  | some d => exact Server.published_eq_taken hcomplete (hguard.2 d hd).1

theorem trace_published {p₀ : Pipeline} (h₀ : p₀.Launched) (hrun : (pipeline env).Run p₀ es p) :
    (pipeline env).trace (published env) p₀ es =
      ((pipeline env).trace (taken env) p₀ es).filterMap PublishRequest.message := by
  rw [← Machine.trace_bind]
  apply hrun.trace_congr
  intro before e after m _ hbefore hrest
  obtain ⟨q, hst, -⟩ := Machine.Run.cons_iff.mp hrest
  exact published_eq_taken (lanesComplete h₀ hbefore) hst.1

end Pipeline

end GpuTel
