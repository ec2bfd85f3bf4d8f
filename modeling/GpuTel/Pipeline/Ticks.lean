import GpuTel.Pipeline.Broadcast

/-!
# The order of a tick

The requests of a tick travel on one stream, and its handler publishes them one after the other. The
messages of a tick are therefore published in the order of its rows, from the first one on and
without a gap, while those of other ticks come in between.
-/

set_option autoImplicit false

namespace GpuTel

open GpuTel.Mq GpuTel.Telemetry Fifo Transition

namespace Pipeline

variable {env : Environment} {p q : Pipeline} {es : List PipelineEvent} {e : PipelineEvent}

/-- The records of a tick whose call of `Publish` reaches the queue. -/
def arrived (env : Environment) (p : Pipeline) : PipelineEvent → Option (List GPUTelemetry)
  | .tick k tick =>
    if p.queue.phase = .serving ∧ p.sends env k tick ≠ [] then
      streamed env p (.tick k tick)
    else none
  | _ => none

def publishedFrom (env : Environment) (j : Nat) (p : Pipeline) :
    PipelineEvent → Option GPUTelemetry
  | .queue (.publish i newID now order) =>
    if i = j then (published env p (.queue (.publish i newID now order))).bind (decodePayload env)
    else none
  | _ => none

theorem arrived_eq_put (hguard : p.processGuard e) : arrived env p e =
    (((toLanes env).label p e).bind (Lanes.put p.queue.publishing)).map
      (List.filterMap (Streamer.decodeRequest env.decode)) := by
  cases e with
  | tick k tick =>
    have hstreamed : streamed env p (.tick k tick) = _ := streamed_eq p (.tick k tick)
    simp only [arrived, toLanes, Simulation.trans, toServer, serverEvent]
    split
    · rw [hstreamed]
      rfl
    · rfl
  | connect k newID =>
    simp only [arrived, toLanes, Simulation.trans, toServer, serverEvent]
    cases p.sinks k <;> rfl
  | recv k reply =>
    simp only [arrived, toLanes, Simulation.trans, toServer, serverEvent]
    split <;> rfl
  | queue e =>
    cases e with
    | publishCall reqs => exact hguard.elim
    | publish j newID now order =>
      simp only [arrived, toLanes, Simulation.trans, toServer, serverEvent, Server.publishLanes,
        Server.publishOp, Option.bind_some]
      split <;> rfl
    | _ => rfl
  | _ => rfl

theorem publishedFrom_eq_taken (hcomplete : p.queue.LanesComplete) (hguard : p.guard env e)
    (j : Nat) : publishedFrom env j p e =
      (((toLanes env).label p e).bind (Lanes.takenFrom j p.queue.publishing)).bind
        (Streamer.decodeRequest env.decode) := by
  cases e with
  | tick k tick =>
    simp only [publishedFrom, toLanes, Simulation.trans, toServer, serverEvent]
    split <;> rfl
  | connect k newID =>
    simp only [publishedFrom, toLanes, Simulation.trans, toServer, serverEvent]
    cases p.sinks k <;> rfl
  | recv k reply =>
    simp only [publishedFrom, toLanes, Simulation.trans, toServer, serverEvent]
    split <;> rfl
  | queue e =>
    cases e with
    | publish i newID now order =>
      have htaken := published_eq_taken hcomplete hguard
      simp only [publishedFrom, htaken, taken, toLanes, Simulation.trans, toServer, serverEvent,
        Server.publishLanes, Server.publishOp, Option.bind_some]
      split
      · rename_i hij
        subst hij
        split
        · simp only [Option.bind_some, Lanes.taken, Lanes.takenFrom, if_true, Option.bind_assoc]
          rfl
        · rfl
      · rename_i hij
        split
        · simp [Lanes.takenFrom, hij]
        · rfl
    | _ => rfl
  | _ => rfl

/-- In every run of the pipeline, and for each call of `Publish` that reached the queue: the records
published from it, and then those still on their way, are a beginning of the records that its tick
sent, in the same order. -/
theorem tick_in_order (hrun : (pipeline env).Run init es p) (j : Nat) :
    (pipeline env).trace (publishedFrom env j) init es ++
        (Lanes.lane p.queue.publishing j).filterMap (Streamer.decodeRequest env.decode) <+:
      (((pipeline env).trace (arrived env) init es)[j]?).getD [] := by
  have horder := Lanes.lane_order ((toLanes env).run hrun) j
  have htaken := (toLanes env).trace hrun (Lanes.takenFrom j)
  have hput := (toLanes env).trace hrun Lanes.put
  rw [show (toLanes env).state init = ([] : Lanes PublishRequest) from rfl] at htaken hput
  rw [htaken, hput] at horder
  have hpublished : (pipeline env).trace (publishedFrom env j) init es =
      ((pipeline env).trace (fun p e => ((toLanes env).label p e).bind
        (Lanes.takenFrom j ((toLanes env).state p))) init es).filterMap
          (Streamer.decodeRequest env.decode) := by
    rw [← Machine.trace_bind]
    apply hrun.trace_congr
    intro before e after m _ hbefore hrest
    obtain ⟨q, hst, -⟩ := Machine.Run.cons_iff.mp hrest
    exact publishedFrom_eq_taken (lanesComplete launched_init hbefore) hst.1 j
  have harrived : (pipeline env).trace (arrived env) init es =
      ((pipeline env).trace (fun p e => ((toLanes env).label p e).bind
        (Lanes.put ((toLanes env).state p))) init es).map
          (List.filterMap (Streamer.decodeRequest env.decode)) := by
    rw [← List.filterMap_eq_map', ← Machine.trace_bind]
    apply hrun.trace_congr
    intro before e after m _ hbefore hrest
    obtain ⟨q, hst, -⟩ := Machine.Run.cons_iff.mp hrest
    rw [arrived_eq_put hst.1.1, Option.map_eq_bind]
    rfl
  rw [hpublished, harrived, List.getElem?_map, ← List.filterMap_append]
  have hmap := horder.filterMap (Streamer.decodeRequest env.decode)
  cases hj : ((pipeline env).trace (fun p e => ((toLanes env).label p e).bind
      (Lanes.put ((toLanes env).state p))) init es)[j]? with
  | none =>
    rw [hj] at hmap
    exact hmap
  | some reqs =>
    rw [hj] at hmap
    exact hmap

theorem tick_in_order_twoSinks : ∃ p, (pipeline oneEnvironment).Run init twoSinks p ∧
    (pipeline oneEnvironment).trace (publishedFrom oneEnvironment 1) init twoSinks =
      [Api.oneRecord "a"] ∧
    [Api.oneRecord "a"] ++ (Lanes.lane p.queue.publishing 1).filterMap
        (Streamer.decodeRequest oneEnvironment.decode) <+:
      (((pipeline oneEnvironment).trace (arrived oneEnvironment) init twoSinks)[1]?).getD [] := by
  obtain ⟨p, hrun, -⟩ := Machine.exists_run (M := pipeline oneEnvironment) (fun _ => True) init
    twoSinks (by decide +kernel)
  have hpublished : (pipeline oneEnvironment).trace (publishedFrom oneEnvironment 1) init twoSinks =
      [Api.oneRecord "a"] := by decide +kernel
  exact ⟨p, hrun, hpublished, hpublished ▸ tick_in_order hrun 1⟩

end Pipeline

end GpuTel
