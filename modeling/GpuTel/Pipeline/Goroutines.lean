import GpuTel.Pipeline.Broadcast
import GpuTel.Telemetry.CollectorRounds

/-!
# The sinks as goroutines

A sink of the pipeline is what the goroutine of a collector looks like between two calls of `Recv`:
each label of the pipeline is a few steps of it, and leaves it before the next `Recv`, or before the
next subscription.
-/

set_option autoImplicit false

namespace GpuTel

open GpuTel.Mq GpuTel.Telemetry Fifo Transition

namespace Pipeline

variable {env : Environment} {p q : Pipeline} {es : List PipelineEvent} {e : PipelineEvent}
variable {k : Nat} {sink : Sink}

def between (connection : Option Connection) : Collector.Phase :=
  if connection.isSome then .receiving else .polling

/-- The sink is where a goroutine with these steps is, and has stored what it has stored. -/
structure Mirrors (env : Environment) (sink : Sink) (ls : List Collector.LoopEvent)
    (s : Collector.Started) : Prop where
  run : collectorLoop.Run .new ls s
  consumerID : s.consumerID = sink.consumerID
  ctxErr : s.ctxErr = none
  phase : s.phase = between sink.connection
  storage : sink.storage = ((Collector.allCalls env.decode sink.config ls).filterMap
    Collector.Call.stored).foldl MemoryStorage.store .newMemoryStorage

theorem Mirrors.extend {ls more : List Collector.LoopEvent} {s t : Collector.Started} {sink' : Sink}
    (h : Mirrors env sink ls s) (hmore : collectorLoop.Run s more t)
    (hconfig : sink'.config = sink.config) (hid : t.consumerID = sink'.consumerID)
    (hctx : t.ctxErr = none) (hphase : t.phase = between sink'.connection)
    (hstorage : sink'.storage = ((collectorLoop.trace
      (fun s e => some (s.calls env.decode sink.config e)) s more).flatten.filterMap
        Collector.Call.stored).foldl MemoryStorage.store sink.storage) :
    Mirrors env sink' (ls ++ more) t := by
  refine ⟨h.run.append hmore, hid, hctx, hphase, ?_⟩
  rw [hstorage, h.storage, hconfig, Collector.allCalls, Collector.allCalls, h.run.trace_append,
    List.flatten_append, List.filterMap_append, List.foldl_append]

section Steps

variable {ls : List Collector.LoopEvent} {s : Collector.Started}

theorem Mirrors.eq (h : Mirrors env sink ls s) :
    s = ⟨sink.consumerID, none, between sink.connection, s.result⟩ := by
  rw [← h.consumerID, ← h.ctxErr, ← h.phase]

theorem mirrors_new (config : CollectorConfig) (consumerGroup : String) (host : Host) :
    Mirrors env (Sink.new config consumerGroup host)
      [.start (Collector.consumerID consumerGroup host) none]
      ⟨Collector.consumerID consumerGroup host, none, .polling, none⟩ :=
  ⟨.single ⟨rfl, rfl⟩, rfl, rfl, rfl, rfl⟩

theorem failed_run (consumerID : String) (result : Option (Option String)) :
    collectorLoop.Run ⟨consumerID, none, .receiving, result⟩ [.fail "" none, .retry]
      ⟨consumerID, none, .polling, result⟩ :=
  .cons ⟨rfl, rfl⟩ (.single ⟨⟨⟨_, rfl⟩, rfl⟩, rfl⟩)

theorem mirrors_connect (h : Mirrors env sink ls s) (hnone : sink.connection = none)
    (connection : Option Connection) :
    ∃ ls' s', Mirrors env { sink with connection := connection } ls' s' := by
  obtain ⟨result, rfl⟩ : ∃ result, s = ⟨sink.consumerID, none, .polling, result⟩ :=
    ⟨_, by simpa [between, hnone] using h.eq⟩
  have hopen : collectorLoop.Run ⟨sink.consumerID, none, .polling, result⟩
      [.poll, .subscribe ⟨none, none, none⟩, .select]
      ⟨sink.consumerID, none, .receiving, result⟩ :=
    .cons ⟨⟨rfl, rfl⟩, rfl⟩ (.cons ⟨rfl, rfl⟩ (.single ⟨⟨rfl, rfl⟩, rfl⟩))
  cases connection with
  | some c => exact ⟨_, _, h.extend hopen rfl rfl rfl rfl rfl⟩
  | none => exact ⟨_, _, h.extend (hopen.append (failed_run _ _)) rfl rfl rfl rfl rfl⟩

theorem mirrors_giveUp (h : Mirrors env sink ls s) (hsome : sink.connection.isSome = true) :
    ∃ ls' s', Mirrors env { sink with connection := none } ls' s' := by
  obtain ⟨result, rfl⟩ : ∃ result, s = ⟨sink.consumerID, none, .receiving, result⟩ :=
    ⟨_, by simpa [between, hsome] using h.eq⟩
  exact ⟨_, _, h.extend (failed_run _ _) rfl rfl rfl rfl rfl⟩

theorem mirrors_recv (h : Mirrors env sink ls s) {c : Connection}
    (hc : sink.connection = some c) (resp : Collector.Response) (reply : Collector.Reply) :
    ∃ ls' s', Mirrors env { sink with
      storage := ((Collector.processResponse env.decode sink.consumerID resp reply).filterMap
        Collector.Call.stored).foldl MemoryStorage.store sink.storage
      connection := some ⟨c.stream, c.received + 1⟩ } ls' s' := by
  obtain ⟨result, rfl⟩ : ∃ result, s = ⟨sink.consumerID, none, .receiving, result⟩ :=
    ⟨_, by simpa [between, hc] using h.eq⟩
  have hrecv : collectorLoop.Run ⟨sink.consumerID, none, .receiving, result⟩
      [.recv resp, .process reply, .select] ⟨sink.consumerID, none, .receiving, result⟩ :=
    .cons ⟨rfl, rfl⟩ (.cons ⟨by simp [Collector.Started.exec, Collector.Started.guard,
      Collector.Phase.response, collectorLoop], rfl⟩ (.single ⟨⟨rfl, rfl⟩, rfl⟩))
  refine ⟨_, _, h.extend hrecv rfl rfl rfl rfl ?_⟩
  simp [Machine.trace, collectorLoop, Collector.Started.calls, Collector.Started.exec,
    Collector.Phase.response]

end Steps

theorem mirrored_step (hst : (pipeline env).Step p e q)
    (h : ∀ sink, p.sinks k = some sink → ∃ ls s, Mirrors env sink ls s)
    (hsink : q.sinks k = some sink) : ∃ ls s, Mirrors env sink ls s := by
  have hguard : p.processGuard e := hst.1.1
  rw [step_sinks hst] at hsink
  -- The labels that are not about sink `k` leave it as it is.
  have hother : ∀ {i : Nat} {new : Option Sink}, (p.setSink i new).sinks k = some sink →
      (i = k → new = some sink → ∃ ls s, Mirrors env sink ls s) →
      ∃ ls s, Mirrors env sink ls s := by
    intro i new hset hself
    simp only [setSink, Function.update_apply] at hset
    split at hset
    · rename_i heq
      exact hself heq.symm hset
    · exact h sink hset
  cases e with
  | startSink i config consumerGroup host =>
    apply hother hsink
    rintro - hnew
    obtain rfl := Option.some.inj hnew
    exact ⟨_, _, mirrors_new config consumerGroup host⟩
  | connect i newID =>
    apply hother hsink
    rintro rfl hnew
    obtain ⟨old, hold, rfl⟩ := Option.map_eq_some_iff.mp hnew
    obtain ⟨ls, s, hold'⟩ := h old hold
    have hnone : old.connection = none := by
      have hfree := hguard.2
      rwa [connection, hold, Option.bind_some] at hfree
    exact mirrors_connect hold' hnone _
  | recv i reply =>
    apply hother hsink
    rintro rfl hnew
    obtain ⟨old, hold, rfl⟩ := Option.map_eq_some_iff.mp hnew
    obtain ⟨ls, s, hold'⟩ := h old hold
    obtain ⟨r, hr⟩ := Option.isSome_iff_exists.mp hguard.1
    obtain ⟨c, hc, -⟩ := Option.bind_eq_some_iff.mp hr
    have hconn : old.connection = some c := by rwa [connection, hold, Option.bind_some] at hc
    have hrecv := mirrors_recv hold' hconn (decodeResponse r) reply
    simpa [received, batches, calls, response, hold, hr, hconn] using hrecv
  | giveUp i =>
    apply hother hsink
    rintro rfl hnew
    obtain ⟨old, hold, rfl⟩ := Option.map_eq_some_iff.mp hnew
    obtain ⟨ls, s, hold'⟩ := h old hold
    have hsome : old.connection.isSome = true := by
      have hconn : (p.connection i).isSome = true := hguard
      rwa [connection, hold, Option.bind_some] at hconn
    exact mirrors_giveUp hold' hsome
  | _ => exact h sink hsink

/-- In every run of the pipeline, every sink is where the goroutine of a collector can be that has
made the calls which gave the sink its storage: waiting for a response if the sink is connected, and
otherwise about to subscribe. -/
theorem sinks_are_goroutines (hrun : (pipeline env).Run init es p) (hsink : p.sinks k = some sink) :
    ∃ ls s, Mirrors env sink ls s := by
  refine hrun.invariant (I := fun p => ∀ sink, p.sinks k = some sink →
    ∃ ls s, Mirrors env sink ls s) ?_ ?_ sink hsink
  · intro p e q h hst sink hsink
    exact mirrored_step hst h hsink
  · intro sink hsink
    cases hsink

theorem sinks_are_goroutines_twoSinks : ∃ p sink ls s,
    (pipeline oneEnvironment).Run init twoSinks p ∧ p.sinks 0 = some sink ∧
    sink.storage.telemetry.keys = {"a"} ∧ Mirrors oneEnvironment sink ls s ∧
    s.phase = .receiving := by
  obtain ⟨p, hrun, sink, hsink, hkeys, hconn⟩ :=
    Machine.exists_run (M := pipeline oneEnvironment) (fun p => ∃ sink ∈ p.sinks 0,
      sink.storage.telemetry.keys = {"a"} ∧ sink.connection.isSome = true) init twoSinks
      (by decide +kernel)
  obtain ⟨ls, s, hmirrors⟩ := sinks_are_goroutines hrun hsink
  refine ⟨p, sink, ls, s, hrun, hsink, hkeys, hmirrors, ?_⟩
  rw [hmirrors.phase, between, if_pos hconn]

end Pipeline

end GpuTel
