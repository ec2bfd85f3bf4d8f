import GpuTel.Pipeline.Acknowledgements
import GpuTel.Pipeline.Connections

/-!
# The topic of a sink

A sink subscribes to the topic it is configured with, a streamer publishes on a fixed one. The queue
does not carry a message from one topic to another, so a sink with any other topic stays empty.
-/

set_option autoImplicit false

namespace GpuTel

open GpuTel.Mq GpuTel.Telemetry Fifo Transition

namespace Pipeline

variable {env : Environment} {p q : Pipeline} {es : List PipelineEvent} {e : PipelineEvent}

/-- The stream of a connection is subscribed to the topic of its sink. -/
def OwnTopic (p : Pipeline) : Prop :=
  ∀ k sink c, p.sinks k = some sink → sink.connection = some c →
    (p.queue.services.streams c.stream).config.topic = sink.config.topic

theorem config_step (hst : (pipeline env).Step p e q) {i : Nat} (hi : i < p.queue.services.opened) :
    (q.queue.services.streams i).config = (p.queue.services.streams i).config := by
  cases hd : (toBroker env).label p e with
  | none => rw [step_services_of_none hst hd]
  | some d => exact Broker.config_step (step_services hst hd) hi

theorem ownTopic_step (hrun : (pipeline env).Run init es p) (ih : OwnTopic p)
    (hst : (pipeline env).Step p e q) : OwnTopic q := by
  intro k sink c hsink hc
  have hconn : q.connection k = some c := by rw [connection, hsink, Option.bind_some, hc]
  have hlink := step_link hst k
  cases step_keeps hst hsink with
  | new hstart => cases hc
  | @add _ old batches hold hconfig _ _ _ =>
    have hbefore : ∀ c', p.connection k = some c' →
        (p.queue.services.streams c'.stream).config.topic = old.config.topic := by
      intro c' hc'
      rw [connection, hold, Option.bind_some] at hc'
      exact ih k old c' hold hc'
    rw [hconfig]
    rw [hconn] at hlink
    generalize hsome : some c = link at hlink
    cases hlink with
    | keep hrecv =>
      have hlt := (readsInOrder_run hrun).stream_lt hsome.symm
      rw [config_step hst hlt]
      exact hbefore c hsome.symm
    | lose hrecv => cases hsome
    | connect hnone =>
      obtain ⟨old', config, hold', -, hconfigure, -, hstream⟩ := opened_of_connect hst rfl hconn
      obtain rfl := Option.some.inj (hold.symm.trans hold')
      rw [hstream]
      exact (SubscriberService.configure_pos hconfigure).1
    | @recv reply c' r hc' hr =>
      obtain rfl := Option.some.inj hsome
      have hlt := (readsInOrder_run hrun).stream_lt hc'
      rw [config_step hst hlt]
      exact hbefore c' hc'

theorem ownTopic_run (hrun : (pipeline env).Run init es p) : OwnTopic p := by
  refine hrun.history (H := fun _ p => OwnTopic p) ?_ ?_
  · intro k sink c hsink
    cases hsink
  · intro es m e q hm ih hst
    exact ownTopic_step hm ih hst

theorem topic_of_read (hrun : (pipeline env).Run init es p) {k : Nat} {sink : Sink}
    (hsink : p.sinks k = some sink) {msg : Message} (h : msg ∈ (read k p e).getD []) :
    msg.topic = sink.config.topic := by
  cases e with
  | recv j reply =>
    simp only [read] at h
    split at h
    · rename_i heq
      subst heq
      cases hnext : p.nextResponse j with
      | none => simp [hnext] at h
      | some r =>
        rw [hnext, Option.map_some, Option.getD_some, List.reduceOption_mem_iff] at h
        obtain ⟨c, hc, hget⟩ := Option.bind_eq_some_iff.mp hnext
        have hdelivered := List.mem_of_getElem? hget
        have htaken := Broker.mem_taken_of_delivered hdelivered h
        have htopic := Broker.topic_of_taken ((toBroker env).run hrun) htaken
        rw [connection, hsink, Option.bind_some] at hc
        exact htopic.trans (ownTopic_run hrun j sink c hsink hc)
    · cases h
  | _ => cases h

theorem foldl_store_of_flatMap_eq_nil {batches : List TelemetryBatch}
    (h : batches.flatMap TelemetryBatch.telemetry = []) (m : MemoryStorage) :
    batches.foldl MemoryStorage.store m = m := by
  induction batches with
  | nil => rfl
  | cons batch batches ih =>
    rw [List.flatMap_cons, List.append_eq_nil_iff] at h
    have hsame : m.store batch = m := by rw [MemoryStorage.store, h.1]; rfl
    rw [List.foldl_cons, hsame]
    exact ih h.2

theorem collected_of_other_topic (hrun : (pipeline env).Run init es p)
    (hst : (pipeline env).Step p e q) {k : Nat} {sink : Sink} (hsink : p.sinks k = some sink)
    (htopic : sink.config.topic ≠ "gpu_metrics") :
    (collected env k p e).toList.flatten = [] := by
  rw [collected_eq launched_init hrun k e hst.1.1]
  cases hread : read k p e with
  | none => rfl
  | some msgs =>
    have hnone : msgs = [] := by
      apply List.eq_nil_iff_forall_not_mem.mpr
      intro msg hmsg
      have hmem : msg ∈ (read k p e).getD [] := by rwa [hread]
      have hpub := mem_published_of_read (hrun.snoc hst) rfl hrun hmem
      obtain ⟨req, hcomplete⟩ := complete_of_published (hrun.snoc hst) hpub
      exact htopic ((topic_of_read hrun hsink hmem).symm.trans hcomplete.topic)
    rw [hnone]
    rfl

/-- In every run of the pipeline, and whatever the streamers send: a sink reads from its stream
messages of the topic it is configured with only, and it has stored nothing at all if this is not
the topic of the streamers. -/
theorem stores_own_topic (hrun : (pipeline env).Run init es p) {k : Nat} {sink : Sink}
    (hsink : p.sinks k = some sink) :
    (∀ reply, ∀ msg ∈ (read k p (.recv k reply)).getD [], msg.topic = sink.config.topic) ∧
      (sink.config.topic ≠ "gpu_metrics" → sink.storage = .newMemoryStorage) := by
  refine ⟨fun reply msg hmsg => topic_of_read hrun hsink hmsg, ?_⟩
  refine hrun.history (H := fun _ p => ∀ k sink, p.sinks k = some sink →
    sink.config.topic ≠ "gpu_metrics" → sink.storage = .newMemoryStorage) ?_ ?_ k sink hsink
  · intro k sink hsink
    cases hsink
  · intro es m e q hm ih hst k sink hsink htopic
    cases step_keeps hst hsink with
    | new hstart => rfl
    | @add _ old batches hold hconfig _ hstorage hcollected =>
      rw [hconfig] at htopic
      rw [collected_of_other_topic hm hst hold htopic] at hcollected
      rw [hstorage, foldl_store_of_flatMap_eq_nil hcollected.symm]
      exact ih k old hold htopic

/-- A sink that is configured with another topic, beside one that is not. -/
def otherTopic : List PipelineEvent :=
  [.startStreamer 0 ⟨1⟩, .startSink 0 ⟨"gpu-metrics", 100, 1000, 30⟩ "gpu" ⟨"", .ok "node", 0⟩,
    .connect 0 "", .queue (.handler (.subscribe 0))] ++ startSink 1 ++ publishOne 0 [1] ++
    deliver 1 1 true

theorem stores_own_topic_otherTopic : ∃ p sink, (pipeline oneEnvironment).Run init otherTopic p ∧
    p.sinks 0 = some sink ∧ p.connection 0 ≠ none ∧ sink.storage = .newMemoryStorage := by
  obtain ⟨p, hrun, ⟨sink, hsink, htopic⟩, hconn⟩ :=
    Machine.exists_run (M := pipeline oneEnvironment) (fun p =>
      (∃ sink ∈ p.sinks 0, sink.config.topic ≠ "gpu_metrics") ∧ p.connection 0 ≠ none) init
      otherTopic (by decide +kernel)
  exact ⟨p, sink, hrun, hsink, hconn, (stores_own_topic hrun hsink).2 htopic⟩

end Pipeline

end GpuTel
