import GpuTel.Pipeline.CompleteAnswers
import GpuTel.Pipeline.Topics

/-!
# Sinks that agree

A sink that stays connected and below the capacity of its channel misses nothing, so what it holds
is what it held before and all that was published since. Two such sinks come to hold the same.
-/

set_option autoImplicit false

namespace GpuTel

open GpuTel.Mq GpuTel.Telemetry Fifo Transition

namespace Pipeline

variable {env : Environment} {p q : Pipeline} {es after : List PipelineEvent} {e : PipelineEvent}
variable {k i ch : Nat} {sink sink' : Sink}

/-- Sink `k` is connected to stream `i`, of which no `Send` failed, and its channel has room. -/
structure Roomy (k i ch : Nat) (p : Pipeline) : Prop where
  steady : Steady k i ch p
  room : (p.queue.services.messageStore.subs ch).ch.buf.length < 100

theorem steady_iff : Steady k i ch p ↔ (p.connection k).any (fun c => c.stream = i) ∧
    p.queue.services.Live i ch ∧ ∀ r ∈ (p.queue.services.streams i).sent, r.2 = true := by
  rw [Option.any_eq_true]
  constructor
  · rintro ⟨⟨n, hn⟩, hlive, hsends⟩
    exact ⟨⟨⟨i, n⟩, hn, decide_eq_true rfl⟩, hlive, hsends⟩
  · rintro ⟨⟨c, hc, hstream⟩, hlive, hsends⟩
    obtain rfl := of_decide_eq_true hstream
    exact ⟨⟨c.received, hc⟩, hlive, hsends⟩

instance (k i ch : Nat) (p : Pipeline) : Decidable (Steady k i ch p) :=
  decidable_of_iff _ steady_iff.symm

instance (k i ch : Nat) : DecidablePred (Roomy k i ch) := fun p =>
  decidable_of_iff (Steady k i ch p ∧ (p.queue.services.messageStore.subs ch).ch.buf.length < 100)
    ⟨fun h => ⟨h.1, h.2⟩, fun h => ⟨h.steady, h.room⟩⟩

theorem Roomy.throughout (h : (pipeline env).Throughout (Roomy k i ch) p after) :
    (pipeline env).Throughout (Steady k i ch) p after :=
  fun before rest m hes hbefore => (h before rest m hes hbefore).steady

theorem readFrom_of_steady (h : Steady k i ch p) (e : PipelineEvent) :
    readFrom k i p e = read k p e := by
  obtain ⟨n, hn⟩ := h.connection
  simp [readFrom, hn]

theorem opened_of_steady (hrun : (pipeline env).Run init es p) (h : Steady k i ch p) :
    i < p.queue.services.opened := by
  obtain ⟨n, hn⟩ := h.connection
  exact (readsInOrder_run hrun).stream_lt hn

theorem topic_run (hafter : (pipeline env).Run p after q) (hi : i < p.queue.services.opened) :
    i < q.queue.services.opened ∧ (q.queue.services.streams i).config.topic =
      (p.queue.services.streams i).config.topic := by
  refine hafter.invariant (I := fun q => i < q.queue.services.opened ∧
    (q.queue.services.streams i).config.topic = (p.queue.services.streams i).config.topic)
    ?_ ⟨hi, rfl⟩
  rintro m e q ⟨hlt, htopic⟩ hst
  exact ⟨Nat.lt_of_lt_of_le hlt (opened_le_step hst), by rw [config_step hst hlt, htopic]⟩

section After

variable (hrun : (pipeline env).Run init es p) (hafter : (pipeline env).Run p after q)
variable (hroomy : (pipeline env).Throughout (Roomy k i ch) p after)
variable (htopic : (p.queue.services.streams i).config.topic = "gpu_metrics")
include hrun hafter hroomy htopic

theorem trace_offered_of_roomy : (pipeline env).trace (offered env i) p after =
    (pipeline env).trace (published env) p after := by
  apply hafter.trace_congr
  rintro before e rest m rfl hbefore hrest
  obtain ⟨r, hst, -⟩ := Machine.Run.cons_iff.mp hrest
  have hm := hroomy before (e :: rest) m rfl hbefore
  have hlt := opened_of_steady hrun (hroomy [] (before ++ e :: rest) p rfl (.nil p)).steady
  have hsame := (topic_run hbefore hlt).2.trans htopic
  cases hpub : published env m e with
  | none =>
    unfold offered
    unfold published at hpub
    cases hd : (toBroker env).label m e with
    | none => rfl
    | some d =>
      rw [hd, Option.bind_some] at hpub
      rw [Option.bind_some, Broker.offered, hpub]
      rfl
  | some msg =>
    have hmem : msg ∈ (pipeline env).trace (published env) init ((es ++ before) ++ [e]) :=
      Machine.Run.mem_trace_of_obs ((hrun.append hbefore).snoc hst) (hrun.append hbefore) hpub
    obtain ⟨req, hcomplete⟩ := complete_of_published ((hrun.append hbefore).snoc hst) hmem
    unfold offered
    unfold published at hpub
    cases hd : (toBroker env).label m e with
    | none =>
      rw [hd] at hpub
      cases hpub
    | some d =>
      rw [hd, Option.bind_some] at hpub
      rw [Option.bind_some, Broker.offered, hpub, hm.steady.live.1]
      simp [hcomplete.topic, hsame, hm.room]

theorem read_append_ahead_of_roomy :
    ((pipeline env).trace (read k) p after).flatten ++ q.ahead k =
      p.ahead k ++ (pipeline env).trace (published env) p after := by
  have hstart := (hroomy [] after p rfl (.nil p)).steady
  have hend := (hroomy after [] q (List.append_nil after).symm hafter).steady
  obtain ⟨n, hn⟩ := hstart.connection
  obtain ⟨n', hn'⟩ := hend.connection
  have hbefore := readFrom_append_ahead hrun hn hstart.live hstart.sends
  have hwhole := readFrom_append_ahead (hrun.append hafter) hn' hend.live hend.sends
  have hread : (pipeline env).trace (readFrom k i) p after =
      (pipeline env).trace (read k) p after := by
    apply hafter.trace_congr
    intro before e rest m hes hm _
    exact readFrom_of_steady (hroomy before (e :: rest) m hes hm).steady e
  rw [hrun.trace_append, hrun.trace_append, List.flatten_append, ← hbefore, hread,
    trace_offered_of_roomy hrun hafter hroomy htopic, List.append_assoc,
    List.append_assoc] at hwhole
  exact List.append_cancel_left hwhole

/-- As long as a sink with the topic of the streamers stays connected, no `Send` fails and its
channel has room, it misses nothing: what it collects, and then what is on the way to it, is what
was on the way to it and then every record that is published, in order. -/
theorem misses_nothing :
    ((pipeline env).trace (collected env k) p after).flatten ++
        (q.ahead k).filterMap (decodePayload env) =
      (p.ahead k).filterMap (decodePayload env) ++
        ((pipeline env).trace (published env) p after).filterMap (decodePayload env) := by
  rw [trace_collected launched_init hrun hafter, ← List.filterMap_append,
    read_append_ahead_of_roomy hrun hafter hroomy htopic, List.filterMap_append]

end After

def subscribed : List PipelineEvent := .startStreamer 0 ⟨1⟩ :: startSink 0 ++ startSink 1

/-- The second sink has not read the record yet. -/
def halfway : List PipelineEvent := publishOne 0 [1, 0] ++ deliver 0 0 true

theorem misses_nothing_halfway : ∃ p q, (pipeline oneEnvironment).Run init subscribed p ∧
    (pipeline oneEnvironment).Run p halfway q ∧ p.ahead 1 = [] ∧
    ((pipeline oneEnvironment).trace (published oneEnvironment) p halfway).length = 1 ∧
    ((pipeline oneEnvironment).trace (collected oneEnvironment 1) p halfway).flatten ++
        (q.ahead 1).filterMap (decodePayload oneEnvironment) =
      (p.ahead 1).filterMap (decodePayload oneEnvironment) ++
        ((pipeline oneEnvironment).trace (published oneEnvironment) p halfway).filterMap
          (decodePayload oneEnvironment) := by
  obtain ⟨p, q, hrun, hafter, hahead, hpublished, hroomy, htopic⟩ :=
    Machine.exists_run_run (M := pipeline oneEnvironment) (fun p _ => p.ahead 1 = [] ∧
      ((pipeline oneEnvironment).trace (published oneEnvironment) p halfway).length = 1 ∧
      (pipeline oneEnvironment).holdsAlong (Roomy 1 1 1) p halfway = true ∧
      (p.queue.services.streams 1).config.topic = "gpu_metrics") init subscribed halfway
      (by decide +kernel)
  exact ⟨p, q, hrun, hafter, hahead, hpublished,
    misses_nothing hrun hafter (Machine.throughout_of_holdsAlong hroomy) htopic⟩

theorem not_started_of_steady (hafter : (pipeline env).Run p after q)
    (hsteady : (pipeline env).Throughout (Steady k i ch) p after) (config : CollectorConfig)
    (consumerGroup : String) (host : Host) :
    .startSink k config consumerGroup host ∉ after := by
  intro hmem
  obtain ⟨before, rest, rfl⟩ := List.append_of_mem hmem
  obtain ⟨m, hbefore, hrest⟩ := Machine.Run.append_iff.mp hafter
  obtain ⟨r, hst, -⟩ := Machine.Run.cons_iff.mp hrest
  obtain ⟨n, hn⟩ :=
    (hsteady (before ++ [.startSink k config consumerGroup host]) rest r (by simp)
      (hbefore.snoc hst)).connection
  simp [connection, step_sinks hst, advance, setSink, Sink.new] at hn

theorem storage_of_caughtUp (hrun : (pipeline env).Run init es p)
    (hafter : (pipeline env).Run p after q)
    (hroomy : (pipeline env).Throughout (Roomy k i ch) p after) (hsink : p.sinks k = some sink)
    (htopic : sink.config.topic = "gpu_metrics") (hp : p.backlog k = 0)
    (hsink' : q.sinks k = some sink') (hq : q.backlog k = 0) : sink'.storage =
      (((pipeline env).trace (published env) p after).filterMap (decodePayload env)).foldl
        MemoryStorage.storeRecord sink.storage := by
  obtain ⟨n, hn⟩ := (hroomy [] after p rfl (.nil p)).steady.connection
  rw [connection_of_sink hsink] at hn
  have hstream := (ownTopic_run hrun k sink ⟨i, n⟩ hsink hn).trans htopic
  have hall := read_append_ahead_of_roomy hrun hafter hroomy hstream
  rw [ahead_of_backlog_eq_zero hp, ahead_of_backlog_eq_zero hq, List.append_nil,
    List.nil_append] at hall
  rw [storage_of_kept hafter (not_started_of_steady hafter (Roomy.throughout hroomy)) hsink hsink',
    trace_collected launched_init hrun hafter, hall]

variable {k₂ i₂ ch₂ : Nat} {sink₂ sink₂' : Sink}

/-- Two sinks that hold the same and have no backlog hold the same whenever they have no backlog
again, whatever streamers and other sinks do, as long as both stay connected with room in their
channels and no `Send` to them fails. -/
theorem sinks_agree (hrun : (pipeline env).Run init es p) (hafter : (pipeline env).Run p after q)
    (hroomy : (pipeline env).Throughout (Roomy k i ch) p after)
    (hroomy₂ : (pipeline env).Throughout (Roomy k₂ i₂ ch₂) p after)
    (hsink : p.sinks k = some sink) (hsink₂ : p.sinks k₂ = some sink₂)
    (htopic : sink.config.topic = "gpu_metrics") (htopic₂ : sink₂.config.topic = "gpu_metrics")
    (hp : p.backlog k = 0) (hp₂ : p.backlog k₂ = 0) (hsame : sink₂.storage = sink.storage)
    (hsink' : q.sinks k = some sink') (hsink₂' : q.sinks k₂ = some sink₂')
    (hq : q.backlog k = 0) (hq₂ : q.backlog k₂ = 0) : sink₂'.storage = sink'.storage := by
  rw [storage_of_caughtUp hrun hafter hroomy hsink htopic hp hsink' hq,
    storage_of_caughtUp hrun hafter hroomy₂ hsink₂ htopic₂ hp₂ hsink₂' hq₂, hsame]

theorem sinks_agree_halfway : ∃ p q sink sink₂,
    (pipeline oneEnvironment).Run init subscribed p ∧
    (pipeline oneEnvironment).Run p (halfway ++ deliver 1 1 true) q ∧ q.sinks 0 = some sink ∧
    q.sinks 1 = some sink₂ ∧ sink.storage.telemetry.keys = {"a"} ∧
    sink₂.storage = sink.storage := by
  obtain ⟨p, q, hrun, hafter, ⟨s, hs, htopic, hempty⟩, ⟨s₂, hs₂, htopic₂, hempty₂⟩,
      ⟨sink, hsink, hkeys⟩, ⟨sink₂, hsink₂, -⟩, hroomy, hroomy₂, hp, hp₂, hq, hq₂⟩ :=
    Machine.exists_run_run (M := pipeline oneEnvironment) (fun p q =>
      (∃ s ∈ p.sinks 0, s.config.topic = "gpu_metrics" ∧ s.storage = .newMemoryStorage) ∧
      (∃ s ∈ p.sinks 1, s.config.topic = "gpu_metrics" ∧ s.storage = .newMemoryStorage) ∧
      (∃ s ∈ q.sinks 0, s.storage.telemetry.keys = {"a"}) ∧ (∃ s ∈ q.sinks 1, True) ∧
      (pipeline oneEnvironment).holdsAlong (Roomy 0 0 0) p (halfway ++ deliver 1 1 true) = true ∧
      (pipeline oneEnvironment).holdsAlong (Roomy 1 1 1) p (halfway ++ deliver 1 1 true) = true ∧
      p.backlog 0 = 0 ∧ p.backlog 1 = 0 ∧ q.backlog 0 = 0 ∧ q.backlog 1 = 0) init subscribed
      (halfway ++ deliver 1 1 true) (by decide +kernel)
  exact ⟨p, q, sink, sink₂, hrun, hafter, hsink, hsink₂, hkeys,
    sinks_agree hrun hafter (Machine.throughout_of_holdsAlong hroomy)
      (Machine.throughout_of_holdsAlong hroomy₂) hs hs₂ htopic htopic₂ hp hp₂
      (hempty₂.trans hempty.symm) hsink hsink₂ hq hq₂⟩

end Pipeline

end GpuTel
