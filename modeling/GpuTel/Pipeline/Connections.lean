import GpuTel.Pipeline.Broadcast

/-!
# Connections

A connection of a sink is the beginning of what is delivered on one stream of the broker, which was
opened for it. While its client counts as connected and no `Send` fails, nothing is lost between the
channel and the storage: what was collected on the connection, and then what is on the way, is what
the broker offered to the stream.
-/

set_option autoImplicit false

namespace GpuTel

open GpuTel.Mq GpuTel.Telemetry Fifo Transition

namespace Mq.Broker

variable {b t : Broker} {e : BrokerEvent} {i : Nat}

theorem opened_of_start {req : SubscribeRequest} {newID : String} {config : SubscribeConfig}
    (hst : broker.Step b (.start req newID) t)
    (hconfig : SubscriberService.configure req newID = .ok config) :
    t.opened = b.opened + 1 ∧ (t.streams b.opened).config = config := by
  rw [(step_advance hst).1, (step_advance hst).2]
  simp [advance, hconfig, setStream]

theorem topic_of_taken {es : List BrokerEvent} (hrun : broker.Run init es b) {msg : Message}
    (h : some msg ∈ (b.streams i).taken) : msg.topic = (b.streams i).config.topic := by
  have hinv := inv_run hrun
  cases hi : (b.streams i).channel with
  | none =>
    rw [hinv.fresh hi] at h
    cases h
  | some c =>
    have hfifo := taken_append_buf hrun (Or.inl hi)
    have hworld := simulation.trace hrun (World.acceptedBy c)
    have hmem : msg ∈ broker.trace (accepted c) init es := by
      rw [← hfifo]
      exact List.mem_append_left _ (List.reduceOption_mem_iff.mpr h)
    have hacc : msg ∈ world.trace (World.acceptedBy c) World.init
        (broker.trace simulation.label init es) := hworld ▸ hmem
    have htopic := World.accepted_topic (simulation.run hrun) c msg hacc
    exact htopic.trans (hinv.bound hi).2.1

theorem reduceOption_map_some {α : Type} (l : List α) : (l.map some).reduceOption = l := by
  simp [List.reduceOption]

theorem mem_taken_of_delivered {s : Stream} {r : SubscribeResponse} (hr : r ∈ s.delivered)
    {msg : Option Message} (hmsg : msg ∈ r.messages) : msg ∈ s.taken := by
  obtain ⟨x, hx, rfl⟩ := List.mem_map.mp hr
  exact List.mem_append_left _ (List.mem_flatMap.mpr ⟨x, List.mem_of_mem_filter hx, hmsg⟩)

end Mq.Broker

namespace Pipeline

variable {env : Environment} {p q : Pipeline} {es : List PipelineEvent} {e : PipelineEvent}

/-- The messages that sink `k` reads from stream `i`. -/
def readFrom (k i : Nat) (p : Pipeline) (e : PipelineEvent) : Option (List Message) :=
  if (p.connection k).any fun c => c.stream = i then read k p e else none

/-- The records that sink `k` collects from stream `i`. -/
def collectedFrom (env : Environment) (k i : Nat) (p : Pipeline) (e : PipelineEvent) :
    Option (List GPUTelemetry) :=
  if (p.connection k).any fun c => c.stream = i then collected env k p e else none

/-- The messages offered to stream `i`. -/
def offered (env : Environment) (i : Nat) (p : Pipeline) (e : PipelineEvent) : Option Message :=
  ((toBroker env).label p e).bind (Broker.offered i p.queue.services)

structure ReadsInOrder (env : Environment) (es : List PipelineEvent) (p : Pipeline) : Prop where
  stream_lt : ∀ {k c}, p.connection k = some c → c.stream < p.queue.services.opened
  received_le : ∀ {k c}, p.connection k = some c →
    c.received ≤ (p.queue.services.streams c.stream).delivered.length
  fresh : ∀ {k i}, p.queue.services.opened ≤ i →
    ((pipeline env).trace (readFrom k i) init es).flatten = []
  read : ∀ {k c}, p.connection k = some c →
    ((pipeline env).trace (readFrom k c.stream) init es).flatten =
      (((p.queue.services.streams c.stream).delivered.take c.received).flatMap
        SubscribeResponse.messages).reduceOption

theorem readFrom_of_not_recv {k : Nat} (h : ∀ reply, e ≠ .recv k reply) (i : Nat) :
    readFrom k i p e = none := by
  have hread : read k p e = none := by
    cases e with
    | recv j reply =>
      have hne : j ≠ k := fun heq => h reply (by rw [heq])
      simp [read, hne]
    | _ => rfl
  simp [readFrom, hread]

section Step

variable (hst : (pipeline env).Step p e q)
include hst

theorem opened_le_step : p.queue.services.opened ≤ q.queue.services.opened := by
  cases hd : (toBroker env).label p e with
  | none => rw [step_services_of_none hst hd]
  | some d => exact Broker.opened_le_step (step_services hst hd)

theorem delivered_step (hinv : p.queue.services.Inv) (i : Nat) :
    (p.queue.services.streams i).delivered <+: (q.queue.services.streams i).delivered := by
  cases hd : (toBroker env).label p e with
  | none => rw [step_services_of_none hst hd]
  | some d =>
    exact Broker.delivered_of_moves i (Broker.step_moves (step_services hst hd) i) hinv

theorem opened_of_connect {k : Nat} {newID : String} {c : Connection}
    (he : e = .connect k newID) (hc : q.connection k = some c) :
    ∃ sink config, p.sinks k = some sink ∧ c = ⟨p.queue.services.opened, 0⟩ ∧
      SubscriberService.configure sink.request newID = .ok config ∧
      q.queue.services.opened = p.queue.services.opened + 1 ∧
      (q.queue.services.streams c.stream).config = config := by
  subst he
  obtain ⟨sink, hsink⟩ := Option.isSome_iff_exists.mp hst.1.1.1
  rw [connection, step_sinks hst, ← connection, advance, connection_setSink, if_pos rfl, hsink,
    Option.map_some, Option.bind_some, connected] at hc
  cases hconfig : SubscriberService.configure sink.request newID with
  | error status => simp [hconfig, Except.toOption] at hc
  | ok config =>
    rw [hconfig] at hc
    obtain rfl := Option.some.inj hc
    have hlabel : (toBroker env).label p (.connect k newID) =
        some (.start sink.request newID) := by
      simp [toBroker, Simulation.trans, toServer, serverEvent, hsink, Server.toBroker,
        Server.brokerEvent]
    obtain ⟨hopened, hstream⟩ := Broker.opened_of_start (step_services hst hlabel) hconfig
    exact ⟨sink, config, hsink, rfl, hconfig, hopened, hstream⟩

end Step

theorem readsInOrder_init : ReadsInOrder env [] init := by
  refine ⟨?_, ?_, fun _ => rfl, ?_⟩ <;> intro k c hc <;> cases hc

section Reads

variable (hrun : (pipeline env).Run init es p) (h : ReadsInOrder env es p)
variable (hst : (pipeline env).Step p e q)
include hrun h hst

omit h in
theorem flatten_readFrom_snoc (k i : Nat) :
    ((pipeline env).trace (readFrom k i) init (es ++ [e])).flatten =
      ((pipeline env).trace (readFrom k i) init es).flatten ++
        (readFrom k i p e).toList.flatten := by
  rw [hrun.trace_snoc _ hst, List.flatten_append]

omit hrun in
theorem stream_lt_step {k : Nat} {c : Connection} (hc : q.connection k = some c) :
    c.stream < q.queue.services.opened := by
  have hlink := step_link hst k
  have hle := opened_le_step hst
  rw [hc] at hlink
  generalize hsome : some c = link at hlink
  cases hlink with
  | keep hne => exact Nat.lt_of_lt_of_le (h.stream_lt hsome.symm) hle
  | lose hne => cases hsome
  | connect hnone =>
    obtain ⟨sink, config, -, rfl, -, hopened, -⟩ := opened_of_connect hst rfl hc
    exact Nat.lt_of_lt_of_eq (Nat.lt_succ_self _) hopened.symm
  | recv hold hr =>
    obtain rfl := Option.some.inj hsome
    have hlt := h.stream_lt hold
    exact Nat.lt_of_lt_of_le hlt hle

theorem received_le_step {k : Nat} {c : Connection} (hc : q.connection k = some c) :
    c.received ≤ (q.queue.services.streams c.stream).delivered.length := by
  have hlink := step_link hst k
  have hinv := services_inv launched_init hrun
  rw [hc] at hlink
  generalize hsome : some c = link at hlink
  cases hlink with
  | keep hne =>
    exact Nat.le_trans (h.received_le hsome.symm) (delivered_step hst hinv c.stream).length_le
  | lose hne => cases hsome
  | connect hnone =>
    obtain rfl := Option.some.inj hsome
    exact Nat.zero_le _
  | recv hold hr =>
    obtain rfl := Option.some.inj hsome
    obtain ⟨hlt, -⟩ := List.getElem?_eq_some_iff.mp hr
    exact Nat.le_trans hlt (delivered_step hst hinv _).length_le

theorem fresh_step {k i : Nat} (hi : q.queue.services.opened ≤ i) :
    ((pipeline env).trace (readFrom k i) init (es ++ [e])).flatten = [] := by
  have hle := opened_le_step hst
  have hnone : readFrom k i p e = none := by
    unfold readFrom
    split
    · rename_i hany
      obtain ⟨c, hc, hstream⟩ := (Option.any_eq_true _ _).mp hany
      have hlt := h.stream_lt hc
      have heq := of_decide_eq_true hstream
      omega
    · rfl
  rw [flatten_readFrom_snoc hrun hst, h.fresh (Nat.le_trans hle hi), hnone]
  rfl

theorem read_step {k : Nat} {c : Connection} (hc : q.connection k = some c) :
    ((pipeline env).trace (readFrom k c.stream) init (es ++ [e])).flatten =
      (((q.queue.services.streams c.stream).delivered.take c.received).flatMap
        SubscribeResponse.messages).reduceOption := by
  have hlink := step_link hst k
  rw [hc] at hlink
  generalize hsome : some c = link at hlink
  cases hlink with
  | keep hne =>
    obtain ⟨rest, hrest⟩ := delivered_step hst (services_inv launched_init hrun) c.stream
    rw [flatten_readFrom_snoc hrun hst, readFrom_of_not_recv hne, h.read hsome.symm, ← hrest,
      List.take_append_of_le_length (h.received_le hsome.symm)]
    exact List.append_nil _
  | lose hne => cases hsome
  | connect hnone =>
    obtain rfl := Option.some.inj hsome
    rw [flatten_readFrom_snoc hrun hst, readFrom_of_not_recv (by simp), h.fresh (Nat.le_refl _)]
    rfl
  | @recv reply old r hold hr =>
    obtain rfl := Option.some.inj hsome
    have hsame : q.queue.services = p.queue.services :=
      step_services_of_none hst (label_recv p k reply)
    have hnext : p.nextResponse k = some r := by simp [nextResponse, hold, hr]
    have hread : readFrom k old.stream p (.recv k reply) = some r.messages.reduceOption := by
      simp [readFrom, hold, Pipeline.read, hnext]
    rw [flatten_readFrom_snoc hrun hst, hread, h.read hold, hsame, List.take_add_one, hr,
      List.flatMap_append, List.reduceOption_append]
    simp

theorem readsInOrder_step : ReadsInOrder env (es ++ [e]) q where
  stream_lt := stream_lt_step h hst
  received_le := received_le_step hrun h hst
  fresh := fresh_step hrun h hst
  read := read_step hrun h hst

end Reads

theorem readsInOrder_run (hrun : (pipeline env).Run init es p) : ReadsInOrder env es p :=
  hrun.history (H := ReadsInOrder env) readsInOrder_init
    fun _ _ _ _ hm ih hst => readsInOrder_step hm ih hst

section Run

variable (hrun : (pipeline env).Run init es p)
include hrun

theorem collectedFrom_eq (k i : Nat) :
    ((pipeline env).trace (collectedFrom env k i) init es).flatten =
      ((pipeline env).trace (readFrom k i) init es).flatten.filterMap (decodePayload env) := by
  apply trace_flatten_filterMap (decodePayload env) hrun
  intro before m e q hm hst
  simp only [collectedFrom, readFrom]
  split
  · exact collected_eq launched_init hm k e hst.1.1
  · rfl

theorem server_trace_offered (i : Nat) :
    server.trace (Server.offered i) Server.init
      ((pipeline env).trace (toServer env).label init es) =
        (pipeline env).trace (offered env i) init es := by
  have htrace := (toServer env).trace hrun (Server.offered i)
  rw [show (toServer env).state init = Server.init from rfl] at htrace
  rw [htrace]
  congr 1
  funext p e
  exact (Option.bind_assoc _ _ _).symm

theorem readFrom_append_ahead {k ch : Nat} {c : Connection} (hc : p.connection k = some c)
    (hlive : p.queue.services.Live c.stream ch)
    (hsends : ∀ r ∈ (p.queue.services.streams c.stream).sent, r.2 = true) :
    ((pipeline env).trace (readFrom k c.stream) init es).flatten ++ p.ahead k =
      (pipeline env).trace (offered env c.stream) init es := by
  have hlaw := Server.live_delivery ((toServer env).run hrun) hlive
  rw [server_trace_offered hrun] at hlaw
  have hall : (p.queue.services.streams c.stream).delivered =
      (p.queue.services.streams c.stream).sent.map Prod.fst := by
    rw [Stream.delivered, List.filter_eq_self.mpr hsends]
  have hsent : (p.queue.services.streams c.stream).sent.flatMap (fun r => r.1.messages) =
      ((p.queue.services.streams c.stream).delivered.take c.received).flatMap
        SubscribeResponse.messages ++
      ((p.queue.services.streams c.stream).delivered.drop c.received).flatMap
        SubscribeResponse.messages := by
    rw [← List.flatMap_append, List.take_append_drop, hall, List.flatMap_map]
  have hreduce := congrArg List.reduceOption hlaw
  rw [show (toServer env).state p = p.queue from rfl, hsent] at hreduce
  simp only [List.reduceOption_append, Broker.reduceOption_map_some] at hreduce
  rw [(readsInOrder_run hrun).read hc, ← hreduce, ahead, hc, Option.elim_some, Broker.ahead,
    Stream.front, Broker.buffered, hlive.1, Option.elim_some, List.reduceOption_append]
  simp only [List.append_assoc]

/-- In every run of the pipeline, for a sink on a stream whose client counts as connected and of
which no `Send` failed: what the sink collected on this connection, and then what the messages on
the way to it decode to, are in order exactly the records that were published on its topic since it
subscribed, while its channel had room. -/
theorem connection_conserves {k ch : Nat} {c : Connection} (hc : p.connection k = some c)
    (hlive : p.queue.services.Live c.stream ch)
    (hsends : ∀ r ∈ (p.queue.services.streams c.stream).sent, r.2 = true) :
    ((pipeline env).trace (collectedFrom env k c.stream) init es).flatten ++
        (p.ahead k).filterMap (decodePayload env) =
      ((pipeline env).trace (offered env c.stream) init es).filterMap (decodePayload env) := by
  rw [collectedFrom_eq hrun, ← List.filterMap_append, readFrom_append_ahead hrun hc hlive hsends]

end Run

theorem connection_conserves_twoSinks : ∃ p, (pipeline oneEnvironment).Run init twoSinks p ∧
    p.connection 0 = some ⟨2, 1⟩ ∧ p.queue.services.Live 2 2 ∧
    ((pipeline oneEnvironment).trace (collectedFrom oneEnvironment 0 2) init twoSinks).flatten ++
        (p.ahead 0).filterMap (decodePayload oneEnvironment) =
      ((pipeline oneEnvironment).trace (offered oneEnvironment 2) init twoSinks).filterMap
        (decodePayload oneEnvironment) := by
  obtain ⟨p, hrun, hc, hlive, hsends⟩ := Machine.exists_run (M := pipeline oneEnvironment)
    (fun p => p.connection 0 = some ⟨2, 1⟩ ∧ p.queue.services.Live 2 2 ∧
      ∀ r ∈ (p.queue.services.streams 2).sent, r.2 = true) init twoSinks (by decide +kernel)
  exact ⟨p, hrun, hc, hlive, connection_conserves (c := ⟨2, 1⟩) hrun hc hlive hsends⟩

end Pipeline

end GpuTel
