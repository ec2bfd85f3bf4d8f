import GpuTel.Pipeline.Origin

/-!
# One order for all sinks

The pipeline as a broadcast of telemetry records. The broker puts the records that arrive in one
order. Every sink collects a part of them in this order, whatever breaks off or is started again,
and none that was not streamed, or more often than it was.
-/

set_option autoImplicit false

namespace GpuTel

open GpuTel.Mq GpuTel.Telemetry Fifo Transition

namespace Pipeline

variable {env : Environment} {p₀ p : Pipeline} {es : List PipelineEvent}

/-- The records that a tick sends, whether they arrive or not. -/
def streamed (env : Environment) (p : Pipeline) : PipelineEvent → Option (List GPUTelemetry)
  | .tick k tick => some ((p.streamers k).elim [] fun s =>
      Streamer.sentRecords env.lib s tick.atUTC)
  | _ => none

/-- The records that sink `k` passes to its storage. -/
def collected (env : Environment) (k : Nat) (p : Pipeline) :
    PipelineEvent → Option (List GPUTelemetry)
  | .recv i reply =>
    if i = k then some ((p.batches env k reply).flatMap TelemetryBatch.telemetry) else none
  | _ => none

def decodePayload (env : Environment) (msg : Message) : Option GPUTelemetry :=
  env.decode msg.payload

theorem subperm_filterMap {α β : Type} {l l' : List α} (f : α → Option β) (h : l.Subperm l') :
    (l.filterMap f).Subperm (l'.filterMap f) := by
  obtain ⟨l₀, hperm, hsub⟩ := h
  exact ⟨l₀.filterMap f, hperm.filterMap f, hsub.filterMap f⟩

theorem subperm_map {α β : Type} {l l' : List α} (f : α → β) (h : l.Subperm l') :
    (l.map f).Subperm (l'.map f) := by
  rw [← List.filterMap_eq_map]
  exact subperm_filterMap (some ∘ f) h

theorem trace_flatten_filterMap {α β : Type} {obs : Pipeline → PipelineEvent → Option (List α)}
    {obs' : Pipeline → PipelineEvent → Option (List β)} (f : α → Option β) {p q : Pipeline}
    (hrun : (pipeline env).Run p es q)
    (h : ∀ before m e r, (pipeline env).Run p before m → (pipeline env).Step m e r →
      obs' m e = (obs m e).map (List.filterMap f)) :
    ((pipeline env).trace obs' p es).flatten =
      (((pipeline env).trace obs p es).flatten).filterMap f := by
  have htrace : (pipeline env).trace obs' p es =
      (pipeline env).trace (fun p e => (obs p e).bind fun l => some (l.filterMap f)) p es := by
    apply hrun.trace_congr
    intro before e after m _ hbefore hrest
    obtain ⟨r, hst, -⟩ := Machine.Run.cons_iff.mp hrest
    rw [h before m e r hbefore hst, Option.map_eq_bind]
    rfl
  rw [htrace, Machine.trace_bind, List.filterMap_flatten]
  congr 1
  exact congrFun List.filterMap_eq_map' _

theorem streamed_eq (p : Pipeline) (e : PipelineEvent) : streamed env p e =
    (sent env p e).map (List.filterMap (Streamer.decodeRequest env.decode)) := by
  cases e with
  | tick k tick =>
    simp only [streamed, sent, sends, Option.map_some]
    cases p.streamers k with
    | none => rfl
    | some s =>
      have hutc : ∀ i, (tick.atUTC.clock i).utc.offset = 0 := fun _ => rfl
      have hrecords := Streamer.filterMap_decode_sentRequests env.lib hutc env.roundTrip s
      rw [Option.elim_some, Option.elim_some, hrecords]
  | _ => rfl

theorem heartbeat_of_delivered (h₀ : p₀.Launched) (hrun : (pipeline env).Run p₀ es p) {i n : Nat}
    {r : SubscribeResponse} (hr : (p.queue.services.streams i).delivered[n]? = some r) :
    r.heartbeat = false := by
  obtain ⟨x, hx, rfl⟩ := List.mem_map.mp (List.mem_of_getElem? hr)
  obtain ⟨msg, hmsg⟩ := Broker.single_run (broker_run h₀ hrun) i x
    (List.mem_of_mem_filter hx)
  rw [hmsg]

theorem decoded_decodeResponse (env : Environment) (r : SubscribeResponse) :
    (Collector.decoded env.decode (decodeResponse r).messages).map Prod.snd =
      r.messages.reduceOption.filterMap (decodePayload env) := by
  simp only [decodeResponse]
  induction r.messages with
  | nil => rfl
  | cons msg msgs ih =>
    have hcons : ∀ m : Message, (Collector.decoded env.decode [m]).map Prod.snd =
        (decodePayload env m).toList := by
      intro m
      cases hm : env.decode m.payload <;> simp [Collector.decoded, decodePayload, hm]
    have hsplit : ∀ (m : Message) (l : List Message), Collector.decoded env.decode (m :: l) =
        Collector.decoded env.decode [m] ++ Collector.decoded env.decode l :=
      fun m l => List.filterMap_append (l := [m])
    rw [List.map_cons, hsplit, List.map_append, ih, hcons]
    cases msg with
    | none =>
      have hnone : decodePayload env (decodeMessage none) = none := env.decode_empty
      rw [hnone]
      rfl
    | some m =>
      rw [List.reduceOption_cons_of_some, List.filterMap_cons]
      simp only [decodeMessage, Option.getD_some]
      cases decodePayload env m <;> rfl

theorem collected_eq (h₀ : p₀.Launched) (hrun : (pipeline env).Run p₀ es p) (k : Nat)
    (e : PipelineEvent) (hguard : p.processGuard e) :
    collected env k p e = (read k p e).map (List.filterMap (decodePayload env)) := by
  cases e with
  | recv i reply =>
    simp only [collected, read]
    split
    · rename_i heq
      subst heq
      obtain ⟨r, hr⟩ := Option.isSome_iff_exists.mp hguard.1
      obtain ⟨c, hc, hget⟩ := Option.bind_eq_some_iff.mp hr
      obtain ⟨sink, hsink, -⟩ := Option.bind_eq_some_iff.mp hc
      have hbeat : (decodeResponse r).heartbeat = false := heartbeat_of_delivered h₀ hrun hget
      rw [hr, Option.map_some, Option.map_some, ← decoded_decodeResponse]
      congr 1
      simp only [batches, calls, hsink, response, hr, Option.map_some,
        Collector.stored_processResponse]
      split
      · simp [Collector.batchOf]
      · rename_i hskip
        have hnil : Collector.decoded env.decode (decodeResponse r).messages = [] := by
          by_contra hne
          exact hskip ⟨hbeat, hne⟩
        rw [hnil]
        rfl
    · rfl
  | _ => rfl

theorem foldl_store_indexes {log : List GPUTelemetry} {m : MemoryStorage}
    (h : MemoryStorage.Indexes log m) (batches : List TelemetryBatch) :
    MemoryStorage.Indexes (log ++ batches.flatMap TelemetryBatch.telemetry)
      (batches.foldl MemoryStorage.store m) := by
  induction batches generalizing log m with
  | nil => simpa using h
  | cons batch batches ih =>
    have hrest := ih (h.store batch)
    rwa [List.append_assoc] at hrest

/-- What a label makes of a sink: it is started, or it keeps its configuration and adds to its
storage what it collects. -/
inductive Keeps (env : Environment) (p : Pipeline) (k : Nat) (e : PipelineEvent) : Sink → Prop where
  | new {config : CollectorConfig} {consumerGroup : String} {host : Host} :
      e = .startSink k config consumerGroup host →
      Keeps env p k e (Sink.new config consumerGroup host)
  | add {sink old : Sink} {batches : List TelemetryBatch} : p.sinks k = some old →
      sink.config = old.config → sink.consumerID = old.consumerID →
      sink.storage = batches.foldl MemoryStorage.store old.storage →
      (collected env k p e).toList.flatten = batches.flatMap TelemetryBatch.telemetry →
      Keeps env p k e sink

theorem Keeps.same {p : Pipeline} {k : Nat} {e : PipelineEvent} {sink old : Sink}
    (hold : p.sinks k = some old) (hconfig : sink.config = old.config)
    (hconsumer : sink.consumerID = old.consumerID) (hstorage : sink.storage = old.storage)
    (he : collected env k p e = none) : Keeps env p k e sink :=
  .add hold hconfig hconsumer (hstorage.trans List.foldl_nil.symm) (by rw [he]; rfl)

theorem keeps_setSink {p : Pipeline} {e : PipelineEvent} {i k : Nat} {sink : Sink}
    {change : Sink → Sink} (hsink : (p.setSink i ((p.sinks i).map change)).sinks k = some sink)
    (hself : ∀ old, i = k → p.sinks k = some old → Keeps env p k e (change old))
    (hother : i ≠ k → collected env k p e = none) : Keeps env p k e sink := by
  simp only [setSink, Function.update_apply] at hsink
  split at hsink
  · rename_i heq
    subst heq
    obtain ⟨old, hold, rfl⟩ := Option.map_eq_some_iff.mp hsink
    exact hself old rfl hold
  · rename_i hne
    exact .same hsink rfl rfl rfl (hother (Ne.symm hne))

theorem step_keeps {p q : Pipeline} {e : PipelineEvent} (hst : (pipeline env).Step p e q)
    {k : Nat} {sink : Sink} (hsink : q.sinks k = some sink) : Keeps env p k e sink := by
  rw [step_sinks hst] at hsink
  cases e with
  | startSink i config consumerGroup host =>
    simp only [advance, setSink, Function.update_apply] at hsink
    split at hsink
    · rename_i heq
      subst heq
      obtain rfl := Option.some.inj hsink
      exact .new rfl
    · exact .same hsink rfl rfl rfl rfl
  | recv i reply =>
    apply keeps_setSink hsink
    · rintro old rfl hold
      have hcollected : (collected env i p (.recv i reply)).toList.flatten =
          (p.batches env i reply).flatMap TelemetryBatch.telemetry := by simp [collected]
      exact .add hold rfl rfl rfl hcollected
    · intro hne
      simp [collected, hne]
  | connect i newID =>
    apply keeps_setSink hsink
    · intro old _ hold
      exact .same hold rfl rfl rfl rfl
    · exact fun _ => rfl
  | giveUp i =>
    apply keeps_setSink hsink
    · intro old _ hold
      exact .same hold rfl rfl rfl rfl
    · exact fun _ => rfl
  | _ => exact .same hsink rfl rfl rfl rfl

/-- The storages are the indexes of what was collected since the sinks were started. -/
def Logs (past : Nat → List GPUTelemetry) (p : Pipeline) : Prop :=
  ∀ k sink, p.sinks k = some sink → ∃ log, MemoryStorage.Indexes log sink.storage ∧ log <:+ past k

theorem logs_append {past : Nat → List GPUTelemetry} (h : Logs past p₀)
    (hrun : (pipeline env).Run p₀ es p) :
    Logs (fun k => past k ++ ((pipeline env).trace (collected env k) p₀ es).flatten) p := by
  refine hrun.history (H := fun es p => Logs (fun k =>
    past k ++ ((pipeline env).trace (collected env k) p₀ es).flatten) p) ?_ ?_
  · simpa [Machine.trace] using h
  · intro es m e q hm ih hst k sink hsink
    simp only [hm.trace_snoc _ hst, List.flatten_append]
    cases step_keeps hst hsink with
    | new hstart => exact ⟨[], MemoryStorage.indexes_new, List.nil_suffix⟩
    | @add _ old batches hold _ _ hstorage hcollected =>
      obtain ⟨log, hindex, before, hsuffix⟩ := ih k old hold
      refine ⟨log ++ batches.flatMap TelemetryBatch.telemetry, ?_, before, ?_⟩
      · rw [hstorage]
        exact foldl_store_indexes hindex batches
      · rw [← List.append_assoc, hsuffix, hcollected, List.append_assoc]

theorem logs_init (past : Nat → List GPUTelemetry) : Logs past init := by
  intro k sink hsink
  cases hsink

theorem logs_run (hrun : (pipeline env).Run init es p) (k : Nat) (sink : Sink)
    (hsink : p.sinks k = some sink) : ∃ log, MemoryStorage.Indexes log sink.storage ∧
      log <:+ ((pipeline env).trace (collected env k) init es).flatten :=
  logs_append (logs_init fun _ => []) hrun k sink hsink

def Starts (k : Nat) (e : PipelineEvent) : Prop :=
  ∃ config consumerGroup host, e = .startSink k config consumerGroup host

/-- The log is what sink `k` collected after the last label that started it. -/
def SinceStart (env : Environment) (k : Nat) (es : List PipelineEvent) (log : List GPUTelemetry) :
    Prop :=
  ∃ before start after m, es = before ++ start :: after ∧ Starts k start ∧
    (∀ e ∈ after, ¬ Starts k e) ∧ (pipeline env).Run init (before ++ [start]) m ∧
    log = ((pipeline env).trace (collected env k) m after).flatten

theorem SinceStart.start {k : Nat} {e : PipelineEvent}
    (hrun : (pipeline env).Run init (es ++ [e]) p) (he : Starts k e) :
    SinceStart env k (es ++ [e]) [] :=
  ⟨es, e, [], p, rfl, he, fun _ h => absurd h List.not_mem_nil, hrun, rfl⟩

theorem SinceStart.snoc {k : Nat} {q : Pipeline} {e : PipelineEvent} {log : List GPUTelemetry}
    (h : SinceStart env k es log) (hrun : (pipeline env).Run init es p)
    (hst : (pipeline env).Step p e q) (he : ¬ Starts k e) :
    SinceStart env k (es ++ [e]) (log ++ (collected env k p e).toList.flatten) := by
  obtain ⟨before, start, after, m, rfl, hstart, hafter, hm, rfl⟩ := h
  have hrest : (pipeline env).Run m after p := by
    rw [← List.singleton_append, ← List.append_assoc] at hrun
    obtain ⟨m', hm', hrest⟩ := Machine.Run.append_iff.mp hrun
    exact hm'.det hm ▸ hrest
  refine ⟨before, start, after ++ [e], m, by simp, hstart, ?_, hm, ?_⟩
  · intro f hf
    rcases List.mem_append.mp hf with hf | hf
    · exact hafter f hf
    · rwa [List.mem_singleton.mp hf]
  · rw [hrest.trace_snoc _ hst, List.flatten_append]

theorem indexes_sinceStart (hrun : (pipeline env).Run init es p) (k : Nat) (sink : Sink)
    (hsink : p.sinks k = some sink) :
    ∃ log, SinceStart env k es log ∧ MemoryStorage.Indexes log sink.storage := by
  refine hrun.history (H := fun es p => ∀ sink, p.sinks k = some sink →
    ∃ log, SinceStart env k es log ∧ MemoryStorage.Indexes log sink.storage) ?_ ?_ sink hsink
  · intro sink hsink
    cases hsink
  · intro es m e q hm ih hst sink hsink
    by_cases hstart : Starts k e
    · refine ⟨[], .start (hm.snoc hst) hstart, ?_⟩
      obtain ⟨config, consumerGroup, host, rfl⟩ := hstart
      have hnew : q.sinks k = some (Sink.new config consumerGroup host) := by
        simp [step_sinks hst, advance, setSink]
      obtain rfl := Option.some.inj (hsink.symm.trans hnew)
      exact MemoryStorage.indexes_new
    · cases step_keeps hst hsink with
      | new hnew => exact absurd ⟨_, _, _, hnew⟩ hstart
      | @add _ old batches hold _ _ hstorage hcollected =>
        obtain ⟨log, hlog, hindex⟩ := ih old hold
        refine ⟨_, hlog.snoc hm hst hstart, ?_⟩
        rw [hstorage, hcollected]
        exact foldl_store_indexes hindex batches

/-- The records in the order in which the broker publishes them. -/
def order (env : Environment) (p₀ : Pipeline) (es : List PipelineEvent) : List GPUTelemetry :=
  ((pipeline env).trace (published env) p₀ es).filterMap (decodePayload env)

theorem order_subperm (h₀ : p₀.Launched) (hrun : (pipeline env).Run p₀ es p) :
    (order env p₀ es).Subperm ((pipeline env).trace (streamed env) p₀ es).flatten := by
  have hstreamed := trace_flatten_filterMap (Streamer.decodeRequest env.decode) hrun
    fun _ m e _ _ _ => streamed_eq m e
  have htaken : ((pipeline env).trace (taken env) p₀ es).Subperm
      ((pipeline env).trace (sent env) p₀ es).flatten :=
    (List.sublist_append_left _ _).subperm.trans (taken_subperm h₀ hrun)
  rw [order, trace_published h₀ hrun, List.filterMap_filterMap, hstreamed]
  exact subperm_filterMap _ htaken

theorem trace_collected {q : Pipeline} {after : List PipelineEvent} (h₀ : p₀.Launched)
    (hrun : (pipeline env).Run p₀ es p) (hafter : (pipeline env).Run p after q) (k : Nat) :
    ((pipeline env).trace (collected env k) p after).flatten =
      ((pipeline env).trace (read k) p after).flatten.filterMap (decodePayload env) :=
  trace_flatten_filterMap (decodePayload env) hafter
    fun _ _ e _ hm hst => collected_eq h₀ (hrun.append hm) k e hst.1.1

theorem collected_sublist (h₀ : p₀.Launched) (hrun : (pipeline env).Run p₀ es p) (k : Nat) :
    (((pipeline env).trace (collected env k) p₀ es).flatten).Sublist (order env p₀ es) := by
  have hread := (List.sublist_append_left _ _).trans (read_append_ahead_sublist h₀ hrun k)
  rw [trace_collected h₀ (.nil p₀) hrun]
  exact hread.filterMap (decodePayload env)

theorem subperm_streamed (hrun : (pipeline env).Run init es p) {k : Nat} {log : List GPUTelemetry}
    (h : log <:+ ((pipeline env).trace (collected env k) init es).flatten) :
    log.Subperm ((pipeline env).trace (streamed env) init es).flatten :=
  (h.sublist.trans (collected_sublist launched_init hrun k)).subperm.trans
    (order_subperm launched_init hrun)

/-- In every run of the pipeline there is one order of records, each streamed and none more often
than it was streamed, of which every sink collects a part in this order, over all its connections
and all its starts, namely what the messages it reads decode to; and its storage is the index of
what it collected since it was started last. -/
theorem total_order_broadcast (hrun : (pipeline env).Run init es p) :
    ∃ order : List GPUTelemetry,
      order.Subperm ((pipeline env).trace (streamed env) init es).flatten ∧
      (∀ k, (((pipeline env).trace (collected env k) init es).flatten).Sublist order ∧
        ((pipeline env).trace (collected env k) init es).flatten =
          ((pipeline env).trace (read k) init es).flatten.filterMap (decodePayload env)) ∧
      ∀ k sink, p.sinks k = some sink →
        ∃ log, SinceStart env k es log ∧ MemoryStorage.Indexes log sink.storage := by
  refine ⟨order env init es, order_subperm launched_init hrun, ?_, indexes_sinceStart hrun⟩
  intro k
  exact ⟨collected_sublist launched_init hrun k, trace_collected launched_init (.nil init) hrun k⟩

def oneEnvironment : Environment where
  codec := .single (Json.object (Api.oneRecord "a").fields) [1]
  parseTime _ := .zero
  parseFloat := Api.parseOne
  decode_empty := rfl

def startSink (k : Nat) : List PipelineEvent :=
  [.startSink k ⟨"gpu_metrics", 100, 1000, 30⟩ "gpu" ⟨"", .ok "node", 0⟩, .connect k "",
    .queue (.handler (.subscribe k))]

def publishOne (j : Nat) (order : List Nat) : List PipelineEvent :=
  [.tick 0 (Api.oneTick "a"), .queue (.publish j "" ⟨0, 0⟩ order)]

def deliver (k i : Nat) (ok : Bool) : List PipelineEvent :=
  [.queue (.handler (.receive i)), .queue (.handler (.send i ok))] ++
    if ok then [.recv k ⟨"batch", ⟨10 ^ 9, 0⟩, none, none, fun _ => none, fun _ => none⟩] else []

/-- The second sink misses the first record, and the first one receives the second record on
another connection. -/
def twoSinks : List PipelineEvent :=
  .startStreamer 0 ⟨1⟩ :: startSink 0 ++ startSink 1 ++ publishOne 0 [1, 0] ++ deliver 0 0 true ++
    deliver 1 1 false ++ [.queue (.acknowledge 0), .giveUp 0, .connect 0 "",
      .queue (.handler (.subscribe 2))] ++ publishOne 1 [0, 2, 1] ++ deliver 1 1 true ++
    deliver 0 2 true

/-- Then the first sink is started again, and receives a third record. -/
def restarted : List PipelineEvent :=
  twoSinks ++ [.startSink 0 ⟨"gpu_metrics", 100, 1000, 30⟩ "gpu" ⟨"", .ok "node", 0⟩,
    .connect 0 "", .queue (.handler (.subscribe 3))] ++ publishOne 2 [3, 0, 1, 2] ++
    deliver 0 3 true

theorem total_order_broadcast_restarted : ∃ p sink,
    (pipeline oneEnvironment).Run init restarted p ∧ p.sinks 0 = some sink ∧
    ((pipeline oneEnvironment).trace (collected oneEnvironment 0) init restarted).length = 3 ∧
    ((pipeline oneEnvironment).trace (collected oneEnvironment 1) init restarted).length = 1 ∧
    sink.storage.telemetry.lookup "a" = some [Api.oneRecord "a"] ∧
    (∃ order : List GPUTelemetry, order.Subperm
        ((pipeline oneEnvironment).trace (streamed oneEnvironment) init restarted).flatten ∧
      ∀ k, (((pipeline oneEnvironment).trace (collected oneEnvironment k) init
        restarted).flatten).Sublist order) ∧
    ∃ log, SinceStart oneEnvironment 0 restarted log ∧ MemoryStorage.Indexes log sink.storage := by
  obtain ⟨p, hrun, hstored⟩ := Machine.exists_run (M := pipeline oneEnvironment)
    (fun p => ∃ sink ∈ p.sinks 0,
      sink.storage.telemetry.lookup "a" = some [Api.oneRecord "a"]) init restarted
    (by decide +kernel)
  obtain ⟨sink, hsink, hlookup⟩ := hstored
  obtain ⟨order, hstreamed, hcollected, hstorage⟩ := total_order_broadcast hrun
  exact ⟨p, sink, hrun, hsink, by decide +kernel, by decide +kernel, hlookup,
    ⟨order, hstreamed, fun k => (hcollected k).1⟩, hstorage 0 sink hsink⟩

end Pipeline

end GpuTel
