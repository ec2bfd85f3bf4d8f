import GpuTel.Telemetry.CollectorStop
import GpuTel.Telemetry.StreamerMain

/-!
# The main function of the sink

From the moment when the configuration is loaded, the collector made and the API server started in
its own goroutine. `main` sleeps, calls `Start` with a context that a signal ends, and treats every
error of it as fatal; what follows `Start` is the graceful shutdown.
-/

set_option autoImplicit false

namespace GpuTel.Telemetry

open Collector Transition

/-- Where `main` is. A `Fatal` that is logged ends the process. -/
inductive MainPhase where
  | sleeping
  | starting
  | running
  | shuttingDown
  | stopping
  | draining
  | complete
  | fatal (f : Fatal)
  deriving DecidableEq, Repr

def MainPhase.ended : MainPhase → Bool
  | .complete | .fatal _ => true
  | _ => false

structure SinkMain where
  collector : Collector
  phase : MainPhase
  signalled : Bool

inductive MainEvent where
  | signal
  | apiFailed (err : String)
  | awake (host : Host)
  | collector (e : CollectorEvent)
  | startReturned
  | ctxDone
  | shutdown (err : Option String)
  | stopReturned
  | timeout

namespace SinkMain

def init (config : CollectorConfig) (consumerGroup : String) : SinkMain :=
  ⟨Collector.init config consumerGroup, .sleeping, false⟩

def ctxErr (m : SinkMain) : Option String := if m.signalled then some "context canceled" else none

/-- The steps of the collector that are not calls of `main`. -/
def Inside : CollectorEvent → Prop
  | .start _ _ | .parentDone _ _ | .stop => False
  | _ => True

instance : DecidablePred Inside
  | .start _ _ | .parentDone _ _ | .stop => .isFalse fun h => h
  | .step _ _ | .waited _ | .closeStorage _ | .closeConn _ _ => .isTrue trivial

/-- `main` calls `Start` and `Stop` once at most, so that the first of each is the only one. -/
def collectorEvent (m : SinkMain) : MainEvent → Option CollectorEvent
  | .signal => if m.collector.started = 0 then none else some (.parentDone 0 "context canceled")
  | .awake host => some (.start host m.ctxErr)
  | .collector e => some e
  | .shutdown _ => some .stop
  | .apiFailed _ | .startReturned | .ctxDone | .stopReturned | .timeout => none

/-- What `main` does when `Start` has returned `err`. -/
def afterStart : Option String → MainPhase
  | some err => .fatal ⟨"Failed to start collector", err⟩
  | none => .running

def nextPhase (m : SinkMain) : MainEvent → MainPhase
  | .signal | .collector _ => m.phase
  | .apiFailed err => .fatal ⟨"Failed to start API server", err⟩
  | .awake _ => .starting
  | .startReturned => (m.collector.starts 0).result.elim m.phase afterStart
  | .ctxDone => .shuttingDown
  | .shutdown _ => .stopping
  | .stopReturned => .draining
  | .timeout => .complete

def returned : StopPhase → Bool
  | .returned _ => true
  | _ => false

def phaseGuard (m : SinkMain) : MainEvent → Prop
  | .signal | .apiFailed _ => True
  | .awake _ => m.phase = .sleeping
  | .collector e => Inside e
  | .startReturned => m.phase = .starting ∧ (m.collector.starts 0).result ≠ none
  | .ctxDone => m.phase = .running ∧ m.signalled = true
  | .shutdown _ => m.phase = .shuttingDown
  | .stopReturned => m.phase = .stopping ∧ returned (m.collector.stops 0) = true
  | .timeout => m.phase = .draining

instance (m : SinkMain) : (e : MainEvent) → Decidable (m.phaseGuard e)
  | .signal | .apiFailed _ => .isTrue trivial
  | .awake _ | .shutdown _ | .timeout => inferInstanceAs (Decidable (_ = _))
  | .collector e => inferInstanceAs (Decidable (Inside e))
  | .startReturned | .ctxDone | .stopReturned => inferInstanceAs (Decidable (_ ∧ _))

/-- Nothing happens once the process is over. -/
def guard (m : SinkMain) (e : MainEvent) : Prop :=
  m.phase.ended = false ∧ m.phaseGuard e ∧ ∀ d ∈ m.collectorEvent e, m.collector.guard d

instance (m : SinkMain) (e : MainEvent) : Decidable (m.guard e) :=
  inferInstanceAs (Decidable (_ ∧ _ ∧ _))

def exec (decode : List UInt8 → Option GPUTelemetry) (m : SinkMain) (e : MainEvent) : SinkMain where
  collector := (m.collectorEvent e).elim m.collector (m.collector.exec decode)
  phase := m.nextPhase e
  signalled := match e with
    | .signal => true
    | _ => m.signalled

end SinkMain

def sinkMain (decode : List UInt8 → Option GPUTelemetry) : Machine SinkMain MainEvent Empty :=
  ⟨SinkMain.guard, fun m e => .ok (m.exec decode e)⟩

instance (decode : List UInt8 → Option GPUTelemetry) (m : SinkMain) (e : MainEvent) :
    Decidable ((sinkMain decode).guard m e) :=
  inferInstanceAs (Decidable (m.guard e))

namespace SinkMain

variable {decode : List UInt8 → Option GPUTelemetry} {config : CollectorConfig}
variable {consumerGroup : String} {m n : SinkMain} {e : MainEvent} {es : List MainEvent}

theorem next_eq (hst : (sinkMain decode).Step m e n) : n = m.exec decode e :=
  (Except.ok.inj hst.2).symm

def toCollector (decode : List UInt8 → Option GPUTelemetry) :
    Simulation (sinkMain decode) (Telemetry.collector decode) where
  state := SinkMain.collector
  label := collectorEvent
  stutter := by
    intro m e n hst hlabel
    rw [next_eq hst]
    simp [exec, hlabel]
  step := by
    intro m e n d hst hlabel
    refine ⟨hst.1.2.2 d hlabel, ?_⟩
    rw [next_eq hst]
    simp [exec, hlabel, Telemetry.collector]

structure NotPast (m : SinkMain) : Prop where
  phase : m.phase = .sleeping ∧ m.collector.started = 0 ∨
    m.phase = .starting ∧ m.collector.started = 1 ∨ ∃ f, m.phase = .fatal f
  unstopped : m.collector.stopped = 0
  signalled : m.phase = .starting → m.signalled = true → (m.collector.starts 0).ctxErr ≠ none

theorem collector_of_none (hst : (sinkMain decode).Step m e n) (hd : m.collectorEvent e = none) :
    n.collector = m.collector :=
  (toCollector decode).stutter hst hd

theorem collector_of_some {d : CollectorEvent} (hst : (sinkMain decode).Step m e n)
    (hd : m.collectorEvent e = some d) :
    (Telemetry.collector decode).Step m.collector d n.collector :=
  (toCollector decode).step hst hd

theorem started_step (hst : (sinkMain decode).Step m e n) (he : ∀ host, e ≠ .awake host) :
    n.collector.started = m.collector.started := by
  cases hd : m.collectorEvent e with
  | none => rw [collector_of_none hst hd]
  | some d =>
    apply started_eq_step (collector_of_some hst hd)
    rintro host ctxErr rfl
    cases e with
    | awake host' => exact he host' rfl
    | collector d =>
      obtain rfl := Option.some.inj hd
      exact hst.1.2.1
    | signal =>
      simp only [collectorEvent] at hd
      split at hd <;> simp at hd
    | _ => simp [collectorEvent] at hd

theorem stopped_step (hst : (sinkMain decode).Step m e n) (he : ∀ err, e ≠ .shutdown err) :
    n.collector.stopped = m.collector.stopped := by
  cases hd : m.collectorEvent e with
  | none => rw [collector_of_none hst hd]
  | some d =>
    rw [Collector.next_eq (collector_of_some hst hd)]
    cases d with
    | stop =>
      cases e with
      | shutdown err => exact absurd rfl (he err)
      | collector d =>
        obtain rfl := Option.some.inj hd
        exact hst.1.2.1.elim
      | signal =>
        simp only [collectorEvent] at hd
        split at hd <;> simp at hd
      | _ => simp [collectorEvent] at hd
    | _ => rfl

def Later : MainEvent → Prop
  | .ctxDone | .shutdown _ | .stopReturned | .timeout => True
  | _ => False

theorem not_later (h : m.NotPast) (hst : (sinkMain decode).Step m e n) : ¬ Later e := by
  have hphase : m.phase ≠ .running ∧ m.phase ≠ .shuttingDown ∧ m.phase ≠ .stopping ∧
      m.phase ≠ .draining := by
    rcases h.phase with ⟨heq, -⟩ | ⟨heq, -⟩ | ⟨f, heq⟩ <;> simp [heq]
  have hguard : m.phaseGuard e := hst.1.2.1
  intro hlater
  cases e with
  | ctxDone => exact hphase.1 hguard.1
  | shutdown err => exact hphase.2.1 hguard
  | stopReturned => exact hphase.2.2.1 hguard.1
  | timeout => exact hphase.2.2.2 hguard
  | _ => exact hlater

theorem ctxErr_collector (hnum : m.collector.Numbered) (hstarted : 0 < m.collector.started)
    (hctx : (m.collector.starts 0).ctxErr ≠ none) (hst : (sinkMain decode).Step m e n) :
    (n.collector.starts 0).ctxErr ≠ none := by
  cases hd : m.collectorEvent e with
  | none =>
    rw [collector_of_none hst hd]
    exact hctx
  | some d =>
    have hcollector := collector_of_some hst hd
    cases hlabel : loopLabel 0 m.collector d with
    | none =>
      rw [starts_of_none hcollector hlabel]
      exact hctx
    | some l =>
      exact (done_step ⟨hnum.begun 0 hstarted, hctx⟩ (starts_of_some hcollector hlabel)).1.2

theorem ctxErr_signal (hstarted : m.collector.started = 1)
    (hst : (sinkMain decode).Step m .signal n) : (n.collector.starts 0).ctxErr ≠ none := by
  have hd : m.collectorEvent .signal = some (.parentDone 0 "context canceled") := by
    simp [collectorEvent, hstarted]
  have hlabel : loopLabel 0 m.collector (.parentDone 0 "context canceled") =
      some (.ctxDone "context canceled") := loopLabel_eq_some.mpr rfl
  rw [eq_exec (starts_of_some (collector_of_some hst hd) hlabel)]
  simp [Started.exec]

theorem ctxErr_awake {host : Host} (hstarted : m.collector.started = 0)
    (hsignalled : m.signalled = true) (hst : (sinkMain decode).Step m (.awake host) n) :
    (n.collector.starts 0).ctxErr ≠ none := by
  have hlabel : loopLabel 0 m.collector (.start host m.ctxErr) =
      some (.start (consumerID m.collector.consumerGroup host) m.ctxErr) := by
    rw [loopLabel_eq_some]
    simp [addressed, hstarted]
  rw [eq_exec (starts_of_some (collector_of_some hst rfl) hlabel)]
  simp [Started.exec, ctxErr, hsignalled]

theorem phase_step (hst : (sinkMain decode).Step m e n) : n.phase = m.nextPhase e := by
  rw [next_eq hst]
  rfl

theorem signalled_step (hst : (sinkMain decode).Step m e n) (he : e ≠ .signal) :
    n.signalled = m.signalled := by
  rw [next_eq hst]
  cases e with
  | signal => exact absurd rfl he
  | _ => rfl

theorem NotPast.alive (h : m.NotPast) (halive : m.phase.ended = false) :
    m.phase = .sleeping ∧ m.collector.started = 0 ∨
      m.phase = .starting ∧ m.collector.started = 1 := by
  rcases h.phase with hsleeping | hstarting | ⟨f, hfatal⟩
  · exact Or.inl hsleeping
  · exact Or.inr hstarting
  · simp [hfatal, MainPhase.ended] at halive

theorem NotPast.of_fatal {f : Fatal} (hphase : m.phase = .fatal f)
    (hstopped : m.collector.stopped = 0) : m.NotPast :=
  ⟨Or.inr (Or.inr ⟨f, hphase⟩), hstopped, fun hstarting => by simp [hphase] at hstarting⟩

theorem fatal_of_startReturned (hloop : (m.collector.starts 0).ReturnsCtxErr)
    (hst : (sinkMain decode).Step m .startReturned n) : ∃ f, n.phase = .fatal f := by
  have hguard : m.phaseGuard .startReturned := hst.1.2.1
  obtain ⟨r, hr⟩ := Option.ne_none_iff_exists'.mp hguard.2
  obtain ⟨heq, hdone⟩ := hloop.start r hr
  obtain ⟨err, rfl⟩ := Option.ne_none_iff_exists'.mp (heq ▸ hdone)
  refine ⟨⟨"Failed to start collector", err⟩, ?_⟩
  rw [phase_step hst]
  simp [nextPhase, hr, afterStart]

theorem notPast_step (h : m.NotPast) (hnum : m.collector.Numbered)
    (hloop : (m.collector.starts 0).ReturnsCtxErr) (hst : (sinkMain decode).Step m e n) :
    n.NotPast := by
  have hlater := not_later h hst
  have hfrom := h.alive hst.1.1
  have hphase := phase_step hst
  have hstopped : n.collector.stopped = 0 := by
    rw [stopped_step hst]
    · exact h.unstopped
    · rintro err rfl
      exact hlater trivial
  cases e with
  | signal =>
    have hstarted := started_step hst (by simp)
    refine ⟨?_, hstopped, ?_⟩
    · rw [hphase, hstarted]
      exact hfrom.imp_right Or.inl
    · intro hstarting _
      rcases hfrom with ⟨hsleeping, -⟩ | ⟨-, hone⟩
      · rw [hphase] at hstarting
        simp [nextPhase, hsleeping] at hstarting
      · exact ctxErr_signal hone hst
  | collector d =>
    have hstarted := started_step hst (by simp)
    refine ⟨?_, hstopped, ?_⟩
    · rw [hphase, hstarted]
      exact hfrom.imp_right Or.inl
    · intro hstarting hsig
      rw [hphase] at hstarting
      rw [signalled_step hst (by simp)] at hsig
      rcases hfrom with ⟨hsleeping, -⟩ | ⟨-, hone⟩
      · simp [nextPhase, hsleeping] at hstarting
      · exact ctxErr_collector hnum (by omega) (h.signalled hstarting hsig) hst
  | awake host =>
    have hsleeping : m.phase = .sleeping := hst.1.2.1
    have hzero : m.collector.started = 0 := by
      rcases hfrom with ⟨-, hzero⟩ | ⟨hstarting, -⟩
      · exact hzero
      · simp [hsleeping] at hstarting
    refine ⟨Or.inr (Or.inl ⟨hphase, ?_⟩), hstopped, ?_⟩
    · rw [Collector.next_eq (collector_of_some hst rfl)]
      simp [Collector.exec, hzero]
    · intro _ hsig
      rw [signalled_step hst (by simp)] at hsig
      exact ctxErr_awake hzero hsig hst
  | apiFailed err => exact .of_fatal hphase hstopped
  | startReturned =>
    obtain ⟨f, hfatal⟩ := fatal_of_startReturned hloop hst
    exact .of_fatal hfatal hstopped
  | _ => exact absurd trivial hlater

theorem collector_run (hrun : (sinkMain decode).Run (init config consumerGroup) es m) :
    ∃ cs, (Telemetry.collector decode).Run (Collector.init config consumerGroup) cs m.collector :=
  ⟨_, (toCollector decode).run hrun⟩

theorem returnsCtxErr (hrun : (sinkMain decode).Run (init config consumerGroup) es m) :
    (m.collector.starts 0).ReturnsCtxErr := by
  obtain ⟨cs, hcs⟩ := collector_run hrun
  exact returnsCtxErr_run ((toLoop decode 0).run hcs)

theorem notPast_run (hrun : (sinkMain decode).Run (init config consumerGroup) es m) :
    m.NotPast := by
  refine hrun.history (H := fun _ m => m.NotPast) ⟨Or.inl ⟨rfl, rfl⟩, rfl, fun h => by cases h⟩ ?_
  intro es m e n hm h hst
  obtain ⟨cs, hcs⟩ := collector_run hm
  exact notPast_step h (numbered_run hcs) (returnsCtxErr hm) hst

theorem forall_not_later (hrun : (sinkMain decode).Run (init config consumerGroup) es m) :
    ∀ e ∈ es, ¬ Later e := by
  refine hrun.history (H := fun es _ => ∀ e ∈ es, ¬ Later e) (List.forall_mem_nil _) ?_
  intro es m e n hm ih hst f hf
  rcases List.mem_append.mp hf with hold | hnew
  · exact ih f hold
  · rw [List.mem_singleton.mp hnew]
    exact not_later (notPast_run hm) hst

variable (decode) in
theorem step_startReturned {err : String} (hphase : m.phase = .starting)
    (hresult : (m.collector.starts 0).result = some (some err)) :
    (sinkMain decode).Step m .startReturned (m.exec decode .startReturned) ∧
      (m.exec decode .startReturned).phase = .fatal ⟨"Failed to start collector", err⟩ := by
  refine ⟨⟨⟨by simp [hphase, MainPhase.ended], ⟨hphase, by simp [hresult]⟩, ?_⟩, rfl⟩, ?_⟩
  · intro d hd
    cases hd
  · simp [exec, nextPhase, hresult, afterStart]

variable (decode) in
theorem step_returnDone (hphase : m.phase = .starting) (hstarted : m.collector.started = 1)
    (hnum : m.collector.Numbered) (hctx : (m.collector.starts 0).ctxErr ≠ none)
    (hresult : (m.collector.starts 0).result = none) :
    (sinkMain decode).Step m (.collector (.step 0 .returnDone))
      (m.exec decode (.collector (.step 0 .returnDone))) := by
  have hzero : 0 < m.collector.started := by omega
  refine ⟨⟨by simp [hphase, MainPhase.ended], trivial, ?_⟩, rfl⟩
  rintro d hd
  obtain rfl := Option.some.inj hd
  refine ⟨⟨hzero, trivial⟩, ?_⟩
  rintro x hx
  obtain rfl := Option.some.inj hx
  exact ⟨hnum.begun 0 hzero, hctx, hresult⟩

variable (decode) in
theorem step_awake (host : Host) (hphase : m.phase = .sleeping) (hnum : m.collector.Numbered) :
    (sinkMain decode).Step m (.awake host) (m.exec decode (.awake host)) := by
  refine ⟨⟨by simp [hphase, MainPhase.ended], hphase, ?_⟩, rfl⟩
  rintro d hd
  obtain rfl := Option.some.inj hd
  refine ⟨trivial, ?_⟩
  rintro x hx
  obtain rfl := Option.some.inj hx
  exact congrArg Started.phase (hnum.fresh _ (Nat.le_refl _))

variable (decode) in
theorem fatal_of_starting (h : m.NotPast) (hnum : m.collector.Numbered)
    (hloop : (m.collector.starts 0).ReturnsCtxErr) (hstarting : m.phase = .starting)
    (hsig : m.signalled = true) : ∃ fs t err, (sinkMain decode).Run m fs t ∧ fs.length ≤ 2 ∧
      (∀ f ∈ fs, f = .collector (.step 0 .returnDone) ∨ f = .startReturned) ∧
      t.phase = .fatal ⟨"Failed to start collector", err⟩ ∧
      (t.collector.starts 0).phase = (m.collector.starts 0).phase := by
  have hctx := h.signalled hstarting hsig
  have hone : m.collector.started = 1 := by
    rcases h.phase with ⟨heq, -⟩ | ⟨-, hone⟩ | ⟨f, heq⟩
    · simp [hstarting] at heq
    · exact hone
    · simp [hstarting] at heq
  cases hresult : (m.collector.starts 0).result with
  | some r =>
    obtain ⟨heq, hdone⟩ := hloop.start r hresult
    obtain ⟨err, rfl⟩ := Option.ne_none_iff_exists'.mp (heq ▸ hdone)
    obtain ⟨hst, hfatal⟩ := step_startReturned decode hstarting hresult
    exact ⟨_, _, err, .single hst, by simp, by simp, hfatal, rfl⟩
  | none =>
    obtain ⟨err, herr⟩ := Option.ne_none_iff_exists'.mp hctx
    have hfirst := step_returnDone decode hstarting hone hnum hctx hresult
    have hreturned : ((m.exec decode (.collector (.step 0 .returnDone))).collector.starts
        0).result = some (some err) := by
      simp [exec, collectorEvent, Collector.exec, addressed, Started.exec, herr]
    have hwaiting : (m.exec decode (.collector (.step 0 .returnDone))).phase = .starting :=
      hstarting
    obtain ⟨hst, hfatal⟩ := step_startReturned decode hwaiting hreturned
    refine ⟨_, _, err, .cons hfirst (.single hst), by simp, by simp, hfatal, ?_⟩
    simp [exec, collectorEvent, Collector.exec, addressed, Started.exec]

/-- In every run, `main` never gets past `Start`: the process ends by a `Fatal`, if at all, and
neither the API server is shut down nor the collector stopped. Once `main` is in `Start`, after a
signal the end is two steps away at most, both of `main` itself, wherever the goroutine is: it is
not waited for. If it still sleeps, the end of its sleep comes first. -/
theorem shutdown_unreachable (hrun : (sinkMain decode).Run (init config consumerGroup) es m) :
    (m.phase = .sleeping ∨ m.phase = .starting ∨ ∃ f, m.phase = .fatal f) ∧
    m.collector.stopped = 0 ∧ (∀ e ∈ es, ¬ Later e) ∧
    (m.phase = .starting → m.signalled = true → ∃ fs t err, (sinkMain decode).Run m fs t ∧
      fs.length ≤ 2 ∧ (∀ f ∈ fs, f = .collector (.step 0 .returnDone) ∨ f = .startReturned) ∧
      t.phase = .fatal ⟨"Failed to start collector", err⟩ ∧
      (t.collector.starts 0).phase = (m.collector.starts 0).phase) ∧
    (m.phase = .sleeping → m.signalled = true → ∀ host, ∃ fs t err,
      (sinkMain decode).Run m (.awake host :: fs) t ∧ fs.length ≤ 2 ∧
      (∀ f ∈ fs, f = .collector (.step 0 .returnDone) ∨ f = .startReturned) ∧
      t.phase = .fatal ⟨"Failed to start collector", err⟩) := by
  have h := notPast_run hrun
  obtain ⟨cs, hcs⟩ := collector_run hrun
  refine ⟨?_, h.unstopped, forall_not_later hrun,
    fatal_of_starting decode h (numbered_run hcs) (returnsCtxErr hrun), ?_⟩
  · rcases h.phase with ⟨hsleeping, -⟩ | ⟨hstarting, -⟩ | hfatal
    · exact Or.inl hsleeping
    · exact Or.inr (Or.inl hstarting)
    · exact Or.inr (Or.inr hfatal)
  · intro hsleeping hsig host
    have hawake := step_awake decode host hsleeping (numbered_run hcs)
    have hrun' := hrun.snoc hawake
    obtain ⟨cs', hcs'⟩ := collector_run hrun'
    obtain ⟨fs, t, err, hfs, hlen, hsteps, hfatal, -⟩ := fatal_of_starting decode
      (notPast_run hrun') (numbered_run hcs') (returnsCtxErr hrun') rfl hsig
    exact ⟨fs, t, err, .cons hawake hfs, hlen, hsteps, hfatal⟩

def interrupted : List MainEvent :=
  [.awake ⟨"node", .ok "", 0⟩, .collector (.step 0 .poll),
    .collector (.step 0 (.subscribe ⟨none, none, none⟩)), .collector (.step 0 .select),
    .collector (.step 0 (.recv ⟨[⟨"m", "t", [], none⟩], false⟩)), .signal]

theorem shutdown_unreachable_interrupted : ∃ m fs t err,
    (sinkMain oneRecord).Run (init ⟨"t", 1, 1, 1⟩ "gpu") interrupted m ∧ m.phase = .starting ∧
    (sinkMain oneRecord).Run m fs t ∧ t.phase = .fatal ⟨"Failed to start collector", err⟩ ∧
    (t.collector.starts 0).phase = .processing ⟨[⟨"m", "t", [], none⟩], false⟩ := by
  obtain ⟨m, hrun, hstarting, hsig, hphase⟩ := Machine.exists_run (M := sinkMain oneRecord)
    (fun m => m.phase = .starting ∧ m.signalled = true ∧
      (m.collector.starts 0).phase = .processing ⟨[⟨"m", "t", [], none⟩], false⟩)
    (init ⟨"t", 1, 1, 1⟩ "gpu") interrupted (by decide)
  obtain ⟨-, -, -, hend, -⟩ := shutdown_unreachable hrun
  obtain ⟨fs, t, err, hfs, -, -, hfatal, hsame⟩ := hend hstarting hsig
  exact ⟨m, fs, t, err, hrun, hstarting, hfs, hfatal, hsame.trans hphase⟩

end SinkMain

end GpuTel.Telemetry
