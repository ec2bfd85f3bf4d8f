import GpuTel.Telemetry.StreamerLoop

/-!
# The process of the streamer

`main` from the moment when the streamer is made. It calls `Start` with a context that it cancels
when it returns, and registers for signals when `Start` has returned, to call `Stop` for one.
-/

set_option autoImplicit false

namespace GpuTel.Telemetry

open Streamer Transition

/-- Where `main` is. A signal that it has not registered for ends the process. -/
inductive ProcessPhase where
  | starting
  | registering
  | waiting
  | stopping
  | complete
  | fatal (f : Fatal)
  | killed
  deriving DecidableEq, Repr

def ProcessPhase.ended : ProcessPhase → Bool
  | .complete | .fatal _ | .killed => true
  | _ => false

def ProcessPhase.registered : ProcessPhase → Bool
  | .waiting | .stopping => true
  | _ => false

structure StreamerProcess where
  loop : Streamer.Started
  phase : ProcessPhase
  signalled : Bool

inductive ProcessEvent where
  | signal
  | loop (e : Streamer.LoopEvent)
  | startReturned
  | notify
  | received
  | stop
  | closeConn (err : Option String)

namespace StreamerProcess

def init (s : Streamer) (streamInterval : Int) : StreamerProcess :=
  ⟨.new s streamInterval, .starting, false⟩

/-- The steps of the streamer that are not calls of `main`. Its context is not done before `main`
returns. -/
def Inside : LoopEvent → Prop
  | .ctxDone _ | .stop | .closeConn _ => False
  | _ => True

instance : DecidablePred Inside
  | .ctxDone _ | .stop | .closeConn _ => .isFalse fun h => h
  | .start | .fire | .exitCtx | .exitDone | .select | .process _ => .isTrue trivial

def loopEvent : ProcessEvent → Option LoopEvent
  | .loop e => some e
  | .stop => some .stop
  | .closeConn err => some (.closeConn err)
  | .signal | .startReturned | .notify | .received => none

/-- What `main` does when `Start` has returned `err`. -/
def afterStart : Option String → ProcessPhase
  | some err => .fatal ⟨"Failed to start streamer", err⟩
  | none => .registering

def startErr : StartPhase → Option (Option String)
  | .returned err => some err
  | _ => none

def nextPhase (m : StreamerProcess) : ProcessEvent → ProcessPhase
  | .signal => if m.phase.registered then m.phase else .killed
  | .loop _ | .stop => m.phase
  | .startReturned => (startErr m.loop.phase).elim m.phase afterStart
  | .notify => .waiting
  | .received => .stopping
  | .closeConn _ => .complete

def phaseGuard (m : StreamerProcess) : ProcessEvent → Prop
  | .signal => True
  | .loop e => Inside e
  | .startReturned => m.phase = .starting ∧ startErr m.loop.phase ≠ none
  | .notify => m.phase = .registering
  | .received => m.phase = .waiting ∧ m.signalled = true
  | .stop | .closeConn _ => m.phase = .stopping

instance (m : StreamerProcess) : (e : ProcessEvent) → Decidable (m.phaseGuard e)
  | .signal => .isTrue trivial
  | .loop e => inferInstanceAs (Decidable (Inside e))
  | .notify | .stop | .closeConn _ => inferInstanceAs (Decidable (_ = _))
  | .startReturned | .received => inferInstanceAs (Decidable (_ ∧ _))

/-- Nothing happens once the process is over. -/
def guard (m : StreamerProcess) (e : ProcessEvent) : Prop :=
  m.phase.ended = false ∧ m.phaseGuard e ∧ ∀ d ∈ loopEvent e, m.loop.guard d

instance (m : StreamerProcess) (e : ProcessEvent) : Decidable (m.guard e) :=
  inferInstanceAs (Decidable (_ ∧ _ ∧ _))

def exec (lib : Library) (m : StreamerProcess) (e : ProcessEvent) :
    Except Crash StreamerProcess := do
  let loop ← (loopEvent e).elim (.ok m.loop) (m.loop.exec lib)
  .ok { loop := loop
        phase := m.nextPhase e
        signalled := match e with
          | .signal => true
          | _ => m.signalled }

end StreamerProcess

def streamerProcess (lib : Library) : Machine StreamerProcess ProcessEvent Crash :=
  ⟨StreamerProcess.guard, StreamerProcess.exec lib⟩

instance (lib : Library) (m : StreamerProcess) (e : ProcessEvent) :
    Decidable ((streamerProcess lib).guard m e) :=
  inferInstanceAs (Decidable (m.guard e))

namespace StreamerProcess

variable {lib : Library} {m n : StreamerProcess} {e : ProcessEvent} {es : List ProcessEvent}
variable {s₀ : Streamer} {streamInterval : Int}

theorem step_loop (hst : (streamerProcess lib).Step m e n) :
    (loopEvent e).elim (.ok m.loop) (m.loop.exec lib) = .ok n.loop ∧ n.phase = m.nextPhase e := by
  have hexec : m.exec lib e = .ok n := hst.2
  unfold exec at hexec
  cases hloop : (loopEvent e).elim (.ok m.loop) (m.loop.exec lib) with
  | error crash => simp [hloop, bind, Except.bind] at hexec
  | ok loop =>
    simp only [hloop, bind, Except.bind] at hexec
    obtain rfl := Except.ok.inj hexec
    exact ⟨rfl, rfl⟩

def toLoop (lib : Library) : Simulation (streamerProcess lib) (streamerLoop lib) where
  state := StreamerProcess.loop
  label _ := loopEvent
  stutter := by
    intro m e n hst hlabel
    obtain ⟨hloop, -⟩ := step_loop hst
    rw [hlabel] at hloop
    exact (Except.ok.inj hloop).symm
  step := by
    intro m e n d hst hlabel
    obtain ⟨hloop, -⟩ := step_loop hst
    rw [hlabel] at hloop
    exact ⟨hst.1.2.2 d hlabel, hloop⟩

/-- Nothing has happened that would end the loop. -/
structure Uninterrupted (s : Streamer.Started) : Prop where
  opened : s.done.closed = false
  ctxErr : s.ctxErr = none
  unreturned : startErr s.phase = none

theorem uninterrupted_step {s t : Streamer.Started} {d : LoopEvent} (h : Uninterrupted s)
    (hinside : Inside d) (hst : (streamerLoop lib).Step s d t) : Uninterrupted t := by
  cases moves_of_step hst with
  | ctxDone => exact hinside.elim
  | stop => exact hinside.elim
  | closeConn => exact hinside.elim
  | exitCtx hphase hdone => exact absurd h.ctxErr hdone
  | exitDone hphase hclosed =>
    rw [h.opened] at hclosed
    cases hclosed
  | fire => exact ⟨h.opened, h.ctxErr, h.unreturned⟩
  | start | select | process => exact ⟨h.opened, h.ctxErr, rfl⟩

structure NotPast (m : StreamerProcess) : Prop where
  phase : m.phase = .starting ∨ m.phase = .killed
  loop : Uninterrupted m.loop

def Later : ProcessEvent → Prop
  | .startReturned | .notify | .received | .stop | .closeConn _ => True
  | .signal | .loop _ => False

theorem not_later (h : m.NotPast) (hguard : m.guard e) : ¬ Later e := by
  intro hlater
  have hphase := h.phase
  have hphaseGuard : m.phaseGuard e := hguard.2.1
  cases e with
  | startReturned => exact hphaseGuard.2 h.loop.unreturned
  | notify => simp [show m.phase = .registering from hphaseGuard] at hphase
  | received => simp [show m.phase = .waiting from hphaseGuard.1] at hphase
  | stop => simp [show m.phase = .stopping from hphaseGuard] at hphase
  | closeConn err => simp [show m.phase = .stopping from hphaseGuard] at hphase
  | signal => exact hlater
  | loop d => exact hlater

theorem starting_of_guard (h : m.NotPast) (hguard : m.guard e) : m.phase = .starting := by
  rcases h.phase with hstarting | hkilled
  · exact hstarting
  · have hended : m.phase.ended = false := hguard.1
    rw [hkilled] at hended
    cases hended

theorem notPast_step (h : m.NotPast) (hst : (streamerProcess lib).Step m e n) :
    n.NotPast ∧ (n.phase = .killed ↔ e = .signal) := by
  obtain ⟨-, hphase⟩ := step_loop hst
  have hstarting := starting_of_guard h hst.1
  have hnot := not_later h hst.1
  cases e with
  | signal =>
    have hkilled : n.phase = .killed := by
      rw [hphase]
      simp [nextPhase, hstarting, ProcessPhase.registered]
    have hsame : n.loop = m.loop := (toLoop lib).stutter hst rfl
    exact ⟨⟨Or.inr hkilled, hsame ▸ h.loop⟩, by simp [hkilled]⟩
  | loop d =>
    have hstay : n.phase = .starting := hphase.trans hstarting
    have hloop := uninterrupted_step h.loop hst.1.2.1 ((toLoop lib).step hst rfl)
    exact ⟨⟨Or.inl hstay, hloop⟩, by simp [hstay]⟩
  | _ => exact (hnot trivial).elim

theorem notPast_run (hrun : (streamerProcess lib).Run (init s₀ streamInterval) es m) :
    m.NotPast ∧ (∀ e ∈ es, ¬ Later e) ∧ (m.phase = .killed ↔ .signal ∈ es) := by
  refine hrun.history (H := fun es m => m.NotPast ∧ (∀ e ∈ es, ¬ Later e) ∧
    (m.phase = .killed ↔ .signal ∈ es)) ?_ ?_
  · exact ⟨⟨Or.inl rfl, rfl, rfl, rfl⟩, List.forall_mem_nil _, by simp [init]⟩
  · intro es m e n _ ⟨hm, hearlier, hkilled⟩ hst
    obtain ⟨hn, hkills⟩ := notPast_step hm hst
    have hstarting := starting_of_guard hm hst.1
    refine ⟨hn, ?_, ?_⟩
    · intro f hf
      rcases List.mem_append.mp hf with hold | hnew
      · exact hearlier f hold
      · rw [List.mem_singleton.mp hnew]
        exact not_later hm hst.1
    · have hnone : .signal ∉ es := by
        rw [← hkilled, hstarting]
        simp
      rw [hkills, List.mem_append, List.mem_singleton, or_iff_right hnone, eq_comm]

theorem exec_eq_error {crash : Crash} :
    m.exec lib e = .error crash ↔ ∃ d, loopEvent e = some d ∧ m.loop.exec lib d = .error crash := by
  unfold exec
  cases hd : loopEvent e with
  | none => simp [bind, Except.bind]
  | some d =>
    cases hloop : m.loop.exec lib d with
    | error crash' => simp [hloop, bind, Except.bind]
    | ok loop => simp [hloop, bind, Except.bind]

theorem streamInterval_step {s t : Streamer.Started} {d : LoopEvent}
    (hst : (streamerLoop lib).Step s d t) : t.streamInterval = s.streamInterval := by
  cases moves_of_step hst <;> rfl

theorem tick_crashes_iff {b : Int64} {s : Streamer.Started} {u : Streamer} {tick : Tick}
    (hready : Ready b s.streamer) (hload : ensureLoaded lib s.streamer tick.file = .ok (.ok u))
    (hfits : u.metrics.length < 2 ^ 62) :
    (∃ crash, s.exec lib (.process tick) = .error crash) ↔ b.toInt < 0 := by
  have hloaded := ready_loaded lib hready hload
  have hsum := hloaded.add_lt hfits
  have hin := hloaded.inBounds_iff (by omega)
  constructor
  · rintro ⟨crash, hcrash⟩
    by_contra hnonneg
    obtain ⟨-, hnone⟩ := (cutsInBounds_iff lib hload (by omega)).mpr (hin.mpr ⟨by omega, hsum⟩)
    cases hok : collectAndProcess lib s.streamer tick with
    | error panic => exact hnone panic hok
    | ok processed => simp [Streamer.Started.exec, hok] at hcrash
  · intro hneg
    have hout : ¬ InBounds u := by
      rw [hin]
      omega
    obtain ⟨panic, hpanic⟩ := exists_panic lib hload hout
    exact ⟨.tick panic, by simp [Streamer.Started.exec, hpanic]⟩

/-- A tick finds its metrics, and they fit into memory. -/
def Loaded (lib : Library) (m : StreamerProcess) : ProcessEvent → Prop
  | .loop (.process tick) => ∃ u, ensureLoaded lib m.loop.streamer tick.file = .ok (.ok u) ∧
      u.metrics.length < 2 ^ 62
  | _ => True

/-- What ends the process under a configuration. -/
def Ends (streamInterval : Int) (batchSize : Int64) : ProcessEvent → Prop
  | .loop .start => streamInterval ≤ 0
  | .loop (.process _) => batchSize.toInt < 0
  | _ => False

theorem crashes_iff {b : Int64} (hready : Ready b m.loop.streamer) (hnot : m.NotPast)
    (hinterval : m.loop.streamInterval = streamInterval) (hguard : m.guard e)
    (hloaded : Loaded lib m e) :
    (∃ crash, m.exec lib e = .error crash) ↔ Ends streamInterval b e := by
  have hlater := not_later hnot hguard
  cases e with
  | signal =>
    simp [exec_eq_error, loopEvent, Ends]
  | loop d =>
    simp only [exec_eq_error, loopEvent, Option.some.injEq, exists_eq_left']
    cases d with
    | start =>
      by_cases hle : m.loop.streamInterval ≤ 0
      · simp [Streamer.Started.exec, Ends, ← hinterval, hle]
      · simp [Streamer.Started.exec, Ends, ← hinterval, hle]
    | process tick =>
      obtain ⟨u, hload, hfits⟩ := hloaded
      exact tick_crashes_iff hready hload hfits
    | stop => exact hguard.2.1.elim
    | _ => simp [Streamer.Started.exec, Ends]
  | _ => exact (hlater trivial).elim

/-- In every run of the streamer's process, whatever signals arrive and whatever its ticks meet:
`main` does not get past the call of `Start`, so that neither the channel that `Stop` would close
nor the context ends the loop. A signal ends the process at once. Otherwise the process ends with
the label that the configuration makes fault: the start for an interval that is not positive, and a
tick that finds its metrics for a negative batch size. -/
theorem never_stops {v : Viper} {dial : String → Option String} {cfg : Config}
    (hcfg : Config.load v "" = .ok cfg) (hmain : main v dial = .ok s₀)
    (hrun : (streamerProcess lib).Run (init s₀ streamInterval) es m) :
    m.NotPast ∧ (∀ e ∈ es, ¬ Later e) ∧ (m.phase = .killed ↔ .signal ∈ es) ∧
      ∀ e, m.guard e → Loaded lib m e →
        ((∃ crash, m.exec lib e = .error crash) ↔
          Ends streamInterval cfg.telemetry.batchSize e) := by
  obtain rfl := main_eq hcfg hmain
  obtain ⟨hnot, hearlier, hkilled⟩ := notPast_run hrun
  have hloop := (toLoop lib).run hrun
  have hready : Ready cfg.telemetry.batchSize m.loop.streamer :=
    ready_run lib (ready_of_start rfl rfl) (ticks_run hloop)
  have hinterval : m.loop.streamInterval = streamInterval := by
    refine hloop.invariant (I := fun t => t.streamInterval = streamInterval) ?_ rfl
    intro s d t hs hst
    exact (streamInterval_step hst).trans hs
  refine ⟨hnot, hearlier, hkilled, ?_⟩
  intro e hguard hloaded
  exact crashes_iff hready hnot hinterval hguard hloaded

def firstTick : List ProcessEvent := [.loop .start, .loop .fire, .loop .select]

theorem never_stops_firstTick : ∃ m,
    (streamerProcess plainLibrary).Run (init ⟨⟨-1⟩, [], 0⟩ 1) firstTick m ∧ m.NotPast ∧
      ∃ crash, m.exec plainLibrary (.loop (.process threeRowsFile)) = .error crash := by
  obtain ⟨m, hrun, hguard, hnil⟩ := Machine.exists_run (M := streamerProcess plainLibrary)
    (fun m => m.guard (.loop (.process threeRowsFile)) ∧ m.loop.streamer.metrics = [])
    (init ⟨⟨-1⟩, [], 0⟩ 1) firstTick (by decide)
  have hcfg : Config.load (sized (-1)) "" = .ok ⟨⟨-1⟩, ⟨"localhost:50051"⟩⟩ := rfl
  obtain ⟨hnot, -, -, hcrash⟩ := never_stops hcfg (main_sized (-1)) hrun
  have hload : ensureLoaded plainLibrary m.loop.streamer threeRowsFile.file =
      .ok (.ok { m.loop.streamer with metrics := threeRows }) := by
    rw [ensureLoaded, if_pos hnil]
    exact loads_threeRowsFile m.loop.streamer hnil
  have hfits : threeRows.length < 2 ^ 62 := by decide
  have hneg : (-1 : Int64).toInt < 0 := by decide
  exact ⟨m, hrun, hnot, (hcrash _ hguard ⟨_, hload, hfits⟩).mpr hneg⟩

end StreamerProcess

end GpuTel.Telemetry
