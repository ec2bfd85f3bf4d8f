import GpuTel.Telemetry.CollectorLoop
import GpuTel.Telemetry.StorageQueries
import Mathlib.Algebra.Order.BigOperators.Group.Finset

/-!
# Starting and stopping a collector

Any number of calls of `Start` and `Stop`, side by side. `Stop` cancels the context of the newest
`Start`, waits until no goroutine is running, and only then closes the storage and the connection.
-/

set_option autoImplicit false

namespace GpuTel.Telemetry

open Transition

namespace Collector

/-- Where a call of `Stop` is. -/
inductive StopPhase where
  | idle
  | waiting
  | closing
  | closed
  | returned (err : Option String)
  deriving DecidableEq, Repr

end Collector

/-- The calls of `Start` and `Stop` are numbered. The wait group counts the goroutines that have not
returned, and `cancel` is that of the last `Start`. -/
structure Collector where
  config : CollectorConfig
  consumerGroup : String
  storage : MemoryStorage
  starts : Nat → Collector.Started
  started : Nat
  stops : Nat → Collector.StopPhase
  stopped : Nat

inductive CollectorEvent where
  | start (host : Host) (ctxErr : Option String)
  | parentDone (i : Nat) (err : String)
  | step (i : Nat) (e : Collector.LoopEvent)
  | stop
  | waited (j : Nat)
  | closeStorage (j : Nat)
  | closeConn (j : Nat) (err : Option String)

namespace Collector

def init (config : CollectorConfig) (consumerGroup : String) : Collector :=
  ⟨config, consumerGroup, .newMemoryStorage, fun _ => .new, 0, fun _ => .idle, 0⟩

/-- The labels of a goroutine that no other label stands for. `MemoryStorage.Store` returns no
error. -/
def Inner : LoopEvent → Prop
  | .start _ _ | .ctxDone _ => False
  | .process reply => reply.store = none
  | _ => True

instance : DecidablePred Inner
  | .start _ _ | .ctxDone _ => .isFalse fun h => h
  | .process reply => inferInstanceAs (Decidable (reply.store = none))
  | .poll | .subscribe _ | .select | .leave _ | .recv _ | .fail _ _ | .retry | .exit | .returnErr
  | .returnDone => .isTrue trivial

/-- What a label is to one of the calls of `Start`. -/
def addressed (c : Collector) : CollectorEvent → Option (Nat × LoopEvent)
  | .start host ctxErr => some (c.started, .start (consumerID c.consumerGroup host) ctxErr)
  | .parentDone i err => some (i, .ctxDone err)
  | .step i e => some (i, e)
  | .stop => if c.started = 0 then none else some (c.started - 1, .ctxDone "context canceled")
  | .waited _ | .closeStorage _ | .closeConn _ _ => none

/-- `MemoryStorage.Close` returns no error. -/
def stopMove (c : Collector) : CollectorEvent → Option (Nat × StopPhase)
  | .stop => some (c.stopped, .waiting)
  | .waited j => some (j, .closing)
  | .closeStorage j => some (j, .closed)
  | .closeConn j err => some (j, .returned (err.map ("error closing gRPC connection: " ++ ·)))
  | .start _ _ | .parentDone _ _ | .step _ _ => none

def Quiet (c : Collector) : Prop := ∀ i < c.started, (c.starts i).phase.outcome ≠ none

instance (c : Collector) : Decidable c.Quiet := inferInstanceAs (Decidable (∀ i < c.started, _))

def callGuard (c : Collector) : CollectorEvent → Prop
  | .start _ _ | .stop => True
  | .parentDone i _ => i < c.started
  | .step i e => i < c.started ∧ Inner e
  | .waited j => c.stops j = .waiting ∧ c.Quiet
  | .closeStorage j => c.stops j = .closing
  | .closeConn j _ => c.stops j = .closed

instance (c : Collector) : (e : CollectorEvent) → Decidable (c.callGuard e)
  | .start _ _ | .stop => .isTrue trivial
  | .parentDone i _ => inferInstanceAs (Decidable (i < c.started))
  | .step i e => inferInstanceAs (Decidable (i < c.started ∧ Inner e))
  | .waited j => inferInstanceAs (Decidable (c.stops j = .waiting ∧ c.Quiet))
  | .closeStorage _ | .closeConn _ _ => inferInstanceAs (Decidable (_ = _))

def guard (c : Collector) (e : CollectorEvent) : Prop :=
  c.callGuard e ∧ ∀ x ∈ c.addressed e, (c.starts x.1).guard x.2

instance (c : Collector) (e : CollectorEvent) : Decidable (c.guard e) :=
  inferInstanceAs (Decidable (c.callGuard e ∧ ∀ x ∈ c.addressed e, (c.starts x.1).guard x.2))

section Decode

variable (decode : List UInt8 → Option GPUTelemetry)

/-- The calls to the storage and the queue. -/
def made (c : Collector) : CollectorEvent → List Call
  | .step i e => (c.starts i).calls decode c.config e
  | _ => []

def nextStorage (c : Collector) : CollectorEvent → MemoryStorage
  | .closeStorage _ => c.storage.close
  | e => ((c.made decode e).filterMap Call.stored).foldl MemoryStorage.store c.storage

def exec (c : Collector) (e : CollectorEvent) : Collector where
  config := c.config
  consumerGroup := c.consumerGroup
  storage := c.nextStorage decode e
  starts := (c.addressed e).elim c.starts fun x =>
    Function.update c.starts x.1 ((c.starts x.1).exec x.2)
  started := match e with
    | .start _ _ => c.started + 1
    | _ => c.started
  stops := (c.stopMove e).elim c.stops fun x => Function.update c.stops x.1 x.2
  stopped := match e with
    | .stop => c.stopped + 1
    | _ => c.stopped

end Decode

end Collector

def collector (decode : List UInt8 → Option GPUTelemetry) :
    Machine Collector CollectorEvent Empty :=
  ⟨Collector.guard, fun c e => .ok (c.exec decode e)⟩

instance (decode : List UInt8 → Option GPUTelemetry) (c : Collector) (e : CollectorEvent) :
    Decidable ((collector decode).guard c e) :=
  inferInstanceAs (Decidable (c.guard e))

namespace Collector

section Goroutine

variable {s t : Started} {e : LoopEvent}

theorem phase_ne_idle (hst : collectorLoop.Step s e t) : t.phase ≠ .idle := by
  have hguard : s.guard e := hst.1
  obtain rfl := eq_exec hst
  cases e with
  | ctxDone err => exact hguard
  | subscribe opening =>
    cases hopening : Started.openingErr opening <;> simp [Started.exec, hopening]
  | returnErr =>
    intro hidle
    exact hguard.1 (by rw [show s.phase = .idle from hidle]; rfl)
  | returnDone => exact hguard.1
  | _ => simp [Started.exec]

theorem returned_step (h : s.phase.outcome ≠ none) (hst : collectorLoop.Step s e t) :
    t.phase = s.phase ∧ ∀ decode config, s.calls decode config e = [] := by
  have hguard : s.guard e := hst.1
  obtain rfl := eq_exec hst
  cases hphase : s.phase with
  | returned err =>
    cases e with
    | ctxDone err => exact ⟨hphase, fun _ _ => rfl⟩
    | returnErr => exact ⟨hphase, fun _ _ => rfl⟩
    | returnDone => exact ⟨hphase, fun _ _ => rfl⟩
    | _ => simp [Started.guard, Phase.response, hphase] at hguard
  | _ => simp [Phase.outcome, hphase] at h

end Goroutine

variable {decode : List UInt8 → Option GPUTelemetry} {config : CollectorConfig}
variable {consumerGroup : String} {c d : Collector} {e : CollectorEvent} {es : List CollectorEvent}

theorem next_eq (hst : (collector decode).Step c e d) : d = c.exec decode e :=
  (Except.ok.inj hst.2).symm

/-- What a label is to the call `i` of `Start`. -/
def loopLabel (i : Nat) (c : Collector) (e : CollectorEvent) : Option LoopEvent :=
  (c.addressed e).bind fun x => if x.1 = i then some x.2 else none

theorem loopLabel_eq_some {i : Nat} {l : LoopEvent} :
    loopLabel i c e = some l ↔ c.addressed e = some (i, l) := by
  unfold loopLabel
  constructor
  · intro h
    obtain ⟨⟨j, l'⟩, hx, hl⟩ := Option.bind_eq_some_iff.mp h
    split at hl
    · rename_i hj
      simp only at hj
      rw [hx, ← Option.some.inj hl, hj]
    · cases hl
  · intro h
    simp [h]

/-- Each call of `Start`, in the middle of all the others, goes through a run of `collectorLoop`. -/
def toLoop (decode : List UInt8 → Option GPUTelemetry) (i : Nat) :
    Simulation (collector decode) collectorLoop where
  state c := c.starts i
  label := loopLabel i
  stutter := by
    intro c e d hst hlabel
    rw [next_eq hst]
    cases haddr : c.addressed e with
    | none => simp [exec, haddr]
    | some x =>
      have hne : i ≠ x.1 := by
        rintro rfl
        simp [loopLabel, haddr] at hlabel
      simp [exec, haddr, Function.update_of_ne hne]
  step := by
    intro c e d l hst hlabel
    have haddr := loopLabel_eq_some.mp hlabel
    refine ⟨hst.1.2 _ haddr, ?_⟩
    rw [next_eq hst]
    simp [exec, haddr, collectorLoop]

theorem starts_of_none {i : Nat} (hst : (collector decode).Step c e d)
    (h : loopLabel i c e = none) : d.starts i = c.starts i :=
  (toLoop decode i).stutter hst h

theorem starts_of_some {i : Nat} {l : LoopEvent} (hst : (collector decode).Step c e d)
    (h : loopLabel i c e = some l) : collectorLoop.Step (c.starts i) l (d.starts i) :=
  (toLoop decode i).step hst h

/-- The calls of `Start` that have been made are those below `started`. -/
structure Numbered (c : Collector) : Prop where
  fresh : ∀ i, c.started ≤ i → c.starts i = .new
  begun : ∀ i < c.started, (c.starts i).phase ≠ .idle

theorem addressed_lt (hst : (collector decode).Step c e d) {i : Nat} {l : LoopEvent}
    (haddr : c.addressed e = some (i, l)) : i < d.started := by
  have hcall := hst.1.1
  rw [next_eq hst]
  cases e with
  | start host ctxErr =>
    obtain ⟨rfl, -⟩ := Prod.mk.inj (Option.some.inj haddr)
    exact Nat.lt_succ_self _
  | parentDone j err =>
    obtain ⟨rfl, -⟩ := Prod.mk.inj (Option.some.inj haddr)
    exact hcall
  | step j l' =>
    obtain ⟨rfl, -⟩ := Prod.mk.inj (Option.some.inj haddr)
    exact hcall.1
  | stop =>
    simp only [addressed] at haddr
    split at haddr
    · cases haddr
    · obtain ⟨rfl, -⟩ := Prod.mk.inj (Option.some.inj haddr)
      exact Nat.sub_lt (by omega) (by decide)
  | _ => cases haddr

theorem started_le_step (hst : (collector decode).Step c e d) : c.started ≤ d.started := by
  rw [next_eq hst]
  cases e <;> simp [exec]

theorem started_eq_step (hst : (collector decode).Step c e d)
    (hstart : ∀ host ctxErr, e ≠ .start host ctxErr) : d.started = c.started := by
  rw [next_eq hst]
  cases e with
  | start host ctxErr => exact absurd rfl (hstart host ctxErr)
  | _ => rfl

theorem numbered_step (h : c.Numbered) (hst : (collector decode).Step c e d) : d.Numbered := by
  have hle := started_le_step hst
  constructor
  · intro i hi
    have hnone : loopLabel i c e = none := by
      cases hlabel : loopLabel i c e with
      | none => rfl
      | some l =>
        have hlt := addressed_lt hst (loopLabel_eq_some.mp hlabel)
        omega
    rw [starts_of_none hst hnone]
    exact h.fresh i (hle.trans hi)
  · intro i hi
    cases hlabel : loopLabel i c e with
    | none =>
      rw [starts_of_none hst hlabel]
      apply h.begun i
      by_contra hge
      cases e with
      | start host ctxErr =>
        have heq : i = c.started := by
          rw [next_eq hst] at hi
          simp only [exec] at hi
          omega
        simp [loopLabel, addressed, heq] at hlabel
      | _ =>
        rw [started_eq_step hst (by simp)] at hi
        exact hge hi
    | some l => exact phase_ne_idle (starts_of_some hst hlabel)

theorem numbered_run (hrun : (collector decode).Run (init config consumerGroup) es c) :
    c.Numbered := by
  refine hrun.invariant (fun _ _ _ h hst => numbered_step h hst) ⟨fun _ _ => rfl, ?_⟩
  intro i hi
  cases hi

/-- No `Start`, and so no goroutine that was not there before. -/
def NoStart : CollectorEvent → Prop
  | .start _ _ => False
  | _ => True

instance : DecidablePred NoStart
  | .start _ _ => .isFalse fun h => h
  | .parentDone _ _ | .step _ _ | .stop | .waited _ | .closeStorage _ | .closeConn _ _ =>
    .isTrue trivial

theorem started_of_noStart (hst : (collector decode).Step c e d) (he : NoStart e) :
    d.started = c.started := by
  apply started_eq_step hst
  rintro host ctxErr rfl
  exact he

theorem quiet_step (h : c.Quiet) (hst : (collector decode).Step c e d) (he : NoStart e) :
    d.Quiet ∧ c.made decode e = [] := by
  constructor
  · intro i hi
    rw [started_of_noStart hst he] at hi
    cases hlabel : loopLabel i c e with
    | none =>
      rw [starts_of_none hst hlabel]
      exact h i hi
    | some l =>
      rw [(returned_step (h i hi) (starts_of_some hst hlabel)).1]
      exact h i hi
  · cases e with
    | step i l =>
      have hlt : i < c.started := hst.1.1.1
      have hlabel : loopLabel i c (.step i l) = some l := loopLabel_eq_some.mpr rfl
      exact (returned_step (h i hlt) (starts_of_some hst hlabel)).2 decode c.config
    | _ => rfl

theorem storage_of_made (hst : (collector decode).Step c e d) (h : c.made decode e = []) :
    d.storage = c.storage ∨ d.storage = .newMemoryStorage := by
  rw [next_eq hst]
  cases e with
  | closeStorage j => exact Or.inr rfl
  | step i l =>
    refine Or.inl ?_
    simp only [exec, nextStorage, h]
    rfl
  | _ => exact Or.inl rfl

/-- In every run, from the moment when a call of `Stop` has waited and as long as no other `Start`
is called: no goroutine is running; nothing is stored, subscribed or acknowledged; and when the
storage has been closed, it is empty and stays so. -/
theorem stop_quiet {j : Nat} {fs : List CollectorEvent} {t : Collector}
    (hst : (collector decode).Step c (.waited j) d) (hfs : (collector decode).Run d fs t)
    (hno : ∀ e ∈ fs, NoStart e) :
    t.Quiet ∧
      ((collector decode).trace (fun c e => some (c.made decode e)) d fs).flatten = [] ∧
      (t.storage = d.storage ∨ t.storage = .newMemoryStorage) ∧
      ∀ k, .closeStorage k ∈ fs → t.storage = .newMemoryStorage := by
  have hquiet : d.Quiet := by
    have hwaited : c.Quiet := hst.1.1.2
    exact (quiet_step hwaited hst trivial).1
  clear hst
  induction hfs with
  | nil d =>
    refine ⟨hquiet, rfl, Or.inl rfl, ?_⟩
    intro k hk
    cases hk
  | @cons d m t e fs hst hrun ih =>
    obtain ⟨he, hno'⟩ := List.forall_mem_cons.mp hno
    obtain ⟨hm, hmade⟩ := quiet_step hquiet hst he
    obtain ⟨ht, hcalls, hstorage, hclosed⟩ := ih hno' hm
    have hfirst := storage_of_made hst hmade
    refine ⟨ht, ?_, ?_, ?_⟩
    · rw [Machine.trace_cons _ hst, hmade]
      exact hcalls
    · rcases hstorage with hsame | hempty
      · rw [hsame]
        exact hfirst
      · exact Or.inr hempty
    · intro k hk
      rcases List.mem_cons.mp hk with rfl | hk
      · have hclose : m.storage = .newMemoryStorage := by rw [next_eq hst]; rfl
        rw [hclose, or_self] at hstorage
        exact hstorage
      · exact hclosed k hk

/-- `Stop` is called while a response is being processed, which is stored all the same. -/
def stopping : List CollectorEvent :=
  [.start ⟨"node", .ok "", 0⟩ none, .step 0 .poll, .step 0 (.subscribe ⟨none, none, none⟩),
    .step 0 .select, .step 0 (.recv ⟨[⟨"m", "t", [], none⟩], false⟩), .stop]

def runOut : List CollectorEvent :=
  [.step 0 (.process ⟨"b", ⟨9, 0⟩, none, none, fun _ => none, fun _ => none⟩),
    .step 0 (.leave none), .step 0 .exit]

def closing : List CollectorEvent :=
  [.closeStorage 0, .step 0 .returnErr, .closeConn 0 none]

def oneRecord : List UInt8 → Option GPUTelemetry := fun _ => some (MemoryStorage.sample "u" "h" 1)

theorem stop_quiet_closing : ∃ c d t,
    (collector oneRecord).Step c (.waited 0) d ∧ (collector oneRecord).Run d closing t ∧
    c.storage.telemetry.lookup "u" = some [MemoryStorage.sample "u" "h" 1] ∧
    t.stops 0 = .returned none ∧ t.storage = .newMemoryStorage := by
  obtain ⟨c, t, -, hrun, hlookup, hreturned⟩ := Machine.exists_run_run (M := collector oneRecord)
    (fun c t => c.storage.telemetry.lookup "u" = some [MemoryStorage.sample "u" "h" 1] ∧
      t.stops 0 = .returned none) (init ⟨"t", 1, 1, 1⟩ "gpu") (stopping ++ runOut)
    (.waited 0 :: closing) (by decide)
  obtain ⟨d, hst, hclosing⟩ := Machine.Run.cons_iff.mp hrun
  have hempty := (stop_quiet hst hclosing (by decide)).2.2.2 0 (by simp [closing])
  exact ⟨c, d, t, hst, hclosing, hlookup, hreturned, hempty⟩

def AllDone (c : Collector) : Prop := ∀ i < c.started, (c.starts i).ctxErr ≠ none

instance (c : Collector) : Decidable c.AllDone := inferInstanceAs (Decidable (∀ i < c.started, _))

def OwnStep : CollectorEvent → Prop
  | .step _ e => Own e
  | _ => False

instance : DecidablePred OwnStep
  | .step _ e => inferInstanceAs (Decidable (Own e))
  | .start _ _ | .parentDone _ _ | .stop | .waited _ | .closeStorage _ | .closeConn _ _ =>
    .isFalse fun h => h

def OwnStepOf (i : Nat) : CollectorEvent → Prop
  | .step j e => j = i ∧ Own e
  | _ => False

instance (i : Nat) : DecidablePred (OwnStepOf i)
  | .step j e => inferInstanceAs (Decidable (j = i ∧ Own e))
  | .start _ _ | .parentDone _ _ | .stop | .waited _ | .closeStorage _ | .closeConn _ _ =>
    .isFalse fun h => h

def stepsLeft (c : Collector) : Nat :=
  ∑ i ∈ Finset.range c.started, (c.starts i).phase.stepsLeft

theorem noStart_of_ownStep (h : OwnStep e) : NoStart e := by
  cases e with
  | step i l => trivial
  | _ => exact h.elim

theorem done_of_allDone (hnum : c.Numbered) (h : c.AllDone) {i : Nat} (hi : i < c.started) :
    (c.starts i).Done :=
  ⟨hnum.begun i hi, h i hi⟩

theorem allDone_step (hnum : c.Numbered) (h : c.AllDone) (hst : (collector decode).Step c e d)
    (he : NoStart e) : d.AllDone := by
  intro i hi
  rw [started_of_noStart hst he] at hi
  cases hlabel : loopLabel i c e with
  | none =>
    rw [starts_of_none hst hlabel]
    exact h i hi
  | some l =>
    rw [(done_step (done_of_allDone hnum h hi) (starts_of_some hst hlabel)).2]
    exact h i hi

theorem nearer_of_step (hnum : c.Numbered) (h : c.AllDone) (hst : (collector decode).Step c e d)
    (he : NoStart e) (i : Nat) : (d.starts i).phase.stepsLeft + (if OwnStepOf i e then 1 else 0) ≤
      (c.starts i).phase.stepsLeft := by
  cases hlabel : loopLabel i c e with
  | none =>
    have hown : ¬ OwnStepOf i e := by
      intro hown
      cases e with
      | step j l =>
        obtain ⟨rfl, -⟩ := hown
        simp [loopLabel, addressed] at hlabel
      | _ => exact hown
    rw [starts_of_none hst hlabel, if_neg hown]
    exact le_refl _
  | some l =>
    have haddr := loopLabel_eq_some.mp hlabel
    have hi : i < c.started := started_of_noStart hst he ▸ addressed_lt hst haddr
    have hless := (Collector.stepsLeft_step (done_of_allDone hnum h hi)
      (starts_of_some hst hlabel)).1
    have hown : (if OwnStepOf i e then 1 else 0) ≤ if Own l then 1 else 0 := by
      cases e with
      | step j l' =>
        obtain ⟨rfl, rfl⟩ := Prod.mk.inj (Option.some.inj haddr)
        simp [OwnStepOf]
      | _ => simp [OwnStepOf]
    omega

theorem sum_ownStepOf (hst : (collector decode).Step c e d) :
    ∑ i ∈ Finset.range c.started, (if OwnStepOf i e then 1 else 0) =
      if OwnStep e then 1 else 0 := by
  cases e with
  | step j l =>
    have hj : j < c.started := hst.1.1.1
    have hothers : ∀ i ∈ Finset.range c.started, i ≠ j →
        (if OwnStepOf i (.step j l) then 1 else 0) = 0 :=
      fun i _ hne => if_neg fun hown => hne hown.1.symm
    rw [Finset.sum_eq_single_of_mem j (Finset.mem_range.mpr hj) hothers]
    by_cases hown : Own l <;> simp [OwnStepOf, OwnStep, hown]
  | _ => simp [OwnStepOf, OwnStep]

theorem nearer_step (h : c.Numbered ∧ c.AllDone) (hst : (collector decode).Step c e d)
    (he : NoStart e) : (d.Numbered ∧ d.AllDone) ∧
      d.stepsLeft + (if OwnStep e then 1 else 0) ≤ c.stepsLeft := by
  refine ⟨⟨numbered_step h.1 hst, allDone_step h.1 h.2 hst he⟩, ?_⟩
  unfold stepsLeft
  rw [started_of_noStart hst he, ← sum_ownStepOf hst, ← Finset.sum_add_distrib]
  exact Finset.sum_le_sum fun i _ => nearer_of_step h.1 h.2 hst he i

theorem exists_ownStep (hnum : c.Numbered) (h : c.AllDone) (hquiet : ¬ c.Quiet) :
    ∃ e d, OwnStep e ∧ (collector decode).Step c e d := by
  obtain ⟨i, hi, hleft⟩ : ∃ i, i < c.started ∧ (c.starts i).phase.outcome = none := by
    simpa [Quiet] using hquiet
  obtain ⟨l, s, hown, hstore, hst⟩ := exists_own_step (done_of_allDone hnum h hi) hleft
  have hinner : Inner l := by
    cases l with
    | process reply => exact hstore reply rfl
    | start consumerID ctxErr => exact hown
    | ctxDone err => exact hown
    | _ => trivial
  refine ⟨.step i l, _, hown, ⟨⟨hi, hinner⟩, ?_⟩, rfl⟩
  rintro x hx
  obtain rfl := Option.some.inj hx
  exact hst.1

theorem ctxErr_of_ownSteps {fs : List CollectorEvent} (hfs : (collector decode).Run c fs d)
    (hown : ∀ e ∈ fs, OwnStep e) :
    d.started = c.started ∧ ∀ i, (d.starts i).ctxErr = (c.starts i).ctxErr := by
  refine hfs.invariant_on (I := fun d => d.started = c.started ∧
    ∀ i, (d.starts i).ctxErr = (c.starts i).ctxErr) ?_ hown ⟨rfl, fun _ => rfl⟩
  intro m e d he ⟨hstarted, hctx⟩ hst
  refine ⟨(started_of_noStart hst (noStart_of_ownStep he)).trans hstarted, ?_⟩
  intro i
  rw [← hctx i]
  cases hlabel : loopLabel i m e with
  | none => rw [starts_of_none hst hlabel]
  | some l =>
    refine ctxErr_of_own ?_ (starts_of_some hst hlabel)
    cases e with
    | step j l' =>
      obtain ⟨-, rfl⟩ := Prod.mk.inj (Option.some.inj (loopLabel_eq_some.mp hlabel))
      exact he
    | _ => exact he.elim

theorem allDone_of_quiet (hrun : (collector decode).Run (init config consumerGroup) es c)
    (hquiet : c.Quiet) : c.AllDone := by
  intro i hi
  obtain ⟨err, herr⟩ := Option.ne_none_iff_exists'.mp (hquiet i hi)
  have hloop : collectorLoop.Run .new _ (c.starts i) := (toLoop decode i).run hrun
  cases hphase : (c.starts i).phase with
  | returned err => exact ((returnsCtxErr_run hloop).loop err hphase).2
  | _ => simp [Phase.outcome, hphase] at herr

theorem allDone_of_stop (hst : (collector decode).Step c .stop d) :
    d.AllDone ↔ ∀ i, i + 1 < c.started → (c.starts i).ctxErr ≠ none := by
  have hstarted : d.started = c.started := started_of_noStart hst trivial
  have hothers : ∀ i, i + 1 ≠ c.started → d.starts i = c.starts i := by
    intro i hi
    apply starts_of_none hst
    cases hlabel : loopLabel i c .stop with
    | none => rfl
    | some l =>
      have haddr := loopLabel_eq_some.mp hlabel
      simp only [addressed] at haddr
      split at haddr
      · cases haddr
      · obtain ⟨heq, -⟩ := Prod.mk.inj (Option.some.inj haddr)
        omega
  unfold AllDone
  rw [hstarted]
  constructor
  · intro h i hi
    rw [← hothers i (by omega)]
    exact h i (by omega)
  · intro h i hi
    by_cases hlast : i + 1 = c.started
    · have haddr : c.addressed .stop = some (i, .ctxDone "context canceled") := by
        simp [addressed, show c.started ≠ 0 by omega, show c.started - 1 = i by omega]
      rw [eq_exec (starts_of_some hst (loopLabel_eq_some.mpr haddr))]
      simp [Started.exec]
    · rw [hothers i hlast]
      exact h i (by omega)

/-- In every run: the goroutines can by themselves come to an end, so that `Stop` returns, if and
only if the contexts of all the calls of `Start` are done. Then each of them takes at most four more
steps, and there is one as long as one of them is running. `Stop` brings this about itself, if and
only if the contexts of all calls of `Start` but the last one are done. -/
theorem stop_returns (hrun : (collector decode).Run (init config consumerGroup) es c) :
    ((∃ fs d, (collector decode).Run c fs d ∧ (∀ e ∈ fs, OwnStep e) ∧ d.Quiet) ↔ c.AllDone) ∧
    (c.AllDone → ∀ fs d, (collector decode).Run c fs d → (∀ e ∈ fs, NoStart e) →
      d.AllDone ∧ (∀ i, fs.countP (fun e => OwnStepOf i e) ≤ 4) ∧
      (¬ d.Quiet → ∃ e u, OwnStep e ∧ (collector decode).Step d e u)) ∧
    (∀ d, (collector decode).Step c .stop d →
      (d.AllDone ↔ ∀ i, i + 1 < c.started → (c.starts i).ctxErr ≠ none)) := by
  have hnum := numbered_run hrun
  refine ⟨⟨?_, ?_⟩, ?_, fun d hst => allDone_of_stop hst⟩
  · rintro ⟨fs, d, hfs, hown, hquiet⟩
    have hdone := allDone_of_quiet (hrun.append hfs) hquiet
    obtain ⟨hstarted, hctx⟩ := ctxErr_of_ownSteps hfs hown
    intro i hi
    rw [← hctx i]
    exact hdone i (hstarted ▸ hi)
  · intro hdone
    have hnearer : ∀ c e d, OwnStep e → c.Numbered ∧ c.AllDone → (collector decode).Step c e d →
        (d.Numbered ∧ d.AllDone) ∧ d.stepsLeft + 1 ≤ c.stepsLeft := by
      intro c e d he hc hst
      have hless := nearer_step hc hst (noStart_of_ownStep he)
      rw [if_pos he] at hless
      exact hless
    obtain ⟨fs, d, hfs, hown, -, -, hquiet⟩ := Machine.exists_run_of_progress
      (M := collector decode) (L := OwnStep) (w := stepsLeft) (Q := Quiet) hnearer
      (fun c hc hquiet => exists_ownStep hc.1 hc.2 hquiet) ⟨hnum, hdone⟩
    exact ⟨fs, d, hfs, hown, hquiet⟩
  · intro hdone fs d hfs hno
    have hd := hfs.invariant_on (I := fun c => c.Numbered ∧ c.AllDone) (L := NoStart)
      (fun _ _ _ he hc hst => (nearer_step hc hst he).1) hno ⟨hnum, hdone⟩
    refine ⟨hd.2, ?_, exists_ownStep hd.1 hd.2⟩
    intro i
    have hcount := (hfs.count_add_work_le (w := fun c => (c.starts i).phase.stepsLeft)
      (L := OwnStepOf i) (K := NoStart) (I := fun c => c.Numbered ∧ c.AllDone)
      (fun _ _ _ he hc hst => ⟨(nearer_step hc hst he).1, nearer_of_step hc.1 hc.2 hst he i⟩) hno
      ⟨hnum, hdone⟩).2
    have hfour : (c.starts i).phase.stepsLeft ≤ 4 := by
      cases (c.starts i).phase <;> simp [Phase.stepsLeft]
    omega

/-- Two goroutines, of which the first has a context that is done when `Stop` cancels the other. -/
def twoStarts : List CollectorEvent :=
  [.start ⟨"node", .ok "", 0⟩ none, .start ⟨"node", .ok "", 0⟩ none, .step 1 .poll,
    .parentDone 0 "context canceled", .stop]

def bothRunOut : List CollectorEvent :=
  [.step 1 (.subscribe ⟨none, none, none⟩), .step 0 .exit, .step 1 (.leave none), .step 1 .exit]

theorem stop_returns_twoStarts : ∃ c d,
    (collector oneRecord).Run (init ⟨"t", 1, 1, 1⟩ "gpu") twoStarts c ∧
    (collector oneRecord).Run c bothRunOut d ∧ c.started = 2 ∧ c.AllDone ∧ ¬ c.Quiet ∧ d.Quiet ∧
    ∀ i, bothRunOut.countP (fun e => OwnStepOf i e) ≤ 4 := by
  obtain ⟨c, d, hc, hd, htwo, hdone, hrunning, hquiet⟩ :=
    Machine.exists_run_run (M := collector oneRecord)
    (fun c d => c.started = 2 ∧ c.AllDone ∧ ¬ c.Quiet ∧ d.Quiet) (init ⟨"t", 1, 1, 1⟩ "gpu")
    twoStarts bothRunOut (by decide)
  obtain ⟨-, hsteps, -⟩ := (stop_returns hc).2.1 hdone bothRunOut d hd (by decide)
  exact ⟨c, d, hc, hd, htwo, hdone, hrunning, hquiet, hsteps⟩

end Collector

end GpuTel.Telemetry
