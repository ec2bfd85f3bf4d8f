import GpuTel.Lib.Transition
import GpuTel.Telemetry.CollectorTrace

/-!
# The goroutine of a collector

`Start` runs `runSubscriptionLoop` in a goroutine and waits for it, or for its context. The loop
calls `processSubscription` again and again. It looks at the context before every call and before
every `Recv`, and nowhere else: a context that is done is seen at the next select.
-/

set_option autoImplicit false

namespace GpuTel.Telemetry

open Mq Transition

/-- What a sink finds on its host: the variable `POD_NAME`, the host name, and the time. -/
structure Host where
  podName : String
  hostname : Except String String
  unixNano : Int

def Host.name (host : Host) : String :=
  if host.podName = "" then
    match host.hostname with
    | .error _ => "sink-" ++ toString host.unixNano
    | .ok hostname => hostname
  else host.podName

namespace Collector

/-- `runSubscriptionLoop` makes the consumer id once, when it starts. -/
def consumerID (consumerGroup : String) (host : Host) : String :=
  consumerGroup ++ "-" ++ host.name

/-- Where the goroutine is: before one of the two selects, before a call, or past the last one. -/
inductive Phase where
  | idle
  | polling
  | opening
  | selecting
  | receiving
  | processing (resp : Response)
  | failed (err : String)
  | returned (err : Option String)
  deriving DecidableEq, Repr

def Phase.response : Phase → Option Response
  | .processing resp => some resp
  | _ => none

def Phase.outcome : Phase → Option (Option String)
  | .returned err => some err
  | _ => none

/-- A call of `Start`: what its context says, where its goroutine is, and what it returned. -/
structure Started where
  consumerID : String
  ctxErr : Option String
  phase : Phase
  result : Option (Option String)
  deriving DecidableEq, Repr

inductive LoopEvent where
  | start (consumerID : String) (ctxErr : Option String)
  | ctxDone (err : String)
  | poll
  | subscribe (opening : Opening)
  | select
  | leave (closeSend : Option String)
  | recv (resp : Response)
  | fail (err : String) (closeSend : Option String)
  | process (reply : Reply)
  | retry
  | exit
  | returnErr
  | returnDone

namespace Started

def new : Started := ⟨"", none, .idle, none⟩

/-- The error with which `processSubscription` returns before its loop. -/
def openingErr (opening : Opening) : Option String :=
  match opening.subscribe with
  | some err => some ("failed to create subscribe stream: " ++ err)
  | none => opening.sendRequest.map ("failed to send subscribe request: " ++ ·)

/-- A context is done for one reason, the first one. -/
def exec (s : Started) : LoopEvent → Started
  | .start consumerID ctxErr => ⟨consumerID, ctxErr, .polling, none⟩
  | .ctxDone err => { s with ctxErr := s.ctxErr.or (some err) }
  | .poll => { s with phase := .opening }
  | .subscribe opening => { s with phase := (openingErr opening).elim .selecting .failed }
  | .select => { s with phase := .receiving }
  | .leave _ => { s with phase := .polling }
  | .recv resp => { s with phase := .processing resp }
  | .fail err _ => { s with phase := .failed ("failed to receive messages: " ++ err) }
  | .process _ => { s with phase := .selecting }
  | .retry => { s with phase := .polling }
  | .exit => { s with phase := .returned s.ctxErr }
  | .returnErr => { s with result := s.phase.outcome }
  | .returnDone => { s with result := some s.ctxErr }

/-- A select takes its `default` only if the context is not done. -/
def guard (s : Started) : LoopEvent → Prop
  | .start _ _ => s.phase = .idle
  | .ctxDone _ => s.phase ≠ .idle
  | .poll => s.phase = .polling ∧ s.ctxErr = none
  | .subscribe _ => s.phase = .opening
  | .select => s.phase = .selecting ∧ s.ctxErr = none
  | .leave _ => s.phase = .selecting ∧ s.ctxErr ≠ none
  | .recv _ | .fail _ _ => s.phase = .receiving
  | .process _ => s.phase.response ≠ none
  | .retry => (∃ err, s.phase = .failed err) ∧ s.ctxErr = none
  | .exit => (s.phase = .polling ∨ ∃ err, s.phase = .failed err) ∧ s.ctxErr ≠ none
  | .returnErr => s.phase.outcome ≠ none ∧ s.result = none
  | .returnDone => s.phase ≠ .idle ∧ s.ctxErr ≠ none ∧ s.result = none

instance (phase : Phase) : Decidable (∃ err, phase = .failed err) :=
  match phase with
  | .failed err => .isTrue ⟨err, rfl⟩
  | .idle | .polling | .opening | .selecting | .receiving | .processing _ | .returned _ =>
    .isFalse fun ⟨_, h⟩ => by cases h

instance (s : Started) : (e : LoopEvent) → Decidable (s.guard e)
  | .start _ _ | .subscribe _ | .recv _ | .fail _ _ => inferInstanceAs (Decidable (_ = _))
  | .ctxDone _ | .process _ => inferInstanceAs (Decidable (_ ≠ _))
  | .poll | .select | .leave _ | .retry | .exit | .returnErr => inferInstanceAs (Decidable (_ ∧ _))
  | .returnDone => inferInstanceAs (Decidable (_ ∧ _ ∧ _))

section Calls

variable (decode : List UInt8 → Option GPUTelemetry) (config : CollectorConfig)

def calls (s : Started) : LoopEvent → List Call
  | .subscribe opening =>
    match opening.subscribe with
    | some err => [.subscribe (some err)]
    | none =>
      let req := subscribeRequest config s.consumerID
      match opening.sendRequest with
      | some err => [.subscribe none, .sendRequest req (some err), .closeSend opening.closeSend]
      | none => [.subscribe none, .sendRequest req none]
  | .leave closeSend | .fail _ closeSend => [.closeSend closeSend]
  | .process reply =>
    s.phase.response.elim [] fun resp => processResponse decode s.consumerID resp reply
  | _ => []

end Calls

end Started

end Collector

def collectorLoop : Machine Collector.Started Collector.LoopEvent Empty :=
  ⟨Collector.Started.guard, fun s e => .ok (s.exec e)⟩

instance (s : Collector.Started) (e : Collector.LoopEvent) : Decidable (collectorLoop.guard s e) :=
  inferInstanceAs (Decidable (s.guard e))

namespace Collector

theorem eq_exec {s t : Started} {e : LoopEvent} (h : collectorLoop.Step s e t) : t = s.exec e :=
  (Except.ok.inj h.2).symm

/-- The steps of the goroutine itself. -/
def Own : LoopEvent → Prop
  | .start _ _ | .ctxDone _ | .returnErr | .returnDone => False
  | _ => True

instance : DecidablePred Own
  | .start _ _ | .ctxDone _ | .returnErr | .returnDone => .isFalse fun h => h
  | .poll | .subscribe _ | .select | .leave _ | .recv _ | .fail _ _ | .process _ | .retry | .exit =>
    .isTrue trivial

/-- How many steps the goroutine can still take if its context is done. -/
def Phase.stepsLeft : Phase → Nat
  | .receiving => 4
  | .processing _ | .opening => 3
  | .selecting => 2
  | .polling | .failed _ => 1
  | .idle | .returned _ => 0

/-- The steps that subscribe, or store and acknowledge. -/
def Reaches : LoopEvent → Prop
  | .subscribe _ | .process _ => True
  | _ => False

instance : DecidablePred Reaches
  | .subscribe _ | .process _ => .isTrue trivial
  | .start _ _ | .ctxDone _ | .poll | .select | .leave _ | .recv _ | .fail _ _ | .retry | .exit
  | .returnErr | .returnDone => .isFalse fun h => h

def Phase.reachesLeft : Phase → Nat
  | .opening | .receiving | .processing _ => 1
  | _ => 0

section Done

variable {s t : Started} {e : LoopEvent} {es : List LoopEvent}

def Started.Done (s : Started) : Prop := s.phase ≠ .idle ∧ s.ctxErr ≠ none

instance (s : Started) : Decidable s.Done := inferInstanceAs (Decidable (_ ∧ _))

theorem done_step (h : s.Done) (hst : collectorLoop.Step s e t) :
    t.Done ∧ t.ctxErr = s.ctxErr := by
  have hguard : s.guard e := hst.1
  obtain rfl := eq_exec hst
  obtain ⟨hidle, hdone⟩ := h
  obtain ⟨err, herr⟩ := Option.ne_none_iff_exists'.mp hdone
  cases e with
  | start consumerID ctxErr => exact absurd hguard hidle
  | ctxDone err' =>
    have hsame : (s.exec (.ctxDone err')).ctxErr = s.ctxErr := by simp [Started.exec, herr]
    exact ⟨⟨hidle, by rw [hsame]; exact hdone⟩, hsame⟩
  | subscribe opening =>
    refine ⟨⟨?_, hdone⟩, rfl⟩
    cases hopening : Started.openingErr opening <;> simp [Started.exec, hopening]
  | returnErr => exact ⟨⟨hidle, hdone⟩, rfl⟩
  | returnDone => exact ⟨⟨hidle, hdone⟩, rfl⟩
  | _ => exact ⟨⟨by simp [Started.exec], hdone⟩, rfl⟩

theorem ctxErr_of_own (he : Own e) (hst : collectorLoop.Step s e t) : t.ctxErr = s.ctxErr := by
  obtain rfl := eq_exec hst
  cases e with
  | start consumerID ctxErr => exact he.elim
  | ctxDone err => exact he.elim
  | _ => rfl

theorem stepsLeft_step (h : s.Done) (hst : collectorLoop.Step s e t) :
    t.phase.stepsLeft + (if Own e then 1 else 0) ≤ s.phase.stepsLeft ∧
      t.phase.reachesLeft + (if Reaches e then 1 else 0) ≤ s.phase.reachesLeft := by
  have hguard : s.guard e := hst.1
  obtain rfl := eq_exec hst
  obtain ⟨hidle, hdone⟩ := h
  cases e with
  | start consumerID ctxErr => exact absurd hguard hidle
  | poll => exact absurd hguard.2 hdone
  | select => exact absurd hguard.2 hdone
  | retry => exact absurd hguard.2 hdone
  | subscribe opening =>
    have hphase : s.phase = .opening := hguard
    cases hopening : Started.openingErr opening <;>
      simp [Started.exec, Own, Reaches, Phase.stepsLeft, Phase.reachesLeft, hphase, hopening]
  | process reply =>
    cases hphase : s.phase with
    | processing resp =>
      simp [Started.exec, Own, Reaches, Phase.stepsLeft, Phase.reachesLeft]
    | _ => simp [Started.guard, Phase.response, hphase] at hguard
  | exit =>
    rcases hguard.1 with hphase | ⟨err, hphase⟩ <;>
      simp [Started.exec, Own, Reaches, Phase.stepsLeft, Phase.reachesLeft, hphase]
  | leave closeSend =>
    simp [Started.exec, Own, Reaches, Phase.stepsLeft, Phase.reachesLeft, hguard.1]
  | recv resp =>
    have hphase : s.phase = .receiving := hguard
    simp [Started.exec, Own, Reaches, Phase.stepsLeft, Phase.reachesLeft, hphase]
  | fail err closeSend =>
    have hphase : s.phase = .receiving := hguard
    simp [Started.exec, Own, Reaches, Phase.stepsLeft, Phase.reachesLeft, hphase]
  | _ => simp [Started.exec, Own, Reaches]

theorem exists_own_step (h : s.Done) (hleft : s.phase.outcome = none) :
    ∃ e t, Own e ∧ (∀ reply, e = .process reply → reply.store = none) ∧
      collectorLoop.Step s e t := by
  obtain ⟨hidle, hdone⟩ := h
  cases hphase : s.phase with
  | idle => exact absurd hphase hidle
  | polling => exact ⟨.exit, _, trivial, by simp, ⟨Or.inl hphase, hdone⟩, rfl⟩
  | opening => exact ⟨.subscribe ⟨none, none, none⟩, _, trivial, by simp, hphase, rfl⟩
  | selecting => exact ⟨.leave none, _, trivial, by simp, ⟨hphase, hdone⟩, rfl⟩
  | receiving => exact ⟨.fail "" none, _, trivial, by simp, hphase, rfl⟩
  | processing resp =>
    refine ⟨.process ⟨"", ⟨0, 0⟩, none, none, fun _ => none, fun _ => none⟩, _, trivial, ?_, ?_,
      rfl⟩
    · intro reply hreply
      rw [← LoopEvent.process.inj hreply]
    · simp [collectorLoop, Started.guard, Phase.response, hphase]
  | failed err => exact ⟨.exit, _, trivial, by simp, ⟨Or.inr ⟨err, hphase⟩, hdone⟩, rfl⟩
  | returned err => simp [Phase.outcome, hphase] at hleft

/-- Neither the loop nor `Start` returns before the context is done, and both return its error. -/
structure Started.ReturnsCtxErr (s : Started) : Prop where
  loop : ∀ err, s.phase = .returned err → err = s.ctxErr ∧ s.ctxErr ≠ none
  start : ∀ err, s.result = some err → err = s.ctxErr ∧ s.ctxErr ≠ none
  idle : s.phase = .idle → s.result = none

theorem returnsCtxErr_step (h : s.ReturnsCtxErr) (hst : collectorLoop.Step s e t) :
    t.ReturnsCtxErr := by
  have hguard : s.guard e := hst.1
  obtain rfl := eq_exec hst
  cases e with
  | start consumerID ctxErr => exact ⟨by simp [Started.exec], by simp [Started.exec], fun _ => rfl⟩
  | ctxDone err =>
    have hor : s.ctxErr ≠ none → s.ctxErr.or (some err) = s.ctxErr := by
      intro hdone
      obtain ⟨err', herr⟩ := Option.ne_none_iff_exists'.mp hdone
      rw [herr]
      rfl
    refine ⟨?_, ?_, h.idle⟩
    · intro err' hphase
      obtain ⟨heq, hdone⟩ := h.loop err' hphase
      exact ⟨heq.trans (hor hdone).symm, by simp [Started.exec]⟩
    · intro err' hresult
      obtain ⟨heq, hdone⟩ := h.start err' hresult
      exact ⟨heq.trans (hor hdone).symm, by simp [Started.exec]⟩
  | subscribe opening =>
    refine ⟨?_, h.start, ?_⟩ <;>
      cases hopening : Started.openingErr opening <;> simp [Started.exec, hopening]
  | exit =>
    refine ⟨?_, h.start, by simp [Started.exec]⟩
    intro err hphase
    exact ⟨(Phase.returned.inj hphase).symm, hguard.2⟩
  | returnErr =>
    refine ⟨h.loop, ?_, fun hidle => absurd (by rw [show s.phase = .idle from hidle]; rfl) hguard.1⟩
    intro err hresult
    cases hphase : s.phase with
    | returned err' =>
      have heq : some err' = some err := by
        simpa [Started.exec, Phase.outcome, hphase] using hresult
      obtain rfl := Option.some.inj heq
      exact h.loop err' hphase
    | _ => simp [Started.exec, Phase.outcome, hphase] at hresult
  | returnDone =>
    refine ⟨h.loop, ?_, fun hidle => absurd hidle hguard.1⟩
    intro err hresult
    exact ⟨(Option.some.inj hresult).symm, hguard.2.1⟩
  | _ => exact ⟨by simp [Started.exec], h.start, by simp [Started.exec]⟩

theorem returnsCtxErr_run (hrun : collectorLoop.Run .new es s) : s.ReturnsCtxErr := by
  refine hrun.invariant (fun _ _ _ h hst => returnsCtxErr_step h hst) ⟨?_, ?_, fun _ => rfl⟩
  · intro err hphase
    cases hphase
  · intro err hresult
    cases hresult

/-- In every run: neither the loop nor `Start` returns while the context goes on, and both return
the error of the context. From the moment when it is done, the goroutine takes at most four more
steps, has one to take until it has returned, and in all of them subscribes once more, or stores and
acknowledges one more response, but not both. -/
theorem winding_down (hrun : collectorLoop.Run .new es s) :
    s.ReturnsCtxErr ∧
    (s.Done → ∀ fs t, collectorLoop.Run s fs t →
      t.Done ∧ t.ctxErr = s.ctxErr ∧
      fs.countP (fun e => Own e) + t.phase.stepsLeft ≤ 4 ∧
      fs.countP (fun e => Reaches e) ≤ 1 ∧
      (t.phase.outcome = none → ∃ e u, Own e ∧ collectorLoop.Step t e u)) := by
  refine ⟨returnsCtxErr_run hrun, ?_⟩
  intro hdone fs t hfs
  obtain ⟨hkeep, hsteps⟩ := hfs.count_add_work_le (w := fun u => u.phase.stepsLeft) (L := Own)
    (K := fun _ => True) (I := fun u => u.Done ∧ u.ctxErr = s.ctxErr)
    (fun _ _ _ _ h hst => ⟨⟨(done_step h.1 hst).1, (done_step h.1 hst).2.trans h.2⟩,
      (stepsLeft_step h.1 hst).1⟩) (fun _ _ => trivial) ⟨hdone, rfl⟩
  obtain ⟨-, hreaches⟩ := hfs.count_add_work_le (w := fun u => u.phase.reachesLeft)
    (L := Reaches) (K := fun _ => True)
    (fun _ _ _ _ h hst => ⟨(done_step h hst).1, (stepsLeft_step h hst).2⟩)
    (fun _ _ => trivial) hdone
  have hfour : s.phase.stepsLeft ≤ 4 := by cases s.phase <;> simp [Phase.stepsLeft]
  have hone : s.phase.reachesLeft ≤ 1 := by cases s.phase <;> simp [Phase.reachesLeft]
  refine ⟨hkeep.1, hkeep.2, hsteps.trans hfour, by omega, ?_⟩
  intro hleft
  obtain ⟨e, u, he, -, hst⟩ := exists_own_step hkeep.1 hleft
  exact ⟨e, u, he, hst⟩

end Done

/-- The context is done while the goroutine waits for a response. -/
def interrupted : List LoopEvent :=
  [.start "gpu-node" none, .poll, .subscribe ⟨none, none, none⟩, .select,
    .ctxDone "context canceled"]

def lastResponse : List LoopEvent :=
  [.recv ⟨[⟨"m", "t", [], none⟩], false⟩, .returnDone,
    .process ⟨"b", ⟨9, 0⟩, none, none, fun _ => none, fun _ => none⟩, .leave none, .exit]

theorem winding_down_lastResponse : ∃ s t, collectorLoop.Run .new interrupted s ∧
    collectorLoop.Run s lastResponse t ∧ s.Done ∧
    t.phase = .returned (some "context canceled") ∧ t.result = some (some "context canceled") ∧
    lastResponse.countP (fun e => Own e) + t.phase.stepsLeft ≤ 4 ∧ t.ReturnsCtxErr := by
  obtain ⟨s, t, hs, ht, hdone, hphase, hresult⟩ := Machine.exists_run_run (M := collectorLoop)
    (fun s t => s.Done ∧ t.phase = .returned (some "context canceled") ∧
      t.result = some (some "context canceled")) .new interrupted lastResponse (by decide)
  obtain ⟨-, -, hsteps, -⟩ := (winding_down hs).2 hdone lastResponse t ht
  exact ⟨s, t, hs, ht, hdone, hphase, hresult, hsteps, (winding_down (hs.append ht)).1⟩

end Collector

end GpuTel.Telemetry
