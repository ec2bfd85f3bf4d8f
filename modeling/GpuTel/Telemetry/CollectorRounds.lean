import GpuTel.Telemetry.CollectorLoop
import GpuTel.Telemetry.StorageQueries

/-!
# The rounds of a collector

Seen from outside, the goroutine of a collector makes the calls of `processSubscription`, round
after round. A round ends when the stream fails or when the context is seen to be done.
-/

set_option autoImplicit false

namespace GpuTel.Telemetry.Collector

open Transition

/-- A call of `processSubscription`: what it was answered, and what the stream delivered. -/
structure Round where
  opening : Opening
  received : List Received

def asReceived (r : Response × Reply) : Received := .response r.1 r.2

/-- The stream is open, and has delivered `rs`. -/
def Round.underWay (rs : List (Response × Reply)) : Round :=
  ⟨⟨none, none, none⟩, rs.map asReceived⟩

def Round.ended (closeSend : Option String) (rs : List (Response × Reply)) (last : Received) :
    Round :=
  ⟨⟨none, none, closeSend⟩, rs.map asReceived ++ [last]⟩

def Round.handled (r : Round) : List (Response × Reply) := Collector.handled r.opening r.received

def Phase.subscribed : Phase → Bool
  | .selecting | .receiving | .processing _ => true
  | _ => false

def received (_ : Started) : LoopEvent → Option Response
  | .recv resp => some resp
  | _ => none

def processed (s : Started) : LoopEvent → Option (Response × Reply)
  | .process reply => s.phase.response.map (·, reply)
  | _ => none

section Rounds

variable (decode : List UInt8 → Option GPUTelemetry) (config : CollectorConfig)

def Round.run (consumerID : String) (r : Round) : List Call × Outcome :=
  processSubscription decode config consumerID r.opening r.received

def allCalls (es : List LoopEvent) : List Call :=
  (collectorLoop.trace (fun s e => some (s.calls decode config e)) .new es).flatten

theorem receiveLoop_map (consumerID : String) (rs : List (Response × Reply))
    (last : List Received) :
    receiveLoop decode consumerID (rs.map asReceived ++ last) =
      ((rs.flatMap fun r => processResponse decode consumerID r.1 r.2) ++
        (receiveLoop decode consumerID last).1, (receiveLoop decode consumerID last).2) := by
  induction rs with
  | nil => rfl
  | cons r rs ih =>
    simp only [List.map_cons, List.cons_append, asReceived, receiveLoop]
    rw [ih, List.flatMap_cons, List.append_assoc]

theorem run_underWay (consumerID : String) (rs : List (Response × Reply)) :
    (Round.underWay rs).run decode config consumerID =
      (.subscribe none :: .sendRequest (subscribeRequest config consumerID) none ::
        rs.flatMap fun r => processResponse decode consumerID r.1 r.2, .waiting) := by
  have hloop := receiveLoop_map decode consumerID rs []
  rw [List.append_nil] at hloop
  simp [Round.run, Round.underWay, processSubscription, hloop, receiveLoop]

theorem run_ended (consumerID : String) (closeSend : Option String) (rs : List (Response × Reply))
    {last : Received} {err : Option String}
    (hlast : receiveLoop decode consumerID [last] = ([], .returned err)) :
    (Round.ended closeSend rs last).run decode config consumerID =
      (((Round.underWay rs).run decode config consumerID).1 ++ [.closeSend closeSend],
        .returned err) := by
  have hloop := receiveLoop_map decode consumerID rs [last]
  rw [hlast, List.append_nil] at hloop
  rw [run_underWay]
  simp [Round.run, Round.ended, processSubscription, hloop]

theorem responses_map (rs : List (Response × Reply)) (last : List Received) :
    responses (rs.map asReceived ++ last) = rs ++ responses last := by
  induction rs with
  | nil => rfl
  | cons r rs ih => simp only [List.map_cons, List.cons_append, asReceived, responses, ih]

theorem handled_underWay (rs : List (Response × Reply)) : (Round.underWay rs).handled = rs := by
  have hall := responses_map rs []
  rw [List.append_nil] at hall
  simp [Round.handled, Round.underWay, handled, hall, responses]

theorem handled_ended (closeSend : Option String) (rs : List (Response × Reply)) {last : Received}
    (hlast : responses [last] = []) : (Round.ended closeSend rs last).handled = rs := by
  simp [Round.handled, Round.ended, handled, responses_map, hlast]

/-- Some rounds are over, and one may be under way. -/
structure InRounds (calls : List Call) (responses : List (Response × Reply)) (s : Started)
    (rounds : List Round) (current : Option (List (Response × Reply))) : Prop where
  returned : ∀ r ∈ rounds, (r.run decode config s.consumerID).2 ≠ .waiting
  calls : calls = (rounds ++ (current.map Round.underWay).toList).flatMap fun r =>
    (r.run decode config s.consumerID).1
  handled : responses = (rounds ++ (current.map Round.underWay).toList).flatMap Round.handled
  current : current.isSome = s.phase.subscribed
  unstarted : s.phase = .idle → rounds = []

variable {decode config}

section Step

variable {calls : List Call} {rs : List (Response × Reply)} {s t : Started} {e : LoopEvent}
variable {rounds : List Round} {current : Option (List (Response × Reply))}

theorem InRounds.inside (h : InRounds decode config calls rs s rounds current)
    (hid : t.consumerID = s.consumerID) (hphase : t.phase.subscribed = s.phase.subscribed)
    (hidle : t.phase ≠ .idle) : InRounds decode config calls rs t rounds current := by
  refine ⟨?_, ?_, h.handled, ?_, fun hcontra => absurd hcontra hidle⟩
  · rw [hid]
    exact h.returned
  · rw [hid]
    exact h.calls
  · rw [hphase]
    exact h.current

theorem InRounds.finish {r : Round} {more : List Call}
    (h : InRounds decode config calls rs s rounds current)
    (hover : (r.run decode config s.consumerID).2 ≠ .waiting)
    (hcalls : ((current.map Round.underWay).toList.flatMap fun r =>
      (r.run decode config s.consumerID).1) ++ more = (r.run decode config s.consumerID).1)
    (hhandled : (current.map Round.underWay).toList.flatMap Round.handled = r.handled)
    (hid : t.consumerID = s.consumerID) (hphase : t.phase.subscribed = false)
    (hidle : t.phase ≠ .idle) :
    InRounds decode config (calls ++ more) rs t (rounds ++ [r]) none := by
  refine ⟨?_, ?_, ?_, hphase.symm, fun hcontra => absurd hcontra hidle⟩
  · intro r' hr'
    rw [hid]
    rcases List.mem_append.mp hr' with hold | hnew
    · exact h.returned r' hold
    · rw [List.mem_singleton.mp hnew]
      exact hover
  · rw [h.calls, hid, List.flatMap_append, List.append_assoc, hcalls]
    simp
  · rw [h.handled, List.flatMap_append, hhandled]
    simp

theorem inRounds_subscribe (opening : Opening)
    (h : InRounds decode config calls rs s rounds current) (hphase : s.phase = .opening) :
    ∃ rounds' current', InRounds decode config (calls ++ s.calls decode config (.subscribe opening))
      rs (s.exec (.subscribe opening)) rounds' current' := by
  have hnone : current = none := by
    have hcurrent := h.current
    rw [hphase] at hcurrent
    exact Option.isNone_iff_eq_none.mp (by simpa [Phase.subscribed] using hcurrent)
  subst hnone
  obtain ⟨subscribe, sendRequest, closeSend⟩ := opening
  cases subscribe with
  | some err =>
    exact ⟨_, none, h.finish (r := ⟨⟨some err, sendRequest, closeSend⟩, []⟩)
      (by simp [Round.run, processSubscription])
      (by simp [Round.run, processSubscription, Started.calls]) (by simp [Round.handled, handled])
      rfl rfl (by simp [Started.exec, Started.openingErr])⟩
  | none =>
    cases sendRequest with
    | some err =>
      exact ⟨_, none, h.finish (r := ⟨⟨none, some err, closeSend⟩, []⟩)
        (by simp [Round.run, processSubscription])
        (by simp [Round.run, processSubscription, Started.calls]) (by simp [Round.handled, handled])
        rfl rfl (by simp [Started.exec, Started.openingErr])⟩
    | none =>
      refine ⟨rounds, some [], h.returned, ?_, ?_, rfl, fun hidle => by cases hidle⟩
      · rw [h.calls]
        simp [run_underWay, Started.calls, Started.exec]
      · rw [h.handled]
        simp [handled_underWay]

theorem InRounds.open_of_subscribed (h : InRounds decode config calls rs s rounds current)
    (hphase : s.phase.subscribed = true) : ∃ open_, current = some open_ :=
  Option.isSome_iff_exists.mp (h.current.trans hphase)

theorem InRounds.leave (closeSend : Option String) (last : Received) {err : Option String}
    (h : InRounds decode config calls rs s rounds current) (hsub : s.phase.subscribed = true)
    (hloop : receiveLoop decode s.consumerID [last] = ([], .returned err))
    (hlast : responses [last] = []) (hid : t.consumerID = s.consumerID)
    (hphase : t.phase.subscribed = false) (hidle : t.phase ≠ .idle) :
    ∃ rounds', InRounds decode config (calls ++ [.closeSend closeSend]) rs t rounds' none := by
  obtain ⟨open_, rfl⟩ := h.open_of_subscribed hsub
  have hrun := run_ended decode config s.consumerID closeSend open_ hloop
  refine ⟨_, h.finish (r := Round.ended closeSend open_ last) ?_ ?_ ?_ hid hphase hidle⟩
  · simp [hrun]
  · simp [hrun]
  · simp [handled_underWay, handled_ended closeSend open_ hlast]

theorem InRounds.process (reply : Reply) {resp : Response}
    (h : InRounds decode config calls rs s rounds current) (hphase : s.phase = .processing resp) :
    ∃ current', InRounds decode config (calls ++ s.calls decode config (.process reply))
      (rs ++ (processed s (.process reply)).toList) (s.exec (.process reply)) rounds current' := by
  obtain ⟨open_, rfl⟩ := h.open_of_subscribed (by simp [hphase, Phase.subscribed])
  refine ⟨some (open_ ++ [(resp, reply)]), h.returned, ?_, ?_, rfl, fun hidle => by cases hidle⟩
  · rw [h.calls]
    simp [run_underWay, Started.calls, Started.exec, hphase, Phase.response]
  · rw [h.handled]
    simp [handled_underWay, processed, hphase, Phase.response]

theorem inRounds_step (h : InRounds decode config calls rs s rounds current)
    (hst : collectorLoop.Step s e t) : ∃ rounds' current', InRounds decode config
      (calls ++ s.calls decode config e) (rs ++ (processed s e).toList) t rounds' current' := by
  have hguard : s.guard e := hst.1
  obtain rfl := eq_exec hst
  have hquiet : ∀ u : Started, s.calls decode config e = [] → processed s e = none →
      u.consumerID = s.consumerID → u.phase.subscribed = s.phase.subscribed → u.phase ≠ .idle →
      ∃ rounds' current', InRounds decode config
        (calls ++ s.calls decode config e) (rs ++ (processed s e).toList) u rounds' current' := by
    intro u hcalls hprocessed hid hphase hidle
    rw [hcalls, hprocessed, Option.toList_none, List.append_nil, List.append_nil]
    exact ⟨rounds, current, h.inside hid hphase hidle⟩
  cases e with
  | start consumerID ctxErr =>
    have hrounds := h.unstarted hguard
    have hnone : current = none := by
      have hcurrent := h.current
      rw [show s.phase = .idle from hguard] at hcurrent
      exact Option.isNone_iff_eq_none.mp (by simpa [Phase.subscribed] using hcurrent)
    subst hrounds hnone
    refine ⟨[], none, List.forall_mem_nil _, ?_, ?_, rfl, fun _ => rfl⟩
    · simpa [Started.calls] using h.calls
    · simpa [processed] using h.handled
  | ctxDone err => exact hquiet _ rfl rfl rfl rfl hguard
  | poll => exact hquiet _ rfl rfl rfl (by rw [hguard.1]; rfl) (by simp [Started.exec])
  | subscribe opening =>
    obtain ⟨rounds', current', hnew⟩ := inRounds_subscribe opening h hguard
    exact ⟨rounds', current', by simpa [processed] using hnew⟩
  | select => exact hquiet _ rfl rfl rfl (by rw [hguard.1]; rfl) (by simp [Started.exec])
  | leave closeSend =>
    obtain ⟨rounds', hnew⟩ := h.leave (t := s.exec (.leave closeSend)) closeSend .ctxDone
      (by rw [hguard.1]; rfl) rfl rfl rfl rfl (by simp [Started.exec])
    exact ⟨rounds', none, by simpa [processed, Started.calls] using hnew⟩
  | recv resp =>
    have hphase : s.phase = .receiving := hguard
    exact hquiet _ rfl rfl rfl (by rw [hphase]; rfl) (by simp [Started.exec])
  | fail err closeSend =>
    have hphase : s.phase = .receiving := hguard
    obtain ⟨rounds', hnew⟩ := h.leave (t := s.exec (.fail err closeSend)) closeSend
      (.error err) (by rw [hphase]; rfl) rfl rfl rfl rfl (by simp [Started.exec])
    exact ⟨rounds', none, by simpa [processed, Started.calls] using hnew⟩
  | process reply =>
    cases hphase : s.phase with
    | processing resp =>
      obtain ⟨current', hnew⟩ := h.process reply hphase
      exact ⟨rounds, current', hnew⟩
    | _ => simp [Started.guard, Phase.response, hphase] at hguard
  | retry =>
    obtain ⟨⟨err, hphase⟩, -⟩ := hguard
    exact hquiet _ rfl rfl rfl (by rw [hphase]; rfl) (by simp [Started.exec])
  | exit =>
    have hphase : s.phase.subscribed = false := by
      rcases hguard.1 with hpolling | ⟨err, hfailed⟩
      · rw [hpolling]
        rfl
      · rw [hfailed]
        rfl
    exact hquiet _ rfl rfl rfl hphase.symm (by simp [Started.exec])
  | returnErr =>
    have hidle : s.phase ≠ .idle := by
      intro hidle
      exact hguard.1 (by rw [hidle]; rfl)
    exact hquiet _ rfl rfl rfl rfl hidle
  | returnDone => exact hquiet _ rfl rfl rfl rfl hguard.1

end Step

theorem received_eq {s : Started} {es : List LoopEvent} (hrun : collectorLoop.Run .new es s) :
    collectorLoop.trace received .new es =
      (collectorLoop.trace processed .new es).map Prod.fst ++ s.phase.response.toList := by
  refine hrun.history (H := fun es s => collectorLoop.trace received .new es =
    (collectorLoop.trace processed .new es).map Prod.fst ++ s.phase.response.toList) rfl ?_
  intro es m e t hm ih hst
  have hguard : m.guard e := hst.1
  rw [hm.trace_snoc _ hst, hm.trace_snoc _ hst, ih]
  obtain rfl := eq_exec hst
  cases e with
  | start consumerID ctxErr => simp [received, processed, Started.exec, Phase.response,
      show m.phase = .idle from hguard]
  | ctxDone err => simp [received, processed, Started.exec]
  | poll => simp [received, processed, Started.exec, Phase.response, hguard.1]
  | subscribe opening =>
    have hphase : m.phase = .opening := hguard
    cases herr : Started.openingErr opening <;>
      simp [received, processed, Started.exec, Phase.response, hphase, herr]
  | select => simp [received, processed, Started.exec, Phase.response, hguard.1]
  | leave closeSend => simp [received, processed, Started.exec, Phase.response, hguard.1]
  | recv resp =>
    have hphase : m.phase = .receiving := hguard
    simp [received, processed, Started.exec, Phase.response, hphase]
  | fail err closeSend =>
    have hphase : m.phase = .receiving := hguard
    simp [received, processed, Started.exec, Phase.response, hphase]
  | process reply =>
    cases hphase : m.phase with
    | processing resp => simp [received, processed, Started.exec, Phase.response, hphase]
    | _ => simp [Started.guard, Phase.response, hphase] at hguard
  | retry =>
    obtain ⟨⟨err, hphase⟩, -⟩ := hguard
    simp [received, processed, Started.exec, Phase.response, hphase]
  | exit =>
    rcases hguard.1 with hphase | ⟨err, hphase⟩ <;>
      simp [received, processed, Started.exec, Phase.response, hphase]
  | returnErr => simp [received, processed, Started.exec]
  | returnDone => simp [received, processed, Started.exec]

variable (decode config) in
theorem inRounds_run {s : Started} {es : List LoopEvent} (hrun : collectorLoop.Run .new es s) :
    ∃ rounds current, InRounds decode config (allCalls decode config es)
      (collectorLoop.trace processed .new es) s rounds current := by
  refine hrun.history (H := fun es s => ∃ rounds current, InRounds decode config
    (allCalls decode config es) (collectorLoop.trace processed .new es) s rounds current) ?_ ?_
  · exact ⟨[], none, List.forall_mem_nil _, rfl, rfl, rfl, fun _ => rfl⟩
  · intro es m e t hm ⟨rounds, current, ih⟩ hst
    have hcalls : allCalls decode config (es ++ [e]) =
        allCalls decode config es ++ m.calls decode config e := by
      simp [allCalls, hm.trace_snoc _ hst]
    rw [hcalls, hm.trace_snoc _ hst]
    exact inRounds_step ih hst

/-- In every run of the goroutine, its calls are those of `processSubscription`, one call of it
after another: all but the last of them have returned, and the last one goes on just while a stream
is open. Each response is processed in the round that received it, once and in order. -/
theorem loop_rounds {s : Started} {es : List LoopEvent} (hrun : collectorLoop.Run .new es s) :
    ∃ rounds : List Round,
      allCalls decode config es =
        rounds.flatMap (fun r => (r.run decode config s.consumerID).1) ∧
      (∀ r ∈ rounds.dropLast, (r.run decode config s.consumerID).2 ≠ .waiting) ∧
      (s.phase.subscribed = true ↔
        ∃ r ∈ rounds, (r.run decode config s.consumerID).2 = .waiting) ∧
      rounds.flatMap Round.handled = collectorLoop.trace processed .new es ∧
      collectorLoop.trace received .new es =
        (rounds.flatMap Round.handled).map Prod.fst ++ s.phase.response.toList := by
  obtain ⟨rounds, current, h⟩ := inRounds_run decode config hrun
  refine ⟨rounds ++ (current.map Round.underWay).toList, h.calls, ?_, ?_, h.handled.symm, ?_⟩
  · cases current with
    | none =>
      intro r hr
      exact h.returned r (List.mem_of_mem_dropLast (by simpa using hr))
    | some open_ =>
      intro r hr
      exact h.returned r (by simpa using hr)
  · rw [← h.current]
    cases current with
    | none => simpa using h.returned
    | some open_ =>
      refine ⟨fun _ => ⟨Round.underWay open_, by simp, ?_⟩, fun _ => rfl⟩
      rw [run_underWay]
  · rw [← h.handled]
    exact received_eq hrun

end Rounds

/-- A refused subscription, and one that breaks off after a heartbeat and a response. -/
def twoRounds : List LoopEvent :=
  [.start "gpu-node" none, .poll, .subscribe ⟨some "unavailable", none, none⟩, .retry, .poll,
    .subscribe ⟨none, none, none⟩, .select, .recv ⟨[], true⟩, .process goodReply, .select,
    .recv ⟨[⟨"m", "t", [], none⟩], false⟩, .process goodReply, .select, .fail "EOF" none, .retry]
where
  goodReply : Reply := ⟨"b", ⟨9, 0⟩, none, none, fun _ => none, fun _ => none⟩

theorem loop_rounds_twoRounds : ∃ s, collectorLoop.Run .new twoRounds s ∧
    ∃ rounds : List Round,
      allCalls (fun _ => some (MemoryStorage.sample "u" "h" 1)) ⟨"t", 1, 1, 1⟩ twoRounds =
        rounds.flatMap (fun r => (r.run (fun _ => some (MemoryStorage.sample "u" "h" 1))
          ⟨"t", 1, 1, 1⟩ "gpu-node").1) ∧
      (rounds.flatMap Round.handled).map Prod.fst =
        [⟨[], true⟩, ⟨[⟨"m", "t", [], none⟩], false⟩] := by
  obtain ⟨s, hrun, hid, hphase⟩ := Machine.exists_run (M := collectorLoop)
    (fun s => s.consumerID = "gpu-node" ∧ s.phase = .polling) .new twoRounds (by decide)
  obtain ⟨rounds, hcalls, -, -, -, hreceived⟩ := @loop_rounds
    (fun _ => some (MemoryStorage.sample "u" "h" 1)) ⟨"t", 1, 1, 1⟩ s twoRounds hrun
  rw [hphase, show Phase.response .polling = none from rfl, Option.toList_none,
    List.append_nil] at hreceived
  exact ⟨s, hrun, rounds, hid ▸ hcalls, hreceived.symm⟩

end GpuTel.Telemetry.Collector
