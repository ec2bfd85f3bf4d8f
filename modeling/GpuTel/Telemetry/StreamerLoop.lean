import GpuTel.Lib.Fifo
import GpuTel.Telemetry.CursorBounds
import GpuTel.Telemetry.SentRecords

/-!
# Start and Stop of the streamer

The loop of `Start` selects between its context, `Stop` and its ticker, and runs a tick at a time.
The ticker remembers one tick at most, so that those that come while a batch is being sent are
dropped. `Stop` closes a channel and then the connection, and waits for nothing.
-/

set_option autoImplicit false

namespace GpuTel.Telemetry

open Fifo Transition

namespace Streamer

/-- What ends the process. -/
inductive Crash where
  | nonPositiveInterval
  | closeOfClosed
  | tick (panic : Panic)
  deriving DecidableEq, Repr

/-- Where `Start` is. A tick under way began before or after the connection was closed. -/
inductive StartPhase where
  | idle
  | selecting
  | ticking (closed : Bool)
  | returned (err : Option String)
  deriving DecidableEq, Repr

def StartPhase.running : StartPhase → Bool
  | .selecting | .ticking _ => true
  | _ => false

def StartPhase.ticks : StartPhase → Nat
  | .ticking _ => 1
  | _ => 0

/-- A streamer with its channels. `Start` is called once, from one goroutine. -/
structure Started where
  streamer : Streamer
  streamInterval : Int
  done : Chan Unit 0
  closed : Bool
  ctxErr : Option String
  ticker : Chan Unit 1
  phase : StartPhase

inductive LoopEvent where
  | start
  | fire
  | ctxDone (err : String)
  | stop
  | closeConn (err : Option String)
  | exitCtx
  | exitDone
  | select
  | process (tick : Tick)

namespace Started

def new (s : Streamer) (streamInterval : Int) : Started :=
  ⟨s, streamInterval, .make, false, none, .make, .idle⟩

def exec (lib : Library) (s : Started) : LoopEvent → Except Crash Started
  | .start =>
    if s.streamInterval ≤ 0 then .error .nonPositiveInterval
    else .ok { s with ticker := .make, phase := .selecting }
  | .fire => .ok { s with ticker := s.ticker.offer () }
  | .ctxDone err => .ok { s with ctxErr := s.ctxErr.or (some err) }
  | .stop =>
    match s.done.close with
    | .error _ => .error .closeOfClosed
    | .ok done => .ok { s with done := done }
  | .closeConn _ => .ok { s with closed := true }
  | .exitCtx => .ok { s with phase := .returned s.ctxErr }
  | .exitDone => .ok { s with phase := .returned none }
  | .select => .ok { s with ticker := s.ticker.afterReceive, phase := .ticking s.closed }
  | .process tick =>
    match collectAndProcess lib s.streamer tick with
    | .error panic => .error (.tick panic)
    | .ok processed => .ok { s with streamer := processed.streamer, phase := .selecting }

/-- A connection that is closed opens no stream. -/
def processGuard (tick : Tick) : StartPhase → Prop
  | .ticking closed => closed = true → tick.publish ≠ none
  | _ => False

/-- The ticker is stopped when `Start` returns, and its channel is never closed. Only the call of
`Stop` that closed `done` gets to close the connection. -/
def guard (s : Started) : LoopEvent → Prop
  | .start => s.phase = .idle
  | .fire => s.phase.running = true
  | .ctxDone _ | .stop => True
  | .closeConn _ => s.done.closed = true ∧ s.closed = false
  | .exitCtx => s.phase = .selecting ∧ s.ctxErr ≠ none
  | .exitDone => s.phase = .selecting ∧ s.done.Ready
  | .select => s.phase = .selecting ∧ s.ticker.buf ≠ []
  | .process tick => processGuard tick s.phase

instance (tick : Tick) : (phase : StartPhase) → Decidable (processGuard tick phase)
  | .ticking _ => inferInstanceAs (Decidable (_ → _))
  | .idle | .selecting | .returned _ => .isFalse fun h => h

instance (s : Started) : (e : LoopEvent) → Decidable (s.guard e)
  | .start | .fire => inferInstanceAs (Decidable (_ = _))
  | .ctxDone _ | .stop => .isTrue trivial
  | .closeConn _ | .exitCtx | .exitDone | .select => inferInstanceAs (Decidable (_ ∧ _))
  | .process tick => inferInstanceAs (Decidable (processGuard tick s.phase))

end Started

end Streamer

def streamerLoop (lib : Library) :
    Machine Streamer.Started Streamer.LoopEvent Streamer.Crash :=
  ⟨Streamer.Started.guard, Streamer.Started.exec lib⟩

instance (lib : Library) (s : Streamer.Started) (e : Streamer.LoopEvent) :
    Decidable ((streamerLoop lib).guard s e) :=
  inferInstanceAs (Decidable (s.guard e))

namespace Streamer

def ended : LoopEvent → Option Tick
  | .process tick => some tick
  | _ => none

def fires : LoopEvent → Bool
  | .fire => true
  | _ => false

def begins : LoopEvent → Bool
  | .select => true
  | _ => false

/-- The ticker fires while it still remembers a tick. -/
def dropped (s : Started) : LoopEvent → Option Unit
  | .fire => s.ticker.buf.head?
  | _ => none

def sentBy (lib : Library) (s : Started) : LoopEvent → Option (List Mq.PublishRequest)
  | .process tick => some (sentRequests lib s.streamer tick)
  | _ => none

variable {lib : Library} {s t u : Started} {e : LoopEvent} {es : List LoopEvent}

/-- What a label can do, and when. -/
inductive Moves (lib : Library) (s : Started) : LoopEvent → Started → Prop where
  | start : s.phase = .idle → 0 < s.streamInterval →
      Moves lib s .start { s with ticker := .make, phase := .selecting }
  | fire : s.phase.running = true → Moves lib s .fire { s with ticker := s.ticker.offer () }
  | ctxDone {err : String} :
      Moves lib s (.ctxDone err) { s with ctxErr := s.ctxErr.or (some err) }
  | stop : s.done.closed = false →
      Moves lib s .stop { s with done := { s.done with closed := true } }
  | closeConn {err : Option String} : s.done.closed = true → s.closed = false →
      Moves lib s (.closeConn err) { s with closed := true }
  | exitCtx : s.phase = .selecting → s.ctxErr ≠ none →
      Moves lib s .exitCtx { s with phase := .returned s.ctxErr }
  | exitDone : s.phase = .selecting → s.done.closed = true →
      Moves lib s .exitDone { s with phase := .returned none }
  | select : s.phase = .selecting → s.ticker.buf = [()] →
      Moves lib s .select { s with ticker := s.ticker.afterReceive, phase := .ticking s.closed }
  | process {tick : Tick} {closed : Bool} {u : Streamer} : s.phase = .ticking closed →
      (closed = true → tick.publish ≠ none) → (streamer lib).Step s.streamer tick u →
      Moves lib s (.process tick) { s with streamer := u, phase := .selecting }

theorem closed_of_ready (h : s.done.Ready) : s.done.closed = true := by
  rcases h with hbuf | hclosed
  · exact absurd (List.length_eq_zero_iff.mp (Nat.le_zero.mp s.done.fits)) hbuf
  · exact hclosed

theorem buf_eq (h : s.ticker.buf ≠ []) : s.ticker.buf = [()] := by
  have hfits := s.ticker.fits
  cases hbuf : s.ticker.buf with
  | nil => exact absurd hbuf h
  | cons x rest =>
    rw [hbuf, List.length_cons] at hfits
    rw [List.length_eq_zero_iff.mp (by omega : rest.length = 0)]

theorem moves_of_step (hst : (streamerLoop lib).Step s e t) : Moves lib s e t := by
  have hguard : s.guard e := hst.1
  have hexec : s.exec lib e = .ok t := hst.2
  cases e with
  | start =>
    simp only [Started.exec] at hexec
    split at hexec
    · cases hexec
    · rename_i hpos
      obtain rfl := Except.ok.inj hexec
      exact .start hguard (by omega)
  | stop =>
    cases hclosed : s.done.closed with
    | true => simp [Started.exec, Chan.close, hclosed] at hexec
    | false =>
      simp only [Started.exec, Chan.close_ok hclosed] at hexec
      obtain rfl := Except.ok.inj hexec
      exact .stop hclosed
  | process tick =>
    simp only [Started.exec] at hexec
    cases hok : collectAndProcess lib s.streamer tick with
    | error panic => simp [hok] at hexec
    | ok processed =>
      rw [hok] at hexec
      obtain rfl := Except.ok.inj hexec
      have htick : (streamer lib).Step s.streamer tick processed.streamer :=
        ⟨trivial, by simp [streamer, hok, Except.map]⟩
      cases hphase : s.phase with
      | ticking closed =>
        have hpublish : Started.processGuard tick s.phase := hguard
        rw [hphase] at hpublish
        exact .process hphase hpublish htick
      | _ => simp [Started.guard, Started.processGuard, hphase] at hguard
  | exitDone =>
    obtain rfl := Except.ok.inj hexec
    exact .exitDone hguard.1 (closed_of_ready hguard.2)
  | select =>
    obtain rfl := Except.ok.inj hexec
    exact .select hguard.1 (buf_eq hguard.2)
  | fire =>
    obtain rfl := Except.ok.inj hexec
    exact .fire hguard
  | ctxDone err =>
    obtain rfl := Except.ok.inj hexec
    exact .ctxDone
  | closeConn err =>
    obtain rfl := Except.ok.inj hexec
    exact .closeConn hguard.1 hguard.2
  | exitCtx =>
    obtain rfl := Except.ok.inj hexec
    exact .exitCtx hguard.1 hguard.2

/-- `Start` returns what made it return. -/
structure Returns (s : Started) : Prop where
  ofCtx : ∀ err, s.phase = .returned (some err) → s.ctxErr = some err
  ofStop : s.phase = .returned none → s.done.closed = true

theorem returns_step (h : Returns s) (hst : (streamerLoop lib).Step s e t) : Returns t := by
  cases moves_of_step hst with
  | ctxDone =>
    refine ⟨?_, h.ofStop⟩
    intro err hphase
    simp [h.ofCtx err hphase]
  | exitCtx hphase hdone =>
    refine ⟨fun err herr => StartPhase.returned.inj herr, ?_⟩
    intro hnone
    exact absurd (StartPhase.returned.inj hnone) hdone
  | exitDone hphase hclosed => exact ⟨by simp, fun _ => hclosed⟩
  | stop hopen => exact ⟨h.ofCtx, fun _ => rfl⟩
  | fire | closeConn => exact ⟨h.ofCtx, h.ofStop⟩
  | start | select | process => exact ⟨by simp, by simp⟩

theorem filterMap_ended_snoc (es : List LoopEvent) (e : LoopEvent) :
    (es ++ [e]).filterMap ended = es.filterMap ended ++ (ended e).toList := by
  rw [List.filterMap_append]
  cases e <;> rfl

/-- Each tick that fired has been run, is under way, is remembered or was dropped. -/
structure Accounts (lib : Library) (s₀ : Started) (es : List LoopEvent) (t : Started) : Prop where
  fires : es.countP fires = (es.filterMap ended).length + t.phase.ticks + t.ticker.buf.length +
    ((streamerLoop lib).trace dropped s₀ es).length
  idle : t.phase = .idle → t.ticker.buf = []

theorem accounts_step {s₀ : Started} (hs : (streamerLoop lib).Run s₀ es s)
    (h : Accounts lib s₀ es s) (hst : (streamerLoop lib).Step s e t) :
    Accounts lib s₀ (es ++ [e]) t := by
  have hfires := h.fires
  have hsnoc := hs.trace_snoc dropped hst
  have hmoves := moves_of_step hst
  constructor
  · rw [hsnoc, List.countP_append, filterMap_ended_snoc, List.length_append, List.length_append]
    cases hmoves with
    | start hidle hpos =>
      have hbuf := h.idle hidle
      simpa [fires, ended, dropped, StartPhase.ticks, hidle, hbuf, Chan.make] using hfires
    | fire hrunning =>
      rw [Chan.offer_buf]
      cases hbuf : s.ticker.buf with
      | nil =>
        simp [fires, ended, dropped, hbuf] at hfires ⊢
        omega
      | cons x rest =>
        simp [fires, ended, dropped, hbuf] at hfires ⊢
        omega
    | select hphase hbuf =>
      simp [fires, ended, dropped, StartPhase.ticks, hphase, hbuf] at hfires ⊢
      omega
    | process hphase =>
      simp [fires, ended, dropped, StartPhase.ticks, hphase] at hfires ⊢
      omega
    | exitCtx hphase | exitDone hphase =>
      simpa [fires, ended, dropped, StartPhase.ticks, hphase] using hfires
    | ctxDone | stop | closeConn => simpa [fires, ended, dropped] using hfires
  · intro hidle
    cases hmoves with
    | fire hrunning =>
      rw [show s.phase = .idle from hidle] at hrunning
      cases hrunning
    | ctxDone | stop | closeConn => exact h.idle hidle
    | start | select | process | exitCtx | exitDone => cases hidle

theorem accounts_run {s₀ : Started} (hidle : s₀.ticker.buf = []) (hphase : s₀.phase.ticks = 0)
    (hrun : (streamerLoop lib).Run s₀ es t) : Accounts lib s₀ es t := by
  refine hrun.history (H := Accounts lib s₀) ⟨by simp [Machine.trace, hidle, hphase], ?_⟩ ?_
  · exact fun _ => hidle
  · intro es m e t hm h hst
    exact accounts_step hm h hst

theorem ticks_run {s₀ : Started} (hrun : (streamerLoop lib).Run s₀ es t) :
    (streamer lib).Run s₀.streamer (es.filterMap ended) t.streamer := by
  refine hrun.history (H := fun es t =>
    (streamer lib).Run s₀.streamer (es.filterMap ended) t.streamer) (.nil _) ?_
  intro es m e t _ ih hst
  rw [filterMap_ended_snoc]
  cases moves_of_step hst with
  | process _ _ htick => exact ih.snoc htick
  | _ => simpa [ended] using ih

theorem returned_run {err : Option String} (hphase : t.phase = .returned err)
    (hrun : (streamerLoop lib).Run t es u) :
    es.filterMap ended = [] ∧ u.phase = .returned err := by
  refine hrun.history (H := fun es u => es.filterMap ended = [] ∧ u.phase = .returned err)
    ⟨rfl, hphase⟩ ?_
  intro es m e u _ ⟨hnil, hm⟩ hst
  rw [filterMap_ended_snoc, hnil]
  cases moves_of_step hst with
  | fire | ctxDone | stop | closeConn => exact ⟨rfl, hm⟩
  | start hidle => simp [hm] at hidle
  | exitCtx hselecting | exitDone hselecting | select hselecting => simp [hm] at hselecting
  | process hticking => simp [hm] at hticking

/-- In every run of `Start`, however its timer, its context and `Stop` are timed: the streamer goes
through a run of ticks, each tick that fired has been run, is under way, is remembered or was
dropped while one was remembered, and nothing is run after `Start` has returned, which it does with
the error of its context, or without one if `Stop` was called. -/
theorem start_accounts {s₀ : Streamer} {streamInterval : Int}
    (hrun : (streamerLoop lib).Run (.new s₀ streamInterval) es t) :
    (streamer lib).Run s₀ (es.filterMap ended) t.streamer ∧
      es.countP fires = (es.filterMap ended).length + t.phase.ticks + t.ticker.buf.length +
        ((streamerLoop lib).trace dropped (.new s₀ streamInterval) es).length ∧
      Returns t ∧
      ∀ err, t.phase = .returned err → ∀ fs u, (streamerLoop lib).Run t fs u →
        fs.filterMap ended = [] ∧ u.phase = .returned err := by
  have hreturns : Returns (.new s₀ streamInterval) := by
    constructor
    · intro err hphase
      cases hphase
    · intro hphase
      cases hphase
  refine ⟨ticks_run hrun, (accounts_run rfl rfl hrun).fires, ?_, ?_⟩
  · exact hrun.invariant (fun _ _ _ h hst => returns_step h hst) hreturns
  · intro err hphase fs u hfs
    exact returned_run hphase hfs

theorem begins_step (hst : (streamerLoop lib).Step s e t) :
    (if begins e then 1 else 0) + t.ticker.buf.length ≤
      (if fires e then 1 else 0) + s.ticker.buf.length := by
  cases moves_of_step hst with
  | fire =>
    rw [Chan.offer_buf]
    cases hbuf : s.ticker.buf <;> simp [begins, fires]
  | select hphase hbuf => simp [begins, fires, hbuf]
  | start => simp [begins, Chan.make]
  | _ => simp [begins]

theorem begins_le (hrun : (streamerLoop lib).Run s es t) :
    es.countP begins + t.ticker.buf.length ≤ es.countP fires + s.ticker.buf.length := by
  induction hrun with
  | nil => exact le_refl _
  | @cons s m t e es hst _ ih =>
    have hone := begins_step hst
    rw [List.countP_cons, List.countP_cons]
    omega

/-- The connection is closed, and no tick is under way that began before. -/
def Cut (s : Started) : Prop := s.closed = true ∧ s.phase ≠ .ticking false

theorem cut_step (h : Cut s) (hst : (streamerLoop lib).Step s e t) :
    Cut t ∧ (sentBy lib s e).toList.flatten = [] := by
  obtain ⟨hclosed, hphase⟩ := h
  cases moves_of_step hst with
  | @process tick closed u hticking hpublish _ =>
    refine ⟨⟨hclosed, by simp⟩, ?_⟩
    have hrefused : tick.publish ≠ none := by
      apply hpublish
      by_contra hopen
      rw [Bool.not_eq_true] at hopen
      exact hphase (hopen ▸ hticking)
    simp [sentBy, sentRequests_of_refused lib s.streamer hrefused]
  | select => exact ⟨⟨hclosed, by simp [hclosed]⟩, rfl⟩
  | start | exitCtx | exitDone => exact ⟨⟨hclosed, by simp⟩, rfl⟩
  | fire | ctxDone | stop | closeConn => exact ⟨⟨by simp [hclosed], hphase⟩, rfl⟩

theorem cut_run (h : Cut s) (hrun : (streamerLoop lib).Run s es t) :
    ((streamerLoop lib).trace (sentBy lib) s es).flatten = [] := by
  induction hrun with
  | nil => rfl
  | @cons s m t e es hst _ ih =>
    obtain ⟨hm, hone⟩ := cut_step h hst
    rw [Machine.trace_cons _ hst, List.flatten_append, hone, ih hm]
    rfl

theorem stopped_run (hdone : s.done.closed = true) (hrun : (streamerLoop lib).Run s es t) :
    t.done.closed = true := by
  refine hrun.invariant (I := fun t => t.done.closed = true) ?_ hdone
  intro m e t hm hst
  cases moves_of_step hst with
  | stop => rfl
  | _ => exact hm

theorem exists_exit (hdone : s.done.closed = true) (hphase : s.phase = .selecting) :
    ∃ t, (streamerLoop lib).Step s .exitDone t ∧ t.phase = .returned none :=
  ⟨_, ⟨⟨hphase, Or.inr hdone⟩, rfl⟩, rfl⟩

section Endless

variable (lib) {b : Int64}

def refused : Tick :=
  ⟨⟨some "", .error "", .error ""⟩, some "the client connection is closing",
    fun _ => ⟨.zero, 0, ⟨0, 0⟩⟩, fun _ => none, none⟩

structure Safe (b : Int64) (s : Streamer) : Prop where
  ready : Ready b s
  nonneg : 0 ≤ b.toInt
  fits : s.metrics.length < 2 ^ 62

theorem Safe.tick {s : Streamer} (h : Safe b s) :
    ∃ t, (streamer lib).Step s refused t ∧ Safe b t := by
  by_cases hnil : s.metrics = []
  · have hload : ensureLoaded lib s refused.file =
        .ok (.error "failed to open metrics file: ") := by
      rw [ensureLoaded, if_pos hnil]
      rfl
    refine ⟨s, ⟨trivial, ?_⟩, h⟩
    simp [streamer, collectAndProcess, hload, bind, Except.bind, Except.map]
  · have hload : ensureLoaded lib s refused.file = .ok (.ok s) := if_neg hnil
    have hfits := h.fits
    have hsum := h.ready.add_lt hfits
    have hin := (h.ready.inBounds_iff (by omega)).mpr ⟨h.nonneg, hsum⟩
    have hend := endIdx_le s
    have hbatch := nextBatch_of_inBounds (by omega) hin
    refine ⟨{ s with currentIdx := s.endIdx }, ⟨trivial, ?_⟩, h.ready.nextBatch hbatch, h.nonneg,
      hfits⟩
    simp only [streamer, collectAndProcess_of_loaded lib hload, hbatch, Except.map]

theorem exists_process {closed : Bool} (hphase : s.phase = .ticking closed)
    (h : Safe b s.streamer) : ∃ t, (streamerLoop lib).Step s (.process refused) t ∧
      t.phase = .selecting ∧ Safe b t.streamer := by
  obtain ⟨u, htick, hu⟩ := h.tick lib
  obtain ⟨batch, calls, hok⟩ := ok_of_step lib htick
  refine ⟨{ s with streamer := u, phase := .selecting }, ⟨?_, ?_⟩, rfl, hu⟩
  · show Started.processGuard refused s.phase
    rw [hphase]
    exact fun _ => by simp [refused]
  · simp [streamerLoop, Started.exec, hok]

theorem exists_round (hphase : s.phase = .selecting) (h : Safe b s.streamer) :
    ∃ t, (streamerLoop lib).Run s [.fire, .select, .process refused] t ∧
      t.phase = .selecting ∧ Safe b t.streamer := by
  have hbuf : (s.ticker.offer ()).buf ≠ [] := by
    rw [Chan.offer_buf]
    split
    · simp
    · rename_i hfull
      intro hnil
      simp [hnil] at hfull
  have hfire : (streamerLoop lib).Step s .fire { s with ticker := s.ticker.offer () } :=
    ⟨by simp [streamerLoop, Started.guard, hphase, StartPhase.running], rfl⟩
  have hselect : (streamerLoop lib).Step { s with ticker := s.ticker.offer () } .select
      { s with ticker := (s.ticker.offer ()).afterReceive, phase := .ticking s.closed } :=
    ⟨⟨hphase, hbuf⟩, rfl⟩
  obtain ⟨t, hprocess, ht⟩ := exists_process lib
    (s := { s with ticker := (s.ticker.offer ()).afterReceive, phase := .ticking s.closed }) rfl h
  exact ⟨t, .cons hfire (.cons hselect (.single hprocess)), ht⟩

theorem exists_rounds (hphase : s.phase = .selecting) (h : Safe b s.streamer) (n : Nat) :
    ∃ es t, (streamerLoop lib).Run s es t ∧ es.countP begins = n ∧ t.phase = .selecting := by
  induction n generalizing s with
  | zero => exact ⟨[], s, .nil s, rfl, hphase⟩
  | succ n ih =>
    obtain ⟨m, hround, hm, hsafe⟩ := exists_round lib hphase h
    obtain ⟨es, t, hes, hcount, ht⟩ := ih hm hsafe
    refine ⟨_, t, hround.append hes, ?_, ht⟩
    have hone : [LoopEvent.fire, .select, .process refused].countP begins = 1 := rfl
    rw [List.countP_append, hcount, hone]
    omega

end Endless

/-- From the moment when `Stop` was called: a tick begins only if the timer fires or had fired,
those that begin after the connection is closed send nothing, and at each select `Start` can return.
But nothing makes it: while the timer fires, any number of ticks can be run, which move the cursor.
-/
theorem after_stop {b : Int64} {s₀ : Streamer} {streamInterval : Int}
    (hbatch : s₀.config.batchSize = b.toInt) (hidx : s₀.currentIdx = 0)
    (hrun : (streamerLoop lib).Run (.new s₀ streamInterval) es s) (hdone : s.done.closed = true) :
    (∀ fs t, (streamerLoop lib).Run s fs t →
      fs.countP begins + t.ticker.buf.length ≤ fs.countP fires + s.ticker.buf.length ∧
      (Cut s → ((streamerLoop lib).trace (sentBy lib) s fs).flatten = []) ∧
      (t.phase = .selecting → ∃ u, (streamerLoop lib).Step t .exitDone u ∧
        u.phase = .returned none)) ∧
    (s.phase.running = true → 0 ≤ b.toInt → s.streamer.metrics.length < 2 ^ 62 →
      ∀ n, ∃ fs t, (streamerLoop lib).Run s fs t ∧ fs.countP begins = n ∧
        t.phase = .selecting) := by
  constructor
  · intro fs t hfs
    exact ⟨begins_le hfs, fun hcut => cut_run hcut hfs, exists_exit (stopped_run hdone hfs)⟩
  · intro hrunning hnonneg hfits n
    have hready : Ready b s.streamer := ready_run lib (ready_of_start hbatch hidx) (ticks_run hrun)
    have hsafe : Safe b s.streamer := ⟨hready, hnonneg, hfits⟩
    cases hphase : s.phase with
    | selecting => exact exists_rounds lib hphase hsafe n
    | ticking closed =>
      obtain ⟨m, hprocess, hm, hsafe'⟩ := exists_process lib hphase hsafe
      obtain ⟨fs, t, hfs, hcount, ht⟩ := exists_rounds lib hm hsafe' n
      refine ⟨_, t, .cons hprocess hfs, ?_, ht⟩
      rw [List.countP_cons, hcount]
      rfl
    | idle => simp [hphase, StartPhase.running] at hrunning
    | returned err => simp [hphase, StartPhase.running] at hrunning

/-- `Stop` is called while the first batch is being sent, and the timer fires twice meanwhile. -/
def stopped : List LoopEvent :=
  [.start, .fire, .select, .fire, .fire, .stop, .closeConn none, .process threeRowsFile]

theorem start_accounts_stopped : ∃ t,
    (streamerLoop plainLibrary).Run (.new ⟨⟨2⟩, [], 0⟩ 1) stopped t ∧ t.phase = .selecting ∧
      (streamer plainLibrary).Run ⟨⟨2⟩, [], 0⟩ [threeRowsFile] t.streamer ∧
      stopped.countP fires = 1 + t.phase.ticks + t.ticker.buf.length +
        ((streamerLoop plainLibrary).trace dropped (.new ⟨⟨2⟩, [], 0⟩ 1) stopped).length := by
  obtain ⟨t, hrun, hphase⟩ := Machine.exists_run (M := streamerLoop plainLibrary)
    (fun t => t.phase = .selecting) (.new ⟨⟨2⟩, [], 0⟩ 1) stopped (by decide)
  obtain ⟨hticks, hfires, -⟩ := start_accounts hrun
  exact ⟨t, hrun, hphase, hticks, hfires⟩

theorem after_stop_stopped : ∃ s t,
    (streamerLoop plainLibrary).Run (.new ⟨⟨2⟩, [], 0⟩ 1) stopped s ∧ Cut s ∧
      (streamerLoop plainLibrary).Run s [.select, .process refused, .exitDone] t ∧
      t.streamer.currentIdx = 3 ∧
      ((streamerLoop plainLibrary).trace (sentBy plainLibrary) s
        [.select, .process refused, .exitDone]).flatten = [] ∧
      ∃ fs u, (streamerLoop plainLibrary).Run s fs u ∧ fs.countP begins = 100 := by
  obtain ⟨s, t, hs, ht, hdone, hcut, hrunning, hfits, hidx⟩ :=
    Machine.exists_run_run (M := streamerLoop plainLibrary)
      (fun s t => s.done.closed = true ∧ (s.closed = true ∧ s.phase ≠ .ticking false) ∧
        s.phase.running = true ∧ s.streamer.metrics.length < 2 ^ 62 ∧ t.streamer.currentIdx = 3)
      (.new ⟨⟨2⟩, [], 0⟩ 1) stopped [.select, .process refused, .exitDone] (by decide)
  obtain ⟨hsafety, hendless⟩ := after_stop (b := 2) rfl rfl hs hdone
  obtain ⟨fs, u, hfs, hcount, -⟩ := hendless hrunning (by decide) hfits 100
  exact ⟨s, t, hs, hcut, ht, hidx, (hsafety _ t ht).2.1 hcut, fs, u, hfs, hcount⟩

end Streamer

end GpuTel.Telemetry
