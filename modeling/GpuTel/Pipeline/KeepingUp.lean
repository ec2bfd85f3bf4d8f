import GpuTel.Mq.Backlog
import GpuTel.Pipeline.Connections

/-!
# Keeping up

While a connection lasts and no `Send` fails, the reads of the sink and the steps of its handler are
all that a published record waits for. None of them can be put off for ever but by the scheduler,
and nothing else is needed for the sink to have collected all that was offered to it.
-/

set_option autoImplicit false

namespace GpuTel

open GpuTel.Mq GpuTel.Telemetry Fifo Transition

namespace Pipeline

variable {env : Environment} {p q : Pipeline} {es after : List PipelineEvent} {e : PipelineEvent}
variable {k i ch : Nat}

/-- What is left to do until sink `k` has read all that is on the way to it. -/
def backlog (p : Pipeline) (k : Nat) : Nat :=
  (p.connection k).elim 0 fun c => p.queue.services.backlog c.stream c.received

/-- Sink `k` reads a response, or the handler of stream `i` moves a message on. -/
def CatchesUp (k i : Nat) : PipelineEvent → Prop
  | .recv j _ => j = k
  | .queue (.handler d) => Broker.Forwards i d
  | _ => False

instance (k i : Nat) : DecidablePred (CatchesUp k i)
  | .recv j _ => inferInstanceAs (Decidable (j = k))
  | .queue (.handler d) => inferInstanceAs (Decidable (Broker.Forwards i d))
  | .queue (.publishCall _) | .queue (.publish _ _ _ _) | .queue (.publishEnd _)
  | .queue (.acknowledgeCall _) | .queue (.acknowledge _) | .queue (.acknowledgeEnd _)
  | .queue (.subscribeCall _ _) | .queue .gracefulStop | .queue (.close _)
  | .startStreamer _ _ | .tick _ _ | .startSink _ _ _ _ | .connect _ _ | .giveUp _ =>
    .isFalse fun h => h

/-- Sink `k` is connected to stream `i`, the queue counts it as connected, and no `Send` on the
stream failed. -/
structure Steady (k i ch : Nat) (p : Pipeline) : Prop where
  connection : ∃ n, p.connection k = some ⟨i, n⟩
  live : p.queue.services.Live i ch
  sends : ∀ r ∈ (p.queue.services.streams i).sent, r.2 = true

theorem exists_step (hinv : p.queue.services.Inv) (hg : p.guard env e) :
    ∃ q, (pipeline env).Step p e q := by
  cases hd : p.serverEvent env e with
  | none => exact ⟨p.advance env e, hg, by simp [pipeline, exec, hd]⟩
  | some d =>
    obtain ⟨s, hs⟩ := Server.exists_step hinv (hg.2 d hd)
    have hexec : p.queue.exec d = .ok s := hs.2
    refine ⟨{ p.advance env e with queue := s }, hg, ?_⟩
    simp only [pipeline, exec, hd, hexec]
    rfl

theorem label_handler (p : Pipeline) (d : BrokerEvent) :
    (toBroker env).label p (.queue (.handler d)) = some d := rfl

theorem catchesUp_iff {d : BrokerEvent} (hd : (toBroker env).label p e = some d)
    (hrecv : ∀ reply, e ≠ .recv k reply) : CatchesUp k i e ↔ Broker.Forwards i d := by
  have hnot : ∀ {d : BrokerEvent}, (∀ j, d ≠ .receive j) → (∀ j ok, d ≠ .send j ok) →
      ¬ Broker.Forwards i d := by
    rintro d hreceive hsend (rfl | rfl)
    · exact hreceive i rfl
    · exact hsend i true rfl
  cases e with
  | queue e =>
    cases e with
    | handler d' =>
      rw [label_handler] at hd
      rw [Option.some.inj hd]
      rfl
    | publish j newID now order =>
      simp only [toBroker, Simulation.trans, toServer, serverEvent, Server.toBroker,
        Server.brokerEvent, Option.bind_some, Option.map_eq_some_iff] at hd
      obtain ⟨req, -, rfl⟩ := hd
      exact iff_of_false id (hnot (by simp) (by simp))
    | acknowledge j =>
      simp only [toBroker, Simulation.trans, toServer, serverEvent, Server.toBroker,
        Server.brokerEvent, Option.bind_some, Option.map_eq_some_iff] at hd
      obtain ⟨req, -, rfl⟩ := hd
      exact iff_of_false id (hnot (by simp) (by simp))
    | subscribeCall req newID =>
      obtain rfl := Option.some.inj hd
      exact iff_of_false id (hnot (by simp) (by simp))
    | close order =>
      obtain rfl := Option.some.inj hd
      exact iff_of_false id (hnot (by simp) (by simp))
    | _ => cases hd
  | connect j newID =>
    obtain ⟨sink, -, rfl⟩ := label_connect hd
    exact iff_of_false id (hnot (by simp) (by simp))
  | recv j reply =>
    rw [label_recv] at hd
    cases hd
  | tick j tick =>
    simp only [toBroker, Simulation.trans, toServer, serverEvent, Server.toBroker] at hd
    split at hd <;> cases hd
  | _ => cases hd

theorem catchesUp_of_none (hd : (toBroker env).label p e = none)
    (hrecv : ∀ reply, e ≠ .recv k reply) : ¬ CatchesUp k i e := by
  intro he
  cases e with
  | recv j reply => exact hrecv reply (by rw [show j = k from he])
  | queue e =>
    cases e with
    | handler d => cases hd
    | _ => exact he
  | _ => exact he

section Step

variable (hrun : (pipeline env).Run init es p) (hst : (pipeline env).Step p e q)
include hrun hst

theorem services_backlog_step {n : Nat} (hp : Steady k i ch p) (hq : Steady k i ch q)
    (hn : n ≤ (p.queue.services.streams i).delivered.length) (hrecv : ∀ reply, e ≠ .recv k reply) :
    q.queue.services.backlog i n + (if CatchesUp k i e then 1 else 0) =
      p.queue.services.backlog i n + 3 * (offered env i p e).toList.length := by
  unfold offered
  cases hd : (toBroker env).label p e with
  | none =>
    rw [step_services_of_none hst hd, if_neg (catchesUp_of_none hd hrecv)]
    rfl
  | some d =>
    have hstep := step_services hst hd
    obtain ⟨hbroker, hopen⟩ := Server.broker_run_of_live ((toServer env).run hrun) hp.live
    have hreg := hp.live.registered hbroker hopen
    have hafter := Server.broker_run_of_live ((toServer env).run (hrun.snoc hst)) hq.live
    have hreal := Broker.none_notMem_taken hafter.1 hafter.2 hq.live
    have haccepted := Broker.offered_eq_accepted (services_inv launched_init hrun) hp.live.1 hreg d
    have hone := Broker.backlog_step (services_inv launched_init hrun) hstep (Or.inl hq.live.1)
      hreal hn (Broker.ne_send_false hstep hq.sends)
    rw [Option.bind_some, haccepted, ← hone, if_congr (catchesUp_iff hd hrecv) rfl rfl]

theorem backlog_step (hp : Steady k i ch p) (hq : Steady k i ch q) :
    q.backlog k + (if CatchesUp k i e then 1 else 0) =
      p.backlog k + 3 * (offered env i p e).toList.length := by
  obtain ⟨n, hn⟩ := hp.connection
  obtain ⟨n', hn'⟩ := hq.connection
  have hle := (readsInOrder_run hrun).received_le hn
  have hlink := step_link hst k
  rw [backlog, backlog, hn, hn', Option.elim_some, Option.elim_some]
  rw [hn'] at hlink
  generalize hsome : some (⟨i, n'⟩ : Connection) = link at hlink
  cases hlink with
  | keep hrecv =>
    obtain rfl := (Connection.mk.inj (Option.some.inj (hsome.trans hn))).2
    exact services_backlog_step hrun hst hp hq hle hrecv
  | lose hrecv => cases hsome
  | connect hnone =>
    rw [hn] at hnone
    cases hnone
  | @recv reply c r hc hr =>
    obtain rfl := Option.some.inj (hn.symm.trans hc)
    obtain rfl := (Connection.mk.inj (Option.some.inj hsome)).2
    have hsame : q.queue.services = p.queue.services :=
      step_services_of_none hst (label_recv p k reply)
    obtain ⟨hlt, -⟩ := List.getElem?_eq_some_iff.mp hr
    have hoffered : offered env i p (.recv k reply) = none := by simp [offered, label_recv]
    rw [hsame, hoffered, if_pos (show CatchesUp k i (.recv k reply) from rfl)]
    simp only at hlt
    simp only [Broker.backlog, Option.toList_none, List.length_nil]
    omega

theorem steady_step (hp : Steady k i ch p) (he : CatchesUp k i e) : Steady k i ch q := by
  obtain ⟨n, hn⟩ := hp.connection
  have hlink := step_link hst k
  cases e with
  | recv j reply =>
    obtain rfl : j = k := he
    have hsame : q.queue.services = p.queue.services :=
      step_services_of_none hst (label_recv p j reply)
    refine ⟨?_, hsame ▸ hp.live, hsame ▸ hp.sends⟩
    generalize q.connection j = link at hlink
    cases hlink with
    | keep hrecv => exact absurd rfl (hrecv reply)
    | lose hrecv => exact absurd rfl (hrecv reply)
    | recv hc hr =>
      obtain rfl := Option.some.inj (hn.symm.trans hc)
      exact ⟨_, rfl⟩
  | queue e =>
    cases e with
    | handler d =>
      have hstep := step_services hst (label_handler p d)
      have hsend : d ≠ .send i false := by
        rintro rfl
        rcases (show Broker.Forwards i (.send i false) from he) with h | h <;> cases h
      refine ⟨⟨n, ?_⟩, Broker.live_of_forwards (services_inv launched_init hrun) hstep hp.live he,
        Broker.sent_of_moves (Broker.step_moves hstep i) hp.sends hsend⟩
      rw [connection, step_sinks hst]
      exact hn
    | _ => exact he.elim
  | _ => exact he.elim

end Step

def Reached (env : Environment) (p : Pipeline) : Prop := ∃ es, (pipeline env).Run init es p

theorem Reached.step (hp : Reached env p) (hst : (pipeline env).Step p e q) : Reached env q := by
  obtain ⟨es, hrun⟩ := hp
  exact ⟨es ++ [e], hrun.snoc hst⟩

theorem offered_of_catchesUp (he : CatchesUp k i e) : offered env i p e = none := by
  cases e with
  | recv j reply => simp [offered, label_recv]
  | queue e =>
    cases e with
    | handler d => rcases (show Broker.Forwards i d from he) with rfl | rfl <;> rfl
    | _ => exact he.elim
  | _ => exact he.elim

theorem catchesUp_step (hp : Reached env p ∧ Steady k i ch p) (hst : (pipeline env).Step p e q)
    (he : CatchesUp k i e) :
    (Reached env q ∧ Steady k i ch q) ∧ q.backlog k + 1 = p.backlog k := by
  obtain ⟨⟨es, hrun⟩, hsteady⟩ := hp
  have hq := steady_step hrun hst hsteady he
  have hone := backlog_step hrun hst hsteady hq
  rw [if_pos he, offered_of_catchesUp he] at hone
  exact ⟨⟨⟨es ++ [e], hrun.snoc hst⟩, hq⟩, hone⟩

theorem exists_catchesUp (hreached : Reached env p) (hp : Steady k i ch p)
    (h : p.backlog k ≠ 0) : ∃ e q, CatchesUp k i e ∧ (pipeline env).Step p e q := by
  obtain ⟨es, hrun⟩ := hreached
  obtain ⟨n, hn⟩ := hp.connection
  have hinv := services_inv launched_init hrun
  rw [backlog, hn, Option.elim_some] at h
  simp only at h
  by_cases hread : n < (p.queue.services.streams i).delivered.length
  · let reply : Collector.Reply := ⟨"", ⟨0, 0⟩, none, none, fun _ => none, fun _ => none⟩
    have hnext : p.nextResponse k = some (p.queue.services.streams i).delivered[n] := by
      rw [nextResponse, hn, Option.bind_some]
      exact List.getElem?_eq_getElem hread
    have hg : p.guard env (.recv k reply) := by
      refine ⟨⟨by rw [hnext]; rfl, rfl⟩, ?_⟩
      intro d hd
      simp only [serverEvent] at hd
      split at hd
      · rename_i hserving
        obtain rfl := Option.some.inj hd
        exact ⟨hserving.1, fun d hd => by cases hd⟩
      · cases hd
    obtain ⟨q, hst⟩ := exists_step hinv hg
    exact ⟨.recv k reply, q, rfl, hst⟩
  · have hleft := Broker.leftDone_run ((toBroker env).run hrun)
    have hwork : p.queue.services.buffered i ≠ [] ∨
        (p.queue.services.streams i).phase.inHand ≠ [] := by
      by_contra hnot
      obtain ⟨hbuf, hhand⟩ := not_or.mp hnot
      simp only [Broker.backlog, not_not.mp hbuf, not_not.mp hhand, List.length_nil] at h
      omega
    obtain ⟨d, hd, hguard⟩ := Broker.exists_forwards hinv hleft hp.live hwork
    have hg : p.guard env (.queue (.handler d)) := by
      refine ⟨trivial, ?_⟩
      rintro e' he'
      obtain rfl := Option.some.inj he'
      refine ⟨?_, ?_⟩
      · rcases hd with rfl | rfl <;> exact trivial
      · intro d' hd'
        obtain rfl := Option.some.inj hd'
        exact hguard
    obtain ⟨q, hst⟩ := exists_step hinv hg
    exact ⟨.queue (.handler d), q, hd, hst⟩

theorem ahead_of_backlog_eq_zero (h : p.backlog k = 0) : p.ahead k = [] := by
  unfold backlog at h
  unfold ahead
  cases hc : p.connection k with
  | none => rfl
  | some c =>
    rw [hc, Option.elim_some, Broker.backlog] at h
    have hbuf : p.queue.services.buffered c.stream = [] := List.length_eq_zero_iff.mp (by omega)
    have hhand : (p.queue.services.streams c.stream).phase.inHand = [] :=
      List.length_eq_zero_iff.mp (by omega)
    have hdrop : (p.queue.services.streams c.stream).delivered.drop c.received = [] :=
      List.drop_eq_nil_iff.mpr (by omega)
    rw [Option.elim_some, Broker.ahead, Stream.front, hbuf, hhand, hdrop]
    rfl

/-- In every run of the pipeline, and for as long as a sink stays connected to its stream and no
`Send` fails: each of the reads of the sink, and of the receives and sends of its handler, takes one
off the backlog, each message offered to the stream adds three to it, and nothing else changes it.
When it is zero, the sink has collected on this connection exactly the records offered to the
stream. And it can be made zero from every such state, by as many of these steps as it counts. -/
theorem keeps_up (hrun : (pipeline env).Run init es p) (hafter : (pipeline env).Run p after q)
    (hsteady : (pipeline env).Throughout (Steady k i ch) p after) :
    after.countP (fun e => CatchesUp k i e) + q.backlog k =
        p.backlog k + 3 * ((pipeline env).trace (offered env i) p after).length ∧
    (q.backlog k = 0 →
      ((pipeline env).trace (collectedFrom env k i) init (es ++ after)).flatten =
        ((pipeline env).trace (offered env i) init (es ++ after)).filterMap (decodePayload env)) ∧
    ∃ rest r, (pipeline env).Run q rest r ∧ (∀ e ∈ rest, CatchesUp k i e) ∧
      rest.length = q.backlog k ∧ Steady k i ch r ∧ r.backlog k = 0 := by
  have hq : Steady k i ch q := hsteady after [] q (List.append_nil after).symm hafter
  have hstart : Reached env p := ⟨es, hrun⟩
  refine ⟨?_, ?_, ?_⟩
  · exact hafter.count_add_work (w := fun p => p.backlog k) (fun _ _ _ hp hst => hp.step hst)
      (fun _ _ _ ⟨_, hes⟩ hp hq hst => backlog_step hes hst hp hq) hstart hsteady
  · intro hzero
    obtain ⟨n, hn⟩ := hq.connection
    have hall := readFrom_append_ahead (hrun.append hafter) hn hq.live hq.sends
    rw [ahead_of_backlog_eq_zero hzero, List.append_nil] at hall
    rw [collectedFrom_eq (hrun.append hafter), hall]
  · have hreached : Reached env q := ⟨es ++ after, hrun.append hafter⟩
    obtain ⟨rest, r, hrest, hcatch, hlen, ⟨-, hr⟩, hzero⟩ :=
      Machine.exists_run_of_work (M := pipeline env) (L := CatchesUp k i)
        (I := fun p => Reached env p ∧ Steady k i ch p) (w := fun p => p.backlog k)
        (fun _ _ _ he hp hst => catchesUp_step hp hst he)
        (fun _ hp hwork => exists_catchesUp hp.1 hp.2 hwork) ⟨hreached, hq⟩
    exact ⟨rest, r, hrest, hcatch, hlen, hr, hzero⟩

/-- One more record, at the end of `twoSinks`, for a sink that has read everything so far. -/
theorem keeps_up_twoSinks : ∃ p q, p.backlog 0 = 0 ∧ q.backlog 0 = 3 ∧
    (pipeline oneEnvironment).Run p [.queue (.publish 2 "" ⟨0, 0⟩ [0, 1, 2])] q ∧
    ∃ rest r, (pipeline oneEnvironment).Run q rest r ∧ (∀ e ∈ rest, CatchesUp 0 2 e) ∧
      rest.length = 3 ∧ r.backlog 0 = 0 := by
  obtain ⟨p, q, hrun, hafter, hp, hq, hconnp, hconnq, hlivep, hliveq, hsendsp, hsendsq⟩ :=
    Machine.exists_run_run (M := pipeline oneEnvironment)
      (fun p q => p.backlog 0 = 0 ∧ q.backlog 0 = 3 ∧ p.connection 0 = some ⟨2, 1⟩ ∧
        q.connection 0 = some ⟨2, 1⟩ ∧ p.queue.services.Live 2 2 ∧ q.queue.services.Live 2 2 ∧
        (∀ r ∈ (p.queue.services.streams 2).sent, r.2 = true) ∧
        ∀ r ∈ (q.queue.services.streams 2).sent, r.2 = true) init
      (twoSinks ++ [.tick 0 (Api.oneTick "a")]) [.queue (.publish 2 "" ⟨0, 0⟩ [0, 1, 2])]
      (by decide +kernel)
  obtain ⟨m, hst, hnil⟩ := Machine.Run.cons_iff.mp hafter
  obtain rfl := Machine.Run.nil_iff.mp hnil
  have hsteadyp : Steady 0 2 2 p := ⟨⟨1, hconnp⟩, hlivep, hsendsp⟩
  have hsteadyq : Steady 0 2 2 q := ⟨⟨1, hconnq⟩, hliveq, hsendsq⟩
  have hsteady := (Machine.throughout_cons hst).mpr
    ⟨hsteadyp, Machine.throughout_nil.mpr hsteadyq⟩
  obtain ⟨-, -, rest, r, hrest, hcatch, hlen, -, hzero⟩ := keeps_up hrun hafter hsteady
  exact ⟨p, q, hp, hq, hafter, rest, r, hrest, hcatch, hlen.trans hq, hzero⟩

end Pipeline

end GpuTel
