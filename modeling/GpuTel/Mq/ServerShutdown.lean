import GpuTel.Mq.Server
import GpuTel.Mq.StreamMessages

/-!
# The graceful shutdown

When the store is closed no handler is running any more. The channel of a connected subscriber is
therefore never closed under it, and what holds of its stream while the store is open holds in every
run of the server.
-/

set_option autoImplicit false

namespace GpuTel.Mq

open Fifo Transition

namespace Broker

/-- Where the handler of a subscribed stream is done, its client had gone. -/
def LeftDone (b : Broker) : Prop :=
  ∀ i, (b.streams i).channel ≠ none →
    (b.streams i).phase = .leaving ∨ (b.streams i).phase = .finished → (b.streams i).ctxDone = true

theorem leftDone_step {b t : Broker} {e : BrokerEvent} (h : b.LeftDone)
    (hst : broker.Step b e t) : t.LeftDone := by
  intro i hi hphase
  have hm := step_moves hst i
  generalize t.streams i = s at hm hi hphase
  cases hm with
  | other hacts => exact h i hi hphase
  | start hconfig heq => exact absurd rfl hi
  | send hsending => simp [Stream.send, hsending] at hphase
  | disconnect hlt hdone => rfl
  | leave hserving hdone => exact hdone
  | remove hleaving => exact h i hi (Or.inl hleaving)
  | _ => simp at hphase

theorem leftDone_run {b : Broker} {es : List BrokerEvent} (hrun : broker.Run init es b) :
    b.LeftDone := by
  refine hrun.invariant (fun _ _ _ h hst => leftDone_step h hst) ?_
  intro i hi
  exact absurd rfl hi

theorem finished_step {b t : Broker} {e : BrokerEvent} {i : Nat}
    (h : (b.streams i).phase = .finished) (he : ∀ req newID, e ≠ .start req newID)
    (hst : broker.Step b e t) : (t.streams i).phase = .finished := by
  have hm := step_moves hst i
  generalize t.streams i = s at hm
  cases hm with
  | other hacts => exact h
  | start hconfig heq => exact absurd rfl (he _ _)
  | send hsending => simp [h] at hsending
  | disconnect hlt hdone => exact h
  | remove hleaving => rfl
  | subscribe hadded => simp [h] at hadded
  | receive hserving => simp [h] at hserving
  | leave hserving => simp [h] at hserving

section Open

variable {b : Broker} {es : List BrokerEvent} (hrun : broker.Run init es b)
variable (hopen : ∀ e ∈ es, ∀ order, e ≠ .close order) {i c : Nat} (hlive : b.Live i c)
include hrun hopen hlive

theorem isOpen_of_live : (b.messageStore.subs c).ch.closed = false :=
  (inv_run hrun).store.isOpen (hlive.registered hrun hopen)

theorem none_notMem_taken : none ∉ (b.streams i).taken := by
  intro hnil
  have hclosed := (inv_run hrun).drained hlive.1 hnil
  rw [isOpen_of_live hrun hopen hlive] at hclosed
  cases hclosed

theorem trace_accepted_of_live :
    broker.trace (accepted c) init es = broker.trace (offered i) init es := by
  apply hrun.trace_congr
  rintro before e after m rfl hbefore hrest
  have hm := inv_run hbefore
  rcases hlive.before hm hrest with hearlier | ⟨hnone, hge⟩
  · have hreg := hearlier.registered hbefore fun f hf => hopen f (List.mem_append_left _ hf)
    exact (offered_eq_accepted hm hearlier.1 hreg e).symm
  · rw [accepted_eq_none hm hge, offered_of_channel_eq_none hnone]

end Open

end Broker

namespace Server

/-- Nothing is left to do, and nothing will be. -/
structure Idle (s : Server) : Prop where
  publishing : s.publishing.flatten = []
  acknowledging : s.acknowledging.flatten = []
  finished : ∀ i, (s.services.streams i).phase = .finished

variable {s t : Server} {e : ServerEvent} {es : List ServerEvent}

theorem finished_of_quiet (hinv : s.services.Inv) (h : s.Quiet) (i : Nat) :
    (s.services.streams i).phase = .finished := by
  rcases Nat.lt_or_ge i s.services.opened with hlt | hge
  · exact h.2.2 i hlt
  · rw [hinv.unopened hge]
    rfl

theorem next_eq_none {α : Type} {l : Lanes α} (h : l.flatten = []) (j : Nat) :
    Lanes.next l j = none := by
  cases hnext : Lanes.next l j with
  | none => rfl
  | some a =>
    have hperm := Lanes.perm_take hnext
    rw [h] at hperm
    exact absurd hperm.length_eq (by simp)

theorem flatten_cut {α : Type} {l : Lanes α} (h : l.flatten = []) (j : Nat) :
    (Lanes.step l (.cut j)).flatten = [] :=
  List.sublist_nil.mp (h ▸ Lanes.cut_sublist l j)

theorem not_close_of_internal {d : BrokerEvent} (h : Internal d) (order : List (String × Nat)) :
    d ≠ .close order := by
  rintro rfl
  exact h

theorem not_start_of_internal {d : BrokerEvent} (h : Internal d) (req : SubscribeRequest)
    (newID : String) : d ≠ .start req newID := by
  rintro rfl
  exact h

theorem not_start_of_stopping (hphase : s.phase ≠ .serving) (hguard : s.callGuard e)
    (req : SubscribeRequest) (newID : String) : s.brokerEvent e ≠ some (.start req newID) := by
  intro hd
  cases e with
  | subscribeCall req' newID' => exact hphase hguard
  | handler d => exact not_start_of_internal hguard req newID (Option.some.inj hd)
  | _ => simp [brokerEvent] at hd

section Step

variable (hst : server.Step s e t)
include hst

theorem publishing_step :
    t.publishing = (s.publishOp e).elim s.publishing (Lanes.step s.publishing) := by
  rw [step_advance hst]
  rfl

theorem acknowledging_step :
    t.acknowledging = (s.acknowledgeOp e).elim s.acknowledging (Lanes.step s.acknowledging) := by
  rw [step_advance hst]
  rfl

theorem finished_of_step {i : Nat} (h : (s.services.streams i).phase = .finished)
    (he : ∀ req newID, s.brokerEvent e ≠ some (.start req newID)) :
    (t.services.streams i).phase = .finished := by
  cases hd : s.brokerEvent e with
  | none =>
    rw [step_broker_of_none hst hd]
    exact h
  | some d =>
    apply Broker.finished_step h _ (step_broker hst hd)
    rintro req newID rfl
    exact he req newID hd

theorem idle_step (h : s.Idle) (hphase : s.phase ≠ .serving) : t.Idle := by
  have hnext := next_eq_none h.publishing
  have hnext' := next_eq_none h.acknowledging
  have hguard : s.callGuard e := hst.1.1
  refine ⟨?_, ?_, ?_⟩
  · rw [publishing_step hst]
    cases e with
    | publishCall reqs => exact absurd hguard hphase
    | publish j newID now order => exact absurd (hnext j) hguard
    | publishEnd j => exact flatten_cut h.publishing j
    | _ => exact h.publishing
  · rw [acknowledging_step hst]
    cases e with
    | acknowledgeCall reqs => exact absurd hguard hphase
    | acknowledge j => exact absurd (hnext' j) hguard
    | acknowledgeEnd j => exact flatten_cut h.acknowledging j
    | _ => exact h.acknowledging
  · intro i
    exact finished_of_step hst (h.finished i) (not_start_of_stopping hphase hguard)

theorem idle_of_stopped_step (hinv : s.services.Inv) (h : s.phase = .stopped → s.Idle)
    (hstopped : t.phase = .stopped) : t.Idle := by
  have hguard : s.callGuard e := hst.1.1
  rw [step_phase hst] at hstopped
  cases e with
  | close order =>
    obtain ⟨hphase, hquiet⟩ := hguard
    exact idle_step hst ⟨hquiet.1, hquiet.2.1, finished_of_quiet hinv hquiet⟩ (by simp [hphase])
  | gracefulStop => cases hstopped
  | _ =>
    have hphase : s.phase = .stopped := hstopped
    exact idle_step hst (h hphase) (by simp [hphase])

omit hst in
theorem brokerEvent_ne_close (hguard : s.callGuard e) (hclose : ∀ order, e ≠ .close order)
    (order : List (String × Nat)) : s.brokerEvent e ≠ some (.close order) := by
  intro hd
  cases e with
  | close order' => exact hclose order' rfl
  | handler d => exact not_close_of_internal hguard order (Option.some.inj hd)
  | _ => simp [brokerEvent] at hd

end Step

theorem services_inv (hrun : server.Run init es s) : s.services.Inv :=
  Broker.inv_run (toBroker.run hrun)

theorem exists_step (hinv : s.services.Inv) (hg : s.guard e) :
    ∃ t, server.Step s e t := by
  cases hd : s.brokerEvent e with
  | none => exact ⟨s.advance e, hg, by simp [server, exec, hd]⟩
  | some d =>
    obtain ⟨b, hb⟩ := Broker.exists_step hinv (hg.2 d hd)
    have hexec : s.services.exec d = .ok b := hb.2
    refine ⟨{ s.advance e with services := b }, hg, ?_⟩
    simp only [server, exec, hd, hexec]
    rfl

theorem idle_of_stopped (hrun : server.Run init es s) (h : s.phase = .stopped) : s.Idle := by
  refine hrun.history (H := fun _ s => s.phase = .stopped → s.Idle) (fun hcontra => ?_) ?_ h
  · cases hcontra
  · intro es m e t hm ih hst ht
    exact idle_of_stopped_step hst (services_inv hm) ih ht

theorem open_of_not_stopped (hrun : server.Run init es s) (h : s.phase ≠ .stopped) :
    ∀ d ∈ server.trace brokerEvent init es, ∀ order, d ≠ .close order := by
  refine hrun.history (H := fun es s => s.phase ≠ .stopped →
    ∀ d ∈ server.trace brokerEvent init es, ∀ order, d ≠ .close order) ?_ ?_ h
  · intro _ d hd
    cases hd
  · intro es m e t hm ih hst ht d hd order
    rw [step_phase hst] at ht
    have hclose : ∀ order, e ≠ .close order := by
      rintro order' rfl
      exact ht rfl
    have hm' : m.phase ≠ .stopped := by
      intro hstopped
      have hguard : m.callGuard e := hst.1.1
      cases e with
      | gracefulStop => simp [callGuard, hstopped] at hguard
      | close order' => exact hclose order' rfl
      | _ => exact ht hstopped
    rw [hm.trace_snoc _ hst] at hd
    rcases List.mem_append.mp hd with hold | hnew
    · exact ih hm' d hold order
    · rintro rfl
      exact brokerEvent_ne_close hst.1.1 hclose order (Option.mem_toList.mp hnew)

theorem not_stopped_of_live (hrun : server.Run init es s) {i c : Nat}
    (hlive : s.services.Live i c) :
    s.phase ≠ .stopped := by
  intro hstopped
  have hleft : s.services.LeftDone := Broker.leftDone_run (toBroker.run hrun)
  have hfinished := (idle_of_stopped hrun hstopped).finished i
  have hdone := hleft i (by simp [hlive.1]) (Or.inr hfinished)
  rw [hlive.2] at hdone
  cases hdone

theorem broker_run_of_live (hrun : server.Run init es s) {i c : Nat}
    (hlive : s.services.Live i c) :
    broker.Run Broker.init (server.trace brokerEvent init es) s.services ∧
      ∀ d ∈ server.trace brokerEvent init es, ∀ order, d ≠ .close order :=
  ⟨toBroker.run hrun, open_of_not_stopped hrun (not_stopped_of_live hrun hlive)⟩

/-- The messages offered to stream `i` along a run of the server. -/
def offered (i : Nat) (s : Server) (e : ServerEvent) : Option Message :=
  (s.brokerEvent e).bind (Broker.offered i s.services)

/-- The sent messages of a connected stream, the one in its handler's hands and its buffer are what
was offered to it. -/
theorem live_delivery (hrun : server.Run init es s) {i c : Nat} (hlive : s.services.Live i c) :
    (s.services.streams i).sent.flatMap (fun r => r.1.messages) ++
        (s.services.streams i).phase.inHand ++ (s.services.messageStore.subs c).ch.buf.map some =
      (server.trace (offered i) init es).map some := by
  obtain ⟨hbroker, hopen⟩ := broker_run_of_live hrun hlive
  have htrace := (Broker.trace_accepted_of_live hbroker hopen hlive).trans
    (toBroker.trace hrun (Broker.offered i))
  have htaken := Broker.map_some_reduceOption (Broker.none_notMem_taken hbroker hopen hlive)
  have hfifo := Broker.taken_append_buf hbroker (Or.inl hlive.1)
  calc (s.services.streams i).taken ++ (s.services.messageStore.subs c).ch.buf.map some =
        ((s.services.streams i).taken.reduceOption ++
          (s.services.messageStore.subs c).ch.buf).map some := by rw [List.map_append, htaken]
    _ = (server.trace (offered i) init es).map some := by
        rw [hfifo, htrace]
        rfl

theorem message_of_sent (hrun : server.Run init es s) {i c : Nat} (hlive : s.services.Live i c)
    {r : SubscribeResponse × Bool} (hr : r ∈ (s.services.streams i).sent) :
    ∃ msg, r.1 = ⟨[some msg], false⟩ := by
  obtain ⟨msg, hmsg⟩ := Broker.single_run (toBroker.run hrun) i r hr
  have hmem : msg ∈ (s.services.streams i).sent.flatMap fun r => r.1.messages :=
    List.mem_flatMap.mpr ⟨r, hr, by simp [hmsg]⟩
  have hreal : msg ∈ (server.trace (offered i) init es).map some := by
    rw [← live_delivery hrun hlive]
    exact List.mem_append_left _ (List.mem_append_left _ hmem)
  obtain ⟨m, -, rfl⟩ := List.mem_map.mp hreal
  exact ⟨m, hmsg⟩

/-- In every run of the server, its shutdown included, and for every stream whose client is
connected: the channel is registered and open; every response that was sent has exactly one message;
and these messages, then the one in the handler's hands, then those waiting in the channel are, in
order, the messages published on its topic since it subscribed while its channel had room. When the
server has stopped, no client is connected, no request waits and every handler has returned, and it
remains so. -/
theorem graceful_shutdown (hrun : server.Run init es s) :
    (∀ i c, s.services.Live i c →
      s.services.messageStore.Registered c ∧ (s.services.messageStore.subs c).ch.closed = false ∧
      (∀ r ∈ (s.services.streams i).sent, ∃ msg, r.1 = ⟨[some msg], false⟩) ∧
      (s.services.streams i).sent.flatMap (fun r => r.1.messages) ++
          (s.services.streams i).phase.inHand ++
          (s.services.messageStore.subs c).ch.buf.map some =
        (server.trace (offered i) init es).map some) ∧
    (s.phase = .stopped → s.Idle ∧ (∀ i c, ¬ s.services.Live i c) ∧
      ∀ after t, server.Run s after t → t.phase = .stopped ∧ t.Idle) := by
  refine ⟨?_, ?_⟩
  · intro i c hlive
    obtain ⟨hbroker, hopen⟩ := broker_run_of_live hrun hlive
    have hreg := hlive.registered hbroker hopen
    refine ⟨hreg, (services_inv hrun).store.isOpen hreg, ?_, live_delivery hrun hlive⟩
    intro r hr
    exact message_of_sent hrun hlive hr
  · intro hstopped
    refine ⟨idle_of_stopped hrun hstopped, ?_, ?_⟩
    · intro i c hlive
      exact not_stopped_of_live hrun hlive hstopped
    · intro after t hafter
      have hphase : t.phase = .stopped := by
        refine hafter.invariant (I := fun s => s.phase = .stopped) ?_ hstopped
        intro s e t hs hst
        have hguard : s.callGuard e := hst.1.1
        rw [step_phase hst]
        cases e with
        | gracefulStop => simp [callGuard, hs] at hguard
        | close order => rfl
        | _ => exact hs
      exact ⟨hphase, idle_of_stopped (hrun.append hafter) hphase⟩

/-- One subscriber leaves before the shutdown, and one while it is waited for. -/
def shutdown : List ServerEvent :=
  [.subscribeCall ⟨"t", "c", 0, 0, 0, ∅⟩ "", .handler (.subscribe 0),
    .publishCall [⟨some ⟨"m", "t", [], none⟩, true, 5⟩], .gracefulStop, .publish 0 "" ⟨0, 0⟩ [0],
    .handler (.receive 0), .handler (.send 0 true)]

def departure : List ServerEvent :=
  [.handler (.disconnect 0), .handler (.leave 0), .handler (.remove 0), .close [("t", 0)],
    .handler (.cleanUp 0)]

theorem graceful_shutdown_departure : ∃ s t, server.Run init shutdown s ∧
    server.Run s departure t ∧ s.services.Live 0 0 ∧ t.phase = .stopped ∧
    (s.services.messageStore.subs 0).ch.closed = false ∧ t.Idle := by
  obtain ⟨s, t, hs, ht, hlive, hstopped⟩ := Machine.exists_run_run (M := server)
    (fun s t => s.services.Live 0 0 ∧ t.phase = .stopped) init shutdown departure (by decide)
  exact ⟨s, t, hs, ht, hlive, hstopped, ((graceful_shutdown hs).1 0 0 hlive).2.1,
    ((graceful_shutdown (hs.append ht)).2 hstopped).1⟩

end Server

end GpuTel.Mq
