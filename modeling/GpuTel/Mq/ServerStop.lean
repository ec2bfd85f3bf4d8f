import GpuTel.Mq.ServerShutdown
import Mathlib.Algebra.Order.BigOperators.Group.Finset

/-!
# How long the graceful shutdown takes

`GracefulStop` waits for the handlers. Those of `Publish` and `Acknowledge` come to an end with the
requests of their calls, but that of a subscription only returns when its client goes: `Stop` does
not end the subscriptions, it is their clients that let it return.
-/

set_option autoImplicit false

namespace GpuTel.Mq

open Fifo Transition

namespace Phase

/-- How many steps of its own the handler of a gone client takes to return. -/
def toReturn : Phase → Nat
  | added | sending _ => 3
  | serving => 2
  | leaving => 1
  | finished => 0

end Phase

namespace Broker

/-- The client of stream `i` is still there, and the handler has not left its loop. -/
def Attached (b : Broker) (i : Nat) : Prop :=
  i < b.opened ∧ (b.streams i).ctxDone = false ∧
    (b.streams i).phase ≠ .leaving ∧ (b.streams i).phase ≠ .finished

instance (b : Broker) (i : Nat) : Decidable (b.Attached i) :=
  inferInstanceAs (Decidable (_ ∧ _ ∧ _ ∧ _))

/-- A step of a handler towards its end. -/
inductive Returns : BrokerEvent → Nat → Prop where
  | subscribe (i : Nat) : Returns (.subscribe i) i
  | send (i : Nat) (ok : Bool) : Returns (.send i ok) i
  | leave (i : Nat) : Returns (.leave i) i
  | remove (i : Nat) : Returns (.remove i) i

def toReturn (b : Broker) : Nat := ∑ i ∈ Finset.range b.opened, (b.streams i).phase.toReturn

variable {b t : Broker} {e : BrokerEvent} {i : Nat}

theorem opened_step (hst : broker.Step b e t) (he : ∀ req newID, e ≠ .start req newID) :
    t.opened = b.opened := by
  rw [(step_advance hst).2]
  cases e with
  | start req newID => exact absurd rfl (he req newID)
  | _ => rfl

theorem streams_step (hst : broker.Step b e t) (hacts : actsOn e ≠ some i)
    (he : ∀ req newID, e ≠ .start req newID) : t.streams i = b.streams i := by
  have hm := step_moves hst i
  generalize t.streams i = s at hm ⊢
  cases hm with
  | other h => rfl
  | start hconfig heq => exact absurd rfl (he _ _)
  | _ => exact absurd rfl hacts

theorem attached_step (h : b.Attached i) (he : e ≠ .disconnect i) (hst : broker.Step b e t) :
    t.Attached i := by
  obtain ⟨hlt, hctx, hleaving, hfinished⟩ := h
  refine ⟨Nat.lt_of_lt_of_le hlt (opened_le_step hst), ?_⟩
  have hm := step_moves hst i
  generalize t.streams i = s at hm ⊢
  cases hm with
  | other hacts => exact ⟨hctx, hleaving, hfinished⟩
  | start hconfig heq => exact ⟨rfl, by simp, by simp⟩
  | subscribe hphase => exact ⟨hctx, by simp, by simp⟩
  | receive hphase hchannel => exact ⟨hctx, by simp, by simp⟩
  | send hphase => simp [Stream.send, hphase, hctx]
  | disconnect hlt' hdone => exact absurd rfl he
  | leave hphase hdone => simp [hctx] at hdone
  | remove hphase => exact absurd hphase hleaving

theorem attached_of_step (h : t.Attached i) (he : ∀ req newID, e ≠ .start req newID)
    (hst : broker.Step b e t) : b.Attached i ∧ e ≠ .disconnect i := by
  obtain ⟨hlt, hctx, hleaving, hfinished⟩ := h
  rw [opened_step hst he] at hlt
  have hm := step_moves hst i
  generalize t.streams i = s at hm hctx hleaving hfinished
  cases hm with
  | other hacts => exact ⟨⟨hlt, hctx, hleaving, hfinished⟩, fun h => hacts (by rw [h]; rfl)⟩
  | start hconfig heq => exact absurd rfl (he _ _)
  | subscribe hphase => exact ⟨⟨hlt, hctx, by simp [hphase], by simp [hphase]⟩, by simp⟩
  | receive hphase hchannel => exact ⟨⟨hlt, hctx, by simp [hphase], by simp [hphase]⟩, by simp⟩
  | send hphase =>
    rw [Stream.send, hphase] at hctx
    exact ⟨⟨hlt, hctx, by simp [hphase], by simp [hphase]⟩, by simp⟩
  | disconnect hlt' hdone => cases hctx
  | leave hphase hdone => exact absurd rfl hleaving
  | remove hphase => exact absurd rfl hfinished

theorem toReturn_of_moves {s : Stream} (he : Returns e i) (hm : Moves b i e s) :
    s.phase.toReturn < (b.streams i).phase.toReturn := by
  cases hm with
  | other hacts => cases he <;> exact absurd rfl hacts
  | subscribe hphase => simp [hphase, Phase.toReturn]
  | send hphase => simp [Stream.send, hphase, Phase.toReturn]
  | leave hphase hdone => simp [hphase, Phase.toReturn]
  | remove hphase => simp [hphase, Phase.toReturn]
  | _ => cases he

theorem toReturn_step (hinv : b.Inv) (he : Returns e i) (hst : broker.Step b e t) :
    t.toReturn < b.toReturn := by
  have hstart : ∀ req newID, e ≠ .start req newID := by
    rintro req newID rfl
    cases he
  have hself := toReturn_of_moves he (step_moves hst i)
  have hlt : i < b.opened := by
    by_contra hge
    rw [hinv.unopened (Nat.le_of_not_lt hge)] at hself
    exact absurd hself (Nat.not_lt_zero _)
  unfold toReturn
  rw [opened_step hst hstart]
  refine Finset.sum_lt_sum ?_ ⟨i, Finset.mem_range.mpr hlt, hself⟩
  intro j _
  by_cases hj : j = i
  · subst hj
    exact hself.le
  · rw [streams_step hst (by cases he <;> simpa [actsOn] using fun h => hj h.symm) hstart]

theorem toReturn_eq (hst : broker.Step b e t) (hacts : actsOn e = none)
    (he : ∀ req newID, e ≠ .start req newID) : t.toReturn = b.toReturn := by
  unfold toReturn
  rw [opened_step hst he]
  apply Finset.sum_congr rfl
  intro i _
  rw [streams_step hst (by simp [hacts]) he]

/-- A handler that has not returned can take a step towards its end, unless it waits for its
client. -/
theorem exists_returns (hlt : i < b.opened) (hphase : (b.streams i).phase ≠ .finished)
    (h : ¬ b.Attached i) : ∃ e, Returns e i ∧ Server.Internal e ∧ b.guard e := by
  cases hp : (b.streams i).phase with
  | added => exact ⟨_, .subscribe i, trivial, hp, by simp [storeCall, World.guard]⟩
  | sending msg =>
    exact ⟨_, .send i true, trivial, by simp [handlerGuard, hp, Phase.inHand], by simp [storeCall]⟩
  | serving =>
    have hdone : (b.streams i).ctxDone = true := by
      by_contra hctx
      exact h ⟨hlt, by simpa using hctx, by simp [hp], hphase⟩
    exact ⟨_, .leave i, trivial, ⟨hp, hdone⟩, by simp [storeCall]⟩
  | leaving => exact ⟨_, .remove i, trivial, hp, by simp [storeCall, World.guard]⟩
  | finished => exact absurd hp hphase

end Broker

namespace Server

def Finishes : ServerEvent → Prop
  | .publish _ _ _ _ | .acknowledge _ => True
  | .handler d => ∃ i, Broker.Returns d i
  | .publishCall _ | .publishEnd _ | .acknowledgeCall _ | .acknowledgeEnd _ | .subscribeCall _ _
  | .gracefulStop | .close _ => False

/-- What the handlers of the old calls have left to do. -/
def unfinished (s : Server) : Nat :=
  s.publishing.flatten.length + s.acknowledging.flatten.length + s.services.toReturn

variable {s t : Server} {e : ServerEvent} {es : List ServerEvent}

theorem publishing_lt (hst : server.Step s e t) {j : Nat} {newID : String} {now : Timestamp}
    {order : List Nat} (he : e = .publish j newID now order) :
    t.publishing.flatten.length < s.publishing.flatten.length := by
  have hnext : Lanes.next s.publishing j ≠ none := by
    have hguard : s.callGuard e := hst.1.1
    rw [he] at hguard
    exact hguard
  rw [publishing_step hst, he, publishOp]
  split
  · exact Lanes.length_take_lt hnext
  · exact Lanes.length_cut_lt hnext

theorem acknowledging_lt (hst : server.Step s e t) {j : Nat} (he : e = .acknowledge j) :
    t.acknowledging.flatten.length < s.acknowledging.flatten.length := by
  have hnext : Lanes.next s.acknowledging j ≠ none := by
    have hguard : s.callGuard e := hst.1.1
    rw [he] at hguard
    exact hguard
  rw [acknowledging_step hst, he, acknowledgeOp]
  split
  · exact Lanes.length_take_lt hnext
  · exact Lanes.length_cut_lt hnext

theorem toReturn_of_request (hst : server.Step s e t)
    (he : ∀ d ∈ s.brokerEvent e, Broker.actsOn d = none ∧ ∀ req newID, d ≠ .start req newID) :
    t.services.toReturn = s.services.toReturn := by
  cases hd : s.brokerEvent e with
  | none => rw [step_broker_of_none hst hd]
  | some d => exact Broker.toReturn_eq (step_broker hst hd) (he d hd).1 (he d hd).2

theorem unfinished_step (hinv : s.services.Inv) (he : Finishes e) (hst : server.Step s e t) :
    t.unfinished < s.unfinished := by
  unfold unfinished
  cases e with
  | publish j newID now order =>
    have hlanes := publishing_lt hst rfl
    have hother : t.acknowledging = s.acknowledging := acknowledging_step hst
    have hstreams : t.services.toReturn = s.services.toReturn := by
      apply toReturn_of_request hst
      intro d hd
      obtain ⟨req, -, rfl⟩ := Option.map_eq_some_iff.mp hd
      exact ⟨rfl, by simp⟩
    rw [hother, hstreams]
    omega
  | acknowledge j =>
    have hlanes := acknowledging_lt hst rfl
    have hother : t.publishing = s.publishing := publishing_step hst
    have hstreams : t.services.toReturn = s.services.toReturn := by
      apply toReturn_of_request hst
      intro d hd
      obtain ⟨req, -, rfl⟩ := Option.map_eq_some_iff.mp hd
      exact ⟨rfl, by simp⟩
    rw [hother, hstreams]
    omega
  | handler d =>
    obtain ⟨i, hi⟩ := he
    have hpublishing : t.publishing = s.publishing := publishing_step hst
    have hacknowledging : t.acknowledging = s.acknowledging := acknowledging_step hst
    have hstreams := Broker.toReturn_step hinv hi (step_broker hst rfl)
    rw [hpublishing, hacknowledging]
    omega
  | _ => exact absurd he id

theorem exists_publish (hinv : s.services.Inv) {j : Nat}
    (hnext : Lanes.next s.publishing j ≠ none) :
    ∃ order t, server.Step s (.publish j "" ⟨0, 0⟩ order) t := by
  obtain ⟨req, hreq⟩ := Option.ne_none_iff_exists'.mp hnext
  let topic := ((PublisherService.prepare req "" ⟨0, 0⟩).toOption.map Message.topic).getD ""
  let order := (s.services.messageStore.mem.subscribers.members topic).toList
  refine ⟨order, exists_step hinv ⟨hnext, ?_⟩⟩
  intro d hd
  rw [brokerEvent, hreq] at hd
  obtain rfl := Option.some.inj hd
  refine ⟨trivial, ?_⟩
  intro call hcall
  obtain ⟨msg, hmsg, rfl⟩ := Option.map_eq_some_iff.mp hcall
  have htopic : topic = msg.topic := by simp [topic, hmsg]
  show Enumerates order _
  rw [← htopic]
  exact Enumerates.toList _

theorem exists_finishes (hinv : s.services.Inv) (hfree : ∀ i, ¬ s.services.Attached i)
    (h : ¬ s.Quiet) : ∃ e t, Finishes e ∧ server.Step s e t := by
  by_cases hpublishing : s.publishing.flatten = []
  · by_cases hacknowledging : s.acknowledging.flatten = []
    · have hstream : ∃ i < s.services.opened, (s.services.streams i).phase ≠ .finished := by
        by_contra hnone
        push Not at hnone
        exact h ⟨hpublishing, hacknowledging, hnone⟩
      obtain ⟨i, hlt, hphase⟩ := hstream
      obtain ⟨d, hd, hinternal, hguard⟩ := Broker.exists_returns hlt hphase (hfree i)
      have hg : s.guard (.handler d) := by
        refine ⟨hinternal, ?_⟩
        rintro d' hd'
        obtain rfl := Option.some.inj hd'
        exact hguard
      obtain ⟨t, hst⟩ := exists_step hinv hg
      exact ⟨.handler d, t, ⟨i, hd⟩, hst⟩
    · obtain ⟨j, hnext⟩ := Lanes.exists_next hacknowledging
      have hg : s.guard (.acknowledge j) := by
        refine ⟨hnext, ?_⟩
        intro d hd
        obtain ⟨req, -, rfl⟩ := Option.map_eq_some_iff.mp hd
        refine ⟨trivial, ?_⟩
        intro call hcall
        obtain ⟨req', -, rfl⟩ := Option.map_eq_some_iff.mp hcall
        exact trivial
      obtain ⟨t, hst⟩ := exists_step hinv hg
      exact ⟨.acknowledge j, t, trivial, hst⟩
  · obtain ⟨j, hnext⟩ := Lanes.exists_next hpublishing
    obtain ⟨order, t, hst⟩ := exists_publish hinv hnext
    exact ⟨.publish j "" ⟨0, 0⟩ order, t, trivial, hst⟩

theorem brokerEvent_eq_disconnect {i : Nat} :
    s.brokerEvent e = some (.disconnect i) ↔ e = .handler (.disconnect i) := by
  cases e <;> simp [brokerEvent]

theorem attached_of_server_step {i : Nat} (h : s.services.Attached i)
    (he : e ≠ .handler (.disconnect i)) (hst : server.Step s e t) : t.services.Attached i := by
  cases hd : s.brokerEvent e with
  | none =>
    rw [step_broker_of_none hst hd]
    exact h
  | some d =>
    apply Broker.attached_step h _ (step_broker hst hd)
    rintro rfl
    exact he (brokerEvent_eq_disconnect.mp hd)

theorem not_serving_step (hphase : s.phase ≠ .serving) (hst : server.Step s e t) :
    t.phase ≠ .serving := by
  rw [step_phase hst]
  cases e with
  | gracefulStop => simp [nextPhase]
  | close order => simp [nextPhase]
  | _ => exact hphase

theorem attached_before_step {i : Nat} (hphase : s.phase ≠ .serving) (h : t.services.Attached i)
    (hst : server.Step s e t) : s.services.Attached i ∧ e ≠ .handler (.disconnect i) := by
  cases hd : s.brokerEvent e with
  | none =>
    rw [step_broker_of_none hst hd] at h
    refine ⟨h, ?_⟩
    rintro rfl
    cases hd
  | some d =>
    have hstart : ∀ req newID, d ≠ .start req newID := by
      rintro req newID rfl
      exact not_start_of_stopping hphase hst.1.1 req newID hd
    obtain ⟨hbefore, hne⟩ := Broker.attached_of_step h hstart (step_broker hst hd)
    refine ⟨hbefore, ?_⟩
    rintro rfl
    obtain rfl := Option.some.inj hd
    exact hne rfl

theorem attached_before {i : Nat} (hphase : s.phase ≠ .serving) (hrun : server.Run s es t)
    (h : t.services.Attached i) : s.services.Attached i ∧ .handler (.disconnect i) ∉ es := by
  induction hrun with
  | nil s => exact ⟨h, List.not_mem_nil⟩
  | cons hst _ ih =>
    obtain ⟨hm, hes⟩ := ih (not_serving_step hphase hst) h
    obtain ⟨hs, he⟩ := attached_before_step hphase hm hst
    exact ⟨hs, List.not_mem_cons_of_ne_of_not_mem he.symm hes⟩

theorem disconnect_mem_of_stopped (hrun : server.Run init es s) {after : List ServerEvent}
    (hafter : server.Run s after t) (hstopped : t.phase = .stopped) {i : Nat}
    (h : s.services.Attached i) : .handler (.disconnect i) ∈ after := by
  by_contra hnot
  have ht : t.services.Attached i := by
    refine hafter.invariant_on (L := fun e => e ≠ .handler (.disconnect i))
      (I := fun s => s.services.Attached i) ?_ ?_ h
    · intro s e t he hs hst
      exact attached_of_server_step hs he hst
    · rintro e he rfl
      exact hnot he
  exact ht.2.2.2 ((idle_of_stopped (hrun.append hafter) hstopped).finished i)

/-- A stopping server that waits for nobody. -/
structure Winding (s : Server) : Prop where
  inv : s.services.Inv
  stopping : s.phase = .stopping
  free : ∀ i, ¬ s.services.Attached i

theorem winding_step (h : s.Winding) (he : Finishes e) (hst : server.Step s e t) : t.Winding := by
  refine ⟨?_, ?_, ?_⟩
  · cases hd : s.brokerEvent e with
    | none =>
      rw [step_broker_of_none hst hd]
      exact h.inv
    | some d => exact Broker.inv_step h.inv (step_broker hst hd)
  · rw [step_phase hst]
    cases e with
    | publish j newID now order => exact h.stopping
    | acknowledge j => exact h.stopping
    | handler d => exact h.stopping
    | _ => exact absurd he id
  · intro i hi
    exact h.free i (attached_before_step (by simp [h.stopping]) hi hst).1

theorem exists_quiet (h : s.Winding) : ∃ es t, server.Run s es t ∧ (∀ e ∈ es, Finishes e) ∧
    es.length ≤ s.unfinished ∧ t.Winding ∧ t.Quiet := by
  refine Machine.exists_run_of_progress (I := Winding) (w := unfinished) ?_ ?_ h
  · intro s e t he hs hst
    exact ⟨winding_step hs he hst, unfinished_step hs.inv he hst⟩
  · intro s hs hquiet
    exact exists_finishes hs.inv hs.free hquiet

/-- A subscriber is still there when the server begins to stop, and a message is on the way. -/
def stopping : List ServerEvent :=
  [.subscribeCall ⟨"t", "c", 0, 0, 0, ∅⟩ "", .handler (.subscribe 0),
    .publishCall [⟨some ⟨"m", "t", [], none⟩, true, 5⟩], .gracefulStop]

end Server

end GpuTel.Mq
