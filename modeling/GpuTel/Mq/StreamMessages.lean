import GpuTel.Mq.ReliableDelivery

/-!
# What a stream carries

The handler of `Subscribe` does not ask whether its channel was closed, so that a receive from a
closed and drained channel looks like a message to it: it sends a response with a nil message. In
all other cases a response carries one message that was stored for the stream.
-/

set_option autoImplicit false

namespace GpuTel.Mq

open Fifo Transition

namespace Stream

/-- Each response has been made from one receive. -/
def Single (s : Stream) : Prop := ∀ r ∈ s.sent, ∃ msg, r.1 = ⟨[msg], false⟩

theorem Single.send {s : Stream} (h : s.Single) (ok : Bool) : (s.send ok).Single := by
  unfold Stream.send
  split
  · rename_i msg _
    intro r hr
    rcases List.mem_append.mp hr with hold | hnew
    · exact h r hold
    · rw [List.mem_singleton.mp hnew]
      exact ⟨msg, rfl⟩
  · exact h

theorem Single.map_sent {s : Stream} (h : s.Single) : s.sent.map Prod.fst =
    (s.sent.flatMap fun r => r.1.messages).map fun msg => ⟨[msg], false⟩ := by
  unfold Single at h
  generalize s.sent = sent at h
  induction sent with
  | nil => rfl
  | cons r sent ih =>
    obtain ⟨msg, hmsg⟩ := h r List.mem_cons_self
    rw [List.map_cons, List.flatMap_cons, hmsg, ih fun q hq => h q (List.mem_cons_of_mem r hq)]
    rfl

end Stream

namespace Broker

/-- The message published on the topic of stream `i` while its channel is registered. -/
def storedFor (i : Nat) (b : Broker) (e : BrokerEvent) : Option Message :=
  (published e).filter fun msg =>
    decide (msg.topic = (b.streams i).config.topic) &&
      (b.streams i).channel.any fun c => decide (b.messageStore.Registered c)

/-- Each response of stream `i` carries one message, and these are messages stored for the stream,
in the order in which they were stored and each for one store only. -/
def CarriesStored (i : Nat) (es : List BrokerEvent) (b : Broker) : Prop :=
  ∃ msgs : List Message,
    (b.streams i).sent.map Prod.fst = msgs.map (fun msg => ⟨[some msg], false⟩) ∧
    msgs.Sublist (broker.trace (storedFor i) init es)

def StreamsCarryStored : Prop := ∀ es b, broker.Run init es b → ∀ i, CarriesStored i es b

/-- The handler of stream `i` does not receive from a channel that is closed and drained. -/
def ReceivesMessage (i : Nat) (b : Broker) (e : BrokerEvent) : Prop :=
  ∀ c, e = .receive i → (b.streams i).channel = some c →
    ¬ ((b.messageStore.subs c).ch.closed = true ∧ (b.messageStore.subs c).ch.buf = [])

theorem single_run {b : Broker} {es : List BrokerEvent} (hrun : broker.Run init es b) (i : Nat) :
    (b.streams i).Single := by
  refine hrun.invariant (I := fun b => (b.streams i).Single) ?_ ?_
  · intro s e t h hst
    have hm := step_moves hst i
    generalize t.streams i = s' at hm
    cases hm with
    | start hconfig heq =>
      intro r hr
      cases hr
    | send hphase => exact h.send _
    | _ => exact h
  · intro r hr
    cases hr

theorem storedFor_of_accepted {b : Broker} (hinv : b.Inv) {i c : Nat} (h : b.MayHold i c)
    {e : BrokerEvent} {msg : Message} (hacc : accepted c b e = some msg) :
    storedFor i b e = some msg := by
  obtain ⟨call, hcall, hmsg⟩ := Option.bind_eq_some_iff.mp hacc
  have hreg := World.registered_of_acceptedBy hmsg
  have hi : (b.streams i).channel = some c := by
    rcases h with hi | ⟨-, hge⟩
    · exact hi
    · have hlt := hinv.store.made_lt hreg
      omega
  rw [← offered_eq_accepted hinv hi hreg] at hacc
  obtain ⟨hpub, hroom⟩ := Option.filter_eq_some_iff.mp hacc
  refine Option.filter_eq_some_iff.mpr ⟨hpub, ?_⟩
  rw [Bool.and_eq_true] at hroom
  simp [hroom.1, hi, hreg]

theorem taken_sublist_stored {b : Broker} {es : List BrokerEvent} (hrun : broker.Run init es b)
    (i : Nat) :
    (b.streams i).taken.reduceOption.Sublist (broker.trace (storedFor i) init es) := by
  obtain ⟨c, hmay⟩ : ∃ c, b.MayHold i c := by
    cases hi : (b.streams i).channel with
    | none => exact ⟨b.messageStore.made, Or.inr ⟨hi, le_refl _⟩⟩
    | some c => exact ⟨c, Or.inl hi⟩
  have hfifo := taken_append_buf hrun hmay
  have hsub : (broker.trace (accepted c) init es).Sublist (broker.trace (storedFor i) init es) := by
    apply hrun.trace_sublist
    intro before e after m msg _ hbefore hrest hacc
    have hm := inv_run hbefore
    exact storedFor_of_accepted hm (mayHold_of_run hm hrest hmay) hacc
  rw [← hfifo] at hsub
  exact (List.sublist_append_left _ _).trans hsub

theorem carriesStored_iff {b : Broker} {es : List BrokerEvent} (hrun : broker.Run init es b)
    (i : Nat) : CarriesStored i es b ∧ (b.streams i).phase ≠ .sending none ↔
      none ∉ (b.streams i).taken := by
  have hmap := (single_run hrun i).map_sent
  constructor
  · rintro ⟨⟨msgs, hmsgs, -⟩, hphase⟩ hnil
    rcases List.mem_append.mp hnil with hsent | hhand
    · rw [hmap] at hmsgs
      have hmem : (⟨[none], false⟩ : SubscribeResponse) ∈
          msgs.map (fun msg => ⟨[some msg], false⟩) := by
        rw [← hmsgs]
        exact List.mem_map.mpr ⟨none, hsent, rfl⟩
      simp at hmem
    · cases hp : (b.streams i).phase with
      | sending msg =>
        rw [hp, Phase.inHand, List.mem_singleton] at hhand
        exact hphase (by rw [hp, hhand])
      | _ => simp [hp, Phase.inHand] at hhand
  · intro hreal
    have hsent : none ∉ (b.streams i).sent.flatMap fun r => r.1.messages :=
      fun h => hreal (List.mem_append_left _ h)
    refine ⟨⟨((b.streams i).sent.flatMap fun r => r.1.messages).reduceOption, ?_, ?_⟩, ?_⟩
    · rw [hmap]
      conv_lhs => rw [← map_some_reduceOption hsent]
      rw [List.map_map]
      rfl
    · refine List.Sublist.trans ?_ (taken_sublist_stored hrun i)
      rw [Stream.taken, List.reduceOption_append]
      exact List.sublist_append_left _ _
    · intro hphase
      exact hreal (by simp [Stream.taken, hphase, Phase.inHand])

theorem takes_ne_nil_iff {b t : Broker} {e : BrokerEvent} (hst : broker.Step b e t) (i : Nat) :
    takes i b e ≠ some none ↔ ReceivesMessage i b e := by
  constructor
  · rintro h c rfl hi ⟨-, hempty⟩
    simp [takes, received, hi, Chan.received, hempty] at h
  · intro h htakes
    obtain ⟨c, hi, hmsg, hcall⟩ := takes_eq_some hst htakes
    have he : e = .receive i := by
      cases e with
      | receive j =>
        simp only [takes] at htakes
        split at htakes
        · rename_i hj
          rw [hj]
        · cases htakes
      | _ => cases htakes
    have hready : (b.messageStore.subs c).ch.Ready := (hst.1.2 _ hcall).2
    exact h c he hi ⟨Chan.closed_of_received_eq_none hready hmsg.symm,
      List.head?_eq_none_iff.mp hmsg.symm⟩

/-- In every run of the broker, and for every stream: all along, its responses carry the messages
stored for it and its handler holds no nil message to send if and only if the handler never receives
from its channel when that is closed and drained. -/
theorem carriesStored_iff_receivesMessage {b : Broker} {es : List BrokerEvent}
    (hrun : broker.Run init es b) (i : Nat) :
    broker.Always (fun es b => CarriesStored i es b ∧ (b.streams i).phase ≠ .sending none) init es ↔
      broker.EachStep (fun _ => ReceivesMessage i) init es := by
  refine Machine.always_iff_eachStep (L := fun _ => True) ?_ ?_ hrun (fun _ _ => trivial)
  · apply (carriesStored_iff (.nil init) i).mpr
    simp [init, Stream.idle, Stream.taken, Phase.inHand]
  · intro es m e t hm _ _ h hst
    have hreal := (carriesStored_iff hm i).mp h
    rw [carriesStored_iff (hm.snoc hst) i, taken_of_moves (inv_run hm) (step_moves hst i),
      ← takes_ne_nil_iff hst i, List.mem_append, Option.mem_toList]
    simp [hreal]

/-- The clean-up goroutine is faster than the handler. -/
def closedUnderHandler : List BrokerEvent :=
  [.start consumerC "", .subscribe 0, .disconnect 0, .cleanUp 0, .receive 0, .send 0 true]

theorem carriesStored_iff_receivesMessage_closedUnderHandler : ∃ b,
    broker.Run init closedUnderHandler b ∧
    (broker.Always (fun es b => CarriesStored 0 es b ∧ (b.streams 0).phase ≠ .sending none) init
        closedUnderHandler ↔
      broker.EachStep (fun _ => ReceivesMessage 0) init closedUnderHandler) := by
  obtain ⟨b, hrun, -⟩ := Machine.exists_run (M := broker) (fun _ => True) init closedUnderHandler
    (by decide)
  exact ⟨b, hrun, carriesStored_iff_receivesMessage hrun 0⟩

theorem not_streamsCarryStored : ¬ StreamsCarryStored := by
  intro h
  obtain ⟨b, hrun, hsent⟩ := Machine.exists_run (M := broker)
    (fun b => (b.streams 0).sent = [(⟨[none], false⟩, true)]) init closedUnderHandler (by decide)
  obtain ⟨msgs, hmsgs, -⟩ := h closedUnderHandler b hrun 0
  rw [hsent] at hmsgs
  cases msgs with
  | nil => cases hmsgs
  | cons msg msgs => simp at hmsgs

end Broker

end GpuTel.Mq
