import GpuTel.Mq.ReliableDelivery

/-!
# What is on the way to a client

A client reads the responses of its stream one by one. Those that it has not read yet, the message
in the hands of the handler and the buffer of the channel are on the way to it. Only a publication
adds to them, and only what was published.
-/

set_option autoImplicit false

namespace GpuTel.Mq

open Fifo Transition

namespace Stream

/-- The responses that the client of a stream receives. -/
def delivered (s : Stream) : List SubscribeResponse := (s.sent.filter Prod.snd).map Prod.fst

/-- What has left the channel for a client that has read `n` responses. -/
def front (s : Stream) (n : Nat) : List (Option Message) :=
  (s.delivered.drop n).flatMap SubscribeResponse.messages ++ s.phase.inHand

theorem delivered_send (s : Stream) (ok : Bool) : (s.send ok).delivered =
    s.delivered ++ if ok = true then s.phase.inHand.map (fun msg => ⟨[msg], false⟩) else [] := by
  unfold send
  split
  · rename_i msg hphase
    cases ok <;> simp [delivered, hphase, Phase.inHand]
  · rename_i hphase
    have hhand : s.phase.inHand = [] := by
      cases hp : s.phase with
      | sending msg => exact absurd hp (hphase msg)
      | _ => rfl
    simp [hhand]

theorem front_send_sublist (s : Stream) (ok : Bool) (n : Nat) :
    ((s.send ok).front n).Sublist (s.front n) := by
  cases hp : s.phase with
  | sending msg =>
    have hhand : (s.send ok).phase.inHand = [] := by simp [send, hp, Phase.inHand]
    rw [front, front, delivered_send, hhand, hp, List.append_nil, List.drop_append,
      List.flatMap_append]
    apply List.Sublist.append_left
    cases ok with
    | false => simp
    | true =>
      have hdrop := (List.drop_sublist (n - s.delivered.length)
        [(⟨[msg], false⟩ : SubscribeResponse)]).flatMap SubscribeResponse.messages
      simpa [Phase.inHand] using hdrop
  | _ => simp [send, hp]

end Stream

namespace Broker

def buffered (b : Broker) (i : Nat) : List Message :=
  (b.streams i).channel.elim [] fun c => (b.messageStore.subs c).ch.buf

/-- The messages on the way to a client that has read `n` responses of stream `i`. -/
def ahead (b : Broker) (i n : Nat) : List Message :=
  ((b.streams i).front n).reduceOption ++ b.buffered i

theorem buffered_eq {b : Broker} (hinv : b.Inv) {i c : Nat} (h : b.MayHold i c) :
    b.buffered i = (b.messageStore.subs c).ch.buf := by
  rcases h with hi | ⟨hi, hc⟩
  · rw [buffered, hi]
    rfl
  · rw [buffered, hi, hinv.store.unmade hc]
    rfl

theorem exists_mayHold (b : Broker) (i : Nat) : ∃ c, b.MayHold i c := by
  cases hi : (b.streams i).channel with
  | none => exact ⟨b.messageStore.made, Or.inr ⟨hi, Nat.le_refl _⟩⟩
  | some c => exact ⟨c, Or.inl hi⟩

theorem published_of_accepted {c : Nat} {b : Broker} {e : BrokerEvent} {msg : Message}
    (h : accepted c b e = some msg) : published e = some msg := by
  obtain ⟨call, hcall, hacc⟩ := Option.bind_eq_some_iff.mp h
  cases calls_of_storeCall hcall with
  | publish hprepare =>
    simp only [World.acceptedBy] at hacc
    split at hacc
    · rw [filledIn_prepare hprepare] at hacc
      rw [published_eq_prepare, hprepare]
      exact hacc
    · cases hacc
  | _ => cases hacc

theorem accepted_sublist (c : Nat) (b : Broker) (e : BrokerEvent) :
    (accepted c b e).toList.Sublist (published e).toList := by
  cases hacc : accepted c b e with
  | none => exact List.nil_sublist _
  | some msg => rw [published_of_accepted hacc]

section Step

variable {b t : Broker} {e : BrokerEvent} (hinv : b.Inv) (hst : broker.Step b e t) (i n : Nat)

theorem front_of_moves {s : Stream} (hm : Moves b i e s) : (s.front n).Sublist
    ((b.streams i).front n ++ (takes i b e).toList) := by
  cases hm with
  | other hacts => exact List.sublist_append_left _ _
  | start hconfig heq => simp [Stream.front, Stream.delivered, Phase.inHand]
  | send hphase =>
    exact (Stream.front_send_sublist (b.streams i) _ n).trans (List.sublist_append_left _ _)
  | subscribe hphase => simp [Stream.front, Stream.delivered, Phase.inHand, hphase]
  | receive hphase hchannel =>
    simp [Stream.front, Stream.delivered, Phase.inHand, hphase, takes]
  | leave hphase hdone => simp [Stream.front, Stream.delivered, Phase.inHand, hphase]
  | remove hphase => simp [Stream.front, Stream.delivered, Phase.inHand, hphase]
  | disconnect hlt hdone => exact List.sublist_append_left _ _

theorem delivered_of_moves {s : Stream} (hm : Moves b i e s) (hinv : b.Inv) :
    (b.streams i).delivered <+: s.delivered := by
  cases hm with
  | start hconfig heq =>
    rw [hinv.unopened (Nat.le_of_eq heq.symm)]
    exact List.prefix_refl _
  | send hphase =>
    rw [Stream.delivered_send]
    exact List.prefix_append _ _
  | _ => exact List.prefix_refl _

include hinv

theorem ahead_of_unopened (hi : b.opened ≤ i) : b.ahead i n = [] := by
  simp [ahead, buffered, hinv.unopened hi, Stream.idle, Stream.front, Stream.delivered,
    Phase.inHand]

include hst

theorem buffered_step {c : Nat} (ht : t.MayHold i c) :
    (takes i b e).toList.reduceOption ++ t.buffered i =
      b.buffered i ++ (accepted c b e).toList := by
  have hb := mayHold_of_step hinv hst ht
  rw [buffered_eq (inv_step hinv hst) ht, buffered_eq hinv hb, takes_toList hinv hst hb]
  cases hcall : b.storeCall e with
  | none => simp [step_world_of_none hst hcall, accepted, hcall]
  | some call =>
    simpa [accepted, hcall] using World.received_append_buf_step hinv.store (step_world hst hcall) c

/-- A label moves messages on, loses some, and adds the one it publishes if there is room for it. -/
theorem ahead_step :
    (t.ahead i n).Sublist (b.ahead i n ++ (published e).toList) := by
  obtain ⟨c, ht⟩ := exists_mayHold t i
  have hfront : (((t.streams i).front n).reduceOption).Sublist
      (((b.streams i).front n).reduceOption ++ (takes i b e).toList.reduceOption) := by
    rw [← List.reduceOption_append]
    exact (front_of_moves i n (step_moves hst i)).filterMap id
  calc (((t.streams i).front n).reduceOption ++ t.buffered i).Sublist
        (((b.streams i).front n).reduceOption ++ (takes i b e).toList.reduceOption ++
          t.buffered i) := hfront.append_right _
    _ = b.ahead i n ++ (accepted c b e).toList := by
        rw [List.append_assoc, buffered_step hinv hst i ht, ← List.append_assoc, ahead]
    List.Sublist _ _ := (accepted_sublist c b e).append_left _

end Step

end Broker

end GpuTel.Mq
