import GpuTel.Mq.Backlog

/-!
# What matters of a subscription

Of the request that opens a subscription the broker uses the topic. The consumer id, the two sizes
and the filter go into the registry of subscribers, which no handler reads: with any others, the
same messages are stored, delivered and acknowledged.
-/

set_option autoImplicit false

namespace GpuTel.Mq

open Fifo Transition

namespace World

def withInfo (w : World) (info : GoMap Subscriber) : World :=
  { w with mem := { w.mem with subscriberInfo := info } }

/-- The stores differ in their registries at most. -/
def Alike (w w' : World) : Prop := ∃ info, w' = w.withInfo info

theorem Alike.refl (w : World) : w.Alike w := ⟨w.mem.subscriberInfo, rfl⟩

/-- Calls that differ in what they do to the registry at most. -/
inductive AlikeCall : Event → Event → Prop where
  | refl (call : Event) : AlikeCall call call
  | addSubscriber (subscriber subscriber' : Subscriber) :
      AlikeCall (.addSubscriber subscriber) (.addSubscriber subscriber')
  | removeSubscriber (consumerID topic consumerID' topic' : String) :
      AlikeCall (.removeSubscriber consumerID topic) (.removeSubscriber consumerID' topic')

theorem guard_withInfo (w : World) (info : GoMap Subscriber) (call : Event) :
    (w.withInfo info).guard call ↔ w.guard call := by
  cases call <;> exact Iff.rfl

theorem effect_withInfo (w : World) (info : GoMap Subscriber) (call : Event) :
    (w.effect call).Alike ((w.withInfo info).effect call) := by
  cases call with
  | cleanUp c =>
    refine ⟨info, ?_⟩
    simp only [effect, retire]
    by_cases hreg : w.Registered c
    · rw [if_pos hreg, if_pos (show (w.withInfo info).Registered c from hreg)]
      rfl
    · rw [if_neg hreg, if_neg (show ¬ (w.withInfo info).Registered c from hreg)]
      rfl
  | acknowledge msgID consumerID =>
    refine ⟨info, ?_⟩
    simp only [effect, withInfo, InMemoryStore.acknowledge]
    cases w.mem.messages.lookup msgID <;> rfl
  | getMessages topic consumerID batchSize order =>
    refine ⟨info, ?_⟩
    simp only [effect, withInfo, InMemoryStore.getMessages]
    cases w.mem.topics.lookup topic <;> rfl
  | addSubscriber subscriber => exact ⟨info.insert subscriber.id subscriber, rfl⟩
  | removeSubscriber consumerID topic => exact ⟨info.erase consumerID, rfl⟩
  | close order => exact ⟨∅, rfl⟩
  | _ => exact ⟨info, rfl⟩

theorem Alike.effect {w w' : World} {call call' : Event} (h : w.Alike w')
    (hcall : AlikeCall call call') : (w.effect call).Alike (w'.effect call') := by
  obtain ⟨info, rfl⟩ := h
  cases hcall with
  | refl => exact effect_withInfo w info call
  | addSubscriber subscriber subscriber' =>
    exact ⟨info.insert subscriber'.id subscriber', rfl⟩
  | removeSubscriber consumerID topic consumerID' topic' => exact ⟨info.erase consumerID', rfl⟩

theorem Alike.guard {w w' : World} {call call' : Event} (h : w.Alike w')
    (hcall : AlikeCall call call') (hg : w.guard call) : w'.guard call' := by
  obtain ⟨info, rfl⟩ := h
  cases hcall with
  | refl => exact (guard_withInfo w info call).mpr hg
  | _ => exact trivial

end World

namespace Broker

/-- The streams have the same topic, and differ in the rest of their configuration at most. -/
def AlikeStream (s s' : Stream) : Prop :=
  ∃ config : SubscribeConfig, config.topic = s.config.topic ∧ s' = { s with config := config }

structure Alike (b b' : Broker) : Prop where
  messageStore : b.messageStore.Alike b'.messageStore
  streams : ∀ i, AlikeStream (b.streams i) (b'.streams i)
  opened : b'.opened = b.opened

/-- The requests of the labels have the same topic, or the labels are the same. -/
inductive AlikeEvent : BrokerEvent → BrokerEvent → Prop where
  | start {req req' : SubscribeRequest} (newID newID' : String) : req'.topic = req.topic →
      AlikeEvent (.start req newID) (.start req' newID')
  | same {e : BrokerEvent} : (∀ req newID, e ≠ .start req newID) → AlikeEvent e e

variable {b b' t : Broker} {e e' : BrokerEvent}

theorem AlikeStream.refl (s : Stream) : AlikeStream s s := ⟨s.config, rfl, rfl⟩

theorem Alike.refl (b : Broker) : b.Alike b :=
  ⟨.refl b.messageStore, fun i => .refl (b.streams i), rfl⟩

theorem Alike.setStream {s s' : Stream} (h : b.Alike b') (i : Nat) (hs : AlikeStream s s') :
    (b.setStream i s).Alike (b'.setStream i s') := by
  refine ⟨h.messageStore, ?_, h.opened⟩
  intro j
  rw [setStream_streams, setStream_streams]
  split
  · exact hs
  · exact h.streams j

theorem Alike.received (h : b.Alike b') (i : Nat) : b'.received i = b.received i := by
  obtain ⟨config, -, hstream⟩ := h.streams i
  obtain ⟨info, hstore⟩ := h.messageStore
  rw [Broker.received, Broker.received, hstream, hstore]
  rfl

theorem configure_alike {req req' : SubscribeRequest} (htopic : req'.topic = req.topic)
    (newID newID' : String) :
    (∃ status, SubscriberService.configure req newID = .error status ∧
      SubscriberService.configure req' newID' = .error status) ∨
    ∃ config config', SubscriberService.configure req newID = .ok config ∧
      SubscriberService.configure req' newID' = .ok config' ∧ config'.topic = config.topic := by
  unfold SubscriberService.configure
  rw [htopic]
  split
  · exact Or.inl ⟨_, rfl, rfl⟩
  · exact Or.inr ⟨_, _, rfl, rfl, rfl⟩

theorem Alike.storeCall (h : b.Alike b') (he : AlikeEvent e e') :
    (b.storeCall e = none ∧ b'.storeCall e' = none) ∨
      ∃ call call', b.storeCall e = some call ∧ b'.storeCall e' = some call' ∧
        World.AlikeCall call call' := by
  have hsame : ∀ o : Option Event, (o = none ∧ o = none) ∨
      ∃ call call', o = some call ∧ o = some call' ∧ World.AlikeCall call call' := by
    intro o
    cases o with
    | none => exact Or.inl ⟨rfl, rfl⟩
    | some call => exact Or.inr ⟨call, call, rfl, rfl, .refl call⟩
  have hchannel : ∀ i, (b'.streams i).channel = (b.streams i).channel := by
    intro i
    obtain ⟨config, -, hstream⟩ := h.streams i
    rw [hstream]
  cases he with
  | start newID newID' htopic =>
    rcases configure_alike htopic newID newID' with ⟨status, hreq, hreq'⟩ |
      ⟨config, config', hreq, hreq', -⟩
    · exact Or.inl (by simp [Broker.storeCall, hreq, hreq', Except.toOption])
    · exact Or.inr ⟨_, _, by simp [Broker.storeCall, hreq, Except.toOption]; rfl,
        by simp [Broker.storeCall, hreq', Except.toOption]; rfl, .addSubscriber _ _⟩
  | same hne =>
    cases e with
    | start req newID => exact absurd rfl (hne req newID)
    | subscribe i =>
      obtain ⟨config, htopic, hstream⟩ := h.streams i
      have hcall : b'.storeCall (.subscribe i) = b.storeCall (.subscribe i) := by
        simp only [Broker.storeCall, hstream, htopic]
      rw [hcall]
      exact hsame _
    | receive i =>
      have hcall : b'.storeCall (.receive i) = b.storeCall (.receive i) := by
        simp only [Broker.storeCall, hchannel]
      rw [hcall]
      exact hsame _
    | disconnect i =>
      have hcall : b'.storeCall (.disconnect i) = b.storeCall (.disconnect i) := by
        simp only [Broker.storeCall, hchannel]
      rw [hcall]
      exact hsame _
    | cleanUp i =>
      have hcall : b'.storeCall (.cleanUp i) = b.storeCall (.cleanUp i) := by
        simp only [Broker.storeCall, hchannel]
      rw [hcall]
      exact hsame _
    | remove i => exact Or.inr ⟨_, _, rfl, rfl, .removeSubscriber _ _ _ _⟩
    | _ => exact hsame _

theorem Alike.advance (h : b.Alike b') (he : AlikeEvent e e') :
    (b.advance e).Alike (b'.advance e') := by
  cases he with
  | start newID newID' htopic =>
    rcases configure_alike htopic newID newID' with ⟨status, hreq, hreq'⟩ |
      ⟨config, config', hreq, hreq', hconfig⟩
    · simp only [Broker.advance, hreq, hreq']
      exact h
    · simp only [Broker.advance, hreq, hreq']
      rw [h.opened]
      have hstream : AlikeStream ⟨config, false, none, .added, []⟩
          ⟨config', false, none, .added, []⟩ := ⟨config', hconfig, rfl⟩
      have hset := h.setStream b.opened hstream
      exact ⟨hset.messageStore, hset.streams, rfl⟩
  | same hne =>
    cases e with
    | start req newID => exact absurd rfl (hne req newID)
    | subscribe i =>
      obtain ⟨config, htopic, hstream⟩ := h.streams i
      obtain ⟨info, hstore⟩ := h.messageStore
      apply h.setStream
      exact ⟨config, htopic, by rw [hstream, hstore]; rfl⟩
    | receive i =>
      obtain ⟨config, htopic, hstream⟩ := h.streams i
      apply h.setStream
      exact ⟨config, htopic, by rw [hstream, h.received]⟩
    | send i ok =>
      obtain ⟨config, htopic, hstream⟩ := h.streams i
      apply h.setStream
      refine ⟨config, ?_, ?_⟩
      · rw [htopic]
        unfold Stream.send
        split <;> rfl
      · rw [hstream]
        unfold Stream.send
        dsimp only
        split <;> rfl
    | disconnect i =>
      obtain ⟨config, htopic, hstream⟩ := h.streams i
      apply h.setStream
      exact ⟨config, htopic, by rw [hstream]⟩
    | leave i =>
      obtain ⟨config, htopic, hstream⟩ := h.streams i
      apply h.setStream
      exact ⟨config, htopic, by rw [hstream]⟩
    | remove i =>
      obtain ⟨config, htopic, hstream⟩ := h.streams i
      apply h.setStream
      exact ⟨config, htopic, by rw [hstream]⟩
    | _ => exact h

theorem Alike.handlerGuard (h : b.Alike b') (he : AlikeEvent e e') (hg : b.handlerGuard e) :
    b'.handlerGuard e' := by
  cases he with
  | start newID newID' htopic => exact trivial
  | same hne =>
    cases e with
    | subscribe i | receive i | send i ok | cleanUp i | leave i | remove i =>
      obtain ⟨config, -, hstream⟩ := h.streams i
      simp only [Broker.handlerGuard, hstream]
      exact hg
    | disconnect i =>
      obtain ⟨config, -, hstream⟩ := h.streams i
      simp only [Broker.handlerGuard, hstream, h.opened]
      exact hg
    | _ => exact trivial

theorem Alike.guard (h : b.Alike b') (he : AlikeEvent e e') (hg : b.guard e) : b'.guard e' := by
  refine ⟨h.handlerGuard he hg.1, ?_⟩
  intro call' hcall'
  rcases h.storeCall he with ⟨-, hnone⟩ | ⟨call, call'', hcall, hcall'', halike⟩
  · rw [hnone] at hcall'
    cases hcall'
  · obtain rfl := Option.some.inj (hcall''.symm.trans hcall')
    exact h.messageStore.guard halike (hg.2 call hcall)

theorem alike_step (hinv : b.Inv) (hinv' : b'.Inv) (h : b.Alike b') (he : AlikeEvent e e')
    (hst : broker.Step b e t) : ∃ t', broker.Step b' e' t' ∧ t.Alike t' := by
  obtain ⟨t', hst'⟩ := exists_step hinv' (h.guard he hst.1)
  have hadvance := h.advance he
  obtain ⟨hstreams, hopened⟩ := step_advance hst
  obtain ⟨hstreams', hopened'⟩ := step_advance hst'
  refine ⟨t', hst', ?_, ?_, ?_⟩
  · rcases h.storeCall he with ⟨hnone, hnone'⟩ | ⟨call, call', hcall, hcall', halike⟩
    · rw [step_world_of_none hst hnone, step_world_of_none hst' hnone']
      exact h.messageStore
    · rw [hinv.store.step_eq (step_world hst hcall), hinv'.store.step_eq (step_world hst' hcall')]
      exact h.messageStore.effect halike
  · rw [hstreams, hstreams']
    exact hadvance.streams
  · rw [hopened, hopened']
    exact hadvance.opened

theorem alike_run {es es' : List BrokerEvent} (hrun : broker.Run init es b)
    (hes : List.Forall₂ AlikeEvent es es') : ∃ b', broker.Run init es' b' ∧ b.Alike b' := by
  have hstep : ∀ b e t b' e', b.Inv ∧ b'.Inv ∧ b.Alike b' → AlikeEvent e e' → broker.Step b e t →
      ∃ t', broker.Step b' e' t' ∧ t.Inv ∧ t'.Inv ∧ t.Alike t' := by
    rintro b e t b' e' ⟨hinv, hinv', halike⟩ he hst
    obtain ⟨t', hst', ht⟩ := alike_step hinv hinv' halike he hst
    exact ⟨t', hst', inv_step hinv hst, inv_step hinv' hst', ht⟩
  obtain ⟨b', hrun', -, -, halike⟩ := hrun.lockstep hstep ⟨inv_init, inv_init, .refl init⟩ hes
  exact ⟨b', hrun', halike⟩

/-- Take any run of the broker, and change in the requests of its subscribers whatever is not the
topic. This is a run as well, and after it the store holds the same messages, topics and
acknowledgements, every channel has the same buffer, and on every stream the same responses were
sent. -/
theorem only_topic_matters {es es' : List BrokerEvent} (hrun : broker.Run init es b)
    (hes : List.Forall₂ AlikeEvent es es') : ∃ b', broker.Run init es' b' ∧
      b'.messageStore.mem.messages = b.messageStore.mem.messages ∧
      b'.messageStore.mem.topics = b.messageStore.mem.topics ∧
      b'.messageStore.mem.ackTracker = b.messageStore.mem.ackTracker ∧
      b'.messageStore.subs = b.messageStore.subs ∧
      ∀ i, (b'.streams i).sent = (b.streams i).sent ∧
        (b'.streams i).phase = (b.streams i).phase := by
  obtain ⟨b', hrun', halike⟩ := alike_run hrun hes
  obtain ⟨info, hstore⟩ := halike.messageStore
  refine ⟨b', hrun', ?_⟩
  rw [hstore]
  refine ⟨rfl, rfl, rfl, rfl, ?_⟩
  intro i
  obtain ⟨config, -, hstream⟩ := halike.streams i
  rw [hstream]
  exact ⟨rfl, rfl⟩

def delivery (req : SubscribeRequest) (newID : String) : List BrokerEvent :=
  .start req newID :: [.subscribe 0, publishT "m" [0], publishT "n" [0], .receive 0, .send 0 true,
    .acknowledge ⟨"m", "c", true⟩]

/-- With a limit of one message in flight, or without a consumer id and a limit. -/
theorem only_topic_matters_delivery : ∃ b b',
    broker.Run init (delivery ⟨"t", "c", 1, 1, 0, ∅⟩ "") b ∧
    broker.Run init (delivery ⟨"t", "", 0, 0, 0, ∅⟩ "new") b' ∧
    (b.streams 0).sent = [(⟨[some ⟨"m", "t", [], some ⟨0, 0⟩⟩], false⟩, true)] ∧
    (b'.streams 0).sent = (b.streams 0).sent := by
  obtain ⟨b, hrun, hsent⟩ := Machine.exists_run (M := broker)
    (fun b => (b.streams 0).sent = [(⟨[some ⟨"m", "t", [], some ⟨0, 0⟩⟩], false⟩, true)]) init
    (delivery ⟨"t", "c", 1, 1, 0, ∅⟩ "") (by decide)
  have hsame : List.Forall₂ AlikeEvent [.subscribe 0, publishT "m" [0], publishT "n" [0],
      .receive 0, .send 0 true, .acknowledge ⟨"m", "c", true⟩] [.subscribe 0, publishT "m" [0],
      publishT "n" [0], .receive 0, .send 0 true, .acknowledge ⟨"m", "c", true⟩] := by
    apply List.forall₂_same.mpr
    intro e he
    apply AlikeEvent.same
    rintro req newID rfl
    simp [publishT] at he
  have hfirst : AlikeEvent (.start ⟨"t", "c", 1, 1, 0, ∅⟩ "")
      (.start ⟨"t", "", 0, 0, 0, ∅⟩ "new") := .start "" "new" rfl
  obtain ⟨b', hrun', -, -, -, -, hsent'⟩ := only_topic_matters hrun (.cons hfirst hsame)
  exact ⟨b, b', hrun, hrun', hsent, (hsent' 0).1⟩

end Broker

end GpuTel.Mq
