import GpuTel.Mq.BrokerInvariant

/-!
# The registry of subscribers

`subscriberInfo` has one entry for a consumer, which every stream of the consumer writes when it
begins and erases when it ends. A client that reconnects before its old stream is torn down loses
the entry of the new one, although `RemoveSubscriber` is told the topic of the stream that ends.
-/

set_option autoImplicit false

namespace GpuTel.Mq

open Transition

theorem World.subscriberInfo_effect (w : World) (e : Event) :
    (w.effect e).mem.subscriberInfo = match e with
      | .addSubscriber subscriber => w.mem.subscriberInfo.insert subscriber.id subscriber
      | .removeSubscriber consumerID _ => w.mem.subscriberInfo.erase consumerID
      | .close _ => ∅
      | _ => w.mem.subscriberInfo := by
  cases e with
  | cleanUp c =>
    simp only [effect, retire]
    split <;> rfl
  | acknowledge msgID consumerID =>
    simp only [effect, InMemoryStore.acknowledge]
    split <;> rfl
  | getMessages topic consumerID batchSize order =>
    simp only [effect, InMemoryStore.getMessages]
    split <;> rfl
  | _ => rfl

namespace Broker

/-- Stream `i` is past its `AddSubscriber` and has not run its `RemoveSubscriber`. -/
def Open (b : Broker) (i : Nat) : Prop := (b.streams i).phase ≠ .finished

/-- The store has an entry for exactly the consumers with an open stream, and each entry carries the
topic and the batch size of one of these. -/
def RegistryMatches (b : Broker) : Prop :=
  ∀ consumerID,
    ((∃ subscriber, b.messageStore.mem.subscriberInfo.lookup consumerID = some subscriber) ↔
      ∃ i, b.Open i ∧ (b.streams i).config.consumerID = consumerID) ∧
    ∀ subscriber, b.messageStore.mem.subscriberInfo.lookup consumerID = some subscriber →
      ∃ i, b.Open i ∧ (b.streams i).config.consumerID = consumerID ∧
        subscriber.topic = (b.streams i).config.topic ∧
        subscriber.batchSize = (b.streams i).config.batchSize

def RegistryLaw : Prop :=
  ∀ es b, broker.Run init es b → (∀ e ∈ es, ∀ order, e ≠ .close order) → b.RegistryMatches

/-- A stream that ends is the last open one of its consumer; and the store is closed when no stream
is open. -/
def EndsLast (b : Broker) : BrokerEvent → Prop
  | .remove i => ∀ j, j ≠ i → b.Open j →
    (b.streams j).config.consumerID ≠ (b.streams i).config.consumerID
  | .close _ => ∀ j, ¬ b.Open j
  | _ => True

theorem registryMatches_iff (b : Broker) : b.RegistryMatches ↔
    (∀ i, b.Open i →
      b.messageStore.mem.subscriberInfo.lookup (b.streams i).config.consumerID ≠ none) ∧
    ∀ consumerID subscriber,
      b.messageStore.mem.subscriberInfo.lookup consumerID = some subscriber →
      ∃ i, b.Open i ∧ (b.streams i).config.consumerID = consumerID ∧
        subscriber.topic = (b.streams i).config.topic ∧
        subscriber.batchSize = (b.streams i).config.batchSize := by
  constructor
  · intro h
    refine ⟨?_, fun consumerID => (h consumerID).2⟩
    intro i hi
    rw [Option.ne_none_iff_exists']
    exact (h _).1.mpr ⟨i, hi, rfl⟩
  · rintro ⟨hopen, hentry⟩ consumerID
    refine ⟨⟨?_, ?_⟩, hentry consumerID⟩
    · rintro ⟨subscriber, hlookup⟩
      obtain ⟨i, hi, hconsumer, -⟩ := hentry consumerID subscriber hlookup
      exact ⟨i, hi, hconsumer⟩
    · rintro ⟨i, hi, rfl⟩
      exact Option.ne_none_iff_exists'.mp (hopen i hi)

section Step

variable {b t : Broker} {e : BrokerEvent} (hinv : b.Inv) (hst : broker.Step b e t)

theorem RegistryMatches.congr (h : b.RegistryMatches)
    (hinfo : t.messageStore.mem.subscriberInfo = b.messageStore.mem.subscriberInfo)
    (hopen : ∀ i, t.Open i ↔ b.Open i)
    (hconfig : ∀ i, (t.streams i).config = (b.streams i).config) : t.RegistryMatches := by
  intro consumerID
  simp only [hinfo, hopen, hconfig]
  exact h consumerID

include hst

theorem open_step (hstart : ∀ req newID, e ≠ .start req newID) (hremove : ∀ i, e ≠ .remove i)
    (i : Nat) : (t.Open i ↔ b.Open i) ∧ (t.streams i).config = (b.streams i).config := by
  unfold Open
  have hm := step_moves hst i
  generalize t.streams i = s at hm
  cases hm with
  | other hacts => exact ⟨Iff.rfl, rfl⟩
  | start hconfig heq => exact absurd rfl (hstart _ _)
  | subscribe hphase => simp [hphase]
  | receive hphase hchannel => simp [hphase]
  | send hphase => simp [Stream.send, hphase]
  | disconnect hlt hdone => exact ⟨Iff.rfl, rfl⟩
  | leave hphase hdone => simp [hphase]
  | remove hphase => exact absurd rfl (hremove _)

include hinv

theorem subscriberInfo_of_call {call : Event} (hcall : b.storeCall e = some call) :
    t.messageStore.mem.subscriberInfo = (b.messageStore.effect call).mem.subscriberInfo := by
  rw [hinv.store.step_eq (step_world hst hcall)]

theorem subscriberInfo_step (hstart : ∀ req newID, e ≠ .start req newID)
    (hremove : ∀ i, e ≠ .remove i) (hclose : ∀ order, e ≠ .close order) :
    t.messageStore.mem.subscriberInfo = b.messageStore.mem.subscriberInfo := by
  cases hcall : b.storeCall e with
  | none => rw [step_world_of_none hst hcall]
  | some call =>
    rw [subscriberInfo_of_call hinv hst hcall, World.subscriberInfo_effect]
    cases calls_of_storeCall hcall with
    | start hconfig => exact absurd rfl (hstart _ _)
    | remove => exact absurd rfl (hremove _)
    | close => exact absurd rfl (hclose _)
    | _ => rfl

end Step

theorem streams_start {b t : Broker} {req : SubscribeRequest} {newID : String}
    {config : SubscribeConfig} (hconfig : SubscriberService.configure req newID = .ok config)
    (hst : broker.Step b (.start req newID) t) (i : Nat) :
    t.streams i = if i = b.opened then ⟨config, false, none, .added, []⟩ else b.streams i := by
  rw [(step_advance hst).1, advance, hconfig]
  exact setStream_streams b b.opened i _

theorem streams_remove {b t : Broker} {i : Nat} (hst : broker.Step b (.remove i) t) (j : Nat) :
    t.streams j = if j = i then { b.streams i with phase := .finished } else b.streams j := by
  rw [(step_advance hst).1, advance, setStream_streams]

theorem registryMatches_start {b t : Broker} {req : SubscribeRequest} {newID : String}
    (hinv : b.Inv) (h : b.RegistryMatches) (hst : broker.Step b (.start req newID) t) :
    t.RegistryMatches := by
  cases hconfig : SubscriberService.configure req newID with
  | error status =>
    have hcall : b.storeCall (.start req newID) = none := by
      simp [storeCall, hconfig, Except.toOption]
    have hsame : t.streams = b.streams := by rw [(step_advance hst).1, advance, hconfig]
    refine h.congr (by rw [step_world_of_none hst hcall]) (fun i => ?_) (fun i => by rw [hsame])
    rw [Open, Open, hsame]
  | ok config =>
    have hcall : b.storeCall (.start req newID) = some (.addSubscriber config.subscriber) := by
      simp [storeCall, hconfig, Except.toOption]
    have hinfo : t.messageStore.mem.subscriberInfo =
        b.messageStore.mem.subscriberInfo.insert config.consumerID config.subscriber :=
      subscriberInfo_of_call hinv hst hcall
    have hnew : t.streams b.opened = ⟨config, false, none, .added, []⟩ := by
      rw [streams_start hconfig hst, if_pos rfl]
    have hold : ∀ i, b.Open i → t.streams i = b.streams i := by
      intro i hi
      rw [streams_start hconfig hst, if_neg]
      rintro rfl
      exact hi (by rw [hinv.unopened (le_refl _)]; rfl)
    rw [registryMatches_iff] at h ⊢
    refine ⟨?_, ?_⟩
    · intro i hi
      rw [hinfo, Finmap.lookup_insert_eq]
      split
      · simp
      · rename_i hne
        have hsame : t.streams i = b.streams i := by
          rw [streams_start hconfig hst, if_neg]
          rintro rfl
          exact hne (by rw [hnew])
        rw [Open, hsame] at hi
        rw [hsame]
        exact h.1 i hi
    · intro consumerID subscriber hlookup
      rw [hinfo, Finmap.lookup_insert_eq] at hlookup
      split at hlookup
      · rename_i hC
        obtain rfl := Option.some.inj hlookup
        refine ⟨b.opened, ?_, ?_⟩
        · simp [Open, hnew]
        · rw [hnew]
          exact ⟨hC.symm, rfl, rfl⟩
      · obtain ⟨i, hi, hentry⟩ := h.2 consumerID subscriber hlookup
        refine ⟨i, ?_, ?_⟩
        · rw [Open, hold i hi]
          exact hi
        · rw [hold i hi]
          exact hentry

theorem registryMatches_remove_iff {b t : Broker} {i : Nat} (hinv : b.Inv) (h : b.RegistryMatches)
    (hst : broker.Step b (.remove i) t) : t.RegistryMatches ↔ b.EndsLast (.remove i) := by
  have hinfo : t.messageStore.mem.subscriberInfo =
      b.messageStore.mem.subscriberInfo.erase (b.streams i).config.consumerID :=
    subscriberInfo_of_call hinv hst rfl
  have hopen : ∀ j, t.Open j ↔ j ≠ i ∧ b.Open j := by
    intro j
    rw [Open, streams_remove hst j]
    by_cases hj : j = i <;> simp [hj, Open]
  have hconfig : ∀ j, (t.streams j).config = (b.streams j).config := by
    intro j
    rw [streams_remove hst j]
    split
    · rename_i hj
      rw [hj]
    · rfl
  rw [registryMatches_iff] at h ⊢
  simp only [hinfo, hopen, hconfig, Finmap.lookup_erase_eq, EndsLast]
  constructor
  · rintro ⟨hleft, -⟩ j hj hjopen hsame
    exact hleft j ⟨hj, hjopen⟩ (by simp [hsame])
  · intro hlast
    refine ⟨?_, ?_⟩
    · rintro j ⟨hj, hjopen⟩
      rw [if_neg (hlast j hj hjopen), hconfig j]
      exact h.1 j hjopen
    · intro consumerID subscriber hlookup
      split at hlookup
      · cases hlookup
      · rename_i hne
        obtain ⟨j, hjopen, hconsumer, hj'⟩ := h.2 consumerID subscriber hlookup
        refine ⟨j, ⟨?_, hjopen⟩, hconsumer, hj'⟩
        rintro rfl
        exact hne hconsumer.symm

theorem registryMatches_close_iff {b t : Broker} {order : List (String × Nat)} (hinv : b.Inv)
    (hst : broker.Step b (.close order) t) : t.RegistryMatches ↔ b.EndsLast (.close order) := by
  have hinfo : t.messageStore.mem.subscriberInfo = ∅ := subscriberInfo_of_call hinv hst rfl
  have hsame : t.streams = b.streams := (step_advance hst).1
  rw [registryMatches_iff]
  simp only [hinfo, hsame, Open, EndsLast]
  simp

theorem registryMatches_step_iff {b t : Broker} {e : BrokerEvent} (hinv : b.Inv)
    (h : b.RegistryMatches) (hst : broker.Step b e t) : t.RegistryMatches ↔ b.EndsLast e := by
  cases e with
  | start req newID => exact iff_of_true (registryMatches_start hinv h hst) trivial
  | remove i => exact registryMatches_remove_iff hinv h hst
  | close order => exact registryMatches_close_iff hinv hst
  | _ =>
    refine iff_of_true (h.congr ?_ (fun i => (open_step hst ?_ ?_ i).1) fun i =>
      (open_step hst ?_ ?_ i).2) trivial
    · apply subscriberInfo_step hinv hst <;> simp
    all_goals simp

/-- In every run of the broker, the registry matches the open streams all along if and only if each
stream that ends is the last open one of its consumer, and no stream is open when the store is
closed. The streams have the consumer, the topic and the batch size that their requests ask for. -/
theorem registryMatches_iff_endsLast {b : Broker} {es : List BrokerEvent}
    (hrun : broker.Run init es b) :
    (broker.Throughout RegistryMatches init es ↔ broker.EveryStep EndsLast init es) ∧
      ∀ i x, (broker.trace opening init es)[i]? = some x →
        (b.streams i).config = requested x := by
  refine ⟨?_, fun i x => config_of_opening hrun⟩
  refine Machine.throughout_iff_everyStep (I := Inv) (L := fun _ => True) ?_ ?_ hrun
    (fun _ _ => trivial) inv_init ?_
  · intro s e t _ hs hst
    exact inv_step hs hst
  · intro s e t _ hs hP hst
    exact registryMatches_step_iff hs hP hst
  · intro consumerID
    simp [init, World.init, InMemoryStore.newInMemoryStore, Open, Stream.idle]

/-- The client is back before the stream that it lost is torn down. -/
def earlyReconnect : List BrokerEvent :=
  [.start ⟨"t", "c", 0, 0, 0, ∅⟩ "", .subscribe 0, .disconnect 0,
    .start ⟨"t", "c", 0, 0, 0, ∅⟩ "", .leave 0, .remove 0]

theorem registryMatches_iff_endsLast_earlyReconnect : ∃ b, broker.Run init earlyReconnect b ∧
    (broker.Throughout RegistryMatches init earlyReconnect ↔
      broker.EveryStep EndsLast init earlyReconnect) := by
  obtain ⟨b, hrun, -⟩ := Machine.exists_run (M := broker) (fun _ => True) init earlyReconnect
    (by decide)
  exact ⟨b, hrun, (registryMatches_iff_endsLast hrun).1⟩

theorem not_registryLaw : ¬ RegistryLaw := by
  intro h
  obtain ⟨b, hrun, hphase, hconsumer, hgone⟩ := Machine.exists_run (M := broker)
    (fun b => (b.streams 1).phase = .added ∧ (b.streams 1).config.consumerID = "c" ∧
      b.messageStore.mem.subscriberInfo.lookup "c" = none) init earlyReconnect (by decide)
  have hmatch := h earlyReconnect b hrun (by simp [earlyReconnect]) "c"
  obtain ⟨subscriber, hentry⟩ := hmatch.1.mpr ⟨1, by simp [Open, hphase], hconsumer⟩
  rw [hgone] at hentry
  cases hentry

end Broker

end GpuTel.Mq
