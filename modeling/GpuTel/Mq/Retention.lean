import GpuTel.Mq.LastWriter
import GpuTel.Mq.ReliableDelivery

/-!
# What the queue keeps

No handler deletes a message. An acknowledgement only marks it, and neither a delivery nor the end
of a subscription frees anything: until the store is closed it grows with every new id.
-/

set_option autoImplicit false

namespace GpuTel.Mq.Broker

open Fifo Transition

def lastPublished (id : String) (msgs : List Message) : Option Message :=
  msgs.reverse.find? fun msg => msg.id = id

theorem lastPublished_snoc (id : String) (msgs : List Message) (msg : Message) :
    lastPublished id (msgs ++ [msg]) = if msg.id = id then some msg else lastPublished id msgs := by
  simp only [lastPublished, List.reverse_append, List.reverse_singleton, List.singleton_append,
    List.find?_cons]
  by_cases h : msg.id = id <;> simp [h]

section Step

variable {b t : Broker} {e : BrokerEvent} (hinv : b.Inv) (hst : broker.Step b e t)
include hinv hst

theorem lookup_messages_step (hopen : ∀ order, e ≠ .close order) (id : String) :
    t.messageStore.mem.messages.lookup id =
      ((published e).filter fun msg => msg.id = id).or
        (b.messageStore.mem.messages.lookup id) := by
  cases hcall : b.storeCall e with
  | none =>
    rw [step_world_of_none hst hcall]
    cases e with
    | publish req newID now order =>
      rw [storeCall, Option.map_eq_none_iff] at hcall
      simp [published_eq_prepare, hcall]
    | _ => rfl
  | some call =>
    rw [hinv.store.step_eq (step_world hst hcall), World.lookup_messages_effect]
    cases calls_of_storeCall hcall with
    | @publish req newID now order msg hprepare =>
      simp only [World.writes, published_eq_prepare, hprepare, filledIn_prepare hprepare,
        Except.toOption, Option.filter_some]
      by_cases h : msg.id = id <;> simp [h]
    | close => exact absurd rfl (hopen _)
    | _ => rfl

theorem members_topics_step (hopen : ∀ order, e ≠ .close order) (topic id : String) :
    id ∈ t.messageStore.mem.topics.members topic ↔
      id ∈ b.messageStore.mem.topics.members topic ∨
        ∃ msg ∈ published e, msg.id = id ∧ msg.topic = topic := by
  cases hcall : b.storeCall e with
  | none =>
    rw [step_world_of_none hst hcall]
    cases e with
    | publish req newID now order =>
      rw [storeCall, Option.map_eq_none_iff] at hcall
      simp [published_eq_prepare, hcall]
    | _ => simp [published]
  | some call =>
    rw [hinv.store.step_eq (step_world hst hcall)]
    cases calls_of_storeCall hcall with
    | @publish req newID now order msg hprepare =>
      simp only [World.effect, World.deliver, InMemoryStore.put, stamp_eq,
        filledIn_prepare hprepare, published_eq_prepare, hprepare, SetMap.mem_members_add]
      simp [Except.toOption, or_comm, and_comm, eq_comm]
    | close => exact absurd rfl (hopen _)
    | _ => simp [World.effect, World.subscribe, InMemoryStore.addSubscriber,
        InMemoryStore.removeSubscriber, World.setChan, published]

end Step

section Run

variable {b : Broker} {es : List BrokerEvent} (hrun : broker.Run init es b)
variable (hopen : ∀ e ∈ es, ∀ order, e ≠ .close order)
include hrun hopen

theorem lookup_messages (id : String) : b.messageStore.mem.messages.lookup id =
    lastPublished id (broker.trace (fun _ e => published e) init es) := by
  refine hrun.history (H := fun es b => (∀ e ∈ es, ∀ order, e ≠ .close order) →
    b.messageStore.mem.messages.lookup id =
      lastPublished id (broker.trace (fun _ e => published e) init es)) (fun _ => rfl) ?_ hopen
  intro es m e t hm ih hst hclosed
  have hstep := lookup_messages_step (inv_run hm) hst (fun order => hclosed e (by simp) order) id
  rw [hstep, ih fun f hf => hclosed f (List.mem_append_left _ hf), hm.trace_snoc _ hst]
  cases hpub : published e with
  | none => simp
  | some msg =>
    rw [Option.toList_some, lastPublished_snoc, Option.filter_some]
    by_cases h : msg.id = id <;> simp [h]

theorem mem_members_topics (topic id : String) : id ∈ b.messageStore.mem.topics.members topic ↔
    ∃ msg ∈ broker.trace (fun _ e => published e) init es, msg.id = id ∧ msg.topic = topic := by
  refine hrun.history (H := fun es b => (∀ e ∈ es, ∀ order, e ≠ .close order) →
    (id ∈ b.messageStore.mem.topics.members topic ↔
      ∃ msg ∈ broker.trace (fun _ e => published e) init es, msg.id = id ∧ msg.topic = topic)) ?_ ?_
    hopen
  · intro _
    simp [init, World.init, InMemoryStore.newInMemoryStore, Machine.trace]
  · intro es m e t hm ih hst hclosed
    have hstep := members_topics_step (inv_run hm) hst (fun order => hclosed e (by simp) order)
      topic id
    rw [hstep, ih fun f hf => hclosed f (List.mem_append_left _ hf), hm.trace_snoc _ hst]
    constructor
    · rintro (⟨msg, hmsg, hids⟩ | ⟨msg, hmsg, hids⟩)
      · exact ⟨msg, List.mem_append_left _ hmsg, hids⟩
      · exact ⟨msg, List.mem_append_right _ (Option.mem_toList.mpr hmsg), hids⟩
    · rintro ⟨msg, hmsg, hids⟩
      rcases List.mem_append.mp hmsg with hold | hnew
      · exact Or.inl ⟨msg, hold, hids⟩
      · exact Or.inr ⟨msg, Option.mem_toList.mp hnew, hids⟩

theorem isSome_lookup_messages (id : String) :
    (b.messageStore.mem.messages.lookup id).isSome ↔
      ∃ msg ∈ broker.trace (fun _ e => published e) init es, msg.id = id := by
  rw [lookup_messages hrun hopen, lastPublished, List.find?_isSome]
  simp

/-- In every run of the broker in which the store is not closed, and whatever was delivered,
acknowledged or given up: the store holds under every id the message that was published last under
it; it indexes every id under each topic that it was published on; and it has an entry for each
different id ever published, no fewer. -/
theorem keeps_published :
    (∀ id, b.messageStore.mem.messages.lookup id =
      lastPublished id (broker.trace (fun _ e => published e) init es)) ∧
    (∀ topic id, id ∈ b.messageStore.mem.topics.members topic ↔
      ∃ msg ∈ broker.trace (fun _ e => published e) init es, msg.id = id ∧ msg.topic = topic) ∧
    b.messageStore.mem.messages.keys =
      ((broker.trace (fun _ e => published e) init es).map Message.id).toFinset := by
  refine ⟨lookup_messages hrun hopen, mem_members_topics hrun hopen, ?_⟩
  ext id
  rw [Finmap.mem_keys, ← Finmap.lookup_isSome, isSome_lookup_messages hrun hopen, List.mem_toFinset,
    List.mem_map]

theorem live_of_published {msg : Message}
    (hmsg : msg ∈ broker.trace (fun _ e => published e) init es) :
    b.messageStore.mem.Live msg.id :=
  Option.isSome_iff_exists.mp ((isSome_lookup_messages hrun hopen msg.id).mpr ⟨msg, hmsg, rfl⟩)

end Run

/-- An acknowledged message, and one published twice. -/
def republished : List BrokerEvent :=
  [publishT "m" [], publishT "n" [], .acknowledge ⟨"m", "c", true⟩, publishT "m" []]

theorem keeps_published_republished : ∃ b, broker.Run init republished b ∧
    b.messageStore.mem.messages.keys = {"m", "n"} := by
  obtain ⟨b, hrun, -⟩ := Machine.exists_run (M := broker) (fun _ => True) init republished
    (by decide)
  have hopen : ∀ e ∈ republished, ∀ order, e ≠ .close order := by
    simp [republished, publishT]
  have htrace : ((broker.trace (fun _ e => published e) init republished).map Message.id).toFinset =
      {"m", "n"} := by decide
  exact ⟨b, hrun, (keeps_published hrun hopen).2.2.trans htrace⟩

end GpuTel.Mq.Broker
