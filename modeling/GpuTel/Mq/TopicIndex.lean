import GpuTel.Mq.LastWriter

/-!
# The topic index and batch reads

The index of a topic is only ever added to. An id that is stored again under another topic is
therefore in both indices, and a batch read of the first topic returns the message of the second.
Batch reads are isolated in exactly the runs in which no id changes its topic while the index
remembers it.
-/

set_option autoImplicit false

namespace GpuTel.Mq.World

open Transition

/-- Every batch read of every topic returns messages of that topic only. -/
def Isolated (w : World) : Prop :=
  ∀ topic consumerID batchSize order, Enumerates order (w.mem.topics.members topic) →
    ∀ msg ∈ (w.mem.getMessages topic consumerID batchSize order).1, msg.topic = topic

def TopicIsolation : Prop := ∀ es w, world.Run init es w → w.Isolated

/-- A `Store` puts its message under an id that is in no other topic's index. -/
def FreshTopic (w : World) : Event → Prop
  | .store msg newID now _ =>
    ∀ topic, (msg.filledIn newID now).id ∈ w.mem.topics.members topic → topic = msg.topic
  | _ => True

def Aligned (w : World) : Prop :=
  ∀ topic id msg, id ∈ w.mem.topics.members topic → w.mem.messages.lookup id = some msg →
    msg.topic = topic

theorem isolated_iff_aligned (w : World) : w.Isolated ↔ w.Aligned := by
  constructor
  · intro h topic id msg hid hmsg
    have horder := Enumerates.toList (w.mem.topics.members topic)
    have hfetched : id ∈ w.mem.fetched "" (w.mem.topics.members topic).toList.length
        (w.mem.topics.members topic).toList :=
      InMemoryStore.mem_fetched_of_length_le (horder.mem_iff.mpr hid)
        ⟨⟨msg, hmsg⟩, by simp⟩ (le_refl _)
    exact h topic "" _ _ horder msg
      ((InMemoryStore.mem_getMessages _ _ _ _ horder msg).mpr ⟨id, hfetched, hmsg⟩)
  · intro h topic consumerID batchSize order horder msg hmsg
    obtain ⟨id, hfetched, hlookup⟩ :=
      (InMemoryStore.mem_getMessages _ _ _ _ horder msg).mp hmsg
    exact h topic id msg (horder.mem_iff.mp (InMemoryStore.mem_fetched hfetched).1) hlookup

theorem Aligned.mono {w t : World} (h : w.Aligned)
    (hmsg : ∀ id msg, t.mem.messages.lookup id = some msg → w.mem.messages.lookup id = some msg)
    (htopics : ∀ topic id, id ∈ t.mem.topics.members topic → id ∈ w.mem.topics.members topic) :
    t.Aligned := by
  intro topic id msg hid hlookup
  exact h topic id msg (htopics topic id hid) (hmsg id msg hlookup)

theorem aligned_deliver_iff {w : World} (h : w.Aligned) (msg : Message) :
    (w.deliver msg).Aligned ↔ ∀ topic, msg.id ∈ w.mem.topics.members topic → topic = msg.topic := by
  constructor
  · intro ht topic hid
    have hmem : msg.id ∈ (w.deliver msg).mem.topics.members topic :=
      (SetMap.mem_members_add _ _ _ _ _).mpr (Or.inr hid)
    exact (ht topic msg.id msg hmem (Finmap.lookup_insert _)).symm
  · intro hfresh topic id m hid hlookup
    simp only [deliver, InMemoryStore.put, Finmap.lookup_insert_eq] at hlookup
    rcases (SetMap.mem_members_add _ _ _ _ _).mp hid with ⟨htopic, heq⟩ | hold
    · rw [if_pos heq] at hlookup
      rw [← Option.some.inj hlookup, htopic]
    · split at hlookup
      · rename_i heq
        rw [← Option.some.inj hlookup]
        exact (hfresh topic (heq ▸ hold)).symm
      · exact h topic id m hold hlookup

theorem aligned_step_iff {w t : World} {e : Event} (hinv : w.Inv) (h : w.Aligned)
    (hst : world.Step w e t) : t.Aligned ↔ w.FreshTopic e := by
  rw [hinv.step_eq hst]
  cases e with
  | store msg newID now order => exact aligned_deliver_iff h _
  | delete msgID =>
    refine iff_of_true (h.mono ?_ fun _ _ hid => hid) trivial
    intro id msg hlookup
    simp only [effect, InMemoryStore.delete, Finmap.lookup_erase_eq] at hlookup
    split at hlookup
    · cases hlookup
    · exact hlookup
  | cleanUp c => exact iff_of_true (h.mono (by simp [effect]) (by simp [effect])) trivial
  | acknowledge msgID consumerID =>
    exact iff_of_true (h.mono (by simp [effect]) (by simp [effect])) trivial
  | getMessages topic consumerID batchSize order =>
    exact iff_of_true (h.mono (by simp [effect]) (by simp [effect])) trivial
  | close order =>
    refine iff_of_true ?_ trivial
    intro topic id msg hid
    simp [effect, shutDown, InMemoryStore.newInMemoryStore] at hid
  | _ => exact iff_of_true h trivial

theorem aligned_init : init.Aligned := by
  intro topic id msg hid
  simp [init, InMemoryStore.newInMemoryStore] at hid

/-- Batch reads are isolated throughout a run if and only if every `Store` in it keeps to the topic
under which the index knows its id. -/
theorem isolated_iff_freshTopic {w : World} {es : List Event} (hrun : world.Run init es w) :
    world.Throughout Isolated init es ↔ world.EveryStep FreshTopic init es := by
  refine Machine.throughout_iff_everyStep (I := Inv) (L := fun _ => True) ?_ ?_ hrun ?_ inv_init ?_
  · intro s e t _ hs hst
    exact inv_step hs hst
  · intro s e t _ hs hP hst
    rw [isolated_iff_aligned]
    exact aligned_step_iff hs ((isolated_iff_aligned s).mp hP) hst
  · exact fun _ _ => trivial
  · exact (isolated_iff_aligned init).mpr aligned_init

def movedID : List Event :=
  [.store ⟨"m", "a", [], none⟩ "" ⟨0, 0⟩ [], .delete "m", .store ⟨"m", "b", [], none⟩ "" ⟨0, 0⟩ []]

theorem isolated_iff_freshTopic_movedID : ∃ w, world.Run init movedID w ∧
    (world.Throughout Isolated init movedID ↔ world.EveryStep FreshTopic init movedID) := by
  obtain ⟨w, hrun, -⟩ := Machine.exists_run (M := world) (fun _ => True) init movedID (by decide)
  exact ⟨w, hrun, isolated_iff_freshTopic hrun⟩

theorem not_topicIsolation : ¬ TopicIsolation := by
  intro h
  obtain ⟨w, hrun, horder, hread⟩ := Machine.exists_run (M := world)
    (fun w => Enumerates ["m"] (w.mem.topics.members "a") ∧
      (w.mem.getMessages "a" "c" 1 ["m"]).1.map Message.topic = ["b"]) init movedID (by decide)
  have hall := h movedID w hrun "a" "c" 1 ["m"] horder
  obtain ⟨msg, hmsg, htopic⟩ := List.mem_map.mp (hread ▸ List.mem_singleton_self "b")
  have hcontra := (hall msg hmsg).symm.trans htopic
  exact absurd hcontra (by decide)

end GpuTel.Mq.World
