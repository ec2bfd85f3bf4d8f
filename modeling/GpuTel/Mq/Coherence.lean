import GpuTel.Mq.GetMessages

/-!
# The cross-map invariant of the store

Messages are filed under their own id, every live id is in the index of its message's topic, and
only live ids are tracked. The index may hold more: `Delete` leaves it alone, and so does storing an
id again under another topic.
-/

set_option autoImplicit false

namespace GpuTel.Mq.InMemoryStore

structure Coherent (s : InMemoryStore) : Prop where
  keyed : ∀ {id msg}, s.messages.lookup id = some msg → msg.id = id
  indexed : ∀ {id msg}, s.messages.lookup id = some msg → id ∈ s.topics.members msg.topic
  tracked : ∀ {id consumerID}, s.ackTracker.lookup id = some consumerID → s.Live id

theorem coherent_new : newInMemoryStore.Coherent := by
  refine ⟨?_, ?_, ?_⟩ <;> intro id x h <;> simp [newInMemoryStore] at h

namespace Coherent

variable {s : InMemoryStore}

theorem of_eq {t : InMemoryStore} (h : s.Coherent) (hm : t.messages = s.messages)
    (ht : t.topics = s.topics) (ha : t.ackTracker = s.ackTracker) : t.Coherent := by
  refine ⟨?_, ?_, ?_⟩
  · intro id msg hid
    exact h.keyed (hm ▸ hid)
  · intro id msg hid
    rw [ht]
    exact h.indexed (hm ▸ hid)
  · intro id consumerID hid
    unfold Live
    rw [hm]
    exact h.tracked (ha ▸ hid)

theorem put (h : s.Coherent) (msg : Message) : (s.put msg).Coherent := by
  refine ⟨?_, ?_, ?_⟩
  · intro id m hid
    simp only [InMemoryStore.put, Finmap.lookup_insert_eq] at hid
    split at hid
    · rename_i heq
      rw [← Option.some.inj hid, heq]
    · exact h.keyed hid
  · intro id m hid
    simp only [InMemoryStore.put, Finmap.lookup_insert_eq] at hid
    simp only [InMemoryStore.put, SetMap.mem_members_add]
    split at hid
    · rename_i heq
      rw [← Option.some.inj hid]
      exact Or.inl ⟨rfl, heq⟩
    · exact Or.inr (h.indexed hid)
  · intro id consumerID hid
    obtain ⟨m, hm⟩ := h.tracked hid
    by_cases heq : id = msg.id
    · refine ⟨msg, ?_⟩
      rw [heq]
      exact Finmap.lookup_insert s.messages
    · exact ⟨m, by simp [InMemoryStore.put, heq, hm]⟩

theorem delete (h : s.Coherent) (msgID : String) : (s.delete msgID).Coherent := by
  have hmsg : ∀ {id m}, (s.delete msgID).messages.lookup id = some m →
      s.messages.lookup id = some m := by
    intro id m hid
    simp only [InMemoryStore.delete, Finmap.lookup_erase_eq] at hid
    split at hid
    · cases hid
    · exact hid
  refine ⟨fun hid => h.keyed (hmsg hid), fun hid => h.indexed (hmsg hid), ?_⟩
  intro id consumerID hid
  simp only [InMemoryStore.delete, Finmap.lookup_erase_eq] at hid
  split at hid
  · cases hid
  · rename_i hne
    obtain ⟨m, hm⟩ := h.tracked hid
    exact ⟨m, by simp [InMemoryStore.delete, hne, hm]⟩

theorem retrack (h : s.Coherent) {ackTracker : GoMap String}
    (hnew : ∀ {id consumerID}, ackTracker.lookup id = some consumerID →
      s.ackTracker.lookup id = some consumerID ∨ s.Live id) :
    Coherent { s with ackTracker := ackTracker } := by
  refine ⟨h.keyed, h.indexed, ?_⟩
  intro id consumerID hid
  rcases hnew hid with hold | hlive
  · exact h.tracked hold
  · exact hlive

theorem acknowledge (h : s.Coherent) (msgID consumerID : String) :
    (s.acknowledge msgID consumerID).2.Coherent := by
  unfold InMemoryStore.acknowledge
  cases hm : s.messages.lookup msgID with
  | none => exact h
  | some msg =>
    apply h.retrack
    intro id c hid
    rw [Finmap.lookup_insert_eq] at hid
    split at hid
    · rename_i heq
      exact Or.inr ⟨msg, heq ▸ hm⟩
    · exact Or.inl hid

theorem getMessages (h : s.Coherent) (topic consumerID : String) (batchSize : Int)
    {order : List String} (horder : Enumerates order (s.topics.members topic)) :
    (s.getMessages topic consumerID batchSize order).2.Coherent := by
  rw [getMessages_eq s topic consumerID batchSize horder]
  apply h.retrack
  intro id c hid
  rw [lookup_track] at hid
  split at hid
  · rename_i hmem
    exact Or.inr (mem_fetched hmem.2).2.1
  · exact Or.inl hid

end Coherent

end GpuTel.Mq.InMemoryStore
