import GpuTel.Mq.WorldInvariant

/-!
# The batch that a consumer reads

For every order of iteration `GetMessages` returns as many eligible messages as it may, each once,
and changes the tracker at their ids alone. Ids that are not live or that are tracked to the
consumer do not count towards the batch.
-/

set_option autoImplicit false

namespace GpuTel.Mq.InMemoryStore

def Reachable (s : InMemoryStore) : Prop := ∃ es w, world.Run World.init es w ∧ w.mem = s

theorem Reachable.coherent {s : InMemoryStore} (h : s.Reachable) : s.Coherent := by
  obtain ⟨es, w, hrun, rfl⟩ := h
  exact (World.inv_run hrun).coherent

/-- The ids of the topic that are live and not tracked to the consumer. -/
def eligibleIds (s : InMemoryStore) (topic consumerID : String) : Finset String :=
  (s.topics.members topic).filter (s.Eligible consumerID)

theorem mem_eligibleIds {s : InMemoryStore} {topic consumerID id : String} :
    id ∈ s.eligibleIds topic consumerID ↔
      id ∈ s.topics.members topic ∧ s.Eligible consumerID id := Finset.mem_filter

section Batch

variable (s : InMemoryStore) (topic consumerID : String) (batchSize : Int) {order : List String}
variable (h : Enumerates order (s.topics.members topic))
include h

theorem nodup_fetched : (s.fetched consumerID batchSize order).Nodup :=
  (h.nodup.filter _).sublist (List.take_sublist _ _)

theorem mem_eligibleIds_of_fetched {id : String}
    (hid : id ∈ s.fetched consumerID batchSize order) : id ∈ s.eligibleIds topic consumerID := by
  obtain ⟨horder, helig⟩ := mem_fetched hid
  exact mem_eligibleIds.mpr ⟨h.mem_iff.mp horder, helig⟩

theorem length_fetched : (s.fetched consumerID batchSize order).length =
    min batchSize.toNat (s.eligibleIds topic consumerID).card := by
  rw [fetched, List.length_take, (h.filter (s.Eligible consumerID)).length_eq]
  rfl

theorem forall₂_getMessages :
    List.Forall₂ (fun id msg => s.messages.lookup id = some msg)
      (s.fetched consumerID batchSize order)
      (s.getMessages topic consumerID batchSize order).1 := by
  rw [getMessages_eq s topic consumerID batchSize h]
  exact s.messages.forall₂_lookup fun id hid => (mem_fetched hid).2.1

theorem map_id_getMessages (hcoh : s.Coherent) :
    (s.getMessages topic consumerID batchSize order).1.map Message.id =
      s.fetched consumerID batchSize order := by
  have hids : List.Forall₂ (fun id msg => id = Message.id msg)
      (s.fetched consumerID batchSize order)
      (s.getMessages topic consumerID batchSize order).1 :=
    (forall₂_getMessages s topic consumerID batchSize h).imp fun _ _ hmsg => (hcoh.keyed hmsg).symm
  rw [← List.forall₂_map_right_iff, List.forall₂_eq_eq_eq] at hids
  exact hids.symm

end Batch

/-- For every store and every order of iteration: the batch is the messages stored under some
distinct eligible ids, as many as there are up to the batch size; the tracker then names the
consumer at those ids and is as before at all others; nothing else changes. An anonymous consumer
changes nothing at all. In the stores that can be reached the ids are those of the messages. -/
theorem getMessages_batch (s : InMemoryStore) (topic consumerID : String) (batchSize : Int)
    {order : List String} (h : Enumerates order (s.topics.members topic)) :
    ∃ ids : List String, ids.Nodup ∧
      (∀ id ∈ ids, id ∈ s.topics.members topic ∧ s.Live id ∧
        (consumerID ≠ "" → s.ackTracker.lookup id ≠ some consumerID)) ∧
      (ids.length : Int) = min (max batchSize 0) ((s.topics.members topic).filter fun id =>
        s.Live id ∧ (consumerID ≠ "" → s.ackTracker.lookup id ≠ some consumerID)).card ∧
      List.Forall₂ (fun id msg => s.messages.lookup id = some msg) ids
        (s.getMessages topic consumerID batchSize order).1 ∧
      (s.Reachable → (s.getMessages topic consumerID batchSize order).1.map Message.id = ids) ∧
      (∀ id, (s.getMessages topic consumerID batchSize order).2.ackTracker.lookup id =
        if consumerID ≠ "" ∧ id ∈ ids then some consumerID else s.ackTracker.lookup id) ∧
      (s.getMessages topic consumerID batchSize order).2 =
        { s with
          ackTracker := (s.getMessages topic consumerID batchSize order).2.ackTracker } ∧
      (consumerID = "" → (s.getMessages topic consumerID batchSize order).2 = s) := by
  refine ⟨s.fetched consumerID batchSize order, nodup_fetched s topic consumerID batchSize h,
    ?_, ?_, forall₂_getMessages s topic consumerID batchSize h,
    fun hs => map_id_getMessages s topic consumerID batchSize h hs.coherent,
    lookup_ackTracker_getMessages s topic consumerID batchSize h, ?_, ?_⟩
  · intro id hid
    obtain ⟨hmem, helig⟩ :=
      mem_eligibleIds.mp (mem_eligibleIds_of_fetched s topic consumerID batchSize h hid)
    exact ⟨hmem, helig.1, fun hC htracked => helig.2 ⟨hC, htracked⟩⟩
  · have helig : ((s.topics.members topic).filter fun id =>
        s.Live id ∧ (consumerID ≠ "" → s.ackTracker.lookup id ≠ some consumerID)) =
        s.eligibleIds topic consumerID := by
      apply Finset.filter_congr
      intro id _
      rw [Eligible, not_and]
    rw [helig, length_fetched s topic consumerID batchSize h]
    omega
  · rw [getMessages_eq s topic consumerID batchSize h]
  · rintro rfl
    rw [getMessages_eq s topic "" batchSize h]
    simp [track]

/-- One id is stale, one is acknowledged, one is left. -/
def mixedStore : InMemoryStore :=
  ((((newInMemoryStore.put ⟨"m", "t", [], none⟩).put ⟨"k", "t", [], none⟩).put
    ⟨"x", "t", [], none⟩).delete "x").acknowledge "k" "c" |>.2

theorem getMessages_batch_mixedStore : ∃ ids : List String, ids.Nodup ∧ ids.length = 1 ∧
    List.Forall₂ (fun id msg => mixedStore.messages.lookup id = some msg) ids
      (mixedStore.getMessages "t" "c" 5 ["x", "k", "m"]).1 := by
  have horder : Enumerates ["x", "k", "m"] (mixedStore.topics.members "t") := by decide
  obtain ⟨ids, hnodup, -, hlen, hbatch, -⟩ := getMessages_batch mixedStore "t" "c" 5 horder
  have hcard : ((mixedStore.topics.members "t").filter fun id =>
      mixedStore.Live id ∧ ("c" ≠ "" → mixedStore.ackTracker.lookup id ≠ some "c")).card = 1 := by
    decide
  rw [hcard] at hlen
  exact ⟨ids, hnodup, by omega, hbatch⟩

end GpuTel.Mq.InMemoryStore
