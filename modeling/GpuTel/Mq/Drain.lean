import GpuTel.Lib.Chunk
import GpuTel.Mq.BatchReads

/-!
# Draining a topic

A consumer reads a batch, acknowledges every message of it, and starts again. Each round takes some
of the eligible ids away, `batchSize` of them until they run out, and no id comes back: fetching a
message already enters it in the tracker, so that the acknowledgement finds nothing left to write.
-/

set_option autoImplicit false

namespace GpuTel.Mq.InMemoryStore

open Transition

/-- One `Acknowledge` for each message: what they return, and the store afterwards. -/
def acknowledgeAll (consumerID : String) :
    List Message → InMemoryStore → List (Option MessageError) × InMemoryStore
  | [], s => ([], s)
  | msg :: rest, s =>
    let (err, s) := s.acknowledge msg.id consumerID
    let (errs, s) := acknowledgeAll consumerID rest s
    (err :: errs, s)

structure Round where
  messages : List Message
  acks : List (Option MessageError)

/-- `GetMessages`, then `Acknowledge` for every returned message. -/
def fetchAndAcknowledge (s : InMemoryStore) (topic consumerID : String) (batchSize : Int)
    (order : List String) : Round × InMemoryStore :=
  let (messages, s) := s.getMessages topic consumerID batchSize order
  let (acks, s) := acknowledgeAll consumerID messages s
  (⟨messages, acks⟩, s)

/-- One round for each order of iteration. -/
def drain (topic consumerID : String) (batchSize : Int) :
    List (List String) → InMemoryStore → List Round × InMemoryStore
  | [], s => ([], s)
  | order :: orders, s =>
    let (round, s) := s.fetchAndAcknowledge topic consumerID batchSize order
    let (rounds, s) := drain topic consumerID batchSize orders s
    (round :: rounds, s)

theorem acknowledgeAll_of_tracked {consumerID : String} {msgs : List Message} {s : InMemoryStore}
    (h : ∀ msg ∈ msgs, s.Live msg.id ∧ s.ackTracker.lookup msg.id = some consumerID) :
    acknowledgeAll consumerID msgs s = (msgs.map fun _ => none, s) := by
  induction msgs with
  | nil => rfl
  | cons msg msgs ih =>
    obtain ⟨hlive, htracked⟩ := h msg List.mem_cons_self
    have hsame : s.ackTracker.insert msg.id consumerID = s.ackTracker := by
      apply Finmap.ext_lookup
      intro id
      rw [Finmap.lookup_insert_eq]
      split
      · rename_i heq
        rw [heq, htracked]
      · rfl
    simp [acknowledgeAll, acknowledge_of_live hlive, hsame,
      ih fun m hm => h m (List.mem_cons_of_mem msg hm)]

section Round

variable {s : InMemoryStore} (hcoh : s.Coherent) {consumerID : String} (hC : consumerID ≠ "")
variable (topic : String) (batchSize : Int) {order : List String}
variable (h : Enumerates order (s.topics.members topic))
include hcoh hC h

theorem fetchAndAcknowledge_eq : s.fetchAndAcknowledge topic consumerID batchSize order =
    (⟨(s.getMessages topic consumerID batchSize order).1,
      (s.getMessages topic consumerID batchSize order).1.map fun _ => none⟩,
      (s.getMessages topic consumerID batchSize order).2) := by
  have htracked : ∀ msg ∈ (s.getMessages topic consumerID batchSize order).1,
      (s.getMessages topic consumerID batchSize order).2.Live msg.id ∧
        (s.getMessages topic consumerID batchSize order).2.ackTracker.lookup msg.id =
          some consumerID := by
    intro msg hmsg
    obtain ⟨id, hid, hlookup⟩ := (mem_getMessages s topic consumerID batchSize h msg).mp hmsg
    have hkey : msg.id = id := hcoh.keyed hlookup
    refine ⟨⟨msg, ?_⟩, ?_⟩
    · rw [getMessages_messages, hkey]
      exact hlookup
    · rw [lookup_ackTracker_getMessages s topic consumerID batchSize h, hkey, if_pos ⟨hC, hid⟩]
  simp [fetchAndAcknowledge, acknowledgeAll_of_tracked htracked]

omit hcoh in
theorem eligibleIds_getMessages :
    (s.getMessages topic consumerID batchSize order).2.eligibleIds topic consumerID =
      s.eligibleIds topic consumerID \ (s.fetched consumerID batchSize order).toFinset := by
  ext id
  rw [Finset.mem_sdiff, mem_eligibleIds, mem_eligibleIds, List.mem_toFinset, getMessages_topics]
  unfold Eligible Live
  rw [getMessages_messages, lookup_ackTracker_getMessages s topic consumerID batchSize h]
  by_cases hid : id ∈ s.fetched consumerID batchSize order
  · simp [hC, hid]
  · simp [hid]

omit hcoh in
theorem card_eligibleIds_getMessages :
    ((s.getMessages topic consumerID batchSize order).2.eligibleIds topic consumerID).card =
      (s.eligibleIds topic consumerID).card - batchSize.toNat := by
  have hsub : (s.fetched consumerID batchSize order).toFinset ⊆ s.eligibleIds topic consumerID := by
    intro id hid
    exact mem_eligibleIds_of_fetched s topic consumerID batchSize h (List.mem_toFinset.mp hid)
  have hnodup := nodup_fetched s topic consumerID batchSize h
  rw [eligibleIds_getMessages hC topic batchSize h, Finset.card_sdiff_of_subset hsub,
    List.toFinset_card_of_nodup hnodup, length_fetched s topic consumerID batchSize h]
  omega

end Round

def drainedIds (rounds : List Round) : List String :=
  rounds.flatMap fun round => round.messages.map Message.id

/-- What `n` rounds do, given the eligible ids before them. -/
structure Drained (s : InMemoryStore) (topic consumerID : String) (b n : Nat)
    (rounds : List Round) : Prop where
  sizes : rounds.map (fun round => round.messages.length) =
    (List.range n).map fun i => min b ((s.eligibleIds topic consumerID).card - i * b)
  total : (drainedIds rounds).length = min (n * b) (s.eligibleIds topic consumerID).card
  acks : ∀ round ∈ rounds, round.acks = round.messages.map fun _ => none
  stored : ∀ round ∈ rounds, ∀ msg ∈ round.messages, s.messages.lookup msg.id = some msg
  nodup : (drainedIds rounds).Nodup
  eligible : ∀ id ∈ drainedIds rounds, id ∈ s.eligibleIds topic consumerID

theorem Drained.nil (s : InMemoryStore) (topic consumerID : String) (b : Nat) :
    Drained s topic consumerID b 0 [] where
  sizes := rfl
  total := by simp [drainedIds]
  acks := by simp
  stored := by simp
  nodup := List.nodup_nil
  eligible := by simp [drainedIds]

theorem Drained.cons {s : InMemoryStore} (hcoh : s.Coherent) {topic consumerID : String}
    (hC : consumerID ≠ "") {b n : Nat} {order : List String}
    (h : Enumerates order (s.topics.members topic)) {rounds : List Round}
    (hrest : Drained (s.getMessages topic consumerID b order).2 topic consumerID b n rounds) :
    Drained s topic consumerID b (n + 1)
      (⟨(s.getMessages topic consumerID b order).1,
        (s.getMessages topic consumerID b order).1.map fun _ => none⟩ :: rounds) := by
  have hids := map_id_getMessages s topic consumerID b h hcoh
  have hlen : (s.getMessages topic consumerID b order).1.length =
      min b (s.eligibleIds topic consumerID).card := by
    rw [← List.length_map Message.id, hids, length_fetched s topic consumerID b h,
      Int.toNat_natCast]
  have hleft := eligibleIds_getMessages hC topic b h
  have hcard : ((s.getMessages topic consumerID b order).2.eligibleIds topic consumerID).card =
      (s.eligibleIds topic consumerID).card - b := by
    rw [card_eligibleIds_getMessages hC topic b h, Int.toNat_natCast]
  refine ⟨?_, ?_, ?_, ?_, ?_, ?_⟩
  · rw [List.map_cons, hrest.sizes, List.range_succ_eq_map, List.map_cons, List.map_map, hlen,
      hcard]
    congr 1
    · simp
    · apply List.map_congr_left
      intro i _
      simp only [Function.comp_apply, Nat.succ_eq_add_one, Nat.succ_mul]
      omega
  · have htotal := hrest.total
    rw [hcard] at htotal
    simp only [drainedIds, List.flatMap_cons, List.length_append, List.length_map] at htotal ⊢
    rw [htotal, hlen, Nat.succ_mul]
    omega
  · intro round hround
    rcases List.mem_cons.mp hround with rfl | hround
    · rfl
    · exact hrest.acks round hround
  · intro round hround msg hmsg
    rcases List.mem_cons.mp hround with rfl | hround
    · obtain ⟨id, -, hlookup⟩ := (mem_getMessages s topic consumerID b h msg).mp hmsg
      rw [hcoh.keyed hlookup]
      exact hlookup
    · have hstored := hrest.stored round hround msg hmsg
      rw [getMessages_messages] at hstored
      exact hstored
  · rw [drainedIds, List.flatMap_cons, hids]
    apply List.Nodup.append (nodup_fetched s topic consumerID b h) hrest.nodup
    intro id hid hlater
    have hout := hrest.eligible id hlater
    rw [hleft, Finset.mem_sdiff, List.mem_toFinset] at hout
    exact hout.2 hid
  · intro id hid
    rw [drainedIds, List.flatMap_cons, hids] at hid
    rcases List.mem_append.mp hid with hid | hid
    · exact mem_eligibleIds_of_fetched s topic consumerID b h hid
    · have hout := hrest.eligible id hid
      rw [hleft, Finset.mem_sdiff] at hout
      exact hout.1

theorem drained_drain {s : InMemoryStore} (hcoh : s.Coherent) {topic consumerID : String}
    (hC : consumerID ≠ "") (b : Nat) {orders : List (List String)}
    (horders : ∀ order ∈ orders, Enumerates order (s.topics.members topic)) :
    Drained s topic consumerID b orders.length (drain topic consumerID b orders s).1 := by
  induction orders generalizing s with
  | nil => exact Drained.nil s topic consumerID b
  | cons order orders ih =>
    have h := horders order List.mem_cons_self
    have hrest := ih (hcoh.getMessages topic consumerID b h) fun o ho => by
      rw [getMessages_topics]
      exact horders o (List.mem_cons_of_mem order ho)
    have hround := Drained.cons hcoh hC h hrest
    simp only [drain, fetchAndAcknowledge_eq hcoh hC topic b h]
    exact hround

/-- From every reachable store, for a named consumer, every batch size and any orders of iteration:
all acknowledgements succeed; no message is read twice, and only eligible ones are; batch `i` has
`batchSize` messages as long as there are so many left, which makes `⌈k / batchSize⌉` non-empty
batches out of `k` eligible ids; and after these rounds every one of them has been read. -/
theorem drain_exactly_once {s : InMemoryStore} (hs : s.Reachable) {consumerID : String}
    (hC : consumerID ≠ "") (topic : String) {batchSize : Nat} (hbatch : 1 ≤ batchSize)
    {orders : List (List String)}
    (horders : ∀ order ∈ orders, Enumerates order (s.topics.members topic)) :
    let eligible := (s.topics.members topic).filter fun id =>
      s.Live id ∧ s.ackTracker.lookup id ≠ some consumerID
    let rounds := (drain topic consumerID batchSize orders s).1
    (∀ round ∈ rounds, round.acks = round.messages.map fun _ => none) ∧
      (∀ round ∈ rounds, ∀ msg ∈ round.messages, s.messages.lookup msg.id = some msg) ∧
      (drainedIds rounds).Nodup ∧ (∀ id ∈ drainedIds rounds, id ∈ eligible) ∧
      rounds.length = orders.length ∧
      (∀ i round, rounds[i]? = some round →
        round.messages.length = min batchSize (eligible.card - i * batchSize) ∧
        (round.messages ≠ [] ↔ i < Chunk.count batchSize eligible.card) ∧
        (i + 1 < Chunk.count batchSize eligible.card → round.messages.length = batchSize)) ∧
      (Chunk.count batchSize eligible.card ≤ orders.length →
        ∀ id ∈ eligible, id ∈ drainedIds rounds) := by
  intro eligible rounds
  have hdrained := drained_drain hs.coherent hC batchSize horders
  have helig : s.eligibleIds topic consumerID = eligible := by
    apply Finset.filter_congr
    intro id _
    simp [Eligible, hC]
  have hsize : ∀ i round, rounds[i]? = some round →
      round.messages.length = min batchSize (eligible.card - i * batchSize) := by
    intro i round hround
    have hget := congrArg (fun l => l[i]?) hdrained.sizes
    rw [List.getElem?_map, hround, List.getElem?_map, helig] at hget
    have hlt : i < orders.length := by
      by_contra hge
      rw [List.getElem?_eq_none (by simpa using hge)] at hget
      cases hget
    rw [List.getElem?_range hlt] at hget
    exact Option.some.inj hget
  refine ⟨hdrained.acks, hdrained.stored, hdrained.nodup, helig ▸ hdrained.eligible, ?_, ?_, ?_⟩
  · have hlen := congrArg List.length hdrained.sizes
    simpa using hlen
  · intro i round hround
    have hlen := hsize i round hround
    refine ⟨hlen, ?_, ?_⟩
    · rw [Chunk.lt_count_iff hbatch, ← List.length_pos_iff, hlen]
      omega
    · intro hlast
      have hmul := Chunk.mul_lt_of_lt_count hbatch hlast
      rw [Nat.succ_mul] at hmul
      omega
  · intro hrounds id hid
    have htotal := hdrained.total
    have hall := Chunk.le_count_mul hbatch (n := eligible.card)
    have hmul := Nat.mul_le_mul_right batchSize hrounds
    rw [helig, Nat.min_eq_right (hall.trans hmul)] at htotal
    have hsub : (drainedIds rounds).toFinset ⊆ eligible := by
      intro id hid
      exact helig ▸ hdrained.eligible id (List.mem_toFinset.mp hid)
    have hset : (drainedIds rounds).toFinset = eligible := by
      apply Finset.eq_of_subset_of_card_le hsub
      rw [List.toFinset_card_of_nodup hdrained.nodup, htotal]
    rw [← hset] at hid
    exact List.mem_toFinset.mp hid

/-- Two messages, read one at a time in three rounds. -/
def twoStored : List Event :=
  [.store ⟨"m", "t", [], none⟩ "" ⟨0, 0⟩ [], .store ⟨"k", "t", [], none⟩ "" ⟨0, 0⟩ []]

theorem drain_exactly_once_twoStored : ∃ s : InMemoryStore, s.Reachable ∧
    let rounds := (drain "t" "c" 1 [["m", "k"], ["k", "m"], ["m", "k"]] s).1
    (drainedIds rounds).Nodup ∧ rounds.length = 3 := by
  obtain ⟨w, hrun, horder⟩ := Machine.exists_run (M := world)
    (fun w => ∀ order ∈ [["m", "k"], ["k", "m"], ["m", "k"]],
      Enumerates order (w.mem.topics.members "t")) World.init twoStored (by decide)
  have hs : w.mem.Reachable := ⟨twoStored, w, hrun, rfl⟩
  have h := drain_exactly_once hs (show "c" ≠ "" by decide) "t" (le_refl 1) horder
  exact ⟨w.mem, hs, h.2.2.1, h.2.2.2.2.1⟩

/-- The anonymous consumer reads the same message again after acknowledging it. -/
theorem not_drain_anonymous : ∃ s : InMemoryStore, s.Reachable ∧
    (∀ order ∈ [["m"], ["m"]], Enumerates order (s.topics.members "t")) ∧
    ((s.topics.members "t").filter fun id =>
      s.Live id ∧ s.ackTracker.lookup id ≠ some "") = {"m"} ∧
    (drain "t" "" 1 [["m"], ["m"]] s).1.map Round.acks = [[none], [none]] ∧
    drainedIds (drain "t" "" 1 [["m"], ["m"]] s).1 = ["m", "m"] := by
  obtain ⟨w, hrun, hdrain⟩ := Machine.exists_run (M := world)
    (fun w => (∀ order ∈ [["m"], ["m"]], Enumerates order (w.mem.topics.members "t")) ∧
      ((w.mem.topics.members "t").filter fun id =>
        w.mem.Live id ∧ w.mem.ackTracker.lookup id ≠ some "") = {"m"} ∧
      (drain "t" "" 1 [["m"], ["m"]] w.mem).1.map Round.acks = [[none], [none]] ∧
      drainedIds (drain "t" "" 1 [["m"], ["m"]] w.mem).1 = ["m", "m"])
    World.init [.store ⟨"m", "t", [], none⟩ "" ⟨0, 0⟩ []] (by decide)
  exact ⟨w.mem, ⟨_, w, hrun, rfl⟩, hdrain⟩

end GpuTel.Mq.InMemoryStore
