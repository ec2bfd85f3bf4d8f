import GpuTel.Mq.InMemoryStore

/-!
# What one `GetMessages` call does

The loop reads and writes the tracker while it visits the ids. Since no id is visited twice, it
fetches the first `batchSize` ids that were eligible when the call began, and tracks exactly those.
-/

set_option autoImplicit false

namespace GpuTel.Mq.InMemoryStore

/-- Recording `ids` as in flight for a consumer. An anonymous consumer records nothing. -/
def track (ackTracker : GoMap String) (consumerID : String) (ids : List String) : GoMap String :=
  if consumerID ≠ "" then ids.foldl (fun t id => t.insert id consumerID) ackTracker else ackTracker

theorem lookup_track (ackTracker : GoMap String) (consumerID : String) (ids : List String)
    (id : String) : (track ackTracker consumerID ids).lookup id =
      if consumerID ≠ "" ∧ id ∈ ids then some consumerID else ackTracker.lookup id := by
  unfold track
  by_cases hC : consumerID = ""
  · simp [hC]
  · simp only [hC, ne_eq, not_false_eq_true, if_true, true_and]
    induction ids generalizing ackTracker with
    | nil => simp
    | cons a ids ih =>
      rw [List.foldl_cons, ih, Finmap.lookup_insert_eq]
      by_cases hid : id ∈ ids
      · simp [hid]
      · by_cases ha : id = a <;> simp [hid, ha]

/-- Eligibility against a given map of messages and tracker; `Eligible` is the case of a store. -/
def eligibleIn (live : GoMap Message) (ackTracker : GoMap String) (consumerID id : String) : Bool :=
  (live.lookup id).isSome && !decide (consumerID ≠ "" ∧ ackTracker.lookup id = some consumerID)

theorem eligibleIn_insert_ne (live : GoMap Message) (ackTracker : GoMap String)
    (consumerID : String) {id msgID : String} (h : id ≠ msgID) :
    eligibleIn live (track ackTracker consumerID [msgID]) consumerID id =
      eligibleIn live ackTracker consumerID id := by
  simp [eligibleIn, lookup_track, h]

theorem filter_eligibleIn_track (live : GoMap Message) (ackTracker : GoMap String)
    (consumerID : String) {msgID : String} {rest : List String} (h : msgID ∉ rest) :
    rest.filter (eligibleIn live (track ackTracker consumerID [msgID]) consumerID) =
      rest.filter (eligibleIn live ackTracker consumerID) := by
  apply List.filter_congr
  intro id hid
  exact eligibleIn_insert_ne live ackTracker consumerID (fun heq => h (heq ▸ hid))

theorem track_cons (ackTracker : GoMap String) (consumerID msgID : String) (ids : List String) :
    track (track ackTracker consumerID [msgID]) consumerID ids =
      track ackTracker consumerID (msgID :: ids) := by
  unfold track
  split <;> rfl

/-- The loop in closed form, from any intermediate state of it. -/
theorem getMessagesLoop_eq (live : GoMap Message) (consumerID : String) (batchSize : Int)
    {order : List String} (h : order.Nodup) (count : Int) (messages : List Message)
    (ackTracker : GoMap String) :
    getMessagesLoop live consumerID batchSize order count messages ackTracker =
      let ids := (order.filter (eligibleIn live ackTracker consumerID)).take
        (batchSize - count).toNat
      (messages ++ ids.filterMap live.lookup, track ackTracker consumerID ids) := by
  induction order generalizing count messages ackTracker with
  | nil => simp [getMessagesLoop, track]
  | cons msgID rest ih =>
    obtain ⟨hmem, hrest⟩ := List.nodup_cons.mp h
    unfold getMessagesLoop
    by_cases hcount : count ≥ batchSize
    · have hzero : (batchSize - count).toNat = 0 := by omega
      simp [hcount, hzero, track]
    · rw [if_neg hcount]
      by_cases hack : consumerID ≠ "" ∧ ackTracker.lookup msgID = some consumerID
      · have hskip : eligibleIn live ackTracker consumerID msgID = false := by
          simp [eligibleIn, hack.1, hack.2]
        rw [if_pos hack, ih hrest, List.filter_cons_of_neg (by simp [hskip])]
      · rw [if_neg hack]
        cases hlive : live.lookup msgID with
        | none =>
          have hskip : eligibleIn live ackTracker consumerID msgID = false := by
            simp [eligibleIn, hlive]
          dsimp only
          rw [ih hrest, List.filter_cons_of_neg (by simp [hskip])]
        | some msg =>
          have htake : eligibleIn live ackTracker consumerID msgID = true := by
            simp only [eligibleIn, hlive, hack, decide_false]
            rfl
          have hone : (if consumerID ≠ "" then ackTracker.insert msgID consumerID
              else ackTracker) = track ackTracker consumerID [msgID] := rfl
          have hsucc : (batchSize - count).toNat = (batchSize - (count + 1)).toNat + 1 := by omega
          dsimp only
          rw [hone, ih hrest, filter_eligibleIn_track live ackTracker consumerID hmem,
            List.filter_cons_of_pos htake, hsucc, List.take_succ_cons]
          simp [hlive, track_cons]

theorem eligibleIn_iff (s : InMemoryStore) (consumerID id : String) :
    eligibleIn s.messages s.ackTracker consumerID id = true ↔ s.Eligible consumerID id := by
  simp only [eligibleIn, Bool.and_eq_true, Option.isSome_iff_exists, Bool.not_eq_true',
    decide_eq_false_iff_not]
  exact Iff.rfl

theorem fetched_eq (s : InMemoryStore) (consumerID : String) (batchSize : Int)
    (order : List String) : s.fetched consumerID batchSize order =
      (order.filter (eligibleIn s.messages s.ackTracker consumerID)).take batchSize.toNat := by
  unfold fetched
  congr 1
  apply List.filter_congr
  intro id _
  rw [Bool.eq_iff_iff, eligibleIn_iff, decide_eq_true_iff]

section Call

variable (s : InMemoryStore) (topic consumerID : String) (batchSize : Int) {order : List String}
variable (h : Enumerates order (s.topics.members topic))
include h

theorem getMessages_eq : s.getMessages topic consumerID batchSize order =
    ((s.fetched consumerID batchSize order).filterMap s.messages.lookup,
      { s with
        ackTracker := track s.ackTracker consumerID (s.fetched consumerID batchSize order) }) := by
  unfold getMessages
  cases htopic : s.topics.lookup topic with
  | none =>
    have horder : order = [] := by
      apply List.eq_nil_iff_forall_not_mem.mpr
      intro id hid
      simpa [SetMap.members, htopic] using h.mem_iff.mp hid
    simp [horder, fetched, track]
  | some ids =>
    dsimp only
    rw [getMessagesLoop_eq s.messages consumerID batchSize h.nodup 0 [] s.ackTracker, fetched_eq]
    simp

theorem mem_getMessages (msg : Message) :
    msg ∈ (s.getMessages topic consumerID batchSize order).1 ↔
      ∃ id ∈ s.fetched consumerID batchSize order, s.messages.lookup id = some msg := by
  rw [getMessages_eq s topic consumerID batchSize h, List.mem_filterMap]

theorem lookup_ackTracker_getMessages (id : String) :
    (s.getMessages topic consumerID batchSize order).2.ackTracker.lookup id =
      if consumerID ≠ "" ∧ id ∈ s.fetched consumerID batchSize order then some consumerID
      else s.ackTracker.lookup id := by
  rw [getMessages_eq s topic consumerID batchSize h, lookup_track]

end Call

theorem mem_fetched {s : InMemoryStore} {consumerID : String} {batchSize : Int}
    {order : List String} {id : String} (h : id ∈ s.fetched consumerID batchSize order) :
    id ∈ order ∧ s.Eligible consumerID id := by
  simpa using List.mem_of_mem_take h

theorem mem_fetched_iff {s : InMemoryStore} {consumerID : String} {batchSize : Int}
    {order : List String} {id : String} (hmem : id ∈ order) (helig : s.Eligible consumerID id) :
    id ∈ s.fetched consumerID batchSize order ↔
      ((order.filter (s.Eligible consumerID)).idxOf id : Int) < batchSize := by
  unfold fetched
  rw [List.mem_take_iff_idxOf_lt (by simp [hmem, helig])]
  omega

theorem mem_fetched_of_length_le {s : InMemoryStore} {consumerID : String} {batchSize : Int}
    {order : List String} {id : String} (hmem : id ∈ order) (helig : s.Eligible consumerID id)
    (hlen : (order.length : Int) ≤ batchSize) : id ∈ s.fetched consumerID batchSize order := by
  have hle : (order.filter (s.Eligible consumerID)).length ≤ batchSize.toNat := by
    have := List.length_filter_le (fun id => decide (s.Eligible consumerID id)) order
    omega
  unfold fetched
  rw [List.take_of_length_le hle]
  simp [hmem, helig]

end GpuTel.Mq.InMemoryStore
