import GpuTel.Telemetry.CollectorTrace

/-!
# Acknowledging more messages than one batch holds

`acknowledgeMessages` opens one stream and closes it after every batch of 100, so that a second
batch is sent into a closed stream. The server is a law on the calls: it answers every request
without an error, and nothing is sent on a stream that `CloseAndRecv` has ended.
-/

set_option autoImplicit false

namespace GpuTel.Telemetry.Collector

open Mq

/-- The answer that a call gets, by whether the stream has been closed. -/
def Accepts (closed : Bool) : Call → Prop
  | .openAck err => err = none
  | .sendAck _ err => err = none ↔ closed = false
  | .closeAck err => closed = false → err = none
  | _ => True

instance (closed : Bool) : (k : Call) → Decidable (Accepts closed k)
  | .openAck err => inferInstanceAs (Decidable (err = none))
  | .sendAck _ err => inferInstanceAs (Decidable (err = none ↔ closed = false))
  | .closeAck err => inferInstanceAs (Decidable (closed = false → err = none))
  | .subscribe _ | .sendRequest _ _ | .closeSend _ | .store _ _ => inferInstanceAs (Decidable True)

def closes (closed : Bool) : Call → Bool
  | .openAck _ => false
  | .closeAck _ => true
  | _ => closed

def ServerAccepts (calls : List Call) : Prop := Attempt.Lawful Accepts closes false calls

instance (calls : List Call) : Decidable (ServerAccepts calls) :=
  inferInstanceAs (Decidable (Attempt.Lawful _ _ _ _))

def Call.delivered : Call → Option AcknowledgeRequest
  | .sendAck req none => some req
  | _ => none

section Batch

variable {consumerID : String} {reply : Reply}

def sent (consumerID : String) (x : String × Nat) : List Call :=
  [.sendAck (ackRequest consumerID x.1) none]

theorem sendAck_of_open {x : String × Nat}
    (h : Attempt.Lawful Accepts closes false (sendAck consumerID reply x).calls) :
    sendAck consumerID reply x = ⟨sent consumerID x, none⟩ := by
  obtain ⟨msgID, n⟩ := x
  have hanswer : reply.sendAck n = none := h.1.mpr rfl
  simp [sendAck, sent, Attempt.call, Attempt.wrap, hanswer]

theorem sendAck_of_closed {x : String × Nat}
    (h : Attempt.Lawful Accepts closes true (sendAck consumerID reply x).calls) :
    ∃ err, sendAck consumerID reply x = ⟨[.sendAck (ackRequest consumerID x.1) (some err)],
      some ("failed to send ack for message " ++ x.1 ++ ": " ++ err)⟩ := by
  obtain ⟨msgID, n⟩ := x
  cases hanswer : reply.sendAck n with
  | none =>
    have hopen : true = false := h.1.mp hanswer
    contradiction
  | some err => exact ⟨err, by simp [sendAck, Attempt.call, Attempt.wrap, hanswer]⟩

theorem sendBatch_of_open {x : List (String × Nat) × Nat}
    (h : Attempt.Lawful Accepts closes false (sendBatch consumerID reply x).calls) :
    sendBatch consumerID reply x = ⟨x.1.flatMap (sent consumerID) ++ [.closeAck none], none⟩ := by
  obtain ⟨batch, k⟩ := x
  obtain ⟨hsends, hclose⟩ := Attempt.lawful_calls_andThen.mp h
  obtain ⟨heach, hstate⟩ := Attempt.each_of_lawful (g := sent consumerID)
    (fun x _ hx => ⟨sendAck_of_open hx, rfl⟩) hsends
  rw [heach] at hclose
  have hanswer : reply.closeAck k = none := by
    have hlaw := (hclose rfl).1
    rw [hstate] at hlaw
    exact hlaw rfl
  simp [sendBatch, heach, Attempt.andThen, Attempt.call, Attempt.wrap, hanswer]

theorem sendBatch_of_closed {y : String × Nat} {batch : List (String × Nat)} {k : Nat}
    (h : Attempt.Lawful Accepts closes true (sendBatch consumerID reply (y :: batch, k)).calls) :
    ∃ err, sendBatch consumerID reply (y :: batch, k) =
      ⟨[.sendAck (ackRequest consumerID y.1) (some err)],
        some ("failed to send ack for message " ++ y.1 ++ ": " ++ err)⟩ := by
  have hsends := (Attempt.lawful_calls_andThen.mp h).1
  have hfirst := (Attempt.lawful_calls_andThen.mp hsends).1
  obtain ⟨err, heq⟩ := sendAck_of_closed hfirst
  exact ⟨err, by simp [sendBatch, Attempt.each, Attempt.andThen, heq]⟩

theorem filterMap_delivered_sent (batch : List (String × Nat)) :
    (batch.flatMap (sent consumerID)).filterMap Call.delivered =
      batch.map fun y => ackRequest consumerID y.1 := by
  induction batch with
  | nil => rfl
  | cons y batch ih =>
    rw [List.flatMap_cons, List.filterMap_append, ih]
    rfl

end Batch

section Loop

variable {messageIDs : List String} {consumerID : String} {reply : Reply}

def laterBatches (messageIDs : List String) : List (List (String × Nat) × Nat) :=
  (Chunk.chunks 100 (messageIDs.zipIdx.drop 100)).zipIdx 1

theorem acknowledgeMessages_eq_cons (hne : messageIDs ≠ []) :
    acknowledgeMessages messageIDs consumerID reply =
      ((Attempt.call .openAck reply.openAck).wrap ("failed to create ack stream: " ++ ·)).andThen
        ((sendBatch consumerID reply (messageIDs.zipIdx.take 100, 0)).andThen
          (Attempt.each (sendBatch consumerID reply) (laterBatches messageIDs))) := by
  have hzip : messageIDs.zipIdx ≠ [] := by simpa using hne
  rw [acknowledgeMessages, if_neg hne, Chunk.chunks_eq_cons (by decide) hzip]
  rfl

theorem acknowledgeMessages_of_accepts (hne : messageIDs ≠ [])
    (h : ServerAccepts (acknowledgeMessages messageIDs consumerID reply).calls) :
    let later := Attempt.each (sendBatch consumerID reply) (laterBatches messageIDs)
    Attempt.Lawful Accepts closes true later.calls ∧
      acknowledgeMessages messageIDs consumerID reply =
        ⟨.openAck none :: ((messageIDs.zipIdx.take 100).flatMap (sent consumerID) ++
          .closeAck none :: later.calls), later.err⟩ := by
  intro later
  rw [acknowledgeMessages_eq_cons hne] at h ⊢
  obtain ⟨hopen, hbatches⟩ := Attempt.lawful_calls_andThen.mp h
  have hanswer : reply.openAck = none := hopen.1
  have hcall : (Attempt.call Call.openAck reply.openAck).wrap
      ("failed to create ack stream: " ++ ·) = ⟨[.openAck none], none⟩ := by
    simp [Attempt.call, Attempt.wrap, hanswer]
  rw [hcall] at hbatches ⊢
  obtain ⟨hfirst, hlater⟩ := Attempt.lawful_calls_andThen.mp (hbatches rfl)
  have hbatch := sendBatch_of_open hfirst
  rw [hbatch] at hlater ⊢
  refine ⟨?_, ?_⟩
  · have hclosed := hlater rfl
    rw [List.foldl_append] at hclosed
    exact hclosed
  · simp [Attempt.andThen, later]

theorem laterBatches_eq_nil (hle : messageIDs.length ≤ 100) : laterBatches messageIDs = [] := by
  have hdrop : messageIDs.zipIdx.drop 100 = [] := by simpa using hle
  simp [laterBatches, hdrop, Chunk.chunks, Chunk.count]

theorem exists_laterBatches (hlt : 100 < messageIDs.length) : ∃ y batch later,
    laterBatches messageIDs = (y :: batch, 1) :: later := by
  have hdrop : messageIDs.zipIdx.drop 100 ≠ [] := by simp; omega
  obtain ⟨y, rest, hy⟩ := List.exists_cons_of_ne_nil hdrop
  refine ⟨y, rest.take 99, (Chunk.chunks 100 (rest.drop 99)).zipIdx 2, ?_⟩
  rw [laterBatches, Chunk.chunks_eq_cons (by decide) hdrop, hy]
  rfl

theorem delivered_acknowledgeMessages
    (h : ServerAccepts (acknowledgeMessages messageIDs consumerID reply).calls) :
    (acknowledgeMessages messageIDs consumerID reply).calls.filterMap Call.delivered =
        (messageIDs.take 100).map (ackRequest consumerID) ∧
      ((acknowledgeMessages messageIDs consumerID reply).err = none ↔
        messageIDs.length ≤ 100) := by
  by_cases hnil : messageIDs = []
  · simp [hnil, acknowledgeMessages, Attempt.done]
  obtain ⟨hlater, heq⟩ := acknowledgeMessages_of_accepts hnil h
  have hfirst : ((messageIDs.zipIdx.take 100).flatMap (sent consumerID)).filterMap
      Call.delivered = (messageIDs.take 100).map (ackRequest consumerID) := by
    calc ((messageIDs.zipIdx.take 100).flatMap (sent consumerID)).filterMap Call.delivered
        = ((messageIDs.zipIdx.take 100).map Prod.fst).map (ackRequest consumerID) := by
          rw [filterMap_delivered_sent, List.map_map]
          rfl
      _ = (messageIDs.take 100).map (ackRequest consumerID) := by
        rw [List.map_take, List.zipIdx_map_fst]
  rw [heq, List.filterMap_cons_none rfl, List.filterMap_append, hfirst,
    List.filterMap_cons_none rfl]
  rcases Nat.lt_or_ge 100 messageIDs.length with hlt | hle
  · obtain ⟨y, batch, later, hbatches⟩ := exists_laterBatches hlt
    rw [hbatches] at hlater ⊢
    obtain ⟨err, hsend⟩ := sendBatch_of_closed (Attempt.lawful_calls_andThen.mp hlater).1
    have hnot : ¬ messageIDs.length ≤ 100 := Nat.not_le.mpr hlt
    simp [Attempt.each, Attempt.andThen, hsend, Call.delivered, hnot]
  · rw [laterBatches_eq_nil hle]
    simp [Attempt.each, Attempt.done, hle]

end Loop

/-- For every list of ids, every consumer and every server that accepts all requests: there is one
request for each id, in order and with that consumer, and no error, if and only if there are at most
100 ids. -/
theorem acknowledges_all_iff (messageIDs : List String) (consumerID : String) (reply : Reply)
    (haccept : ServerAccepts (acknowledgeMessages messageIDs consumerID reply).calls) :
    (acknowledgeMessages messageIDs consumerID reply).calls.filterMap Call.delivered =
          (messageIDs.map fun id => ⟨id, consumerID, true⟩) ∧
        (acknowledgeMessages messageIDs consumerID reply).err = none ↔
      messageIDs.length ≤ 100 := by
  obtain ⟨hdelivered, herr⟩ := delivered_acknowledgeMessages haccept
  rw [hdelivered, herr]
  constructor
  · exact fun h => h.2
  · intro hle
    rw [List.take_of_length_le hle]
    exact ⟨rfl, hle⟩

/-- A stream that takes 100 requests before it is closed. -/
def closedAfter100 : Reply where
  batchID := "batch-1"
  now := ⟨0, 0⟩
  store := none
  openAck := none
  sendAck := fun n =>
    if n < 100 then none
    else some "rpc error: code = Internal desc = SendMsg called after CloseSend"
  closeAck := fun _ => none

def ids101 : List String := (List.range 101).map toString

theorem serverAccepts_closedAfter100 :
    ServerAccepts (acknowledgeMessages ids101 "c" closedAfter100).calls := by
  decide +kernel

theorem acknowledges_all_iff_closedAfter100 :
    (acknowledgeMessages ids101 "c" closedAfter100).calls.filterMap Call.delivered =
          (ids101.map fun id => ⟨id, "c", true⟩) ∧
        (acknowledgeMessages ids101 "c" closedAfter100).err = none ↔
      ids101.length ≤ 100 :=
  acknowledges_all_iff _ _ _ serverAccepts_closedAfter100

/-- The last of 101 different ids is not acknowledged. -/
theorem not_acknowledges_all :
    ids101.Nodup ∧ ServerAccepts (acknowledgeMessages ids101 "c" closedAfter100).calls ∧
      (acknowledgeMessages ids101 "c" closedAfter100).err =
        some ("failed to send ack for message 100: " ++
          "rpc error: code = Internal desc = SendMsg called after CloseSend") ∧
      (acknowledgeMessages ids101 "c" closedAfter100).calls.filterMap Call.delivered ≠
        ids101.map fun id => ⟨id, "c", true⟩ := by
  decide +kernel

end GpuTel.Telemetry.Collector
