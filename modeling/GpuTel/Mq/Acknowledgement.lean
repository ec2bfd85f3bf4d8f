import GpuTel.Mq.LastWriter

/-!
# Acknowledgements of several consumers

The tracker has one entry per message. An acknowledgement or a fetch by another consumer replaces
it, and the message is offered again to the consumer that had acknowledged it. Acknowledgements are
independent in exactly the runs in which no other consumer's entry gets written.
-/

set_option autoImplicit false

namespace GpuTel.Mq.World

open Transition

/-- No batch read by the consumer returns the message, whatever the topic, the batch size and the
order. -/
def NotOffered (consumerID msgID : String) (w : World) : Prop :=
  ∀ topic batchSize order, Enumerates order (w.mem.topics.members topic) →
    ∀ msg ∈ (w.mem.getMessages topic consumerID batchSize order).1, msg.id ≠ msgID

/-- From a successful acknowledgement on, until the message is stored again, deleted or the store
closed, no batch read by the acknowledging consumer returns it. -/
def AcknowledgementsIndependent : Prop :=
  ∀ before after w v t consumerID msgID, world.Run init before w → consumerID ≠ "" →
    (w.mem.acknowledge msgID consumerID).1 = none →
    world.Step w (.acknowledge msgID consumerID) v → world.Run v after t →
    (∀ e ∈ after, writes msgID e = none) → t.NotOffered consumerID msgID

/-- The label does not replace the consumer's entry: it is no acknowledgement of the message by
another consumer, and no fetch by another one that reaches the message within its batch size. -/
def KeepsAck (consumerID msgID : String) (w : World) : Event → Prop
  | .acknowledge id other => id = msgID → other = consumerID
  | .getMessages _ other batchSize order =>
    msgID ∈ order → other ≠ "" → other ≠ consumerID →
      batchSize ≤ (order.filter (w.mem.Eligible other)).idxOf msgID
  | _ => True

def records (msgID : String) (w : World) : Event → Option String
  | .acknowledge id consumerID => if id = msgID then some consumerID else none
  | .getMessages _ consumerID batchSize order =>
    if consumerID ≠ "" ∧ msgID ∈ w.mem.fetched consumerID batchSize order then some consumerID
    else none
  | _ => none

section Tracked

variable {w t : World} {consumerID msgID : String}

theorem live_step (hinv : w.Inv) {e : Event} (hst : world.Step w e t)
    (hkeep : writes msgID e = none) (hlive : w.mem.Live msgID) : t.mem.Live msgID := by
  obtain ⟨msg, hmsg⟩ := hlive
  refine ⟨msg, ?_⟩
  rw [hinv.step_eq hst, lookup_messages_effect, hkeep, Option.getD_none]
  exact hmsg

theorem notOffered_iff (hinv : w.Inv) (hlive : w.mem.Live msgID) (hC : consumerID ≠ "") :
    w.NotOffered consumerID msgID ↔ w.mem.ackTracker.lookup msgID = some consumerID := by
  constructor
  · intro h
    by_contra hne
    obtain ⟨msg, hmsg⟩ := hlive
    have horder := Enumerates.toList (w.mem.topics.members msg.topic)
    have hfetched : msgID ∈ w.mem.fetched consumerID
        (w.mem.topics.members msg.topic).toList.length (w.mem.topics.members msg.topic).toList :=
      InMemoryStore.mem_fetched_of_length_le
        (horder.mem_iff.mpr (hinv.coherent.indexed hmsg)) ⟨⟨msg, hmsg⟩, fun hack => hne hack.2⟩
        (le_refl _)
    exact h msg.topic _ _ horder msg
      ((InMemoryStore.mem_getMessages _ _ _ _ horder msg).mpr ⟨msgID, hfetched, hmsg⟩)
      (hinv.coherent.keyed hmsg)
  · intro h topic batchSize order horder msg hmsg heq
    obtain ⟨id, hfetched, hlookup⟩ :=
      (InMemoryStore.mem_getMessages _ _ _ _ horder msg).mp hmsg
    have hid : id = msgID := (hinv.coherent.keyed hlookup).symm.trans heq
    exact (InMemoryStore.mem_fetched hfetched).2.2 ⟨hC, hid ▸ h⟩

theorem lookup_ackTracker_step (hinv : w.Inv) {e : Event} (hst : world.Step w e t)
    (hlive : w.mem.Live msgID) (hlive' : t.mem.Live msgID) :
    t.mem.ackTracker.lookup msgID = (records msgID w e).or (w.mem.ackTracker.lookup msgID) := by
  rw [hinv.step_eq hst] at hlive' ⊢
  cases e with
  | delete id =>
    have hne : msgID ≠ id := by
      rintro rfl
      obtain ⟨msg, hmsg⟩ := hlive'
      simp [effect, InMemoryStore.delete] at hmsg
    simp [effect, InMemoryStore.delete, records, hne]
  | cleanUp c => simp [effect, records]
  | acknowledge id consumerID =>
    simp only [effect, records]
    by_cases hid : id = msgID
    · subst hid
      simp [InMemoryStore.acknowledge_of_live hlive]
    · rw [if_neg hid, Option.none_or]
      by_cases hother : w.mem.Live id
      · simp [InMemoryStore.acknowledge_of_live hother, Ne.symm hid]
      · rw [InMemoryStore.acknowledge_of_not_live hother]
  | getMessages topic consumerID batchSize order =>
    simp only [effect, records]
    rw [InMemoryStore.lookup_ackTracker_getMessages _ _ _ _ hst.1]
    split <;> rfl
  | close order =>
    obtain ⟨msg, hmsg⟩ := hlive'
    simp [effect, shutDown, InMemoryStore.newInMemoryStore] at hmsg
  | _ => rfl

theorem records_iff_keepsAck (hlive : w.mem.Live msgID)
    (h : w.mem.ackTracker.lookup msgID = some consumerID) (e : Event) :
    (records msgID w e).or (some consumerID) = some consumerID ↔
      w.KeepsAck consumerID msgID e := by
  cases e with
  | acknowledge id other => by_cases hid : id = msgID <;> simp [records, KeepsAck, hid]
  | getMessages topic other batchSize order =>
    rw [records, KeepsAck]
    by_cases hother : other = "" ∨ other = consumerID
    · have hanon : ∀ hne : other ≠ "", other = consumerID := fun hne => hother.resolve_left hne
      refine iff_of_true ?_ (fun _ hne hdiff => absurd (hanon hne) hdiff)
      split
      · rename_i hfetch
        rw [hanon hfetch.1]
        rfl
      · rfl
    · obtain ⟨hne, hdiff⟩ := not_or.mp hother
      have helig : w.mem.Eligible other msgID := by
        refine ⟨hlive, fun htracked => ?_⟩
        rw [h] at htracked
        exact hdiff (Option.some.inj htracked.2).symm
      have hout : (if other ≠ "" ∧ msgID ∈ w.mem.fetched other batchSize order then some other
          else none).or (some consumerID) = some consumerID ↔
          msgID ∉ w.mem.fetched other batchSize order := by
        by_cases hf : msgID ∈ w.mem.fetched other batchSize order <;> simp [hf, hne, hdiff]
      rw [hout]
      by_cases hmem : msgID ∈ order
      · rw [InMemoryStore.mem_fetched_iff hmem helig]
        simp only [hmem, hne, hdiff, ne_eq, not_false_eq_true, forall_const]
        omega
      · exact iff_of_true (fun hf => hmem (InMemoryStore.mem_fetched hf).1)
          (fun hcontra => absurd hcontra hmem)
  | _ => exact iff_of_true rfl trivial

theorem tracked_step_iff (hinv : w.Inv) {e : Event} (hst : world.Step w e t)
    (hkeep : writes msgID e = none) (hlive : w.mem.Live msgID)
    (h : w.mem.ackTracker.lookup msgID = some consumerID) :
    t.mem.ackTracker.lookup msgID = some consumerID ↔ w.KeepsAck consumerID msgID e := by
  rw [lookup_ackTracker_step hinv hst hlive (live_step hinv hst hkeep hlive), h]
  exact records_iff_keepsAck hlive h e

end Tracked

/-- After a successful acknowledgement, and as long as the message is neither stored again nor
deleted nor the store closed: it stays hidden from the consumer throughout if and only if no step
replaces the consumer's entry. -/
theorem acknowledgements_independent_iff {w v t : World} {before after : List Event}
    {consumerID msgID : String} (hrun : world.Run init before w) (hC : consumerID ≠ "")
    (hack : (w.mem.acknowledge msgID consumerID).1 = none)
    (hst : world.Step w (.acknowledge msgID consumerID) v) (hafter : world.Run v after t)
    (hkeep : ∀ e ∈ after, writes msgID e = none) :
    world.Throughout (NotOffered consumerID msgID) v after ↔
      world.EveryStep (KeepsAck consumerID msgID) v after := by
  have hw := inv_run hrun
  have hlive : w.mem.Live msgID := by
    by_contra hdead
    simp [InMemoryStore.acknowledge_of_not_live hdead] at hack
  have hvlive : v.mem.Live msgID := live_step hw hst rfl hlive
  have hv : v.mem.ackTracker.lookup msgID = some consumerID := by
    rw [hw.step_eq hst]
    simp [effect, InMemoryStore.acknowledge_of_live hlive]
  refine Machine.throughout_iff_everyStep (I := fun s => s.Inv ∧ s.mem.Live msgID)
    (L := fun e => writes msgID e = none) ?_ ?_ hafter hkeep ⟨inv_step hw hst, hvlive⟩
    ((notOffered_iff (inv_step hw hst) hvlive hC).mpr hv)
  · intro s e s' hL hs hst'
    exact ⟨inv_step hs.1 hst', live_step hs.1 hst' hL hs.2⟩
  · intro s e s' hL hs hP hst'
    rw [notOffered_iff (inv_step hs.1 hst') (live_step hs.1 hst' hL hs.2) hC]
    exact tracked_step_iff hs.1 hst' hL hs.2 ((notOffered_iff hs.1 hs.2 hC).mp hP)

def storeOne : List Event := [.store ⟨"m", "t", [], none⟩ "" ⟨0, 0⟩ []]

theorem exists_overwritten : ∃ w v t, world.Run init storeOne w ∧
    (w.mem.acknowledge "m" "c").1 = none ∧ world.Step w (.acknowledge "m" "c") v ∧
    world.Run v [.acknowledge "m" "d"] t ∧ Enumerates ["m"] (t.mem.topics.members "t") ∧
    (t.mem.getMessages "t" "c" 1 ["m"]).1.map Message.id = ["m"] := by
  obtain ⟨w, t, hrun, hrest, hack, hread⟩ := Machine.exists_run_run (M := world)
    (fun w t => (w.mem.acknowledge "m" "c").1 = none ∧
      Enumerates ["m"] (t.mem.topics.members "t") ∧
      (t.mem.getMessages "t" "c" 1 ["m"]).1.map Message.id = ["m"]) init storeOne
    [.acknowledge "m" "c", .acknowledge "m" "d"] (by decide)
  obtain ⟨v, hst, hafter⟩ := Machine.Run.cons_iff.mp hrest
  exact ⟨w, v, t, hrun, hack, hst, hafter, hread⟩

theorem acknowledgements_independent_iff_overwritten : ∃ w v t, world.Run init storeOne w ∧
    world.Step w (.acknowledge "m" "c") v ∧ world.Run v [.acknowledge "m" "d"] t ∧
    (world.Throughout (NotOffered "c" "m") v [.acknowledge "m" "d"] ↔
      world.EveryStep (KeepsAck "c" "m") v [.acknowledge "m" "d"]) := by
  obtain ⟨w, v, t, hrun, hack, hst, hafter, -⟩ := exists_overwritten
  exact ⟨w, v, t, hrun, hst, hafter,
    acknowledgements_independent_iff hrun (by decide) hack hst hafter (by simp [writes])⟩

theorem not_acknowledgementsIndependent : ¬ AcknowledgementsIndependent := by
  intro h
  obtain ⟨w, v, t, hrun, hack, hst, hafter, horder, hread⟩ := exists_overwritten
  have hnot := h storeOne [.acknowledge "m" "d"] w v t "c" "m" hrun (by decide) hack hst hafter
    (by simp [writes])
  obtain ⟨msg, hmsg, hid⟩ := List.mem_map.mp (hread ▸ List.mem_singleton_self "m")
  exact hnot "t" 1 ["m"] horder msg hmsg hid

end GpuTel.Mq.World
