import GpuTel.Mq.Acknowledgement

/-!
# Messages that were fetched and never acknowledged

A fetch enters the message in the tracker as an acknowledgement does, and nothing tells the two
apart afterwards. The consumer gets the message again exactly when another consumer was the last one
to be entered for it.
-/

set_option autoImplicit false

namespace GpuTel.Mq.World

open Transition

/-- A `GetMessages` call of the consumer on the topic. -/
def ReadBy (topic consumerID : String) (e : Event) : Prop :=
  ∃ batchSize order, e = .getMessages topic consumerID batchSize order

/-- Some number of reads by the consumer ends with one that returns the message. -/
def Redelivers (topic consumerID msgID : String) (w : World) : Prop :=
  ∃ es v batchSize order t, world.Run w es v ∧ (∀ e ∈ es, ReadBy topic consumerID e) ∧
    world.Step v (.getMessages topic consumerID batchSize order) t ∧
    ∃ msg ∈ (v.mem.getMessages topic consumerID batchSize order).1, msg.id = msgID

/-- Whatever happens after the fetch, short of an acknowledgement by the consumer itself or the loss
of the message: it can be had again. -/
def FetchedNotLost : Prop :=
  ∀ before after w v t topic consumerID batchSize order msg, world.Run init before w →
    consumerID ≠ "" → world.Step w (.getMessages topic consumerID batchSize order) v →
    msg ∈ (w.mem.getMessages topic consumerID batchSize order).1 → world.Run v after t →
    (∀ e ∈ after, e ≠ .acknowledge msg.id consumerID) →
    world.Throughout (fun u => u.mem.Live msg.id) v after → Redelivers topic consumerID msg.id t

section Tracker

variable {w t : World} {msgID : String}

theorem mem_topics_step (hinv : w.Inv) {e : Event} (hst : world.Step w e t)
    (hlive : t.mem.Live msgID) {topic : String} (hmem : msgID ∈ w.mem.topics.members topic) :
    msgID ∈ t.mem.topics.members topic := by
  rw [hinv.step_eq hst] at hlive ⊢
  cases e with
  | store msg newID now order => exact (SetMap.mem_members_add _ _ _ _ _).mpr (Or.inr hmem)
  | close order =>
    obtain ⟨msg, hmsg⟩ := hlive
    simp [effect, shutDown, InMemoryStore.newInMemoryStore] at hmsg
  | cleanUp c => simpa [effect] using hmem
  | acknowledge id consumerID => simpa [effect] using hmem
  | getMessages topic consumerID batchSize order => simpa [effect] using hmem
  | _ => exact hmem

theorem tracker_run {es : List Event} (hrun : world.Run w es t) (hinv : w.Inv)
    (hlive : world.Throughout (fun u => u.mem.Live msgID) w es) {topic : String}
    (hmem : msgID ∈ w.mem.topics.members topic) :
    t.Inv ∧ t.mem.Live msgID ∧ msgID ∈ t.mem.topics.members topic ∧
      t.mem.ackTracker.lookup msgID =
        (world.trace (records msgID) w es).getLast?.or (w.mem.ackTracker.lookup msgID) := by
  induction hrun with
  | nil w => exact ⟨hinv, hlive [] [] w rfl (.nil w), hmem, rfl⟩
  | @cons w m t e es hst _ ih =>
    obtain ⟨hw, hrest⟩ := (Machine.throughout_cons hst).mp hlive
    have hm : m.mem.Live msgID := hrest [] es m rfl (.nil m)
    obtain ⟨htinv, htlive, htmem, hlookup⟩ :=
      ih (inv_step hinv hst) hrest (mem_topics_step hinv hst hm hmem)
    refine ⟨htinv, htlive, htmem, ?_⟩
    rw [hlookup, lookup_ackTracker_step hinv hst hw hm, Machine.trace_cons _ hst,
      List.getLast?_append, ← Option.or_assoc]
    cases records msgID w e <;> rfl

end Tracker

section Redelivery

variable {w : World} {topic consumerID msgID : String}

theorem tracked_of_readBy {t : World} {e : Event} (hread : ReadBy topic consumerID e)
    (hst : world.Step w e t) (hinv : w.Inv) (hlive : w.mem.Live msgID)
    (h : w.mem.ackTracker.lookup msgID = some consumerID) :
    t.Inv ∧ t.mem.Live msgID ∧ t.mem.ackTracker.lookup msgID = some consumerID := by
  obtain ⟨batchSize, order, rfl⟩ := hread
  have htlive : t.mem.Live msgID := live_step hinv hst rfl hlive
  refine ⟨inv_step hinv hst, htlive, ?_⟩
  rw [lookup_ackTracker_step hinv hst hlive htlive, h, records]
  split <;> rfl

theorem redelivers_iff_tracker (hinv : w.Inv) (hC : consumerID ≠ "") (hlive : w.mem.Live msgID)
    (hmem : msgID ∈ w.mem.topics.members topic) :
    Redelivers topic consumerID msgID w ↔
      w.mem.ackTracker.lookup msgID ≠ some consumerID := by
  constructor
  · rintro ⟨es, v, batchSize, order, t, hrun, hreads, hst, msg, hmsg, hid⟩ htracked
    obtain ⟨hvinv, hvlive, hv⟩ := hrun.invariant_on
      (I := fun u => u.Inv ∧ u.mem.Live msgID ∧ u.mem.ackTracker.lookup msgID = some consumerID)
      (fun _ _ _ hread hu hstep => tracked_of_readBy hread hstep hu.1 hu.2.1 hu.2.2) hreads
      ⟨hinv, hlive, htracked⟩
    exact (notOffered_iff hvinv hvlive hC).mpr hv topic batchSize order hst.1 msg hmsg hid
  · intro huntracked
    obtain ⟨order, horder⟩ : ∃ order, Enumerates order (w.mem.topics.members topic) :=
      ⟨_, Enumerates.toList _⟩
    have hfetched : msgID ∈ w.mem.fetched consumerID order.length order :=
      InMemoryStore.mem_fetched_of_length_le (horder.mem_iff.mpr hmem)
        ⟨hlive, fun h => huntracked h.2⟩ (le_refl _)
    obtain ⟨msg, hmsg⟩ := hlive
    have hread := (InMemoryStore.mem_getMessages w.mem topic consumerID order.length horder msg).mpr
      ⟨msgID, hfetched, hmsg⟩
    exact ⟨[], w, order.length, order, _, .nil w, by simp, ⟨horder, rfl⟩, msg, hread,
      hinv.coherent.keyed hmsg⟩

end Redelivery

/-- After a fetch, and as long as the message stays live: the consumer can have it again if and only
if the last consumer entered for it since, by an acknowledgement or by a fetch, is another one. -/
theorem redelivers_iff_overwritten {w v t : World} {before after : List Event}
    {topic consumerID : String} {batchSize : Int} {order : List String} {msg : Message}
    (hrun : world.Run init before w) (hC : consumerID ≠ "")
    (hst : world.Step w (.getMessages topic consumerID batchSize order) v)
    (hmsg : msg ∈ (w.mem.getMessages topic consumerID batchSize order).1)
    (hafter : world.Run v after t)
    (hlive : world.Throughout (fun u => u.mem.Live msg.id) v after) :
    Redelivers topic consumerID msg.id t ↔
      ∃ other, (world.trace (records msg.id) v after).getLast? = some other ∧
        other ≠ consumerID := by
  have hw := inv_run hrun
  have hv := inv_step hw hst
  obtain ⟨id, hfetched, hlookup⟩ := (InMemoryStore.mem_getMessages _ _ _ _ hst.1 msg).mp hmsg
  obtain rfl : msg.id = id := hw.coherent.keyed hlookup
  have htopic : msg.id ∈ w.mem.topics.members topic :=
    Enumerates.mem_iff hst.1 |>.mp (InMemoryStore.mem_fetched hfetched).1
  have hvlive : v.mem.Live msg.id := hlive [] after v rfl (.nil v)
  have hvtracked : v.mem.ackTracker.lookup msg.id = some consumerID := by
    rw [lookup_ackTracker_step hw hst ⟨msg, hlookup⟩ hvlive, records, if_pos ⟨hC, hfetched⟩]
    rfl
  obtain ⟨htinv, htlive, htmem, htracked⟩ :=
    tracker_run hafter hv hlive (mem_topics_step hw hst hvlive htopic)
  rw [redelivers_iff_tracker htinv hC htlive htmem, htracked, hvtracked]
  cases (world.trace (records msg.id) v after).getLast? with
  | none => simp
  | some other => simp

theorem exists_fetched : ∃ w v, world.Run init storeOne w ∧
    world.Step w (.getMessages "t" "c" 1 ["m"]) v ∧
    ⟨"m", "t", [], some ⟨0, 0⟩⟩ ∈ (w.mem.getMessages "t" "c" 1 ["m"]).1 ∧ v.mem.Live "m" ∧
    "m" ∈ v.mem.topics.members "t" ∧ v.mem.ackTracker.lookup "m" = some "c" := by
  obtain ⟨w, v, hrun, hrest, hread, hv⟩ := Machine.exists_run_run (M := world)
    (fun w v => ⟨"m", "t", [], some ⟨0, 0⟩⟩ ∈ (w.mem.getMessages "t" "c" 1 ["m"]).1 ∧
      v.mem.Live "m" ∧ "m" ∈ v.mem.topics.members "t" ∧
      v.mem.ackTracker.lookup "m" = some "c") init storeOne [.getMessages "t" "c" 1 ["m"]]
    (by decide)
  obtain ⟨u, hst, hu⟩ := Machine.Run.cons_iff.mp hrest
  obtain rfl := Machine.Run.nil_iff.mp hu
  exact ⟨w, v, hrun, hst, hread, hv⟩

/-- After another consumer has fetched the message too, the first one can have it again. -/
theorem redelivers_iff_overwritten_fetchedTwice : ∃ w v t, world.Run init storeOne w ∧
    world.Step w (.getMessages "t" "c" 1 ["m"]) v ∧
    world.Run v [.getMessages "t" "d" 1 ["m"]] t ∧ Redelivers "t" "c" "m" t := by
  obtain ⟨w, v, hrun, hst, hmsg, -⟩ := exists_fetched
  obtain ⟨v', t, hv', ht, hlive, hlive', hlast⟩ := Machine.exists_run_run (M := world)
    (fun v t => v.mem.Live "m" ∧ t.mem.Live "m" ∧
      (world.trace (records "m") v [.getMessages "t" "d" 1 ["m"]]).getLast? = some "d") init
    (storeOne ++ [.getMessages "t" "c" 1 ["m"]]) [.getMessages "t" "d" 1 ["m"]] (by decide)
  obtain rfl := (hrun.snoc hst).det hv'
  have hall : world.Throughout (fun u => u.mem.Live "m") v [.getMessages "t" "d" 1 ["m"]] := by
    obtain ⟨t', hst', hnil⟩ := Machine.Run.cons_iff.mp ht
    obtain rfl := Machine.Run.nil_iff.mp hnil
    exact (Machine.throughout_cons hst').mpr ⟨hlive, Machine.throughout_nil.mpr hlive'⟩
  refine ⟨w, v, t, hrun, hst, ht, ?_⟩
  exact (redelivers_iff_overwritten hrun (by decide) hst hmsg ht hall).mpr
    ⟨"d", hlast, by decide⟩

theorem not_fetchedNotLost : ¬ FetchedNotLost := by
  intro h
  obtain ⟨w, v, hrun, hst, hmsg, hlive, hmem, htracked⟩ := exists_fetched
  have hagain := h storeOne [] w v v "t" "c" 1 ["m"] _ hrun (by decide) hst hmsg (.nil v)
    (by simp) (Machine.throughout_nil (P := fun u : World => u.mem.Live "m").mpr hlive)
  have hv := inv_step (inv_run hrun) hst
  exact (redelivers_iff_tracker hv (by decide) hlive hmem).mp hagain htracked

end GpuTel.Mq.World
