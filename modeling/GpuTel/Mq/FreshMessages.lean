import GpuTel.Mq.WorldInvariant

/-!
# Batch reads right after a store

`Store` files its message and enters it in the index, but leaves the tracker alone, where `Delete`
clears the entry of its id. A message stored under an id that is still tracked is not offered to the
consumer of that entry.
-/

set_option autoImplicit false

namespace GpuTel.Mq.World

open Transition

/-- Every batch read of the message's topic that is large enough returns it, whoever reads. -/
def Offers (w : World) (msg : Message) : Prop :=
  ∀ consumerID batchSize order, Enumerates order (w.mem.topics.members msg.topic) →
    ((w.mem.topics.members msg.topic).card : Int) ≤ batchSize →
    msg ∈ (w.mem.getMessages msg.topic consumerID batchSize order).1

/-- If the label stores a message, every state it leads to offers it. -/
def OffersStored (w : World) : Event → Prop
  | .store msg newID now order =>
    ∀ t, world.Step w (.store msg newID now order) t → t.Offers (msg.filledIn newID now)
  | _ => True

def FreshOffered : Prop := ∀ es w, world.Run init es w → ∀ e, w.OffersStored e

/-- If the label stores a message, its id is not tracked for a named consumer. -/
def StoresUntracked (w : World) : Event → Prop
  | .store msg newID now _ => ∀ consumerID,
    w.mem.ackTracker.lookup (msg.filledIn newID now).id = some consumerID → consumerID = ""
  | _ => True

theorem offers_iff {w : World} (hinv : w.Inv) {msg : Message}
    (hmsg : w.mem.messages.lookup msg.id = some msg) : w.Offers msg ↔
      ∀ consumerID, w.mem.ackTracker.lookup msg.id = some consumerID → consumerID = "" := by
  constructor
  · intro h consumerID htracked
    have horder := Enumerates.toList (w.mem.topics.members msg.topic)
    obtain ⟨id, hfetched, hlookup⟩ := (InMemoryStore.mem_getMessages _ _ _ _ horder msg).mp
      (h consumerID _ _ horder (le_refl _))
    have hid : id = msg.id := (hinv.coherent.keyed hlookup).symm
    by_contra hC
    exact (InMemoryStore.mem_fetched hfetched).2.2 ⟨hC, hid ▸ htracked⟩
  · intro h consumerID batchSize order horder hsize
    have hlen : (order.length : Int) ≤ batchSize := by
      rw [Enumerates.length_eq horder]
      exact hsize
    have helig : w.mem.Eligible consumerID msg.id :=
      ⟨⟨msg, hmsg⟩, fun hack => hack.1 (h consumerID hack.2)⟩
    have hfetched := InMemoryStore.mem_fetched_of_length_le
      (horder.mem_iff.mpr (hinv.coherent.indexed hmsg)) helig hlen
    exact (InMemoryStore.mem_getMessages _ _ _ _ horder msg).mpr ⟨msg.id, hfetched, hmsg⟩

theorem offersStored_iff {w t : World} {e : Event} (hinv : w.Inv) (hst : world.Step w e t) :
    w.OffersStored e ↔ w.StoresUntracked e := by
  cases e with
  | store msg newID now order =>
    have ht : t = w.deliver (stamp msg newID now) := hinv.step_eq hst
    have hlookup : t.mem.messages.lookup (msg.filledIn newID now).id =
        some (msg.filledIn newID now) := by
      rw [ht]
      exact Finmap.lookup_insert w.mem.messages
    have htracker : t.mem.ackTracker = w.mem.ackTracker := by
      rw [ht]
      rfl
    have hoffers := offers_iff (inv_step hinv hst) hlookup
    rw [htracker] at hoffers
    simp only [OffersStored, StoresUntracked, ← hoffers]
    constructor
    · intro h
      exact h t hst
    · intro h t' hst'
      rw [hst'.det hst]
      exact h
  | _ => exact Iff.rfl

/-- In every run, each message is offered to every consumer right after it is stored if and only if
each is stored under an id that is not tracked for a named consumer at that moment. -/
theorem offersStored_iff_storesUntracked {w : World} {es : List Event}
    (hrun : world.Run init es w) :
    world.EveryStep OffersStored init es ↔ world.EveryStep StoresUntracked init es :=
  hrun.everyStep_congr fun _ _ _ _ hbefore hst => offersStored_iff (inv_run hbefore) hst

def storedAgain : List Event :=
  [.store ⟨"m", "t", [1], none⟩ "" ⟨0, 0⟩ [], .acknowledge "m" "c",
    .store ⟨"m", "t", [2], none⟩ "" ⟨1, 0⟩ []]

theorem offersStored_iff_storesUntracked_storedAgain : ∃ w, world.Run init storedAgain w ∧
    (world.EveryStep OffersStored init storedAgain ↔
      world.EveryStep StoresUntracked init storedAgain) := by
  obtain ⟨w, hrun, -⟩ := Machine.exists_run (M := world) (fun _ => True) init storedAgain
    (by decide)
  exact ⟨w, hrun, offersStored_iff_storesUntracked hrun⟩

theorem not_freshOffered : ¬ FreshOffered := by
  intro h
  obtain ⟨w, t, hw, hrest, horder, hread⟩ := Machine.exists_run_run (M := world)
    (fun _ t => Enumerates ["m"] (t.mem.topics.members "t") ∧
      (t.mem.getMessages "t" "c" 1 ["m"]).1 = []) init (storedAgain.take 2)
    [.store ⟨"m", "t", [2], none⟩ "" ⟨1, 0⟩ []] (by decide)
  obtain ⟨u, hst, hnil⟩ := Machine.Run.cons_iff.mp hrest
  obtain rfl := Machine.Run.nil_iff.mp hnil
  have hoffers : t.Offers ⟨"m", "t", [2], some ⟨1, 0⟩⟩ :=
    h _ w hw (.store ⟨"m", "t", [2], none⟩ "" ⟨1, 0⟩ []) t hst
  have hone : ((t.mem.topics.members "t").card : Int) ≤ 1 := by
    rw [← Enumerates.length_eq horder]
    exact le_refl _
  have hmem := hoffers "c" 1 ["m"] horder hone
  rw [hread] at hmem
  cases hmem

end GpuTel.Mq.World
