import GpuTel.Lib.History
import GpuTel.Mq.WorldInvariant

/-!
# The store as a last-writer map

The abstract store is, for each id, the register written by `Store` and cleared by `Delete` and
`Close`. It is read off the history alone; the maps of `InMemoryStore` refine it.
-/

set_option autoImplicit false

namespace GpuTel.Mq.World

open Transition History

def writes (id : String) : Event → Option (Option Message)
  | .store msg newID now _ =>
    if (msg.filledIn newID now).id = id then some (some (msg.filledIn newID now)) else none
  | .delete msgID => if msgID = id then some none else none
  | .close _ => some none
  | _ => none

/-- The message of the latest `Store` under `id` that no `Delete` or `Close` followed. -/
def latest (id : String) (es : List Event) : Option Message := register (writes id) es

theorem lookup_messages_effect (w : World) (e : Event) (id : String) :
    (w.effect e).mem.messages.lookup id = (writes id e).getD (w.mem.messages.lookup id) := by
  cases e with
  | store msg newID now order =>
    simp only [effect, deliver, InMemoryStore.put, writes, stamp_eq, Finmap.lookup_insert_eq]
    by_cases h : id = (msg.filledIn newID now).id
    · rw [if_pos h, if_pos h.symm, Option.getD_some]
    · rw [if_neg h, if_neg (Ne.symm h), Option.getD_none]
  | delete msgID =>
    simp only [effect, InMemoryStore.delete, writes, Finmap.lookup_erase_eq]
    by_cases h : id = msgID
    · rw [if_pos h, if_pos h.symm, Option.getD_some]
    · rw [if_neg h, if_neg (Ne.symm h), Option.getD_none]
  | cleanUp c => simp [effect, writes]
  | acknowledge msgID consumerID => simp [effect, writes]
  | getMessages topic consumerID batchSize order => simp [effect, writes]
  | close order => simp [effect, shutDown, InMemoryStore.newInMemoryStore, writes]
  | _ => rfl

theorem lookup_messages_eq_latest {w : World} {es : List Event} (hrun : world.Run init es w)
    (id : String) : w.mem.messages.lookup id = latest id es := by
  apply hrun.history (H := fun es w => w.mem.messages.lookup id = latest id es)
  · simp [init, InMemoryStore.newInMemoryStore, latest]
  · intro es m e t hm ih hst
    rw [latest, register_snoc, (inv_run hm).step_eq hst, lookup_messages_effect, ih]
    rfl

/-- After every run: `Get` answers as the last-writer map does; a live id is in the index of its own
topic; only live ids are tracked; and `Acknowledge` fails, leaving the store as it is, exactly when
the id is not live. -/
theorem refines_last_writer {w : World} {es : List Event} (hrun : world.Run init es w) :
    (∀ id, w.mem.get id = match latest id es with
      | some msg => .ok msg
      | none => .error errMessageNotFound) ∧
    (∀ id msg, latest id es = some msg → msg.id = id ∧ id ∈ w.mem.topics.members msg.topic) ∧
    (∀ id consumerID, w.mem.ackTracker.lookup id = some consumerID → latest id es ≠ none) ∧
    (∀ id consumerID, latest id es = none →
      w.mem.acknowledge id consumerID = (some errMessageNotFound, w.mem)) ∧
    (∀ id consumerID, latest id es ≠ none → (w.mem.acknowledge id consumerID).1 = none) := by
  have hcoh := (inv_run hrun).coherent
  have hlookup := lookup_messages_eq_latest hrun
  have hlive : ∀ id, w.mem.Live id ↔ latest id es ≠ none := by
    intro id
    rw [InMemoryStore.Live, hlookup id, Option.ne_none_iff_exists']
  refine ⟨?_, ?_, ?_, ?_, ?_⟩
  · intro id
    rw [InMemoryStore.get, hlookup id]
    cases latest id es <;> rfl
  · intro id msg hmsg
    rw [← hlookup id] at hmsg
    exact ⟨hcoh.keyed hmsg, hcoh.indexed hmsg⟩
  · intro id consumerID htracked
    exact (hlive id).mp (hcoh.tracked htracked)
  · intro id consumerID hnone
    exact InMemoryStore.acknowledge_of_not_live (fun h => (hlive id).mp h hnone) consumerID
  · intro id consumerID hsome
    rw [InMemoryStore.acknowledge_of_live ((hlive id).mpr hsome) consumerID]

/-- A generated id, an overwrite and a deletion. -/
def overwriteAndDelete : List Event :=
  [.store ⟨"", "t", [1], none⟩ "g" ⟨0, 0⟩ [], .acknowledge "g" "c",
    .store ⟨"g", "t", [2], none⟩ "" ⟨1, 0⟩ [], .store ⟨"m", "t", [3], none⟩ "" ⟨2, 0⟩ [],
    .delete "m"]

theorem refines_last_writer_overwriteAndDelete : ∃ w, world.Run init overwriteAndDelete w ∧
    w.mem.get "g" = .ok ⟨"g", "t", [2], some ⟨1, 0⟩⟩ ∧
    w.mem.get "m" = .error errMessageNotFound := by
  obtain ⟨w, hrun, -⟩ := Machine.exists_run (M := world) (fun _ => True) init overwriteAndDelete
    (by decide)
  have h := (refines_last_writer hrun).1
  exact ⟨w, hrun, h "g", h "m"⟩

/-- The last-writer map in terms of the history: some `Store` under `id` is not followed by another,
nor by a `Delete` of `id` or a `Close`. -/
theorem latest_eq_some_iff (id : String) (es : List Event) (msg : Message) :
    latest id es = some msg ↔ ∃ before e after, es = before ++ e :: after ∧
      writes id e = some (some msg) ∧ ∀ x ∈ after, writes id x = none :=
  register_eq_some_iff (writes id) es msg

end GpuTel.Mq.World
