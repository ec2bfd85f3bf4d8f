import GpuTel.Mq.WorldInvariant

/-!
# Channel lifecycle

`Close` and the clean-up goroutines both close channels. No channel is closed twice or sent on after
it was closed, and a clean-up that comes after `Close` finds nothing to do.
-/

set_option autoImplicit false

namespace GpuTel.Mq.World

open Fifo Transition

variable {w t : World} {es : List Event}

theorem not_mem_members_step (hinv : w.Inv) {e : Event} (hst : world.Step w e t) {c : Nat}
    (hc : c < w.made) (hout : ∀ topic, c ∉ w.mem.subscribers.members topic) :
    ∀ topic, c ∉ t.mem.subscribers.members topic := by
  intro topic hmem
  rw [hinv.step_eq hst] at hmem
  cases e with
  | subscribe ctxDone topic' =>
    rcases (SetMap.mem_members_add _ _ _ _ _).mp hmem with ⟨_, heq⟩ | hold
    · omega
    · exact hout topic hold
  | cleanUp d => exact hout topic (mem_members_retire w d hmem)
  | acknowledge msgID consumerID =>
    simp only [effect, InMemoryStore.acknowledge_subscribers] at hmem
    exact hout topic hmem
  | getMessages topic' consumerID batchSize order =>
    simp only [effect, InMemoryStore.getMessages_subscribers] at hmem
    exact hout topic hmem
  | close order => simp [effect, shutDown, InMemoryStore.newInMemoryStore] at hmem
  | _ => exact hout topic hmem

theorem not_mem_members_run (hinv : w.Inv) (hrun : world.Run w es t) {c : Nat} (hc : c < w.made)
    (hout : ∀ topic, c ∉ w.mem.subscribers.members topic) :
    c < t.made ∧ ∀ topic, c ∉ t.mem.subscribers.members topic := by
  have hI := hrun.invariant
    (I := fun w => w.Inv ∧ c < w.made ∧ ∀ topic, c ∉ w.mem.subscribers.members topic)
    (fun s e t hs hst => ⟨inv_step hs.1 hst, Nat.lt_of_lt_of_le hs.2.1 (made_le_step hs.1 hst),
      not_mem_members_step hs.1 hst hs.2.1 hs.2.2⟩)
    ⟨hinv, hc, hout⟩
  exact hI.2

theorem retire_of_not_mem {c : Nat} (hout : ∀ topic, c ∉ w.mem.subscribers.members topic) :
    w.retire c = w.setSub c { w.subs c with cleanedUp := true } := by
  unfold retire
  exact if_neg (hout _)

/-- In every run: no enabled label sends on a closed channel or closes one twice; registered
channels are open; and the clean-up of a subscription made before a `Close`, whenever it runs after
it, leaves the maps and every other subscription as they are. -/
theorem channel_lifecycle (hrun : world.Run init es w) :
    (∀ e, w.guard e → ∃ t, w.exec e = .ok t) ∧
    (∀ topic, ∀ c ∈ w.mem.subscribers.members topic, (w.subs c).ch.closed = false) ∧
    (∀ before order after v c t, es = before ++ .close order :: after →
      world.Run init before v → c < v.made → world.Step w (.cleanUp c) t →
      t.mem = w.mem ∧ t.made = w.made ∧ ∀ d, d ≠ c → t.subs d = w.subs d) := by
  have hinv := inv_run hrun
  refine ⟨fun e hg => ⟨w.effect e, hinv.exec_eq hg⟩, fun topic c hc => hinv.isOpen hc, ?_⟩
  rintro before order after v c t rfl hbefore hc hst
  have hv := inv_run hbefore
  obtain ⟨v', hv', hrest⟩ := Machine.Run.append_iff.mp hrun
  obtain rfl := hv'.det hbefore
  obtain ⟨u, hclose, hafter⟩ := Machine.Run.cons_iff.mp hrest
  have hu : u = v'.shutDown := hv.step_eq hclose
  have hout : ∀ topic, c ∉ u.mem.subscribers.members topic := by
    intro topic
    simp [hu, shutDown, InMemoryStore.newInMemoryStore]
  have hcu : c < u.made := by
    rw [hu]
    exact hc
  have hw := not_mem_members_run (inv_step hv hclose) hafter hcu hout
  rw [hinv.step_eq hst]
  simp only [effect, retire_of_not_mem hw.2]
  refine ⟨rfl, rfl, ?_⟩
  intro d hd
  rw [setSub_subs, if_neg hd]

/-- The subscriber connected at the `Close` is cleaned up when another subscription to its topic is
open. -/
def lateCleanUp : List Event :=
  [.subscribe false "t", .close [("t", 0)], .subscribe false "t", .cancel 0, .cleanUp 0,
    .store ⟨"m", "t", [], none⟩ "" ⟨0, 0⟩ [1]]

theorem channel_lifecycle_late_cleanUp : ∃ w, world.Run init lateCleanUp w ∧
    (∀ e, w.guard e → ∃ t, w.exec e = .ok t) ∧
    ∀ topic, ∀ c ∈ w.mem.subscribers.members topic, (w.subs c).ch.closed = false := by
  obtain ⟨w, hrun, -⟩ := Machine.exists_run (M := world)
    (fun w => (w.subs 1).ch.buf.length = 1) init lateCleanUp (by decide)
  have h := channel_lifecycle hrun
  exact ⟨w, hrun, h.1, h.2.1⟩

end GpuTel.Mq.World
