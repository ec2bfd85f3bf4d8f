import Mathlib.Data.Finset.Erase
import Mathlib.Data.Finset.Insert
import Mathlib.Tactic.TypeStar

/-!
# What is in flight

The items that were sent and are not settled. A settlement names a key, and holds for every item
with that key, sent or still to be sent, until the key is renewed.
-/

set_option autoImplicit false

namespace InFlight

inductive Op (α κ : Type*) where
  | renew (k : κ)
  | send (a : α)
  | settle (k : κ)

structure Flight (α κ : Type*) where
  items : List α
  settled : Finset κ

variable {α κ : Type*} [DecidableEq κ] (key : α → κ)

def step (f : Flight α κ) : Op α κ → Flight α κ
  | .renew k => { f with settled := f.settled.erase k }
  | .send a => if key a ∈ f.settled then f else { f with items := f.items ++ [a] }
  | .settle k => ⟨f.items.filter fun a => key a ≠ k, insert k f.settled⟩

def run (ops : List (Op α κ)) : Flight α κ := ops.foldl (step key) ⟨[], ∅⟩

theorem run_append (ops ops' : List (Op α κ)) :
    run key (ops ++ ops') = ops'.foldl (step key) (run key ops) := by
  rw [run, run, List.foldl_append]

theorem length_items_step_le (f : Flight α κ) {op : Op α κ} (hop : ∀ a, op ≠ .send a) :
    (step key f op).items.length ≤ f.items.length := by
  cases op with
  | renew k => exact le_refl _
  | send a => exact absurd rfl (hop a)
  | settle k => exact List.length_filter_le (fun a => decide (key a ≠ k)) f.items

/-- A bound that is kept is kept by exactly the steps that do not send an unsettled item when it is
reached. -/
theorem length_items_le_iff {f : Flight α κ} {bound : Int} (h : (f.items.length : Int) ≤ bound)
    (op : Option (Op α κ)) : ((op.toList.foldl (step key) f).items.length : Int) ≤ bound ↔
      ∀ a, op = some (.send a) → key a ∉ f.settled → (f.items.length : Int) < bound := by
  cases op with
  | none => simpa using h
  | some op =>
    simp only [Option.toList_some, List.foldl_cons, List.foldl_nil, Option.some.injEq]
    cases op with
    | send a =>
      by_cases hsettled : key a ∈ f.settled
      · simpa [step, hsettled] using h
      · simp only [step, if_neg hsettled, List.length_append, List.length_singleton, Op.send.injEq]
        constructor
        · intro hle b _ _
          omega
        · intro hlt
          have := hlt a rfl hsettled
          omega
    | _ =>
      refine iff_of_true ?_ (by simp)
      exact le_trans (Int.ofNat_le.mpr (length_items_step_le key f (by simp))) h

end InFlight
