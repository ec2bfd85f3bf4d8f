import Mathlib.Data.List.Induction
import Mathlib.Data.List.Basic

/-!
# What a history of effects leaves behind

`register` is a memory cell: an effect leaves it, clears it or writes it. `sinceReset` is a log: an
effect appends to it or empties it. Both are read off the history alone, so they serve as the
abstract meaning of any structure that is updated effect by effect.
-/

set_option autoImplicit false

namespace History

variable {ε α : Type*}

/-- `effect e` is `none` when `e` leaves the cell alone, `some r` when it sets the cell to `r`. -/
def register (effect : ε → Option (Option α)) (es : List ε) : Option α :=
  es.foldl (fun cell e => (effect e).getD cell) none

@[simp] theorem register_nil (effect : ε → Option (Option α)) : register effect [] = none := rfl

theorem register_snoc (effect : ε → Option (Option α)) (es : List ε) (e : ε) :
    register effect (es ++ [e]) = (effect e).getD (register effect es) := by
  simp [register, List.foldl_append]

/-- The last write wins, unless something after it cleared the cell. -/
theorem register_eq_some_iff (effect : ε → Option (Option α)) (es : List ε) (a : α) :
    register effect es = some a ↔ ∃ before e after, es = before ++ e :: after ∧
      effect e = some (some a) ∧ ∀ x ∈ after, effect x = none := by
  induction es using List.reverseRecOn with
  | nil => simp
  | append_singleton es e ih =>
    rw [register_snoc]
    constructor
    · intro h
      cases he : effect e with
      | none =>
        rw [he, Option.getD_none] at h
        obtain ⟨before, w, after, rfl, hw, hafter⟩ := ih.mp h
        refine ⟨before, w, after ++ [e], by simp, hw, ?_⟩
        intro x hx
        rcases List.mem_append.mp hx with hx | hx
        · exact hafter x hx
        · rw [List.mem_singleton.mp hx, he]
      | some r =>
        rw [he, Option.getD_some] at h
        exact ⟨es, e, [], rfl, by rw [he, h], by simp⟩
    · rintro ⟨before, w, after, heq, hw, hafter⟩
      induction after using List.reverseRecOn with
      | nil =>
        obtain ⟨rfl, rfl⟩ := List.append_inj' heq rfl |>.imp id List.singleton_inj.mp
        rw [hw, Option.getD_some]
      | append_singleton after x _ =>
        have heq' : es ++ [e] = (before ++ w :: after) ++ [x] := by simpa using heq
        obtain ⟨rfl, hx⟩ := List.append_inj' heq' rfl
        obtain rfl := List.singleton_inj.mp hx
        rw [hafter e (by simp), Option.getD_none]
        exact ih.mpr ⟨before, w, after, rfl, hw, fun y hy => hafter y (by simp [hy])⟩

/-- `added e` is `none` when `e` empties the log, `some xs` when it appends `xs`. -/
def sinceReset (added : ε → Option (List α)) (es : List ε) : List α :=
  es.foldl (fun log e => ((added e).map (log ++ ·)).getD []) []

theorem sinceReset_snoc (added : ε → Option (List α)) (es : List ε) (e : ε) :
    sinceReset added (es ++ [e]) = ((added e).map (sinceReset added es ++ ·)).getD [] := by
  simp [sinceReset, List.foldl_append]

end History
