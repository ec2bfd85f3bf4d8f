import GpuTel.Lib.Transition
import Mathlib.Data.List.Flatten
import Mathlib.Data.List.Perm.Subperm

/-!
# One-way lanes

A lane carries what one sender puts on it, in order, and may break off at any moment: then the rest
is lost. The lanes are numbered in the order in which they are opened, and there is no order between
two of them.
-/

set_option autoImplicit false

open Transition

abbrev Lanes (α : Type*) := List (List α)

namespace Lanes

variable {α φ : Type*}

inductive Op (α : Type*) where
  | send (items : List α)
  | take (j : Nat)
  | cut (j : Nat)

def lane (l : Lanes α) (j : Nat) : List α := l[j]?.getD []

def next (l : Lanes α) (j : Nat) : Option α := (lane l j).head?

def step (l : Lanes α) : Op α → Lanes α
  | .send items => l ++ [items]
  | .take j => l.modify j List.tail
  | .cut j => l.modify j fun _ => []

/-- No operation fails, whatever the faults are. -/
def machine (α φ : Type*) : Machine (Lanes α) (Op α) φ where
  guard l op := ∀ j, op = .take j → next l j ≠ none
  exec l op := .ok (step l op)

def put (_ : Lanes α) : Op α → Option (List α)
  | .send items => some items
  | _ => none

def taken (l : Lanes α) : Op α → Option α
  | .take j => next l j
  | _ => none

def takenFrom (j : Nat) (l : Lanes α) : Op α → Option α
  | .take i => if i = j then next l j else none
  | _ => none

theorem eq_step {l l' : Lanes α} {op : Op α} (h : (machine α φ).Step l op l') : l' = step l op :=
  (Except.ok.inj h.2).symm

@[simp] theorem next_nil (j : Nat) : next ([] : Lanes α) j = none := rfl

@[simp] theorem next_cons_zero (q : List α) (l : Lanes α) : next (q :: l) 0 = q.head? := rfl

@[simp] theorem next_cons_succ (q : List α) (l : Lanes α) (j : Nat) :
    next (q :: l) (j + 1) = next l j := rfl

theorem perm_take {l : Lanes α} {j : Nat} {a : α} (h : next l j = some a) :
    (a :: (step l (.take j)).flatten).Perm l.flatten := by
  induction l generalizing j with
  | nil => cases h
  | cons q l ih =>
    cases j with
    | zero =>
      obtain ⟨q', rfl⟩ := List.head?_eq_some_iff.mp h
      exact List.Perm.refl _
    | succ j =>
      have hrest := ih h
      have hmove : (a :: (q ++ (step l (.take j)).flatten)).Perm
          (q ++ a :: (step l (.take j)).flatten) := List.perm_middle.symm
      exact hmove.trans (List.Perm.append_left q hrest)

theorem cut_sublist (l : Lanes α) (j : Nat) : (step l (.cut j)).flatten.Sublist l.flatten := by
  induction l generalizing j with
  | nil => cases j <;> exact List.Sublist.refl _
  | cons q l ih =>
    cases j with
    | zero => exact List.sublist_append_right q l.flatten
    | succ j => exact List.Sublist.append_left (ih j) q

theorem subperm_step {l l' : Lanes α} {op : Op α} (h : (machine α φ).Step l op l') :
    ((taken l op).toList ++ l'.flatten).Subperm (l.flatten ++ ((put l op).toList).flatten) := by
  rw [eq_step h]
  cases op with
  | send items =>
    rw [step, List.flatten_append]
    exact List.Subperm.refl _
  | take j =>
    cases hnext : next l j with
    | none => exact absurd hnext (h.1 j rfl)
    | some a =>
      have hperm := perm_take hnext
      simpa [taken, put, hnext] using hperm.subperm
  | cut j => simpa [taken, put] using (cut_sublist l j).subperm

/-- What was taken, and what is still on the lanes, was put on them, each item as often at most. -/
theorem taken_subperm {l : Lanes α} {ops : List (Op α)} (hrun : (machine α φ).Run [] ops l) :
    ((machine α φ).trace taken [] ops ++ l.flatten).Subperm
      ((machine α φ).trace put [] ops).flatten := by
  refine hrun.history (H := fun ops l => ((machine α φ).trace taken [] ops ++ l.flatten).Subperm
    ((machine α φ).trace put [] ops).flatten) (List.Subperm.refl _) ?_
  intro ops m op l hm ih hst
  rw [hm.trace_snoc _ hst, hm.trace_snoc _ hst, List.flatten_append, List.append_assoc]
  have hstep := List.Subperm.append (List.Subperm.refl ((machine α φ).trace taken [] ops))
    (subperm_step hst)
  rw [← List.append_assoc _ m.flatten] at hstep
  exact hstep.trans (List.Subperm.append ih (List.Subperm.refl _))

theorem exists_next {l : Lanes α} (h : l.flatten ≠ []) : ∃ j, next l j ≠ none := by
  induction l with
  | nil => exact absurd rfl h
  | cons q l ih =>
    cases q with
    | nil =>
      obtain ⟨j, hj⟩ := ih h
      exact ⟨j + 1, hj⟩
    | cons a q => exact ⟨0, by simp⟩

theorem length_cut_lt {l : Lanes α} {j : Nat} (h : next l j ≠ none) :
    (step l (.cut j)).flatten.length < l.flatten.length := by
  induction l generalizing j with
  | nil => exact absurd rfl h
  | cons q l ih =>
    cases j with
    | zero =>
      have hq : q ≠ [] := fun hq => h (by simp [hq])
      have hlen := List.length_pos_iff.mpr hq
      simp [step]
      omega
    | succ j =>
      have hrest : (l.modify j fun _ => []).flatten.length < l.flatten.length := ih h
      simp only [step, List.modify_succ_cons, List.flatten_cons, List.length_append]
      omega

theorem length_take_lt {l : Lanes α} {j : Nat} (h : next l j ≠ none) :
    (step l (.take j)).flatten.length < l.flatten.length := by
  obtain ⟨a, ha⟩ := Option.ne_none_iff_exists'.mp h
  have hlen := (perm_take ha).length_eq
  rw [List.length_cons] at hlen
  omega

theorem lane_send (l : Lanes α) (items : List α) (j : Nat) :
    lane (step l (.send items)) j = if j = l.length then items else lane l j := by
  unfold lane step
  rcases Nat.lt_trichotomy j l.length with hlt | heq | hgt
  · rw [List.getElem?_append_left hlt, if_neg (Nat.ne_of_lt hlt)]
  · simp [heq]
  · rw [if_neg (Nat.ne_of_gt hgt), List.getElem?_eq_none (Nat.le_of_lt hgt),
      List.getElem?_eq_none (by simp; omega)]

theorem lane_modify {f : List α → List α} (hf : f [] = []) (l : Lanes α) (i j : Nat) :
    lane (l.modify i f) j = if i = j then f (lane l j) else lane l j := by
  unfold lane
  rw [List.getElem?_modify]
  by_cases hij : i = j
  · cases hl : l[j]? <;> simp [hij, hf]
  · simp [hij]

theorem takenFrom_append_lane {l l' : Lanes α} {op : Op α} (h : (machine α φ).Step l op l')
    {j : Nat} (hj : j < l.length) : (takenFrom j l op).toList ++ lane l' j <+: lane l j := by
  rw [eq_step h]
  cases op with
  | send items =>
    rw [lane_send, if_neg (Nat.ne_of_lt hj)]
    exact List.prefix_refl _
  | take i =>
    simp only [step, takenFrom, lane_modify List.tail_nil]
    by_cases hij : i = j
    · subst hij
      have hnext : (lane l i).head? = next l i := rfl
      cases hlane : lane l i with
      | nil => simp [next, hlane]
      | cons a q => simp [next, hlane]
    · simp [hij]
  | cut i =>
    simp only [step, takenFrom, lane_modify (f := fun _ => []) rfl]
    split <;> simp

theorem length_step {l l' : Lanes α} {op : Op α} (h : (machine α φ).Step l op l') :
    l'.length = l.length + (put l op).toList.length := by
  rw [eq_step h]
  cases op <;> simp [step, put]

theorem length_run {l : Lanes α} {ops : List (Op α)} (hrun : (machine α φ).Run [] ops l) :
    l.length = ((machine α φ).trace put [] ops).length := by
  refine hrun.history (H := fun ops l => l.length = ((machine α φ).trace put [] ops).length) rfl ?_
  intro ops m op l hm ih hst
  rw [hm.trace_snoc _ hst, List.length_append, ← ih, length_step hst]

/-- What was taken from a lane, and then what is still on it, is a beginning of what was put on
it. -/
theorem lane_order {l : Lanes α} {ops : List (Op α)} (hrun : (machine α φ).Run [] ops l) (j : Nat) :
    (machine α φ).trace (takenFrom j) [] ops ++ lane l j <+:
      (((machine α φ).trace put [] ops)[j]?).getD [] := by
  refine hrun.history (H := fun ops l => (machine α φ).trace (takenFrom j) [] ops ++ lane l j <+:
    (((machine α φ).trace put [] ops)[j]?).getD []) (List.prefix_refl _) ?_
  intro ops m op l hm ih hst
  have hlen := length_run hm
  rw [hm.trace_snoc _ hst, hm.trace_snoc _ hst, List.append_assoc]
  rcases Nat.lt_or_ge j m.length with hlt | hge
  · rw [List.getElem?_append_left (hlen ▸ hlt)]
    exact ((List.prefix_append_right_inj _).mpr (takenFrom_append_lane hst hlt)).trans ih
  · have hempty : lane m j = [] := by rw [lane, List.getElem?_eq_none hge]; rfl
    have hnone : ((machine α φ).trace put [] ops)[j]?.getD [] = [] := by
      rw [List.getElem?_eq_none (hlen ▸ hge)]; rfl
    rw [hempty, List.append_nil, hnone] at ih
    rw [List.prefix_nil.mp ih, List.nil_append, eq_step hst]
    cases op with
    | send items =>
      rw [lane_send]
      simp only [takenFrom, put, Option.toList_none, Option.toList_some, List.nil_append]
      split
      · rename_i heq
        rw [heq, hlen]
        simp
      · rw [hempty]
        exact List.nil_prefix
    | take i =>
      simp only [step, takenFrom, lane_modify List.tail_nil, next, hempty]
      split <;> simp
    | cut i =>
      simp only [step, takenFrom, lane_modify (f := fun _ => []) rfl, hempty]
      split <;> simp

end Lanes
