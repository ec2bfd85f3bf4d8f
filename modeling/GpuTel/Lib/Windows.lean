import Mathlib.Data.List.Perm.Subperm
import Mathlib.Data.List.Flatten
import Mathlib.Tactic.TypeStar

/-!
# Reading a growing log piece by piece

A read selects from what is in the log at its time. Reads that select different things never read an
entry twice, and together they miss exactly what they would have selected but came later.
-/

set_option autoImplicit false

namespace Windows

variable {α : Type*}

/-- What was in the log, and which part of it was asked for. -/
structure Read (α : Type*) where
  seen : List α
  Selects : α → Prop
  [decide : DecidablePred Selects]

attribute [instance] Read.decide

def Read.result (r : Read α) : List α := r.seen.filter r.Selects

/-- No two reads ask for the same entry. -/
def Apart (reads : List (Read α)) : Prop :=
  reads.Pairwise fun r s => ∀ a, ¬ (r.Selects a ∧ s.Selects a)

theorem filter_or_perm (P Q : α → Prop) [DecidablePred P] [DecidablePred Q]
    (h : ∀ a, ¬ (P a ∧ Q a)) (l : List α) :
    (l.filter fun a => P a ∨ Q a).Perm (l.filter P ++ l.filter Q) := by
  have hsplit := List.filter_append_perm (fun a => decide (P a)) (l.filter fun a => P a ∨ Q a)
  rw [List.filter_filter, List.filter_filter] at hsplit
  refine hsplit.symm.trans (List.Perm.of_eq ?_)
  congr 1 <;> apply List.filter_congr <;> intro a _
  · by_cases hP : P a <;> simp [hP]
  · by_cases hP : P a
    · have hQ : ¬ Q a := fun hQ => h a ⟨hP, hQ⟩
      simp [hP, hQ]
    · simp [hP]

theorem filter_perm_flatMap (log : List α) {reads : List (Read α)} (hapart : Apart reads)
    (Whole : α → Prop) [DecidablePred Whole]
    (hwhole : ∀ a, Whole a ↔ ∃ r ∈ reads, r.Selects a) :
    (log.filter Whole).Perm (reads.flatMap fun r => log.filter r.Selects) := by
  induction reads generalizing Whole with
  | nil =>
    refine List.Perm.of_eq (List.filter_eq_nil_iff.mpr ?_)
    intro a _ ha
    obtain ⟨r, hr, -⟩ := (hwhole a).mp (of_decide_eq_true ha)
    cases hr
  | cons r reads ih =>
    classical
    obtain ⟨hfirst, hrest⟩ := List.pairwise_cons.mp hapart
    have hhere := ih hrest (fun a => ∃ s ∈ reads, s.Selects a) (fun _ => Iff.rfl)
    have heq : log.filter Whole =
        log.filter fun a => r.Selects a ∨ ∃ s ∈ reads, s.Selects a := by
      apply List.filter_congr
      intro a _
      rw [Bool.eq_iff_iff, decide_eq_true_iff, decide_eq_true_iff, hwhole]
      simp
    rw [heq, List.flatMap_cons]
    refine (filter_or_perm r.Selects _ ?_ log).trans (hhere.append_left _)
    rintro a ⟨hr, s, hs, hsel⟩
    exact hfirst s hs a ⟨hr, hsel⟩

section Reads

variable {log : List α} {reads : List (Read α)}

theorem filter_eq_append {r : Read α} (h : r.seen <+: log) :
    log.filter r.Selects = r.result ++ (log.drop r.seen.length).filter r.Selects := by
  obtain ⟨late, rfl⟩ := h
  simp [Read.result]

theorem length_flatMap (hseen : ∀ r ∈ reads, r.seen <+: log) :
    (reads.flatMap fun r => log.filter r.Selects).length =
      (reads.flatMap Read.result).length +
        (reads.flatMap fun r => (log.drop r.seen.length).filter r.Selects).length := by
  induction reads with
  | nil => rfl
  | cons r reads ih =>
    obtain ⟨hr, hrest⟩ := List.forall_mem_cons.mp hseen
    simp only [List.flatMap_cons, List.length_append, ih hrest, filter_eq_append hr]
    omega

theorem sublist_flatMap (hseen : ∀ r ∈ reads, r.seen <+: log) :
    (reads.flatMap Read.result).Sublist (reads.flatMap fun r => log.filter r.Selects) := by
  induction reads with
  | nil => exact .slnil
  | cons r reads ih =>
    obtain ⟨hr, hrest⟩ := List.forall_mem_cons.mp hseen
    rw [List.flatMap_cons, List.flatMap_cons]
    exact (hr.sublist.filter _).append (ih hrest)

/-- Nothing is read twice, and what is missed came after the read that asked for it. -/
theorem reads_of_log (hseen : ∀ r ∈ reads, r.seen <+: log) (hapart : Apart reads)
    (Whole : α → Prop) [DecidablePred Whole]
    (hwhole : ∀ a, Whole a ↔ ∃ r ∈ reads, r.Selects a) :
    (reads.flatMap Read.result).Subperm (log.filter Whole) ∧
      ((reads.flatMap Read.result).length = (log.filter Whole).length ↔
        ∀ r ∈ reads, ∀ a ∈ log.drop r.seen.length, ¬ r.Selects a) := by
  have hperm := filter_perm_flatMap log hapart Whole hwhole
  refine ⟨(sublist_flatMap hseen).subperm.trans hperm.symm.subperm, ?_⟩
  rw [hperm.length_eq, length_flatMap hseen, Nat.left_eq_add, List.length_eq_zero_iff,
    List.flatMap_eq_nil_iff]
  simp [List.filter_eq_nil_iff]

end Reads

end Windows
