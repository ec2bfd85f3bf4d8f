import GpuTel.Lib.KeyedLog
import Mathlib.Order.Basic

/-!
# Sorting and then filtering

A sort by a key is determined by its input up to the order of ties. Filtering before the sort or
after it gives the same list, whatever the sort, exactly when there are no ties to be ordered.
-/

set_option autoImplicit false

namespace Sorting

variable {α β : Type*} [LinearOrder β] (key : α → β)

/-- Elements with the same key are the same. -/
def Untied (l : List α) : Prop := ∀ a ∈ l, ∀ b ∈ l, key a = key b → a = b

variable {key}

theorem pairwise_le (S : Sorting fun a b => decide (key a < key b)) (l : List α) :
    (S.sort l).Pairwise fun a b => key a ≤ key b := by
  apply (S.sorted l).imp
  intro a b hab
  exact not_lt.mp (of_decide_eq_false hab)

theorem eq_of_untied {l l₁ l₂ : List α} (h : Untied key l) (hl₁ : l₁.Perm l) (hl₂ : l₂.Perm l)
    (h₁ : l₁.Pairwise fun a b => key a ≤ key b) (h₂ : l₂.Pairwise fun a b => key a ≤ key b) :
    l₁ = l₂ := by
  apply List.Perm.eq_of_pairwise _ h₁ h₂ (hl₁.trans hl₂.symm)
  intro a b ha hb hab hba
  exact h a (hl₁.mem_iff.mp ha) b (hl₂.mem_iff.mp hb) (le_antisymm hab hba)

section Prefer

variable [DecidableEq α]

/-- `c` goes before all that it is tied with. -/
def before (key : α → β) (c a b : α) : Prop := key a < key b ∨ key a = key b ∧ (a = c ∨ b ≠ c)

instance (key : α → β) (c : α) : DecidableRel (before key c) :=
  fun _ _ => inferInstanceAs (Decidable (_ ∨ _))

theorem before_total (key : α → β) (c a b : α) : before key c a b ∨ before key c b a := by
  rcases lt_trichotomy (key a) (key b) with hlt | heq | hgt
  · exact Or.inl (Or.inl hlt)
  · by_cases ha : a = c
    · exact Or.inl (Or.inr ⟨heq, Or.inl ha⟩)
    · exact Or.inr (Or.inr ⟨heq.symm, Or.inr ha⟩)
  · exact Or.inr (Or.inl hgt)

omit [DecidableEq α] in
theorem before_trans (key : α → β) {c a b d : α} (hab : before key c a b)
    (hbd : before key c b d) : before key c a d := by
  rcases hab with hlt | ⟨heq, hc⟩
  · rcases hbd with hlt' | ⟨heq', -⟩
    · exact Or.inl (hlt.trans hlt')
    · exact Or.inl (hlt.trans_eq heq')
  · rcases hbd with hlt' | ⟨heq', hc'⟩
    · exact Or.inl (heq.trans_lt hlt')
    · refine Or.inr ⟨heq.trans heq', ?_⟩
      rcases hc with ha | hb
      · exact Or.inl ha
      · rcases hc' with hb' | hd
        · exact absurd hb' hb
        · exact Or.inr hd

theorem pairwise_before (key : α → β) (c : α) (l : List α) :
    (l.insertionSort (before key c)).Pairwise (before key c) := by
  have htotal : Std.Total (before key c) := ⟨before_total key c⟩
  have htrans : IsTrans α (before key c) := ⟨fun _ _ _ => before_trans key⟩
  exact List.pairwise_insertionSort _ l

/-- A sort that puts `c` first among the elements with its key. -/
def prefer (key : α → β) (c : α) : Sorting fun a b : α => decide (key a < key b) where
  sort l := l.insertionSort (before key c)
  perm l := List.perm_insertionSort _ l
  sorted l := by
    apply (pairwise_before key c l).imp
    intro a b hab
    rw [decide_eq_false_iff_not, not_lt]
    rcases hab with hlt | ⟨heq, -⟩
    · exact hlt.le
    · exact heq.le

def Apart (a b x y : α) : Prop := ¬ (x = a ∧ y = b) ∧ ¬ (x = b ∧ y = a)

instance (a b : α) : Std.Symm (Apart a b) where
  symm := by
    rintro x y ⟨h, h'⟩
    exact ⟨fun hc => h' ⟨hc.2, hc.1⟩, fun hc => h ⟨hc.2, hc.1⟩⟩

omit [DecidableEq α] in
theorem apart_of_before {a b x y : α} (htie : key a = key b) (hne : a ≠ b)
    (ha : before key a x y) (hb : before key b x y) : Apart a b x y := by
  constructor
  · rintro ⟨rfl, rfl⟩
    rcases hb with hlt | ⟨-, heq | hdiff⟩
    · exact absurd htie hlt.ne
    · exact hne heq
    · exact hdiff rfl
  · rintro ⟨rfl, rfl⟩
    rcases ha with hlt | ⟨-, heq | hdiff⟩
    · exact absurd htie.symm hlt.ne
    · exact hne heq.symm
    · exact hdiff rfl

omit [DecidableEq α] in
theorem eq_of_pairwise_before {a b : α} (htie : key a = key b) {l : List α} (ha : a ∈ l)
    (hb : b ∈ l) (hla : l.Pairwise (before key a)) (hlb : l.Pairwise (before key b)) : a = b := by
  by_contra hne
  have hapart : l.Pairwise (Apart a b) := by
    apply (hla.and hlb).imp
    rintro x y ⟨hxa, hxb⟩
    exact apart_of_before htie hne hxa hxb
  exact (hapart.forall ha hb hne).1 ⟨rfl, rfl⟩

/-- One sort for the input `l₀`, another one for all others. -/
def switch (l₀ : List α) {less : α → α → Bool} (S₁ S₂ : Sorting less) : Sorting less where
  sort l := if l = l₀ then S₁.sort l else S₂.sort l
  perm l := by
    split
    · exact S₁.perm l
    · exact S₂.perm l
  sorted l := by
    split
    · exact S₁.sorted l
    · exact S₂.sorted l

end Prefer

section Filter

variable {p : α → Bool} {l : List α}

theorem sort_filter_of_untied (h : Untied key (l.filter p))
    (S₁ S₂ : Sorting fun a b => decide (key a < key b)) :
    S₁.sort (l.filter p) = (S₂.sort l).filter p :=
  eq_of_untied h (S₁.perm _) ((S₂.perm l).filter p) (pairwise_le S₁ _)
    ((pairwise_le S₂ l).filter p)

variable [DecidableEq α]

/-- The two sorts may differ: every tie can be ordered in two ways. -/
theorem sort_filter_iff : (∀ S₁ S₂ : Sorting fun a b => decide (key a < key b),
    S₁.sort (l.filter p) = (S₂.sort l).filter p) ↔ Untied key (l.filter p) := by
  constructor
  · intro h a ha b hb htie
    have heq := h (prefer key a) (prefer key b)
    have hla : ((prefer key a).sort (l.filter p)).Pairwise (before key a) :=
      pairwise_before key a _
    have hlb : ((prefer key b).sort l).Pairwise (before key b) := pairwise_before key b l
    have hmem := (prefer key a).perm (l.filter p)
    apply eq_of_pairwise_before htie (hmem.mem_iff.mpr ha) (hmem.mem_iff.mpr hb) hla
    rw [heq]
    exact hlb.filter p
  · exact fun h => sort_filter_of_untied h

/-- One sort for both inputs: it is free to differ unless the inputs are the same. -/
theorem sort_filter_iff_same : (∀ S : Sorting fun a b => decide (key a < key b),
    S.sort (l.filter p) = (S.sort l).filter p) ↔ Untied key (l.filter p) ∨ l.filter p = l := by
  constructor
  · intro h
    by_cases hsame : l.filter p = l
    · exact Or.inr hsame
    · refine Or.inl (sort_filter_iff.mp fun S₁ S₂ => ?_)
      have hswitch := h (switch (l.filter p) S₁ S₂)
      simpa [switch, Ne.symm hsame] using hswitch
  · rintro (huntied | hsame) S
    · exact sort_filter_of_untied huntied S S
    · rw [hsame]
      have hall : ∀ a ∈ S.sort l, p a = true := by
        intro a ha
        have hmem := (S.perm l).mem_iff.mp ha
        rw [← hsame] at hmem
        exact (List.mem_filter.mp hmem).2
      exact (List.filter_eq_self.mpr hall).symm

end Filter

end Sorting
