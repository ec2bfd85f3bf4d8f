import Mathlib.Data.List.Induction
import Mathlib.Tactic.TypeStar

/-!
# Machines with guarded labels

`guard s e` says that the label `e` can occur in the state `s`, `exec s e` what it does there. A
fault is an outcome of `exec` and not a missing transition, so the absence of faults is a theorem
about a machine and never part of its definition.

Labels are executed deterministically. All the nondeterminism of a system is in which labels occur.
-/

set_option autoImplicit false

namespace Transition

structure Machine (σ ε φ : Type*) where
  guard : σ → ε → Prop
  exec : σ → ε → Except φ σ

namespace Machine

variable {σ ε φ α : Type*} (M : Machine σ ε φ)

def Step (s : σ) (e : ε) (t : σ) : Prop := M.guard s e ∧ M.exec s e = .ok t

/-- A finite run, with its labels in the order in which they occur. -/
inductive Run : σ → List ε → σ → Prop where
  | nil (s : σ) : Run s [] s
  | cons {s m t : σ} {e : ε} {es : List ε} : M.Step s e m → Run m es t → Run s (e :: es) t

/-- The state after `es`, if every label is enabled when its turn comes and none faults. -/
def play [∀ s e, Decidable (M.guard s e)] : σ → List ε → Option σ
  | s, [] => some s
  | s, e :: es =>
    if M.guard s e then
      match M.exec s e with
      | .ok t => play t es
      | .error _ => none
    else none

/-- What an observer of single labels notes along a run. -/
def trace (obs : σ → ε → Option α) : σ → List ε → List α
  | _, [] => []
  | s, e :: es =>
    match M.exec s e with
    | .ok t => (obs s e).toList ++ trace obs t es
    | .error _ => (obs s e).toList

def Throughout (P : σ → Prop) (s : σ) (es : List ε) : Prop :=
  ∀ before after m, es = before ++ after → M.Run s before m → P m

def EveryStep (C : σ → ε → Prop) (s : σ) (es : List ε) : Prop :=
  ∀ before e after m, es = before ++ e :: after → M.Run s before m → C m e

variable {M}

theorem Step.det {s t t' : σ} {e : ε} (h : M.Step s e t) (h' : M.Step s e t') : t = t' := by
  have heq := h.2.symm.trans h'.2
  exact Except.ok.inj heq

namespace Run

variable {s m t : σ} {e : ε} {es fs : List ε}

theorem single (h : M.Step s e t) : M.Run s [e] t := .cons h (.nil t)

theorem append (hs : M.Run s es m) (hm : M.Run m fs t) : M.Run s (es ++ fs) t := by
  induction hs with
  | nil => exact hm
  | cons h _ ih => exact .cons h (ih hm)

theorem snoc (hs : M.Run s es m) (h : M.Step m e t) : M.Run s (es ++ [e]) t := hs.append (single h)

theorem nil_iff : M.Run s [] t ↔ t = s := by
  constructor
  · intro h
    cases h
    rfl
  · rintro rfl
    exact .nil _

theorem cons_iff : M.Run s (e :: es) t ↔ ∃ m, M.Step s e m ∧ M.Run m es t := by
  constructor
  · intro h
    cases h with
    | cons hstep hrun => exact ⟨_, hstep, hrun⟩
  · rintro ⟨m, hstep, hrun⟩
    exact .cons hstep hrun

theorem append_iff : M.Run s (es ++ fs) t ↔ ∃ m, M.Run s es m ∧ M.Run m fs t := by
  constructor
  · intro h
    induction es generalizing s with
    | nil => exact ⟨s, .nil s, h⟩
    | cons e es ih =>
      obtain ⟨r, hstep, hrest⟩ := cons_iff.mp h
      obtain ⟨m, hes, hfs⟩ := ih hrest
      exact ⟨m, .cons hstep hes, hfs⟩
  · rintro ⟨m, hes, hfs⟩
    exact hes.append hfs

theorem det {t' : σ} (h : M.Run s es t) (h' : M.Run s es t') : t = t' := by
  induction h with
  | nil => exact (nil_iff.mp h').symm
  | cons hstep _ ih =>
    obtain ⟨r, hstep', hrest⟩ := cons_iff.mp h'
    cases hstep.det hstep'
    exact ih hrest

theorem invariant_on {I : σ → Prop} {L : ε → Prop}
    (hstep : ∀ s e t, L e → I s → M.Step s e t → I t)
    (h : M.Run s es t) (hL : ∀ e ∈ es, L e) (hs : I s) : I t := by
  induction h with
  | nil => exact hs
  | cons hst _ ih =>
    exact ih (fun e he => hL e (List.mem_cons_of_mem _ he))
      (hstep _ _ _ (hL _ List.mem_cons_self) hs hst)

theorem invariant {I : σ → Prop} (hstep : ∀ s e t, I s → M.Step s e t → I t)
    (h : M.Run s es t) (hs : I s) : I t :=
  h.invariant_on (L := fun _ => True) (fun s e t _ => hstep s e t) (fun _ _ => trivial) hs

/-- Induction from the end of the run: facts that relate a state to the whole history before it. -/
theorem history {H : List ε → σ → Prop} (h : M.Run s es t) (h0 : H [] s)
    (hstep : ∀ es m e t, M.Run s es m → H es m → M.Step m e t → H (es ++ [e]) t) : H es t := by
  induction es using List.reverseRecOn generalizing t with
  | nil =>
    rw [nil_iff.mp h]
    exact h0
  | append_singleton es e ih =>
    obtain ⟨m, hes, he⟩ := append_iff.mp h
    obtain ⟨r, hst, hr⟩ := cons_iff.mp he
    rw [nil_iff.mp hr]
    exact hstep es m e r hes (ih hes) hst

theorem trace_append (obs : σ → ε → Option α) (h : M.Run s es m) (fs : List ε) :
    M.trace obs s (es ++ fs) = M.trace obs s es ++ M.trace obs m fs := by
  induction h with
  | nil => rfl
  | cons hst _ ih => simp only [List.cons_append, trace, hst.2, ih, List.append_assoc]

theorem trace_snoc (obs : σ → ε → Option α) (h : M.Run s es m) (hst : M.Step m e t) :
    M.trace obs s (es ++ [e]) = M.trace obs s es ++ (obs m e).toList := by
  rw [h.trace_append obs]
  simp only [trace, hst.2, List.append_nil]

end Run

theorem run_of_play [∀ s e, Decidable (M.guard s e)] {s t : σ} {es : List ε}
    (h : M.play s es = some t) : M.Run s es t := by
  induction es generalizing s with
  | nil =>
    rw [← Option.some.inj h]
    exact .nil s
  | cons e es ih =>
    unfold play at h
    split at h
    · rename_i hg
      cases hexec : M.exec s e with
      | error f => simp [hexec] at h
      | ok m =>
        rw [hexec] at h
        exact .cons ⟨hg, hexec⟩ (ih h)
    · cases h

/-- A concrete run, and a property of the state it ends in, by evaluation. -/
theorem exists_run [∀ s e, Decidable (M.guard s e)] (P : σ → Prop) [DecidablePred P] (s : σ)
    (es : List ε) (h : (M.play s es).any (fun t => decide (P t)) = true) :
    ∃ t, M.Run s es t ∧ P t := by
  cases hplay : M.play s es with
  | none => simp [hplay] at h
  | some t =>
    rw [hplay] at h
    exact ⟨t, run_of_play hplay, by simpa using h⟩

theorem exists_run_run [∀ s e, Decidable (M.guard s e)] (P : σ → σ → Prop)
    [∀ m t, Decidable (P m t)] (s : σ) (es fs : List ε)
    (h : (M.play s es).any (fun m => (M.play m fs).any fun t => decide (P m t)) = true) :
    ∃ m t, M.Run s es m ∧ M.Run m fs t ∧ P m t := by
  cases hm : M.play s es with
  | none => simp [hm] at h
  | some m =>
    rw [hm, Option.any_some] at h
    obtain ⟨t, ht, hP⟩ := exists_run (P m) m fs h
    exact ⟨m, t, run_of_play hm, ht, hP⟩

theorem trace_cons {s t : σ} {e : ε} (obs : σ → ε → Option α) (h : M.Step s e t) (es : List ε) :
    M.trace obs s (e :: es) = (obs s e).toList ++ M.trace obs t es := by
  simp only [trace, h.2]

theorem filterMap_toList {β : Type*} (o : Option α) (f : α → Option β) :
    o.toList.filterMap f = (o.bind f).toList := by
  cases o with
  | none => rfl
  | some a => cases hf : f a <;> simp [hf]

theorem trace_bind {β : Type*} (obs : σ → ε → Option α) (f : α → Option β) (s : σ) (es : List ε) :
    M.trace (fun s e => (obs s e).bind f) s es = (M.trace obs s es).filterMap f := by
  induction es generalizing s with
  | nil => rfl
  | cons e es ih =>
    unfold trace
    cases M.exec s e with
    | error fault => exact (filterMap_toList (obs s e) f).symm
    | ok t => simp only [ih, List.filterMap_append, filterMap_toList]

theorem Run.mem_trace {s t : σ} {es : List ε} {obs : σ → ε → Option α} {a : α}
    (h : M.Run s es t) (ha : a ∈ M.trace obs s es) :
    ∃ before e after m, es = before ++ e :: after ∧ M.Run s before m ∧ obs m e = some a := by
  induction h with
  | nil => simp [trace] at ha
  | @cons s m t e es hst _ ih =>
    rw [trace_cons obs hst] at ha
    rcases List.mem_append.mp ha with ha | ha
    · exact ⟨[], e, es, s, rfl, .nil s, by simpa using ha⟩
    · obtain ⟨before, f, after, r, rfl, hrun, hobs⟩ := ih ha
      exact ⟨e :: before, f, after, r, rfl, .cons hst hrun, hobs⟩

/-- What a state holds was there at the beginning, or has come in one of the steps. -/
theorem Run.held_or_came (held : σ → α → Prop) (came : ε → α → Prop)
    (hstep : ∀ s e t a, M.Step s e t → held t a → held s a ∨ came e a) {s t : σ} {es : List ε}
    (h : M.Run s es t) {a : α} (ha : held t a) : held s a ∨ ∃ e ∈ es, came e a := by
  induction h with
  | nil => exact Or.inl ha
  | @cons s m t e es hst _ ih =>
    rcases ih ha with hm | ⟨f, hf, hcame⟩
    · rcases hstep s e m a hst hm with hs | hcame
      · exact Or.inl hs
      · exact Or.inr ⟨e, List.mem_cons_self, hcame⟩
    · exact Or.inr ⟨f, List.mem_cons_of_mem e hf, hcame⟩

theorem Run.step_of_mem_trace {s t : σ} {es : List ε} {obs : σ → ε → Option α} {a : α}
    (h : M.Run s es t) (ha : a ∈ M.trace obs s es) :
    ∃ before e after m r, es = before ++ e :: after ∧ M.Run s before m ∧ M.Step m e r ∧
      M.Run r after t ∧ obs m e = some a := by
  obtain ⟨before, e, after, m, rfl, hbefore, hobs⟩ := h.mem_trace ha
  obtain ⟨m', hm', hrest⟩ := Run.append_iff.mp h
  obtain rfl := hm'.det hbefore
  obtain ⟨r, hst, hafter⟩ := Run.cons_iff.mp hrest
  exact ⟨before, e, after, m', r, rfl, hbefore, hst, hafter, hobs⟩

theorem Run.mem_trace_of_obs {s m t : σ} {before after : List ε} {e : ε} {obs : σ → ε → Option α}
    {a : α} (h : M.Run s (before ++ e :: after) t) (hm : M.Run s before m)
    (hobs : obs m e = some a) :
    a ∈ M.trace obs s (before ++ e :: after) := by
  obtain ⟨m', hm', hrest⟩ := Run.append_iff.mp h
  obtain rfl := hm'.det hm
  obtain ⟨r, hst, -⟩ := Run.cons_iff.mp hrest
  rw [hm.trace_append, trace_cons obs hst, hobs]
  simp

theorem Run.trace_congr {s t : σ} {es : List ε} {obs obs' : σ → ε → Option α} (h : M.Run s es t)
    (heq : ∀ before e after m, es = before ++ e :: after → M.Run s before m →
      M.Run m (e :: after) t → obs m e = obs' m e) : M.trace obs s es = M.trace obs' s es := by
  induction h with
  | nil => rfl
  | @cons s m t e es hst hrun ih =>
    rw [trace_cons obs hst, trace_cons obs' hst, heq [] e es s rfl (.nil s) (.cons hst hrun), ih]
    intro before f after r hes hbefore hrest
    exact heq (e :: before) f after r (by rw [hes]; rfl) (.cons hst hbefore) hrest

theorem Run.trace_sublist {s t : σ} {es : List ε} {obs obs' : σ → ε → Option α} (h : M.Run s es t)
    (hsub : ∀ before e after m a, es = before ++ e :: after → M.Run s before m →
      M.Run m (e :: after) t → obs m e = some a → obs' m e = some a) :
    (M.trace obs s es).Sublist (M.trace obs' s es) := by
  induction h with
  | nil => exact .slnil
  | @cons s m t e es hst hrun ih =>
    rw [trace_cons obs hst, trace_cons obs' hst]
    have hrest : (M.trace obs m es).Sublist (M.trace obs' m es) := by
      apply ih
      intro before f after r a hes hbefore hafter
      exact hsub (e :: before) f after r a (by rw [hes]; rfl) (.cons hst hbefore) hafter
    apply List.Sublist.append _ hrest
    cases hobs : obs s e with
    | none => exact List.nil_sublist _
    | some a =>
      have hnoted := hsub [] e es s a rfl (.nil s) (.cons hst hrun) hobs
      exact hnoted.symm ▸ List.Sublist.refl _

section Conditions

variable {P : σ → Prop} {C : σ → ε → Prop} {s m t : σ} {e : ε} {es : List ε}

theorem throughout_nil : M.Throughout P s [] ↔ P s := by
  constructor
  · intro h
    exact h [] [] s rfl (.nil s)
  · intro h before after m hes hrun
    obtain ⟨rfl, -⟩ := List.append_eq_nil_iff.mp hes.symm
    rw [Run.nil_iff.mp hrun]
    exact h

theorem throughout_cons (hst : M.Step s e m) :
    M.Throughout P s (e :: es) ↔ P s ∧ M.Throughout P m es := by
  constructor
  · intro h
    refine ⟨h [] (e :: es) s rfl (.nil s), ?_⟩
    intro before after r hes hrun
    exact h (e :: before) after r (by rw [hes]; rfl) (.cons hst hrun)
  · rintro ⟨hs, hm⟩ before after r hes hrun
    cases before with
    | nil =>
      rw [Run.nil_iff.mp hrun]
      exact hs
    | cons f before =>
      obtain ⟨rfl, hes'⟩ := List.cons.inj hes
      obtain ⟨m', hst', hrest⟩ := Run.cons_iff.mp hrun
      cases hst.det hst'
      exact hm before after r hes' hrest

def holdsAlong (M : Machine σ ε φ) (P : σ → Prop) [DecidablePred P] : σ → List ε → Bool
  | s, [] => P s
  | s, e :: es =>
    P s && match M.exec s e with
    | .ok t => M.holdsAlong P t es
    | .error _ => true

theorem throughout_of_holdsAlong [DecidablePred P] (h : M.holdsAlong P s es = true) :
    M.Throughout P s es := by
  induction es generalizing s with
  | nil => exact throughout_nil.mpr (of_decide_eq_true h)
  | cons e es ih =>
    unfold holdsAlong at h
    obtain ⟨hs, hrest⟩ := Bool.and_eq_true_iff.mp h
    intro before after m hes hrun
    cases before with
    | nil =>
      rw [Run.nil_iff.mp hrun]
      exact of_decide_eq_true hs
    | cons f before =>
      obtain ⟨rfl, hes'⟩ := List.cons.inj hes
      obtain ⟨m', hst, hafter⟩ := Run.cons_iff.mp hrun
      rw [hst.2] at hrest
      exact ih hrest before after m hes' hafter

theorem EveryStep.of_append {fs : List ε} (h : M.EveryStep C s (es ++ fs)) :
    M.EveryStep C s es := by
  intro before e after m hes hrun
  exact h before e (after ++ fs) m (by rw [hes]; simp) hrun

theorem EveryStep.last (h : M.EveryStep C s (es ++ [e])) (hrun : M.Run s es m) : C m e :=
  h es e [] m rfl hrun

theorem everyStep_nil : M.EveryStep C s [] := by
  intro before e after m hes
  simp at hes

theorem everyStep_cons (hst : M.Step s e m) :
    M.EveryStep C s (e :: es) ↔ C s e ∧ M.EveryStep C m es := by
  constructor
  · intro h
    refine ⟨h [] e es s rfl (.nil s), ?_⟩
    intro before f after r hes hrun
    exact h (e :: before) f after r (by rw [hes]; rfl) (.cons hst hrun)
  · rintro ⟨hs, hm⟩ before f after r hes hrun
    cases before with
    | nil =>
      obtain ⟨rfl, -⟩ := List.cons.inj hes
      rw [Run.nil_iff.mp hrun]
      exact hs
    | cons g before =>
      obtain ⟨rfl, hes'⟩ := List.cons.inj hes
      obtain ⟨m', hst', hrest⟩ := Run.cons_iff.mp hrun
      cases hst.det hst'
      exact hm before f after r hes' hrest

theorem Run.everyStep_congr {D : σ → ε → Prop} (hrun : M.Run s es t)
    (h : ∀ before m e m', M.Run s before m → M.Step m e m' → (C m e ↔ D m e)) :
    M.EveryStep C s es ↔ M.EveryStep D s es := by
  have hstep : ∀ before e after m, es = before ++ e :: after → M.Run s before m →
      (C m e ↔ D m e) := by
    rintro before e after m rfl hbefore
    obtain ⟨r, hr, hrest⟩ := append_iff.mp hrun
    obtain rfl := hr.det hbefore
    obtain ⟨m', hst, -⟩ := cons_iff.mp hrest
    exact h before r e m' hbefore hst
  constructor
  · intro hC before e after m hes hbefore
    exact (hstep before e after m hes hbefore).mp (hC before e after m hes hbefore)
  · intro hD before e after m hes hbefore
    exact (hstep before e after m hes hbefore).mpr (hD before e after m hes hbefore)

/-- If, from a good state, exactly the steps meeting `C` lead to a good state again, then a run
stays good throughout if and only if all its steps meet `C`. `I` is an invariant the argument may
use. -/
theorem throughout_iff_everyStep {I : σ → Prop} {L : ε → Prop}
    (hI : ∀ s e t, L e → I s → M.Step s e t → I t)
    (hP : ∀ s e t, L e → I s → P s → M.Step s e t → (P t ↔ C s e))
    (h : M.Run s es t) (hL : ∀ e ∈ es, L e) (hIs : I s) (hPs : P s) :
    M.Throughout P s es ↔ M.EveryStep C s es := by
  induction h with
  | nil => exact ⟨fun _ => everyStep_nil, fun _ => throughout_nil.mpr hPs⟩
  | @cons s m t e es hst hrun ih =>
    have hLe : L e := hL e List.mem_cons_self
    have hLes : ∀ f ∈ es, L f := fun f hf => hL f (List.mem_cons_of_mem e hf)
    have hIm : I m := hI s e m hLe hIs hst
    rw [throughout_cons hst, everyStep_cons hst]
    constructor
    · rintro ⟨_, hm⟩
      have hPm : P m := hm [] es m rfl (.nil m)
      exact ⟨(hP s e m hLe hIs hPs hst).mp hPm, (ih hLes hIm hPm).mp hm⟩
    · rintro ⟨hC, hes⟩
      have hPm : P m := (hP s e m hLe hIs hPs hst).mpr hC
      exact ⟨hPs, (ih hLes hIm hPm).mpr hes⟩

end Conditions

section Work

variable {P I : σ → Prop} {L : ε → Prop} {w : σ → Nat} {s t : σ} {es : List ε}

/-- Every label in `L` does a piece of work, and whatever is noted brings `n` new ones. -/
theorem Run.count_add_work [DecidablePred L] {obs : σ → ε → Option α} {n : Nat}
    (hI : ∀ s e t, I s → M.Step s e t → I t)
    (hstep : ∀ s e t, I s → P s → P t → M.Step s e t →
      w t + (if L e then 1 else 0) = w s + n * (obs s e).toList.length)
    (h : M.Run s es t) (hs : I s) (hP : M.Throughout P s es) :
    es.countP (fun e => L e) + w t = w s + n * (M.trace obs s es).length := by
  induction h with
  | nil => simp [trace]
  | @cons s m t e es hst hrun ih =>
    obtain ⟨hPs, hrest⟩ := (throughout_cons hst).mp hP
    have hPm : P m := hrest [] es m rfl (.nil m)
    have hone := hstep s e m hs hPs hPm hst
    have hmany := ih (hI s e m hs hst) hrest
    rw [List.countP_cons, trace_cons obs hst, List.length_append, Nat.mul_add]
    simp only [decide_eq_true_eq]
    omega

/-- No label in `K` makes work, and those in `L` each do at least one piece of it. -/
theorem Run.count_add_work_le [DecidablePred L] {K : ε → Prop}
    (hstep : ∀ s e t, K e → I s → M.Step s e t → I t ∧ w t + (if L e then 1 else 0) ≤ w s)
    (h : M.Run s es t) (hK : ∀ e ∈ es, K e) (hs : I s) :
    I t ∧ es.countP (fun e => L e) + w t ≤ w s := by
  induction h with
  | nil => exact ⟨hs, by simp⟩
  | @cons s m t e es hst _ ih =>
    obtain ⟨he, hes⟩ := List.forall_mem_cons.mp hK
    obtain ⟨hm, hone⟩ := hstep s e m he hs hst
    obtain ⟨ht, hmany⟩ := ih hes hm
    refine ⟨ht, ?_⟩
    rw [List.countP_cons]
    simp only [decide_eq_true_eq]
    omega

/-- If a label in `L` can occur as long as there is work left, all of it can be done. -/
theorem exists_run_of_work
    (hstep : ∀ s e t, L e → I s → M.Step s e t → I t ∧ w t + 1 = w s)
    (hprogress : ∀ s, I s → w s ≠ 0 → ∃ e t, L e ∧ M.Step s e t) (hs : I s) :
    ∃ es t, M.Run s es t ∧ (∀ e ∈ es, L e) ∧ es.length = w s ∧ I t ∧ w t = 0 := by
  induction hwork : w s generalizing s with
  | zero => exact ⟨[], s, .nil s, List.forall_mem_nil L, rfl, hs, hwork⟩
  | succ n ih =>
    obtain ⟨e, m, he, hst⟩ := hprogress s hs (by omega)
    obtain ⟨hm, hless⟩ := hstep s e m he hs hst
    obtain ⟨es, t, hrun, hes, hlen, ht, hdone⟩ := ih hm (by omega)
    refine ⟨e :: es, t, .cons hst hrun, ?_, by rw [List.length_cons, hlen], ht, hdone⟩
    exact List.forall_mem_cons.mpr ⟨he, hes⟩

/-- If, until `Q` holds, a label in `L` can occur and each of them is progress, then `Q` can be
reached by them. -/
theorem exists_run_of_progress {Q : σ → Prop}
    (hstep : ∀ s e t, L e → I s → M.Step s e t → I t ∧ w t + 1 ≤ w s)
    (hprogress : ∀ s, I s → ¬ Q s → ∃ e t, L e ∧ M.Step s e t) (hs : I s) :
    ∃ es t, M.Run s es t ∧ (∀ e ∈ es, L e) ∧ es.length ≤ w s ∧ I t ∧ Q t := by
  induction hwork : w s using Nat.strongRecOn generalizing s with
  | _ n ih =>
    by_cases hQ : Q s
    · exact ⟨[], s, .nil s, List.forall_mem_nil L, Nat.zero_le n, hs, hQ⟩
    · obtain ⟨e, m, he, hst⟩ := hprogress s hs hQ
      obtain ⟨hm, hless⟩ := hstep s e m he hs hst
      obtain ⟨es, t, hrun, hes, hlen, ht, hdone⟩ := ih (w m) (by omega) hm rfl
      refine ⟨e :: es, t, .cons hst hrun, List.forall_mem_cons.mpr ⟨he, hes⟩, ?_, ht, hdone⟩
      rw [List.length_cons]
      omega

end Work

/-- `H` holds between every state a run passes through and the labels that led to it. -/
def Always (H : List ε → σ → Prop) (s : σ) (es : List ε) : Prop :=
  ∀ before after m, es = before ++ after → M.Run s before m → H before m

def EachStep (C : List ε → σ → ε → Prop) (s : σ) (es : List ε) : Prop :=
  ∀ before e after m, es = before ++ e :: after → M.Run s before m → C before m e

section History

variable {M : Machine σ ε φ} {H : List ε → σ → Prop} {C : List ε → σ → ε → Prop}
variable {s m t : σ} {e : ε} {es : List ε}

theorem Always.holds (h : M.Always H s es) (hrun : M.Run s es t) : H es t :=
  h es [] t (List.append_nil es).symm hrun

theorem always_nil : M.Always H s [] ↔ H [] s := by
  constructor
  · intro h
    exact h.holds (.nil s)
  · intro h before after m hes hrun
    obtain ⟨rfl, -⟩ := List.append_eq_nil_iff.mp hes.symm
    rw [Run.nil_iff.mp hrun]
    exact h

theorem always_snoc (hrun : M.Run s (es ++ [e]) t) :
    M.Always H s (es ++ [e]) ↔ M.Always H s es ∧ H (es ++ [e]) t := by
  constructor
  · intro h
    refine ⟨?_, h.holds hrun⟩
    intro before after m hes hbefore
    exact h before (after ++ [e]) m (by rw [hes, List.append_assoc]) hbefore
  · rintro ⟨h, ht⟩ before after m hes hbefore
    induction after using List.reverseRecOn with
    | nil =>
      rw [List.append_nil] at hes
      subst hes
      rw [hbefore.det hrun]
      exact ht
    | append_singleton after f _ =>
      rw [← List.append_assoc] at hes
      obtain ⟨rfl, -⟩ := List.append_inj' hes rfl
      exact h before after m rfl hbefore

theorem eachStep_nil : M.EachStep C s [] := by
  intro before e after m hes
  simp at hes

theorem eachStep_snoc (hrun : M.Run s es m) :
    M.EachStep C s (es ++ [e]) ↔ M.EachStep C s es ∧ C es m e := by
  constructor
  · intro h
    refine ⟨?_, h es e [] m rfl hrun⟩
    intro before f after r hes hbefore
    exact h before f (after ++ [e]) r (by rw [hes]; simp) hbefore
  · rintro ⟨h, he⟩ before f after r hes hbefore
    induction after using List.reverseRecOn with
    | nil =>
      obtain ⟨rfl, hf⟩ := List.append_inj' hes rfl
      obtain rfl := List.singleton_inj.mp hf
      rw [hbefore.det hrun]
      exact he
    | append_singleton after g _ =>
      rw [← List.cons_append, ← List.append_assoc] at hes
      obtain ⟨rfl, -⟩ := List.append_inj' hes rfl
      exact h before f after r rfl hbefore

/-- If exactly the steps meeting `C` keep `H`, then `H` holds all along a run if and only if each of
its steps meets `C`. -/
theorem always_iff_eachStep {L : ε → Prop} (h0 : H [] s)
    (hstep : ∀ es m e t, M.Run s es m → (∀ f ∈ es, L f) → L e → H es m → M.Step m e t →
      (H (es ++ [e]) t ↔ C es m e))
    (hrun : M.Run s es t) (hL : ∀ e ∈ es, L e) : M.Always H s es ↔ M.EachStep C s es := by
  induction es using List.reverseRecOn generalizing t with
  | nil => exact iff_of_true (always_nil.mpr h0) eachStep_nil
  | append_singleton es e ih =>
    obtain ⟨m, hes, he⟩ := Run.append_iff.mp hrun
    obtain ⟨r, hst, hr⟩ := Run.cons_iff.mp he
    obtain rfl := Run.nil_iff.mp hr
    have hLes : ∀ f ∈ es, L f := fun f hf => hL f (List.mem_append_left [e] hf)
    have hLe : L e := hL e (List.mem_append_right es (List.mem_singleton_self e))
    rw [always_snoc hrun, eachStep_snoc hes, ← ih hes hLes]
    apply and_congr_right
    intro h
    exact hstep es m e t hes hLes hLe (h.holds hes) hst

end History

end Machine

/-- Two machines in lockstep: what relates the states before related labels relates them after. -/
theorem Machine.Run.lockstep {σ ε τ δ φ : Type*} {M : Machine σ ε φ} {N : Machine τ δ φ}
    {R : σ → τ → Prop} {E : ε → δ → Prop}
    (hstep : ∀ s e t s' e', R s s' → E e e' → M.Step s e t → ∃ t', N.Step s' e' t' ∧ R t t')
    {s t : σ} {s' : τ} {es : List ε} {es' : List δ} (h : M.Run s es t) (hs : R s s')
    (hes : List.Forall₂ E es es') : ∃ t', N.Run s' es' t' ∧ R t t' := by
  induction h generalizing s' es' with
  | nil s =>
    cases hes
    exact ⟨s', .nil s', hs⟩
  | @cons s m t e es hst _ ih =>
    cases hes with
    | cons he hes =>
      obtain ⟨m', hst', hm⟩ := hstep s e m s' _ hs he hst
      obtain ⟨t', hrun, ht⟩ := ih hm hes
      exact ⟨t', .cons hst' hrun, ht⟩

/-- Each step of `M` is a step of `N` or leaves the state of `N` as it is. -/
structure Simulation {σ ε τ δ φ : Type*} (M : Machine σ ε φ) (N : Machine τ δ φ) where
  state : σ → τ
  label : σ → ε → Option δ
  stutter : ∀ {s e t}, M.Step s e t → label s e = none → state t = state s
  step : ∀ {s e t d}, M.Step s e t → label s e = some d → N.Step (state s) d (state t)

namespace Simulation

variable {σ ε τ δ φ α : Type*} {M : Machine σ ε φ} {N : Machine τ δ φ}
variable (S : Simulation M N) {s t : σ} {es : List ε}

theorem run (h : M.Run s es t) : N.Run (S.state s) (M.trace S.label s es) (S.state t) := by
  induction h with
  | nil s => exact .nil _
  | @cons s m t e es hst _ ih =>
    rw [Machine.trace_cons S.label hst]
    cases hd : S.label s e with
    | none =>
      rw [S.stutter hst hd] at ih
      exact ih
    | some d => exact .cons (S.step hst hd) ih

/-- An observer of the labels of `N` can as well watch the run of `M`. -/
theorem trace (h : M.Run s es t) (obs : τ → δ → Option α) :
    N.trace obs (S.state s) (M.trace S.label s es) =
      M.trace (fun s e => (S.label s e).bind (obs (S.state s))) s es := by
  induction h with
  | nil s => rfl
  | @cons s m t e es hst _ ih =>
    rw [Machine.trace_cons S.label hst, Machine.trace_cons _ hst, ← ih]
    cases hd : S.label s e with
    | none =>
      rw [S.stutter hst hd]
      rfl
    | some d =>
      exact Machine.trace_cons obs (S.step hst hd) _

def trans {υ ζ : Type*} {K : Machine υ ζ φ} (T : Simulation N K) : Simulation M K where
  state s := T.state (S.state s)
  label s e := (S.label s e).bind (T.label (S.state s))
  stutter := by
    intro s e t hst hlabel
    cases hd : S.label s e with
    | none => rw [S.stutter hst hd]
    | some d =>
      rw [hd, Option.bind_some] at hlabel
      exact T.stutter (S.step hst hd) hlabel
  step := by
    intro s e t d hst hlabel
    obtain ⟨c, hc, hd⟩ := Option.bind_eq_some_iff.mp hlabel
    exact T.step (S.step hst hc) hd

end Simulation

end Transition
