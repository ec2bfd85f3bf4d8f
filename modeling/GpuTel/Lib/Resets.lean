import GpuTel.Lib.Transition

/-!
# Machines that are set back

A machine that is set back every now and then, as a system is when one of its processes crashes and
loses what it held in memory. Between two resets it runs as before. What holds of the runs from the
states that a reset can leave is therefore put together epoch by epoch.
-/

set_option autoImplicit false

namespace Transition

inductive WithReset (ε : Type*) where
  | label (e : ε)
  | reset

namespace Machine

variable {σ ε φ α : Type*}

def resetting (M : Machine σ ε φ) (reset : σ → σ) : Machine σ (WithReset ε) φ where
  guard
    | s, .label e => M.guard s e
    | _, .reset => True
  exec
    | s, .label e => M.exec s e
    | s, .reset => .ok (reset s)

/-- An observer of the labels that notes nothing when the machine is set back. -/
def betweenResets (obs : σ → ε → Option α) : σ → WithReset ε → Option α
  | s, .label e => obs s e
  | _, .reset => none

section Resets

variable {M : Machine σ ε φ} {reset : σ → σ} {s m t : σ} {es : List ε} {rest : List (WithReset ε)}

theorem Run.resetting (reset : σ → σ) (h : M.Run s es t) :
    (M.resetting reset).Run s (es.map .label) t := by
  induction h with
  | nil s => exact .nil s
  | cons hst _ ih => exact .cons hst ih

theorem trace_labels (obs : σ → ε → Option α) (s : σ) (es : List ε) :
    (M.resetting reset).trace (betweenResets obs) s (es.map .label) = M.trace obs s es := by
  induction es generalizing s with
  | nil => rfl
  | cons e es ih =>
    simp only [List.map_cons, trace]
    cases hexec : M.exec s e with
    | error f => simp only [Machine.resetting, hexec, betweenResets]
    | ok t => simp only [Machine.resetting, hexec, betweenResets, ← ih]

theorem trace_epoch (obs : σ → ε → Option α) (h : M.Run s es m) :
    (M.resetting reset).trace (betweenResets obs) s (es.map .label ++ .reset :: rest) =
      M.trace obs s es ++ (M.resetting reset).trace (betweenResets obs) (reset m) rest := by
  have hreset : (M.resetting reset).Step m .reset (reset m) := ⟨trivial, rfl⟩
  rw [(h.resetting reset).trace_append, trace_labels, trace_cons _ hreset]
  rfl

theorem Run.first_epoch (h : (M.resetting reset).Run s rest t) :
    (∃ es, rest = es.map .label ∧ M.Run s es t) ∨
      ∃ es m later, rest = es.map .label ++ .reset :: later ∧ M.Run s es m ∧
        (M.resetting reset).Run (reset m) later t := by
  induction h with
  | nil s => exact Or.inl ⟨[], rfl, .nil s⟩
  | @cons s m t e rest hst hrun ih =>
    cases e with
    | reset =>
      have hm : m = reset s := (Except.ok.inj hst.2).symm
      exact Or.inr ⟨[], s, rest, rfl, .nil s, hm ▸ hrun⟩
    | label e =>
      have hlabel : M.Step s e m := hst
      rcases ih with ⟨es, rfl, hes⟩ | ⟨es, r, later, rfl, hes, hlater⟩
      · exact Or.inl ⟨e :: es, rfl, .cons hlabel hes⟩
      · exact Or.inr ⟨e :: es, r, later, rfl, .cons hlabel hes, hlater⟩

/-- Induction over the epochs: `I` holds of the states that a reset leaves, `P` of the last epoch,
and of an epoch, its reset and the rest of the run if it does of the rest. -/
theorem Run.epochs {I : σ → Prop} {P : σ → List (WithReset ε) → σ → Prop}
    (hreset : ∀ s es m, I s → M.Run s es m → I (reset m))
    (hlast : ∀ s es t, I s → M.Run s es t → P s (es.map .label) t)
    (hmore : ∀ s es m rest t, I s → M.Run s es m → P (reset m) rest t →
      P s (es.map .label ++ .reset :: rest) t)
    (h : (M.resetting reset).Run s rest t) (hs : I s) : P s rest t := by
  induction hlen : rest.length using Nat.strongRecOn generalizing s rest with
  | _ n ih =>
    rcases h.first_epoch with ⟨es, rfl, hes⟩ | ⟨es, m, later, rfl, hes, hlater⟩
    · exact hlast s es t hs hes
    · apply hmore s es m later t hs hes
      apply ih later.length _ hlater (hreset s es m hs hes) rfl
      rw [← hlen, List.length_append, List.length_cons]
      omega

end Resets

end Machine

end Transition
