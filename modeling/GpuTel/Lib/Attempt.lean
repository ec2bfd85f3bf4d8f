import Mathlib.Data.List.Basic
import Mathlib.Tactic.TypeStar

/-!
# Calls that may fail

An `Attempt` is a piece of code seen from outside: the calls it made, in order, and the error it
ended with. The first error ends a sequence. `Follows` is the rule for such code: what it did so far
is the beginning of a script, and the whole of it if there was no error.
-/

set_option autoImplicit false

@[ext] structure Attempt (κ ε : Type*) where
  calls : List κ
  err : Option ε

namespace Attempt

variable {κ ε δ α β σ : Type*}

def done : Attempt κ ε := ⟨[], none⟩

def call (k : Option ε → κ) (err : Option ε) : Attempt κ ε := ⟨[k err], err⟩

def andThen (a b : Attempt κ ε) : Attempt κ ε :=
  match a.err with
  | none => ⟨a.calls ++ b.calls, b.err⟩
  | some _ => a

/-- `for _, x := range xs { ... }`, left at the first error. -/
def each (f : α → Attempt κ ε) : List α → Attempt κ ε
  | [] => done
  | x :: xs => (f x).andThen (each f xs)

def fail (err : ε) : Attempt κ ε := ⟨[], some err⟩

def mapErr (f : ε → δ) (a : Attempt κ ε) : Attempt κ δ := ⟨a.calls, a.err.map f⟩

/-- `fmt.Errorf` around the error, if there is one. -/
def wrap (f : ε → ε) (a : Attempt κ ε) : Attempt κ ε := { a with err := a.err.map f }

@[simp] theorem wrap_err_eq_none (f : ε → ε) (a : Attempt κ ε) :
    (a.wrap f).err = none ↔ a.err = none := by
  simp [wrap]

/-- The items that a loop gets through, and the one it stops at. -/
def passed (f : α → Attempt κ ε) (xs : List α) : List α := xs.takeWhile fun x => (f x).err.isNone

def stopped (f : α → Attempt κ ε) (xs : List α) : Option α := xs.find? fun x => (f x).err.isSome

/-- A loop makes the calls of the items it gets through and of the one it stops at, and ends with
the error of that one. -/
theorem each_eq (f : α → Attempt κ ε) (xs : List α) : each f xs =
    ⟨(passed f xs ++ (stopped f xs).toList).flatMap fun x => (f x).calls,
      (stopped f xs).bind fun x => (f x).err⟩ := by
  induction xs with
  | nil => rfl
  | cons x xs ih =>
    unfold each andThen passed stopped
    cases herr : (f x).err with
    | none => simp [herr, ih, passed, stopped]
    | some err => simp [herr, Attempt.ext_iff]

theorem mem_calls_andThen {a b : Attempt κ ε} {k : κ} (h : k ∈ (a.andThen b).calls) :
    k ∈ a.calls ∨ k ∈ b.calls := by
  unfold andThen at h
  split at h
  · exact List.mem_append.mp h
  · exact Or.inl h

theorem mem_calls_each {f : α → Attempt κ ε} {xs : List α} {k : κ} (h : k ∈ (each f xs).calls) :
    ∃ x ∈ xs, k ∈ (f x).calls := by
  induction xs with
  | nil => cases h
  | cons x xs ih =>
    rcases mem_calls_andThen h with hx | hxs
    · exact ⟨x, List.mem_cons_self, hx⟩
    · obtain ⟨y, hy, hk⟩ := ih hxs
      exact ⟨y, List.mem_cons_of_mem x hy, hk⟩

/-- The calls that `p` picks out are the beginning of `script`, and all of it unless an error cut
them short. -/
def Follows (p : κ → Option β) (a : Attempt κ ε) (script : List β) : Prop :=
  a.calls.filterMap p <+: script ∧ (a.err = none → a.calls.filterMap p = script)

section Follows

variable {p : κ → Option β} {a b : Attempt κ ε} {as bs : List β}

theorem follows_done : Follows p (done : Attempt κ ε) [] := ⟨List.prefix_rfl, fun _ => rfl⟩

theorem follows_call {k : Option ε → κ} {y : β} (h : ∀ err, p (k err) = some y) (err : Option ε) :
    Follows p (call k err) [y] := by
  simp [Follows, call, h]

theorem follows_call_nil {k : Option ε → κ} (h : ∀ err, p (k err) = none) (err : Option ε) :
    Follows p (call k err) [] := by
  simp [Follows, call, h]

theorem Follows.wrap (h : Follows p a as) (f : ε → ε) : Follows p (a.wrap f) as :=
  ⟨h.1, fun herr => h.2 ((wrap_err_eq_none f a).mp herr)⟩

theorem Follows.andThen (ha : Follows p a as) (hb : Follows p b bs) :
    Follows p (a.andThen b) (as ++ bs) := by
  unfold Attempt.andThen
  split
  · rename_i herr
    simp only [Follows, List.filterMap_append, ha.2 herr]
    exact ⟨(List.prefix_append_right_inj as).mpr hb.1, fun h => by rw [hb.2 h]⟩
  · rename_i err herr
    exact ⟨ha.1.trans (List.prefix_append as bs), fun h => by simp [herr] at h⟩

theorem follows_each {f : α → Attempt κ ε} {g : α → List β} {xs : List α}
    (h : ∀ x ∈ xs, Follows p (f x) (g x)) : Follows p (each f xs) (xs.flatMap g) := by
  induction xs with
  | nil => exact follows_done
  | cons x xs ih =>
    exact (h x List.mem_cons_self).andThen (ih fun y hy => h y (List.mem_cons_of_mem x hy))

end Follows

/-- Every call stands in the relation `P` to the calls before it. -/
def Ordered (P : List κ → κ → Prop) (calls : List κ) : Prop :=
  ∀ before k after, calls = before ++ k :: after → P before k

section Ordered

variable {P : List κ → κ → Prop} {calls calls' : List κ}

theorem ordered_of_forall (h : ∀ k ∈ calls, ∀ before, P before k) : Ordered P calls := by
  intro before k after heq
  exact h k (by rw [heq]; simp) before

theorem Ordered.append (hmore : ∀ front before k, P before k → P (front ++ before) k)
    (h : Ordered P calls) (h' : Ordered P calls') : Ordered P (calls ++ calls') := by
  intro before k after heq
  rcases List.append_eq_append_iff.mp heq with ⟨front, hbefore, hcalls'⟩ | ⟨back, hcalls, hafter⟩
  · rw [hbefore]
    exact hmore calls front k (h' front k after hcalls')
  · cases back with
    | nil =>
      have hempty := hmore before [] k (h' [] k after (by simpa using hafter.symm))
      simpa using hempty
    | cons j back =>
      obtain ⟨rfl, -⟩ := List.cons.inj hafter
      exact h before k back hcalls

theorem ordered_flatMap (hmore : ∀ front before k, P before k → P (front ++ before) k)
    {xs : List α} {f : α → List κ} (h : ∀ x ∈ xs, Ordered P (f x)) : Ordered P (xs.flatMap f) := by
  induction xs with
  | nil => exact ordered_of_forall (by simp)
  | cons x xs ih =>
    exact (h x List.mem_cons_self).append hmore (ih fun y hy => h y (List.mem_cons_of_mem x hy))

end Ordered

/-- Every call is one that `law` allows, in the state that the calls before it lead to. -/
def Lawful (law : σ → κ → Prop) (next : σ → κ → σ) : σ → List κ → Prop
  | _, [] => True
  | s, k :: calls => law s k ∧ Lawful law next (next s k) calls

section Lawful

variable {law : σ → κ → Prop} {next : σ → κ → σ} {s : σ} {calls calls' : List κ}

instance [∀ s k, Decidable (law s k)] : ∀ s calls, Decidable (Lawful law next s calls)
  | _, [] => inferInstanceAs (Decidable True)
  | s, k :: calls =>
    have : Decidable (Lawful law next (next s k) calls) := instDecidableLawful _ _
    inferInstanceAs (Decidable (_ ∧ _))

theorem lawful_append : Lawful law next s (calls ++ calls') ↔
    Lawful law next s calls ∧ Lawful law next (calls.foldl next s) calls' := by
  induction calls generalizing s with
  | nil => simp [Lawful]
  | cons k calls ih => simp only [List.cons_append, Lawful, List.foldl_cons, ih, and_assoc]

theorem lawful_calls_andThen {a b : Attempt κ ε} :
    Lawful law next s (a.andThen b).calls ↔ Lawful law next s a.calls ∧
      (a.err = none → Lawful law next (a.calls.foldl next s) b.calls) := by
  unfold andThen
  split
  · rename_i herr
    simp [lawful_append, herr]
  · rename_i err herr
    simp [herr]

theorem each_of_lawful {f : α → Attempt κ ε} {g : α → List κ} {xs : List α}
    (hround : ∀ x ∈ xs, Lawful law next s (f x).calls →
      f x = ⟨g x, none⟩ ∧ (g x).foldl next s = s)
    (h : Lawful law next s (each f xs).calls) :
    each f xs = ⟨xs.flatMap g, none⟩ ∧ (xs.flatMap g).foldl next s = s := by
  induction xs with
  | nil => exact ⟨rfl, rfl⟩
  | cons x xs ih =>
    obtain ⟨hx, hxs⟩ := lawful_calls_andThen.mp h
    obtain ⟨heq, hstate⟩ := hround x List.mem_cons_self hx
    rw [heq] at hxs
    simp only [hstate, true_implies] at hxs
    obtain ⟨hrest, hstate'⟩ := ih (fun y hy => hround y (List.mem_cons_of_mem x hy)) hxs
    refine ⟨?_, ?_⟩
    · simp only [each, andThen, heq, hrest, List.flatMap_cons]
    · rw [List.flatMap_cons, List.foldl_append, hstate, hstate']

end Lawful

end Attempt
