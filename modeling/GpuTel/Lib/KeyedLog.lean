import GpuTel.Lib.SetMap
import Mathlib.Data.List.Sort

/-!
# Logs grouped by key

A log of records, and the two indexes that are usually kept of it: for each key the records with
that key, and for each key what its last record says. Both are read off the log alone, so an index
never depends on how the records were batched. Last, the sorting of a query result, by any sort that
returns a sorted permutation.
-/

set_option autoImplicit false

namespace KeyedLog

universe u v
variable {α : Type*} {K : Type u} {V : Type v} [DecidableEq K] (key : α → K)

def group (log : List α) (k : K) : List α := log.filter fun a => key a = k

theorem group_snoc (log : List α) (a : α) (k : K) :
    group key (log ++ [a]) k = if k = key a then group key log k ++ [a] else group key log k := by
  by_cases hk : k = key a
  · simp [group, hk]
  · simp [group, hk, Ne.symm hk]

/-- `m` maps every key that occurs to its records. -/
def Grouped (log : List α) (m : Finmap fun _ : K => List α) : Prop :=
  ∀ k, m.lookup k = if group key log k = [] then none else some (group key log k)

/-- `m` maps every key that occurs to the value of its last record. -/
def Latest (value : α → V) (log : List α) (m : Finmap fun _ : K => V) : Prop :=
  ∀ k, m.lookup k = (group key log k).getLast?.map value

theorem grouped_nil : Grouped key ([] : List α) ∅ := fun _ => by simp [group]

theorem latest_nil (value : α → V) : Latest key value ([] : List α) ∅ := fun _ => by simp [group]

variable {key}

theorem Grouped.getD {log : List α} {m : Finmap fun _ : K => List α} (h : Grouped key log m)
    (k : K) : (m.lookup k).getD [] = group key log k := by
  rw [h k]
  split
  · rename_i hnil
    simp [hnil]
  · rfl

theorem Grouped.snoc {log : List α} {m : Finmap fun _ : K => List α} (h : Grouped key log m)
    (a : α) : Grouped key (log ++ [a]) (m.insert (key a) ((m.lookup (key a)).getD [] ++ [a])) := by
  intro k
  rw [Finmap.lookup_insert_eq, group_snoc]
  split
  · rename_i hk
    rw [h.getD, hk]
    simp
  · exact h k

theorem Latest.snoc {value : α → V} {log : List α} {m : Finmap fun _ : K => V}
    (h : Latest key value log m) (a : α) :
    Latest key value (log ++ [a]) (m.insert (key a) (value a)) := by
  intro k
  rw [Finmap.lookup_insert_eq, group_snoc]
  split
  · simp
  · exact h k

theorem Latest.mem_keys {value : α → V} {log : List α} {m : Finmap fun _ : K => V}
    (h : Latest key value log m) (k : K) : k ∈ m.keys ↔ ∃ a ∈ log, key a = k := by
  rw [Finmap.mem_keys, ← Finmap.lookup_isSome, h k]
  simp [group]

def update (key : α → K) (f : Option V → α → V) (m : Finmap fun _ : K => V) (a : α) :
    Finmap fun _ : K => V :=
  m.insert (key a) (f (m.lookup (key a)) a)

theorem lookup_foldl_update (f : Option V → α → V) (log : List α) (m : Finmap fun _ : K => V)
    (k : K) : (log.foldl (update key f) m).lookup k =
      (group key log k).foldl (fun v a => some (f v a)) (m.lookup k) := by
  induction log using List.reverseRecOn with
  | nil => rfl
  | append_singleton log a ih =>
    rw [List.foldl_append, List.foldl_cons, List.foldl_nil, update, Finmap.lookup_insert_eq,
      group_snoc]
    split
    · rename_i hk
      subst hk
      rw [List.foldl_append, List.foldl_cons, List.foldl_nil, ih]
    · exact ih

theorem getD_lookup_foldl_append (log : List α) (m : Finmap fun _ : K => List α) (k : K) :
    ((log.foldl (update key fun old a => old.getD [] ++ [a]) m).lookup k).getD [] =
      (m.lookup k).getD [] ++ group key log k := by
  rw [lookup_foldl_update]
  induction group key log k using List.reverseRecOn with
  | nil => simp
  | append_singleton l a ih =>
    rw [List.foldl_append, List.foldl_cons, List.foldl_nil, Option.getD_some, ih,
      List.append_assoc]

theorem lookup_foldl_last (value : α → V) (log : List α) (m : Finmap fun _ : K => V) (k : K) :
    (log.foldl (update key fun _ a => value a) m).lookup k =
      ((group key log k).getLast?.map value).or (m.lookup k) := by
  rw [lookup_foldl_update]
  cases group key log k using List.reverseRecOn with
  | nil => rfl
  | append_singleton l a => simp

theorem foldl_update_congr (f : Option V → α → V) {log log' : List α}
    (h : ∀ k, group key log k = group key log' k) (m : Finmap fun _ : K => V) :
    log.foldl (update key f) m = log'.foldl (update key f) m := by
  apply Finmap.ext_lookup
  intro k
  rw [lookup_foldl_update, lookup_foldl_update, h k]

end KeyedLog

/-- A sort of which only this is known: it returns a permutation of its input in which no element is
less than one before it. -/
structure Sorting {α : Type*} (less : α → α → Bool) where
  sort : List α → List α
  perm : ∀ l, (sort l).Perm l
  sorted : ∀ l, (sort l).Pairwise fun a b => less b a = false

namespace Sorting

def insertion {α : Type*} (key : α → Int) : Sorting fun a b : α => decide (key a < key b) where
  sort l := l.insertionSort fun a b => key a ≤ key b
  perm l := List.perm_insertionSort _ l
  sorted l := by
    have htotal : Std.Total fun a b : α => key a ≤ key b :=
      ⟨fun a b => Int.le_total (key a) (key b)⟩
    have htrans : IsTrans α fun a b => key a ≤ key b := ⟨fun _ _ _ => Int.le_trans⟩
    exact (List.pairwise_insertionSort _ l).imp (by simp)

end Sorting
