import Mathlib.Data.Finmap

/-!
# Finite maps, and finite maps of finite sets

Lookups after one update, as a single equation with a case split, and the three operations of a map
whose values are sets: an absent key reads as the empty set.
-/

set_option autoImplicit false

namespace Finmap

universe u v
variable {α : Type u} {V : Type v} [DecidableEq α]

theorem lookup_insert_eq (m : Finmap fun _ : α => V) (a b : α) (v : V) :
    (m.insert a v).lookup b = if b = a then some v else m.lookup b := by
  split
  · rename_i h
    rw [h, lookup_insert]
  · rename_i h
    exact lookup_insert_of_ne m h

theorem lookup_erase_eq (m : Finmap fun _ : α => V) (a b : α) :
    (m.erase a).lookup b = if b = a then none else m.lookup b := by
  split
  · rename_i h
    rw [h, lookup_erase]
  · rename_i h
    exact lookup_erase_ne h

theorem forall₂_lookup (m : Finmap fun _ : α => V) {keys : List α}
    (h : ∀ a ∈ keys, ∃ v, m.lookup a = some v) :
    List.Forall₂ (fun a v => m.lookup a = some v) keys (keys.filterMap m.lookup) := by
  induction keys with
  | nil => exact .nil
  | cons a keys ih =>
    obtain ⟨v, hv⟩ := h a List.mem_cons_self
    have hrest := ih fun b hb => h b (List.mem_cons_of_mem a hb)
    simp only [List.filterMap_cons, hv]
    exact .cons hv hrest

end Finmap

abbrev GoMap (V : Type) := Finmap fun _ : String => V

abbrev SetMap (K : Type*) (A : Type*) := Finmap fun _ : K => Finset A

namespace SetMap

variable {K A : Type*} [DecidableEq K] [DecidableEq A]

def members (m : SetMap K A) (k : K) : Finset A := (m.lookup k).getD ∅

def add (m : SetMap K A) (k : K) (a : A) : SetMap K A := m.insert k (insert a (m.members k))

def remove (m : SetMap K A) (k : K) (a : A) : SetMap K A := m.insert k ((m.members k).erase a)

omit [DecidableEq A] in
@[simp] theorem members_empty (k : K) : (∅ : SetMap K A).members k = ∅ := by
  simp [members]

theorem mem_members_add (m : SetMap K A) (k k' : K) (a x : A) :
    x ∈ (m.add k a).members k' ↔ (k' = k ∧ x = a) ∨ x ∈ m.members k' := by
  unfold add
  by_cases hk : k' = k
  · subst hk
    simp [members]
  · simp [members, hk]

theorem mem_members_remove (m : SetMap K A) (k k' : K) (a x : A) :
    x ∈ (m.remove k a).members k' ↔ x ∈ m.members k' ∧ ¬ (k' = k ∧ x = a) := by
  unfold remove
  by_cases hk : k' = k
  · subst hk
    simp [members, and_comm]
  · simp [members, hk]

def pairs (m : SetMap K A) : Finset (K × A) := m.keys.biUnion fun k => (m.members k).image (k, ·)

theorem mem_pairs (m : SetMap K A) (k : K) (a : A) : (k, a) ∈ m.pairs ↔ a ∈ m.members k := by
  simp only [pairs, Finset.mem_biUnion, Finset.mem_image, Prod.mk.injEq]
  constructor
  · rintro ⟨k', _, a', ha, rfl, rfl⟩
    exact ha
  · intro ha
    refine ⟨k, ?_, a, ha, rfl, rfl⟩
    rw [Finmap.mem_keys, ← Finmap.lookup_isSome]
    cases hk : m.lookup k with
    | none => simp [members, hk] at ha
    | some s => rfl

end SetMap

/-- `order` is one order in which a loop over a finite collection can visit its elements. -/
def Enumerates {A : Type*} (order : List A) (s : Finset A) : Prop :=
  order.Nodup ∧ ∀ a, a ∈ order ↔ a ∈ s

namespace Enumerates

variable {A : Type*} {order : List A} {s : Finset A}

instance [DecidableEq A] : Decidable (Enumerates order s) :=
  decidable_of_iff (order.Nodup ∧ order.toFinset = s) (by simp [Enumerates, Finset.ext_iff])

theorem nodup (h : Enumerates order s) : order.Nodup := h.1

theorem mem_iff (h : Enumerates order s) {a : A} : a ∈ order ↔ a ∈ s := h.2 a

theorem toList (s : Finset A) : Enumerates s.toList s :=
  ⟨s.nodup_toList, fun _ => Finset.mem_toList⟩

theorem filter (h : Enumerates order s) (p : A → Prop) [DecidablePred p] :
    Enumerates (order.filter p) (s.filter p) := by
  refine ⟨h.nodup.filter _, fun a => ?_⟩
  rw [List.mem_filter, Finset.mem_filter, h.mem_iff, decide_eq_true_iff]

theorem length_eq [DecidableEq A] (h : Enumerates order s) : order.length = s.card := by
  have hset : order.toFinset = s := Finset.ext fun a => List.mem_toFinset.trans h.mem_iff
  rw [← hset, List.toFinset_card_of_nodup h.nodup]

end Enumerates
