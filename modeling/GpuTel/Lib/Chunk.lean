import Mathlib.Data.List.Basic
import Mathlib.Tactic.TypeStar

/-!
# Slices of bounded length

`chunks b l` cuts `l` into the slices that a loop `for i := 0; i < len(l); i += b` visits. Going on
past the end with the first slice again, the slices of any number of rounds spell out `l` repeated
for ever.
-/

set_option autoImplicit false

namespace Chunk

variable {α : Type*}

/-- How many slices of length `b` it takes to cover `n` elements: `n / b`, rounded up. -/
def count (b n : Nat) : Nat := (n + b - 1) / b

/-- `l[k*b : min(k*b + b, len(l))]` -/
def chunk (b : Nat) (l : List α) (k : Nat) : List α := (l.drop (k * b)).take b

def chunks (b : Nat) (l : List α) : List (List α) := (List.range (count b l.length)).map (chunk b l)

section Count

variable {b n k : Nat} (hb : 0 < b)
include hb

theorem le_count_mul : n ≤ count b n * b := by
  have h := Nat.lt_div_mul_add (a := n + b - 1) hb
  unfold count
  omega

theorem mul_lt_of_lt_count (hk : k < count b n) : k * b < n := by
  have h := (Nat.le_div_iff_mul_le hb).mp (Nat.succ_le_of_lt hk)
  rw [Nat.succ_mul] at h
  omega

theorem lt_count_iff : k < count b n ↔ k * b < n := by
  constructor
  · exact mul_lt_of_lt_count hb
  · intro hlt
    by_contra hge
    have hmul : count b n * b ≤ k * b := Nat.mul_le_mul_right b (Nat.not_lt.mp hge)
    have hall := le_count_mul hb (n := n)
    omega

theorem count_pos (hn : 0 < n) : 0 < count b n := by
  by_contra hzero
  have h := le_count_mul hb (n := n)
  rw [Nat.eq_zero_of_not_pos hzero, Nat.zero_mul] at h
  omega

end Count

theorem length_chunk (b : Nat) (l : List α) (k : Nat) :
    (chunk b l k).length = min b (l.length - k * b) := by
  simp [chunk]

theorem drop_take_eq_chunk (b : Nat) (l : List α) (k : Nat) :
    (l.take (min (k * b + b) l.length)).drop (k * b) = chunk b l k := by
  rw [← List.take_eq_take_min, List.drop_take, Nat.add_sub_cancel_left]
  rfl

theorem length_chunk_le (b : Nat) (l : List α) (k : Nat) : (chunk b l k).length ≤ b := by
  rw [length_chunk]
  exact Nat.min_le_left _ _

theorem chunk_ne_nil {b : Nat} (hb : 0 < b) {l : List α} {k : Nat} (hk : k < count b l.length) :
    chunk b l k ≠ [] := by
  have h := mul_lt_of_lt_count hb hk
  rw [← List.length_pos_iff, length_chunk]
  omega

theorem isInfix_chunk (b : Nat) (l : List α) (k : Nat) : chunk b l k <:+: l := by
  have htake : chunk b l k <+: l.drop (k * b) := List.take_prefix b (l.drop (k * b))
  have hdrop : l.drop (k * b) <:+ l := List.drop_suffix (k * b) l
  exact htake.isInfix.trans hdrop.isInfix

theorem flatMap_chunk (b : Nat) (l : List α) (k : Nat) :
    (List.range k).flatMap (chunk b l) = l.take (k * b) := by
  induction k with
  | zero => simp
  | succ k ih =>
    rw [List.range_succ, List.flatMap_append, ih, Nat.succ_mul, List.take_add]
    simp [chunk]

theorem flatten_chunks {b : Nat} (hb : 0 < b) (l : List α) : (chunks b l).flatten = l := by
  rw [chunks, ← List.flatMap_def, flatMap_chunk]
  exact List.take_of_length_le (le_count_mul hb)

theorem count_succ {b n : Nat} (hb : 0 < b) (hn : 0 < n) : count b n = count b (n - b) + 1 := by
  unfold count
  rcases Nat.le_total b n with hle | hle
  · rw [← Nat.add_div_right _ hb]
    congr 1
    omega
  · rw [Nat.sub_eq_zero_of_le hle, Nat.zero_add, Nat.div_eq_of_lt (Nat.sub_lt hb Nat.one_pos)]
    apply Nat.div_eq_of_lt_le <;> omega

theorem chunk_succ (b : Nat) (l : List α) (k : Nat) :
    chunk b l (k + 1) = chunk b (l.drop b) k := by
  rw [chunk, chunk, List.drop_drop, Nat.succ_mul, Nat.add_comm]

theorem chunks_eq_cons {b : Nat} (hb : 0 < b) {l : List α} (hl : l ≠ []) :
    chunks b l = l.take b :: chunks b (l.drop b) := by
  rw [chunks, count_succ hb (List.length_pos_iff.mpr hl), List.range_succ_eq_map, List.map_cons,
    List.map_map, chunks, List.length_drop]
  congr 1
  · simp [chunk]
  · exact List.map_congr_left fun k _ => chunk_succ b l k

/-- The `j`-th slice when the slices are taken round after round. -/
def cyclic (b : Nat) (l : List α) (j : Nat) : List α := chunk b l (j % count b l.length)

theorem succ_mod {p : Nat} (hp : 0 < p) (m : Nat) :
    (m + 1) % p = if m % p + 1 = p then 0 else m % p + 1 := by
  have hlt := Nat.mod_lt m hp
  rw [Nat.add_mod_eq_ite]
  rcases Nat.lt_or_eq_of_le (Nat.succ_le_of_lt hp) with hone | hone
  · rw [Nat.mod_eq_of_lt hone]
    split <;> split <;> omega
  · subst hone
    simp [Nat.mod_one]

theorem round_eq_chunks (b : Nat) (l : List α) {m q : Nat}
    (hq : (q + 1) * count b l.length ≤ m) :
    (((List.range m).map (cyclic b l)).drop (q * count b l.length)).take (count b l.length) =
      chunks b l := by
  rw [Nat.succ_mul] at hq
  apply List.ext_getElem
  · simp [chunks]
    omega
  · intro i hi hi'
    have hlt : i < count b l.length := by simpa [chunks] using hi'
    simp [chunks, cyclic, Nat.mod_eq_of_lt hlt]

theorem div_lt_count {b n i : Nat} (hb : 0 < b) (hi : i < n) : i / b < count b n := by
  have hsucc : (i + b) / b ≤ count b n := Nat.div_le_div_right (by omega)
  rw [Nat.add_div_right i hb] at hsucc
  omega

theorem getElem?_cyclic {b : Nat} (hb : 0 < b) {l : List α} {i : Nat} (hi : i < l.length)
    (q : Nat) :
    (cyclic b l (q * count b l.length + i / b))[i % b]? = l[i]? := by
  have hslice : (q * count b l.length + i / b) % count b l.length = i / b := by
    rw [Nat.mul_add_mod_self_right, Nat.mod_eq_of_lt (div_lt_count hb hi)]
  rw [cyclic, hslice, chunk, List.getElem?_take, if_pos (Nat.mod_lt i hb), List.getElem?_drop]
  congr 1
  rw [Nat.mul_comm]
  exact Nat.div_add_mod i b

theorem flatMap_cyclic {b : Nat} (hb : 0 < b) {l : List α} (hl : l ≠ []) (m : Nat) :
    (List.range m).flatMap (cyclic b l) =
      (List.replicate (m / count b l.length) l).flatten ++ l.take (m % count b l.length * b) := by
  have hp : 0 < count b l.length := count_pos hb (List.length_pos_iff.mpr hl)
  induction m with
  | zero => simp
  | succ m ih =>
    have hlt := Nat.mod_lt m hp
    rw [List.range_succ, List.flatMap_append, ih, List.append_assoc]
    have hchunk : l.take (m % count b l.length * b) ++ [m].flatMap (cyclic b l) =
        l.take ((m % count b l.length + 1) * b) := by
      rw [Nat.succ_mul, List.take_add]
      simp [cyclic, chunk]
    rw [hchunk]
    have hsplit := Nat.mod_add_div m (count b l.length)
    rcases Nat.lt_or_eq_of_le (Nat.succ_le_of_lt hlt) with hmore | hlast
    · obtain ⟨hdiv, hmod⟩ := (Nat.div_mod_unique hp).mpr ⟨show
        m % count b l.length + 1 + count b l.length * (m / count b l.length) = m + 1 by omega,
        hmore⟩
      rw [hdiv, hmod]
    · obtain ⟨hdiv, hmod⟩ := (Nat.div_mod_unique hp).mpr ⟨show
        0 + count b l.length * (m / count b l.length + 1) = m + 1 by rw [Nat.mul_succ]; omega, hp⟩
      rw [hdiv, hmod, show m % count b l.length + 1 = count b l.length from hlast,
        List.take_of_length_le (le_count_mul hb), List.replicate_succ']
      simp

theorem getElem?_flatten_replicate (q : Nat) (l : List α) {i : Nat} (hi : i < q * l.length) :
    (List.replicate q l).flatten[i]? = l[i % l.length]? := by
  induction q generalizing i with
  | zero => simp at hi
  | succ q ih =>
    rw [List.replicate_succ, List.flatten_cons]
    rcases Nat.lt_or_ge i l.length with hlt | hge
    · rw [List.getElem?_append_left hlt, Nat.mod_eq_of_lt hlt]
    · rw [List.getElem?_append_right hge, Nat.mod_eq_sub_mod hge]
      apply ih
      rw [Nat.succ_mul] at hi
      omega

/-- The slices spell out the list repeated for ever. -/
theorem getElem?_flatMap_cyclic {b : Nat} (hb : 0 < b) {l : List α} (hl : l ≠ []) (m : Nat)
    {i : Nat} (hi : i < ((List.range m).flatMap (cyclic b l)).length) :
    ((List.range m).flatMap (cyclic b l))[i]? = l[i % l.length]? := by
  have hprefix : (List.range m).flatMap (cyclic b l) <+:
      (List.replicate (m / count b l.length + 1) l).flatten := by
    rw [flatMap_cyclic hb hl, List.replicate_succ', List.flatten_append]
    exact (List.prefix_append_right_inj _).mpr (by simpa using List.take_prefix _ l)
  obtain ⟨rest, hrest⟩ := hprefix
  have hlen : ((List.range m).flatMap (cyclic b l)).length ≤
      (m / count b l.length + 1) * l.length := by
    have h := congrArg List.length hrest
    simp only [List.length_append, List.length_flatten, List.map_replicate,
      List.sum_replicate_nat] at h
    omega
  have hfront : ((List.range m).flatMap (cyclic b l) ++ rest)[i]? =
      ((List.range m).flatMap (cyclic b l))[i]? := List.getElem?_append_left hi
  rw [← hfront, hrest]
  exact getElem?_flatten_replicate _ l (Nat.lt_of_lt_of_le hi hlen)

end Chunk
