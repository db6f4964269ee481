import Mathlib.Algebra.BigOperators.Fin

namespace CheckDigits
set_option autoImplicit true

/-- The sum of the digits, each weighted by its distance from the right end. -/
def total [AddCommMonoid M] (w : Nat → α → M) : List α → M
  | [] => 0
  | d :: ds => w ds.length d + total w ds

section Sums

variable [AddCommMonoid M] (w : Nat → α → M)

theorem foldl_reverse (ds : List α) :
    ds.reverse.zipIdx.foldl (fun t d => t + w d.2 d.1) 0 = total w ds := by
  induction ds with
  | nil => rfl
  | cons d ds ih =>
    rw [List.reverse_cons, List.zipIdx_append, List.foldl_append, ih, List.length_reverse,
      Nat.zero_add, total]
    exact add_comm (total w ds) (w ds.length d)

theorem total_map (g : β → α) (ds : List β) :
    total w (ds.map g) = total (fun i d => w i (g d)) ds := by
  induction ds with
  | nil => rfl
  | cons d ds ih => rw [List.map_cons, total, total, ih, List.length_map]

theorem map_total [AddCommMonoid N] (f : M →+ N) (ds : List α) :
    f (total w ds) = total (fun i d => f (w i d)) ds := by
  induction ds with
  | nil => exact map_zero f
  | cons d ds ih => rw [total, total, map_add, ih]

theorem total_eq_sum (ds : List α) :
    total w ds = ∑ i : Fin ds.length, w (ds.length - 1 - i) ds[i] := by
  induction ds with
  | nil => rfl
  | cons d ds ih =>
    have hrest (i : Fin ds.length) : ds.length - 1 - i = ds.length - (i + 1) := by omega
    simp only [hrest] at ih
    rw [total, ih]
    exact (Fin.sum_univ_succ fun i : Fin (ds.length + 1) => w (ds.length - i) (d :: ds)[i]).symm

theorem total_concat (ds : List α) (d : α) :
    total w (ds ++ [d]) = total (fun i => w (i + 1)) ds + w 0 d := by
  induction ds with
  | nil => exact (add_zero (w 0 d)).trans (zero_add (w 0 d)).symm
  | cons e ds ih =>
    rw [List.cons_append, total, total, ih, List.length_append, List.length_singleton, add_assoc]

end Sums

/-- A code adds its digits up after a permutation for each place. -/
structure Code (α : Type u) (G : Type v) where
  weight : Nat → α → G
  bijective : ∀ i, Function.Bijective (weight i)

variable [AddCommGroup G]

theorem total_set_eq_iff (w : Nat → α → G) {ds : List α} (hi : i < ds.length) (d : α) :
    total w (ds.set i d) = total w ds ↔
      w (ds.length - 1 - i) d = w (ds.length - 1 - i) ds[i] := by
  induction ds generalizing i with
  | nil => cases hi
  | cons e ds ih =>
    cases i with
    | zero =>
      rw [List.set_cons_zero, total, total]
      exact add_left_inj _
    | succ i =>
      have hplace : (e :: ds).length - 1 - (i + 1) = ds.length - 1 - i := by
        rw [List.length_cons]
        omega
      rw [List.set_cons_succ, total, total, List.length_set, add_right_inj, hplace]
      exact ih (Nat.lt_of_succ_lt_succ hi)

namespace Code

variable {c : Code α G} {ds : List α}

def Valid (c : Code α G) (ds : List α) : Prop := total c.weight ds = 0

/-- One digit at the right end makes a text valid, and no other. -/
theorem existsUnique_valid_concat (c : Code α G) (ds : List α) : ∃! d, c.Valid (ds ++ [d]) := by
  obtain ⟨d, hd, hunique⟩ :=
    (c.bijective 0).existsUnique (-total (fun i => c.weight (i + 1)) ds)
  have hvalid (e : α) :
      c.Valid (ds ++ [e]) ↔ c.weight 0 e = -total (fun i => c.weight (i + 1)) ds := by
    rw [Valid, total_concat]
    exact add_eq_zero_iff_eq_neg'
  refine ⟨d, (hvalid d).2 hd, ?_⟩
  intro e he
  exact hunique e ((hvalid e).1 he)

/-- One wrong digit is detected, wherever it stands. -/
theorem Valid.not_set (h : c.Valid ds) (hi : i < ds.length) (hd : d ≠ ds[i]) :
    ¬ c.Valid (ds.set i d) := by
  intro hset
  apply hd
  apply (c.bijective (ds.length - 1 - i)).injective
  exact (total_set_eq_iff c.weight hi d).1 (hset.trans h.symm)

end Code

end CheckDigits
