import Mathlib.Data.List.Sort

set_option autoImplicit true

/-- The lists have the same elements, and those with one key in the same order. -/
def SameTies [DecidableEq κ] (key : α → κ) (l l' : List α) : Prop :=
  ∀ x, l.filter (fun a => key a = x) = l'.filter (fun a => key a = x)

namespace SameTies

section Lists

variable [DecidableEq κ] {key : α → κ} {l l' : List α}

theorem refl (key : α → κ) (l : List α) : SameTies key l l := fun _ => rfl

theorem perm (h : SameTies key l l') : l.Perm l' := by
  classical
  rw [List.perm_iff_count]
  intro a
  have hclass (k : List α) : k.count a = (k.filter fun b => key b = key a).count a :=
    (List.count_filter (p := fun b => decide (key b = key a)) (decide_eq_true rfl)).symm
  rw [hclass l, hclass l', h (key a)]

theorem filter (h : SameTies key l l') (p : α → Bool) : SameTies key (l.filter p) (l'.filter p) := by
  intro x
  rw [List.filter_comm, h x, List.filter_comm]

theorem append (h : SameTies key l l') (k : List α) : SameTies key (l ++ k) (l' ++ k) := by
  intro x
  rw [List.filter_append, List.filter_append, h x]

theorem map (h : SameTies key l l') {f : α → α} (hf : ∀ a, key (f a) = key a) :
    SameTies key (l.map f) (l'.map f) := by
  intro x
  have hclass : ((fun a => decide (key a = x)) ∘ f) = fun a => decide (key a = x) := by
    funext a
    rw [Function.comp_apply, hf]
  rw [List.filter_map, List.filter_map, hclass, h x]

theorem tail (h : SameTies key (a :: l) (a :: l')) : SameTies key l l' := by
  intro x
  have hx := h x
  rw [List.filter_cons, List.filter_cons] at hx
  split at hx
  · exact (List.cons.inj hx).2
  · exact hx

end Lists

variable [LinearOrder κ] {key : α → κ} {l l' : List α}

theorem eq_of_pairwise (h : SameTies key l l') (hl : l.Pairwise fun a b => key b ≤ key a)
    (hl' : l'.Pairwise fun a b => key b ≤ key a) : l = l' := by
  induction l generalizing l' with
  | nil => exact (List.nil_perm.1 h.perm).symm
  | cons a l ih =>
    cases l' with
    | nil => exact List.perm_nil.1 h.perm
    | cons b l' =>
      have hmax {c d : α} {k : List α} (hk : (c :: k).Pairwise fun a b => key b ≤ key a)
          (hd : d ∈ c :: k) : key d ≤ key c := by
        rcases List.mem_cons.1 hd with rfl | hd
        · exact le_rfl
        · exact (List.pairwise_cons.1 hk).1 d hd
      have hkey : key b = key a := by
        apply le_antisymm
        · exact hmax hl (h.perm.mem_iff.2 List.mem_cons_self)
        · exact hmax hl' (h.perm.mem_iff.1 List.mem_cons_self)
      have hhead := h (key a)
      rw [List.filter_cons, List.filter_cons, if_pos (decide_eq_true rfl),
        if_pos (decide_eq_true hkey)] at hhead
      obtain rfl := (List.cons.inj hhead).1
      rw [ih h.tail (List.pairwise_cons.1 hl).2 (List.pairwise_cons.1 hl').2]

theorem pairwise_mergeSort (key : α → κ) (l : List α) :
    (l.mergeSort fun a b => key b ≤ key a).Pairwise fun a b => key b ≤ key a := by
  have hsorted : (l.mergeSort fun a b => key b ≤ key a).Pairwise
      fun a b => decide (key b ≤ key a) = true := by
    apply List.pairwise_mergeSort
    · intro a b c hab hbc
      rw [decide_eq_true_eq] at hab hbc ⊢
      exact hbc.trans hab
    · intro a b
      rw [Bool.or_eq_true, decide_eq_true_eq, decide_eq_true_eq]
      exact le_total _ _
  simpa only [decide_eq_true_eq] using hsorted

theorem mergeSort (key : α → κ) (l : List α) :
    SameTies key (l.mergeSort fun a b => key b ≤ key a) l := by
  intro x
  have hone : (l.filter fun a => key a = x).Pairwise fun a b => decide (key b ≤ key a) = true := by
    apply List.pairwise_of_forall_mem_list
    intro a ha b hb
    rw [of_decide_eq_true (List.mem_filter.1 ha).2, of_decide_eq_true (List.mem_filter.1 hb).2]
    exact decide_eq_true le_rfl
  have hsub : (l.filter fun a => key a = x).Sublist (l.mergeSort fun a b => key b ≤ key a) := by
    apply List.sublist_mergeSort _ _ hone List.filter_sublist
    · simp only [decide_eq_true_eq]
      exact fun a b c hab hbc => hbc.trans hab
    · simp only [Bool.or_eq_true, decide_eq_true_eq]
      exact fun a b => le_total _ _
  have hfilter := hsub.filter fun a => decide (key a = x)
  simp only [List.filter_filter, Bool.and_self] at hfilter
  exact (hfilter.eq_of_length ((List.mergeSort_perm l _).filter _).length_eq.symm).symm

/-- A stable sort by the key makes such lists the same. -/
theorem mergeSort_eq (h : SameTies key l l') :
    l.mergeSort (fun a b => key b ≤ key a) = l'.mergeSort (fun a b => key b ≤ key a) := by
  apply eq_of_pairwise _ (pairwise_mergeSort key l) (pairwise_mergeSort key l')
  intro x
  rw [mergeSort key l x, mergeSort key l' x, h x]

end SameTies
