import Mathlib.Data.List.Perm.Basic
import Mathlib.Order.Lattice

namespace KeyOrder
set_option autoImplicit true

variable [LinearOrder κ] {key : α → κ} {l front back : List α} {x y : α}

def Descending (key : α → κ) (l : List α) : Prop := l.Pairwise fun a b => key b ≤ key a

theorem Descending.filter_append (h : Descending key l) {p : α → Bool}
    (hp : ∀ a b, key b ≤ key a → p b → p a) : l.filter p ++ l.filter (fun a => !p a) = l := by
  induction l with
  | nil => rfl
  | cons a l ih =>
    obtain ⟨ha, hl⟩ := List.pairwise_cons.1 h
    cases hpa : p a with
    | true =>
      rw [List.filter_cons_of_pos hpa, List.filter_cons_of_neg (by simp [hpa]), List.cons_append,
        ih hl]
    | false =>
      have hnone : ∀ b ∈ l, p b = false := by
        intro b hb
        rw [← Bool.not_eq_true]
        intro hpb
        rw [hp a b (ha b hb) hpb] at hpa
        cases hpa
      have hfront : l.filter p = [] := List.filter_eq_nil_iff.2 fun b hb => by simp [hnone b hb]
      have hback : l.filter (fun b => !p b) = l := List.filter_eq_self.2 fun b hb => by
        simp [hnone b hb]
      rw [List.filter_cons_of_neg (by simp [hpa]), List.filter_cons_of_pos (by simp [hpa]), hfront,
        hback, List.nil_append]

/-- Where the keys fall, every order of the elements by key is cut into the same two parts. -/
theorem Descending.perm_of_gap (h : Descending key l) (hp : l.Perm (front ++ back))
    (hgap : ∀ a ∈ front, ∀ b ∈ back, key b < key a) :
    (l.take front.length).Perm front ∧ (l.drop front.length).Perm back := by
  let above (a : α) : Bool := back.all fun b => key b < key a
  have hup : ∀ a b, key b ≤ key a → above b → above a := by
    intro a b hab hb
    simp only [above, List.all_eq_true, decide_eq_true_eq] at hb ⊢
    exact fun c hc => lt_of_lt_of_le (hb c hc) hab
  have hsplit := h.filter_append hup
  have hfront : front.filter above = front := by
    apply List.filter_eq_self.2
    intro a ha
    simpa only [above, List.all_eq_true, decide_eq_true_eq] using hgap a ha
  have hback : back.filter above = [] := by
    apply List.filter_eq_nil_iff.2
    intro b hb hab
    simp only [above, List.all_eq_true, decide_eq_true_eq] at hab
    exact lt_irrefl _ (hab b hb)
  have hperm : (l.filter above).Perm front := by
    have hfilter := hp.filter above
    rwa [List.filter_append, hfront, hback, List.append_nil] at hfilter
  have htake : l.take front.length = l.filter above := by
    have hleft : (l.filter above ++ l.filter fun a => !above a).take front.length =
        l.filter above := List.take_left' hperm.length_eq
    rwa [hsplit] at hleft
  have hpart : (l.take front.length).Perm front := by
    rw [htake]
    exact hperm
  refine ⟨hpart, ?_⟩
  rw [← List.take_append_drop front.length l] at hp
  exact (List.perm_append_left_iff front).1 ((hpart.symm.append_right _).trans hp)

theorem Descending.swap (h : Descending key (front ++ x :: y :: back)) (hkey : key x = key y) :
    Descending key (front ++ y :: x :: back) := by
  rw [Descending, List.pairwise_append, List.pairwise_cons, List.pairwise_cons] at h ⊢
  obtain ⟨hfront, ⟨hx, hy, hback⟩, hcross⟩ := h
  refine ⟨hfront, ⟨?_, ?_, hback⟩, ?_⟩
  · intro b hb
    rcases List.mem_cons.1 hb with rfl | hb
    · exact le_of_eq hkey
    · exact hy b hb
  · intro b hb
    exact hx b (List.mem_cons_of_mem y hb)
  · intro a ha b hb
    have hmem : b ∈ x :: y :: back := (List.Perm.swap x y back).mem_iff.1 hb
    exact hcross a ha b hmem

end KeyOrder
