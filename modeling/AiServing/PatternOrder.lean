import AiServing.PatternSearch

namespace Backtrack
set_option autoImplicit true

section

variable {f : Nat → List Nat} {P : Nat → Bool}

theorem filter_flatMap_live {l : List Nat} {g : Nat → List Nat}
    (hdead : ∀ a, P a = false → (g a).filter P = []) :
    (l.flatMap g).filter P = (l.filter P).flatMap fun a => (g a).filter P := by
  induction l with
  | nil => rfl
  | cons a l ih =>
    cases h : P a with
    | true => simp [List.filter_append, ih, h]
    | false => simp [List.filter_append, ih, h, hdead a h]

/-- In a repetition that can go on from live positions only, and to one live position at most,
the live results come longest first. -/
structure Forced (P : Nat → Bool) (f : Nat → List Nat) : Prop where
  dead : ∀ a, P a = false → f a = []
  one : ∀ a, (f a).filter P = [] ∨ ∃ b, a < b ∧ (f a).filter P = [b]

/-- Live results at or after `a`, in decreasing order. -/
def Descending (P : Nat → Bool) (a : Nat) (l : List Nat) : Prop :=
  (l.filter P).Pairwise (· > ·) ∧ ∀ b ∈ l.filter P, a ≤ b

theorem Forced.flatMap (h : Forced P f) {g : Nat → List Nat}
    (hdead : ∀ b, P b = false → (g b).filter P = []) (hg : ∀ b, Descending P b (g b)) (a : Nat) :
    Descending P a ((f a).flatMap g) ∧ ∀ c ∈ ((f a).flatMap g).filter P, a < c := by
  unfold Descending
  rw [filter_flatMap_live hdead]
  rcases h.one a with hn | ⟨b, hab, hb⟩
  · rw [hn]
    exact ⟨⟨.nil, by simp⟩, by simp⟩
  · rw [hb, List.flatMap_singleton]
    exact ⟨⟨(hg b).1, fun c hc => Nat.le_trans (Nat.le_of_lt hab) ((hg b).2 c hc)⟩,
      fun c hc => Nat.lt_of_lt_of_le hab ((hg b).2 c hc)⟩

theorem Forced.upTo_dead (h : Forced P f) (n : Nat) (ha : P a = false) :
    (upTo f n a).filter P = [] := by
  cases n with
  | zero => simp [upTo, ha]
  | succ n => simp [upTo, h.dead a ha, ha]

theorem Forced.upTo (h : Forced P f) (n a : Nat) : Descending P a (upTo f n a) := by
  induction n generalizing a with
  | zero =>
    cases ha : P a with
    | true => simp [Descending, Backtrack.upTo, ha]
    | false => simp [Descending, Backtrack.upTo, ha]
  | succ n ih =>
    obtain ⟨⟨hd, hle⟩, hlt⟩ := h.flatMap (fun b hb => h.upTo_dead n hb) ih a
    unfold Descending
    rw [Backtrack.upTo, List.filter_append]
    refine ⟨List.pairwise_append.2 ⟨hd, ?_, fun b hb c hc => ?_⟩, fun b hb => ?_⟩
    · exact (List.pairwise_singleton _ _).sublist List.filter_sublist
    · rw [List.mem_singleton.1 (List.mem_filter.1 hc).1]
      exact hlt b hb
    · rcases List.mem_append.1 hb with hb | hb
      · exact hle b hb
      · rw [List.mem_singleton.1 (List.mem_filter.1 hb).1]

theorem Forced.rounds_dead (h : Forced P f) {g : Nat → List Nat}
    (hdead : ∀ b, P b = false → (g b).filter P = []) (n : Nat) (ha : P a = false) :
    (rounds f g n a).filter P = [] := by
  cases n with
  | zero => exact hdead a ha
  | succ n => simp [rounds, h.dead a ha]

theorem Forced.rounds (h : Forced P f) {g : Nat → List Nat}
    (hdead : ∀ b, P b = false → (g b).filter P = []) (hg : ∀ b, Descending P b (g b)) (n a : Nat) :
    Descending P a (rounds f g n a) := by
  induction n generalizing a with
  | zero => exact hg a
  | succ n ih => exact (h.flatMap (fun b hb => h.rounds_dead hdead n hb) ih a).1

end

namespace Pattern

theorem flatMap_ite (q : Nat → Bool) (f : Nat → Nat) (l : List Nat) :
    (l.flatMap fun a => if q a then [f a] else []) = (l.filter q).map f := by
  induction l with
  | nil => rfl
  | cons a l ih =>
    rw [List.flatMap_cons, ih, List.filter_cons]
    split
    · rfl
    · rfl

theorem flatMap_ends_cls (l : List Nat) :
    l.flatMap (ends t (cls p)) = (l.filter (holdsAt p t)).map (· + 1) :=
  flatMap_ite (holdsAt p t) (· + 1) l

theorem flatMap_ends_notAhead (l : List Nat) :
    l.flatMap (ends t (notAhead p)) = l.filter fun j => !holdsAt p t j := by
  have hends : ends t (notAhead p) = fun a => if !holdsAt p t a then [a] else [] := by
    funext a
    cases h : holdsAt p t a <;> simp [ends, h]
  rw [hends, flatMap_ite]
  exact List.map_id _

/-- A forced repetition of `r`, then one character of the class that keeps it alive. -/
theorem ends_rep_cls_descending (h : Forced (holdsAt p t) (ends t r)) (lo hi i : Nat) :
    (ends t (seq (rep r lo hi) (cls p)) i).Pairwise (· > ·) := by
  have hd := h.rounds (fun b hb => h.upTo_dead (hi - lo) hb) (h.upTo (hi - lo)) lo i
  change ((ends t (rep r lo hi) i).flatMap (ends t (cls p))).Pairwise (· > ·)
  rw [flatMap_ends_cls, List.pairwise_map]
  exact hd.1.imp fun hab => Nat.succ_lt_succ hab

end Pattern

end Backtrack
