import AiServing.PatternSyntax

namespace Backtrack
set_option autoImplicit true

/-- `n` rounds of `f` can lead from `a` to `b`. -/
def Rounds (f : β → List β) : Nat → β → β → Prop
  | 0, a, b => a = b
  | n + 1, a, b => ∃ c ∈ f a, Rounds f n c b

theorem rounds_add : Rounds f (m + n) a b ↔ ∃ c, Rounds f m a c ∧ Rounds f n c b := by
  induction m generalizing a with
  | zero => simp [Rounds]
  | succ m ih =>
    simp only [Nat.succ_add, Rounds, ih]
    constructor
    · rintro ⟨d, hd, c, hm, hn⟩
      exact ⟨c, ⟨d, hd, hm⟩, hn⟩
    · rintro ⟨c, ⟨d, hd, hm⟩, hn⟩
      exact ⟨d, hd, c, hm, hn⟩

theorem Rounds.add_le (h : Rounds f n a b) (hf : ∀ a, ∀ b ∈ f a, a + w ≤ b) :
    a + n * w ≤ b := by
  induction n generalizing a with
  | zero => cases h; omega
  | succ n ih =>
    obtain ⟨c, hc, hr⟩ := h
    have hcb := ih hr
    have hac := hf a c hc
    rw [Nat.succ_mul]
    omega

theorem Rounds.preserves {P : β → Prop} {f : β → List β} (h : Rounds f n a b)
    (hf : ∀ a, P a → ∀ b ∈ f a, P b) (ha : P a) : P b := by
  induction n generalizing a with
  | zero => exact h ▸ ha
  | succ n ih =>
    obtain ⟨e, he, hr⟩ := h
    exact ih hr (hf a ha e he)

theorem Rounds.invariant {f : β → List β} {π : β → γ} (h : Rounds f n a b)
    (hf : ∀ a, ∀ b ∈ f a, π b = π a) : π b = π a :=
  h.preserves (P := fun c => π c = π a) (fun c hc d hd => (hf c d hd).trans hc) rfl

theorem mem_upTo : b ∈ upTo f n a ↔ ∃ m ≤ n, Rounds f m a b := by
  induction n generalizing a with
  | zero => simp [upTo, Rounds, eq_comm]
  | succ n ih =>
    simp only [upTo, List.mem_append, List.mem_flatMap, ih, List.mem_singleton]
    constructor
    · rintro (⟨c, hc, m, hm, hr⟩ | rfl)
      · exact ⟨m + 1, Nat.succ_le_succ hm, c, hc, hr⟩
      · exact ⟨0, Nat.zero_le _, rfl⟩
    · rintro ⟨m, hm, hr⟩
      cases m with
      | zero => exact .inr hr.symm
      | succ m =>
        obtain ⟨c, hc, hr⟩ := hr
        exact .inl ⟨c, hc, m, Nat.le_of_succ_le_succ hm, hr⟩

theorem mem_rounds : b ∈ rounds f g n a ↔ ∃ c, Rounds f n a c ∧ b ∈ g c := by
  induction n generalizing a with
  | zero => simp [rounds, Rounds]
  | succ n ih =>
    simp only [rounds, List.mem_flatMap, ih, Rounds]
    constructor
    · rintro ⟨d, hd, c, hr, hb⟩
      exact ⟨c, ⟨d, hd, hr⟩, hb⟩
    · rintro ⟨c, ⟨d, hd, hr⟩, hb⟩
      exact ⟨d, hd, c, hr, hb⟩

theorem map_upTo {π : β → γ} (hf : ∀ c, (f c).map π = f' (π c)) (n : Nat) (c : β) :
    (upTo f n c).map π = upTo f' n (π c) := by
  induction n generalizing c with
  | zero => rfl
  | succ n ih =>
    simp only [upTo, List.map_append, List.map_flatMap, ih, ← hf, List.flatMap_map]
    rfl

theorem map_rounds {π : β → γ} (hf : ∀ c, (f c).map π = f' (π c))
    (hg : ∀ c, (g c).map π = g' (π c)) (n : Nat) (c : β) :
    (rounds f g n c).map π = rounds f' g' n (π c) := by
  induction n generalizing c with
  | zero => exact hg c
  | succ n ih => simp only [rounds, List.map_flatMap, ih, ← hf, List.flatMap_map]

theorem holdsAt_iff : holdsAt p t i ↔ ∃ a, t[i]? = some a ∧ p a := by
  simp [holdsAt, Option.any_eq_true]

theorem holdsAt_lt_length (h : holdsAt p t i) : i < t.length := by
  obtain ⟨a, ha, _⟩ := holdsAt_iff.1 h
  exact (List.getElem?_eq_some_iff.1 ha).1

theorem holdsAt_mono (h : holdsAt p t i) (hpq : ∀ a, p a → q a) : holdsAt q t i := by
  obtain ⟨a, ha, hp⟩ := holdsAt_iff.1 h
  exact holdsAt_iff.2 ⟨a, ha, hpq a hp⟩

theorem holdsAt_congr (h : t[i]? = t'[i']?) : holdsAt p t i = holdsAt p t' i' := by
  simp only [holdsAt, h]

@[simp] theorem holdsBefore_zero : holdsBefore p t 0 = false := rfl

@[simp] theorem holdsBefore_succ : holdsBefore p t (i + 1) = holdsAt p t i := rfl

theorem holdsBefore_of_pos {i : Nat} (hi : 0 < i) : holdsBefore p t i = holdsAt p t (i - 1) := by
  obtain ⟨k, rfl⟩ := Nat.exists_eq_add_of_le' hi
  rfl

theorem le_length_takeWhile (l : List α) :
    n ≤ (l.takeWhile p).length ↔ ∀ k < n, holdsAt p l k := by
  induction l generalizing n with
  | nil =>
    simp only [List.takeWhile_nil, List.length_nil, Nat.le_zero]
    constructor
    · rintro rfl k hk; omega
    · intro h
      by_contra hn
      simpa [holdsAt] using h 0 (Nat.pos_of_ne_zero hn)
  | cons a l ih =>
    cases n with
    | zero => simp
    | succ n =>
      rw [Nat.forall_lt_succ_left]
      simp only [List.takeWhile_cons]
      split
      · rename_i ha
        simpa [holdsAt, ha] using ih (n := n)
      · rename_i ha
        simp [holdsAt, ha]

theorem le_runLength : n ≤ runLength p t i ↔ ∀ k < n, holdsAt p t (i + k) := by
  simp only [runLength, le_length_takeWhile, holdsAt, List.getElem?_drop]

namespace Pattern

@[simp] theorem mem_ends_cls : j ∈ ends t (cls p) i ↔ holdsAt p t i ∧ j = i + 1 := by
  simp only [ends]; split <;> simp_all

@[simp] theorem mem_ends_seq :
    j ∈ ends t (seq r s) i ↔ ∃ k ∈ ends t r i, j ∈ ends t s k := by
  simp only [ends, List.mem_flatMap]

@[simp] theorem mem_ends_alt :
    j ∈ ends t (alt r s) i ↔ j ∈ ends t r i ∨ j ∈ ends t s i := by
  simp only [ends, List.mem_append]

theorem mem_ends_rep : j ∈ ends t (rep r lo hi) i ↔
    ∃ n, lo ≤ n ∧ n ≤ lo + (hi - lo) ∧ Rounds (ends t r) n i j := by
  simp only [ends, mem_rounds, mem_upTo]
  constructor
  · rintro ⟨c, hc, m, hm, hr⟩
    exact ⟨lo + m, by omega, by omega, rounds_add.2 ⟨c, hc, hr⟩⟩
  · rintro ⟨n, hlo, hn, hr⟩
    obtain ⟨m, rfl⟩ := Nat.exists_eq_add_of_le hlo
    obtain ⟨c, hc, hr⟩ := rounds_add.1 hr
    exact ⟨c, hc, m, by omega, hr⟩

@[simp] theorem mem_ends_many : j ∈ ends t (many p lo) i ↔
    ∃ n, lo ≤ n ∧ j = i + n ∧ ∀ k < n, holdsAt p t (i + k) := by
  simp only [ends, manyEnds, List.mem_map, List.mem_range]
  constructor
  · rintro ⟨k, hk, rfl⟩
    exact ⟨runLength p t i - k, by omega, by omega, le_runLength.1 (Nat.sub_le _ _)⟩
  · rintro ⟨n, hlo, rfl, h⟩
    have hn := le_runLength.2 h
    exact ⟨runLength p t i - n, by omega, by omega⟩

@[simp] theorem mem_ends_group : j ∈ ends t (group k r) i ↔ j ∈ ends t r i := Iff.rfl

@[simp] theorem mem_ends_notBehind :
    j ∈ ends t (notBehind p) i ↔ holdsBefore p t i = false ∧ j = i := by
  simp only [ends]; split <;> simp_all

@[simp] theorem mem_ends_notAhead :
    j ∈ ends t (notAhead p) i ↔ holdsAt p t i = false ∧ j = i := by
  simp only [ends]; split <;> simp_all

@[simp] theorem mem_ends_boundary :
    j ∈ ends t (boundary p) i ↔ holdsBefore p t i ≠ holdsAt p t i ∧ j = i := by
  simp only [ends]
  by_cases h : holdsBefore p t i = holdsAt p t i
  · rw [if_pos h]
    exact ⟨fun hj => absurd hj List.not_mem_nil, fun hj => absurd h hj.1⟩
  · rw [if_neg h, List.mem_singleton]
    exact ⟨fun hj => ⟨h, hj⟩, And.right⟩

theorem rounds_cls : Rounds (ends t (cls p)) n i j ↔
    j = i + n ∧ ∀ k < n, holdsAt p t (i + k) := by
  induction n generalizing i with
  | zero => exact ⟨fun h => ⟨h.symm, by omega⟩, fun h => h.1.symm⟩
  | succ n ih =>
    simp only [Rounds, mem_ends_cls, ih]
    rw [Nat.forall_lt_succ_left]
    constructor
    · rintro ⟨_, ⟨hp, rfl⟩, rfl, h⟩
      exact ⟨by omega, hp, fun k hk => by simpa only [Nat.add_assoc, Nat.add_comm 1] using h k hk⟩
    · rintro ⟨rfl, hp, h⟩
      refine ⟨i + 1, ⟨hp, rfl⟩, by omega, fun k hk => ?_⟩
      simpa only [Nat.add_assoc, Nat.add_comm 1] using h k hk

theorem mem_ends_rep_cls : j ∈ ends t (rep (cls p) lo hi) i ↔
    ∃ n, lo ≤ n ∧ n ≤ lo + (hi - lo) ∧ j = i + n ∧ ∀ k < n, holdsAt p t (i + k) := by
  simp only [mem_ends_rep, rounds_cls]

/-- Erasing the groups from a run leaves the end positions, in the same order. -/
theorem map_pos_run (t : List α) (r : Pattern α) (c : Cursor) :
    (run t r c).map Cursor.pos = ends t r c.pos := by
  induction r generalizing c with
  | cls p => simp only [run, ends]; split <;> rfl
  | seq r s ihr ihs => simp only [run, ends, List.map_flatMap, ihs, ← ihr, List.flatMap_map]
  | alt r s ihr ihs => simp only [run, ends, List.map_append, ihr, ihs]
  | rep r lo hi ih => exact map_rounds ih (map_upTo ih _) _ _
  | many p lo => simp [run, ends, Function.comp_def]
  | group k r ih => simp only [run, ends, List.map_map, ← ih]; rfl
  | notBehind p => simp only [run, ends]; split <;> rfl
  | notAhead p => simp only [run, ends]; split <;> rfl
  | boundary p => simp only [run, ends]; split <;> rfl

theorem pos_mem_ends (h : d ∈ run t r c) : d.pos ∈ ends t r c.pos := by
  rw [← map_pos_run]
  exact List.mem_map_of_mem h

theorem mem_run_seq : d ∈ run t (seq r s) c ↔ ∃ e ∈ run t r c, d ∈ run t s e := by
  simp only [run, List.mem_flatMap]

theorem mem_run_group : d ∈ run t (group k r) c ↔
    ∃ e ∈ run t r c, d = { e with groups := (k, c.pos, e.pos) :: e.groups } := by
  simp only [run, List.mem_map, eq_comm]

theorem groups_run (hr : r.groupless) (h : d ∈ run t r c) : d.groups = c.groups := by
  induction r generalizing c d with
  | cls p => simp only [run] at h; split at h <;> simp_all
  | seq r s ihr ihs =>
    simp only [groupless, Bool.and_eq_true] at hr
    obtain ⟨e, he, hd⟩ := mem_run_seq.1 h
    rw [ihs hr.2 hd, ihr hr.1 he]
  | alt r s ihr ihs =>
    simp only [groupless, Bool.and_eq_true] at hr
    rcases List.mem_append.1 h with h | h
    · exact ihr hr.1 h
    · exact ihs hr.2 h
  | rep r lo hi ih =>
    obtain ⟨e, he, hd⟩ := mem_rounds.1 h
    obtain ⟨m, _, hm⟩ := mem_upTo.1 hd
    rw [hm.invariant fun _ _ hb => ih hr hb, he.invariant fun _ _ hb => ih hr hb]
  | many p lo => obtain ⟨j, _, rfl⟩ := List.mem_map.1 h; rfl
  | group k r => cases hr
  | notBehind p => simp only [run] at h; split at h <;> simp_all
  | notAhead p => simp only [run] at h; split at h <;> simp_all
  | boundary p => simp only [run] at h; split at h <;> simp_all

theorem ends_ge (h : j ∈ ends t r i) : i + r.minWidth ≤ j := by
  induction r generalizing i j with
  | cls p => simp only [mem_ends_cls] at h; simp only [minWidth]; omega
  | seq r s ihr ihs =>
    obtain ⟨k, hk, hj⟩ := mem_ends_seq.1 h
    have := ihr hk
    have := ihs hj
    simp only [minWidth]; omega
  | alt r s ihr ihs =>
    rcases mem_ends_alt.1 h with h | h
    · have := ihr h; simp only [minWidth]; omega
    · have := ihs h; simp only [minWidth]; omega
  | rep r lo hi ih =>
    obtain ⟨n, hlo, _, hr⟩ := mem_ends_rep.1 h
    have hn := hr.add_le fun _ _ => ih
    have hle := Nat.mul_le_mul_right r.minWidth hlo
    simp only [minWidth]; omega
  | many p lo => obtain ⟨n, hn, rfl, _⟩ := mem_ends_many.1 h; simp only [minWidth]; omega
  | group k r ih => exact ih h
  | notBehind p => exact Nat.le_of_eq (mem_ends_notBehind.1 h).2.symm
  | notAhead p => exact Nat.le_of_eq (mem_ends_notAhead.1 h).2.symm
  | boundary p => exact Nat.le_of_eq (mem_ends_boundary.1 h).2.symm

end Pattern

end Backtrack
