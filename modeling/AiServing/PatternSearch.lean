import AiServing.PatternEnds

namespace Backtrack
set_option autoImplicit true

theorem Rounds.forall_between {P : Nat → Prop} (h : Rounds f n a b)
    (hf : ∀ a, ∀ b ∈ f a, ∀ k, a ≤ k → k < b → P k) (ha : a ≤ k) (hb : k < b) : P k := by
  induction n generalizing a with
  | zero => cases h; omega
  | succ n ih =>
    obtain ⟨c, hc, hr⟩ := h
    by_cases hk : k < c
    · exact hf a c hc k ha hk
    · exact ih hr (Nat.le_of_not_lt hk)

namespace Pattern

theorem ends_uses (h : j ∈ ends t r i) (hi : i ≤ k) (hj : k < j) : holdsAt r.uses t k := by
  induction r generalizing i j k with
  | cls p =>
    obtain ⟨hp, rfl⟩ := mem_ends_cls.1 h
    obtain rfl : k = i := by omega
    exact hp
  | seq r s ihr ihs =>
    obtain ⟨c, hc, hs⟩ := mem_ends_seq.1 h
    by_cases hk : k < c
    · exact holdsAt_mono (ihr hc hi hk) fun a ha => by simp [uses, ha]
    · exact holdsAt_mono (ihs hs (Nat.le_of_not_lt hk) hj) fun a ha => by simp [uses, ha]
  | alt r s ihr ihs =>
    rcases mem_ends_alt.1 h with h | h
    · exact holdsAt_mono (ihr h hi hj) fun a ha => by simp [uses, ha]
    · exact holdsAt_mono (ihs h hi hj) fun a ha => by simp [uses, ha]
  | rep r lo hi' ih =>
    obtain ⟨n, _, _, hr⟩ := mem_ends_rep.1 h
    exact hr.forall_between (fun a b hb k ha hk => ih hb ha hk) hi hj
  | many p lo =>
    obtain ⟨n, _, rfl, hn⟩ := mem_ends_many.1 h
    have hp := hn (k - i) (by omega)
    rwa [Nat.add_sub_cancel' hi] at hp
  | group _ r ih => exact ih h hi hj
  | notBehind p => have := (mem_ends_notBehind.1 h).2; omega
  | notAhead p => have := (mem_ends_notAhead.1 h).2; omega
  | boundary p => have := (mem_ends_boundary.1 h).2; omega

theorem ends_le_length (h : j ∈ ends t r i) (hi : i < j) : j ≤ t.length := by
  have hlast := ends_uses h (Nat.le_sub_one_of_lt hi) (Nat.sub_lt (by omega) Nat.one_pos)
  have hlt := holdsAt_lt_length hlast
  omega

/-- Without assertions a match depends on the matched word only. -/
theorem ends_shift (hr : r.plain) (h : i + n ∈ ends t r i)
    (hc : ∀ k < n, t'[i' + k]? = t[i + k]?) : i' + n ∈ ends t' r i' := by
  induction r generalizing i i' n with
  | cls p =>
    obtain ⟨hp, hn⟩ := mem_ends_cls.1 h
    obtain rfl : n = 1 := by omega
    exact mem_ends_cls.2 ⟨(holdsAt_congr (hc 0 Nat.one_pos)).trans hp, rfl⟩
  | seq r s ihr ihs =>
    simp only [plain, Bool.and_eq_true] at hr
    obtain ⟨c, hrc, hsc⟩ := mem_ends_seq.1 h
    have hic := ends_ge hrc
    have hcn := ends_ge hsc
    obtain ⟨m, rfl⟩ := Nat.exists_eq_add_of_le (Nat.le_trans (Nat.le_add_right _ _) hic)
    obtain ⟨l, rfl⟩ := Nat.exists_eq_add_of_le (show m ≤ n by omega)
    rw [← Nat.add_assoc] at hsc ⊢
    refine mem_ends_seq.2 ⟨i' + m, ihr hr.1 hrc fun k hk => hc k (by omega), ?_⟩
    refine ihs hr.2 hsc fun k hk => ?_
    simpa only [Nat.add_assoc] using hc (m + k) (by omega)
  | alt r s ihr ihs =>
    simp only [plain, Bool.and_eq_true] at hr
    rcases mem_ends_alt.1 h with h | h
    · exact mem_ends_alt.2 (.inl (ihr hr.1 h hc))
    · exact mem_ends_alt.2 (.inr (ihs hr.2 h hc))
  | rep r lo hi ih =>
    obtain ⟨m, hlo, hm, hrounds⟩ := mem_ends_rep.1 h
    refine mem_ends_rep.2 ⟨m, hlo, hm, ?_⟩
    clear h hlo hm
    induction m generalizing i i' n with
    | zero =>
      have hn : i = i + n := hrounds
      show i' = i' + n
      omega
    | succ m ihm =>
      obtain ⟨c, hrc, hsc⟩ := hrounds
      have hic := ends_ge hrc
      have hcn := hsc.add_le (w := 0) fun _ _ hb => Nat.le_of_add_right_le (ends_ge hb)
      obtain ⟨l, rfl⟩ := Nat.exists_eq_add_of_le (Nat.le_of_add_right_le hic)
      obtain ⟨l', rfl⟩ := Nat.exists_eq_add_of_le (show l ≤ n by omega)
      rw [← Nat.add_assoc] at hsc ⊢
      refine ⟨i' + l, ih hr hrc fun k hk => hc k (by omega), ihm (fun k hk => ?_) hsc⟩
      simpa only [Nat.add_assoc] using hc (l + k) (by omega)
  | many p lo =>
    obtain ⟨m, hlo, hm, hp⟩ := mem_ends_many.1 h
    obtain rfl : m = n := by omega
    refine mem_ends_many.2 ⟨m, hlo, rfl, fun k hk => ?_⟩
    rw [holdsAt_congr (hc k hk)]
    exact hp k hk
  | group _ r ih => exact ih hr h hc
  | notBehind p => cases hr
  | notAhead p => cases hr
  | boundary p => cases hr

end Pattern

/-- What a successful search reports. -/
structure Match where
  start : Nat
  stop : Nat
  groups : List (Nat × Nat × Nat)
  deriving DecidableEq, Repr

/-- The text of a group; group 0 is the whole match. -/
def Match.group (m : Match) (t : List α) (k : Nat) : List α :=
  if k = 0 then slice t m.start m.stop
  else match m.groups.find? fun g => g.1 = k with
    | some (_, i, j) => slice t i j
    | none => []

namespace Pattern

def matchAt (r : Pattern α) (t : List α) (i : Nat) : Option Match :=
  (run t r ⟨i, []⟩).head?.map fun c => ⟨i, c.pos, c.groups⟩

/-- Leftmost matches from `i` on, none overlapping an earlier one. -/
def finditerFrom (r : Pattern α) (t : List α) : Nat → Nat → List Match
  | 0, _ => []
  | fuel + 1, i =>
    match r.matchAt t i with
    | some m => m :: finditerFrom r t fuel (max m.stop (i + 1))
    | none => finditerFrom r t fuel (i + 1)

def finditer (r : Pattern α) (t : List α) : List Match := r.finditerFrom t (t.length + 1) 0

def search (r : Pattern α) (t : List α) : Option Match :=
  (List.range (t.length + 1)).findSome? (r.matchAt t)

theorem matchAt_start (h : matchAt r t i = some m) : m.start = i := by
  obtain ⟨c, _, rfl⟩ := Option.map_eq_some_iff.1 h
  rfl

theorem head?_ends (h : matchAt r t i = some m) : (ends t r i).head? = some m.stop := by
  obtain ⟨c, hc, rfl⟩ := Option.map_eq_some_iff.1 h
  rw [← map_pos_run t r ⟨i, []⟩, List.head?_map, hc]
  rfl

theorem matchAt_stop (h : matchAt r t i = some m) : m.stop ∈ ends t r i :=
  List.mem_of_head? (head?_ends h)

theorem exists_matchAt (h : j ∈ ends t r i) : ∃ m, matchAt r t i = some m := by
  rw [← map_pos_run t r ⟨i, []⟩] at h
  obtain ⟨c, hc, _⟩ := List.mem_map.1 h
  cases hr : run t r ⟨i, []⟩ with
  | nil => rw [hr] at hc; cases hc
  | cons d l => exact ⟨_, by rw [matchAt, hr]; rfl⟩

theorem matchAt_run (h : matchAt r t i = some m) : ⟨m.stop, m.groups⟩ ∈ run t r ⟨i, []⟩ := by
  obtain ⟨c, hc, rfl⟩ := Option.map_eq_some_iff.1 h
  exact List.mem_of_head? hc

theorem matchAt_lt (hw : 0 < r.minWidth) (h : matchAt r t i = some m) :
    m.start < m.stop ∧ m.stop ≤ t.length := by
  have hstop := matchAt_stop h
  have hge := ends_ge hstop
  have hlt : i < m.stop := by omega
  rw [matchAt_start h]
  exact ⟨hlt, ends_le_length hstop hlt⟩

/-- What `finditer` guarantees from position `i` on. -/
structure IsScan (r : Pattern α) (t : List α) (i : Nat) (ms : List Match) : Prop where
  matches_at : ∀ m ∈ ms, r.matchAt t m.start = some m
  start_ge : ∀ m ∈ ms, i ≤ m.start
  disjoint : ms.Pairwise fun m m' => m.stop ≤ m'.start
  covers : ∀ k m, i ≤ k → r.matchAt t k = some m → ∃ m' ∈ ms, m'.start ≤ k ∧ k < m'.stop

theorem finditerFrom_isScan (hw : 0 < r.minWidth) (hf : t.length + 1 ≤ fuel + i) :
    IsScan r t i (r.finditerFrom t fuel i) := by
  induction fuel generalizing i with
  | zero =>
    refine ⟨by simp [finditerFrom], by simp [finditerFrom], List.Pairwise.nil, fun k m hk hm => ?_⟩
    have hlt := matchAt_lt hw hm
    have hs := matchAt_start hm
    omega
  | succ fuel ih =>
    unfold finditerFrom
    cases h : r.matchAt t i with
    | none =>
      have hs := ih (i := i + 1) (by omega)
      refine ⟨hs.matches_at, fun m hm => Nat.le_of_succ_le (hs.start_ge m hm), hs.disjoint, ?_⟩
      intro k m hk hm
      rcases Nat.eq_or_lt_of_le hk with rfl | hk
      · rw [h] at hm; cases hm
      · exact hs.covers k m hk hm
    | some m =>
      have hlt := matchAt_lt hw h
      have hi := matchAt_start h
      have hs := ih (i := max m.stop (i + 1)) (by omega)
      have hge (m') (hm' : m' ∈ r.finditerFrom t fuel (max m.stop (i + 1))) :
          m.stop ≤ m'.start := Nat.le_trans (Nat.le_max_left _ _) (hs.start_ge m' hm')
      refine ⟨?_, ?_, List.pairwise_cons.2 ⟨hge, hs.disjoint⟩, fun k n hk hn => ?_⟩
      · intro m' hm'
        rcases List.mem_cons.1 hm' with rfl | hm'
        · rw [hi]; exact h
        · exact hs.matches_at m' hm'
      · intro m' hm'
        rcases List.mem_cons.1 hm' with rfl | hm'
        · exact Nat.le_of_eq hi.symm
        · have := hge m' hm'; omega
      · by_cases hkm : k < m.stop
        · exact ⟨m, List.mem_cons_self, by omega, hkm⟩
        · obtain ⟨m', hm', hc⟩ := hs.covers k n (by omega) hn
          exact ⟨m', List.mem_cons_of_mem _ hm', hc⟩

theorem finditer_isScan (hw : 0 < r.minWidth) (t : List α) : IsScan r t 0 (r.finditer t) :=
  finditerFrom_isScan hw (Nat.le_refl _)

theorem IsScan.tail (h : IsScan r t i (m :: ms)) (hm : m.start < m.stop) :
    IsScan r t m.stop ms := by
  have hd := List.pairwise_cons.1 h.disjoint
  refine ⟨fun m' hm' => h.matches_at m' (List.mem_cons_of_mem _ hm'), hd.1, hd.2, ?_⟩
  intro k n hk hn
  have := h.start_ge m List.mem_cons_self
  obtain ⟨m', hm', hc⟩ := h.covers k n (by omega) hn
  rcases List.mem_cons.1 hm' with rfl | hm'
  · omega
  · exact ⟨m', hm', hc⟩

theorem IsScan.head_le (h : IsScan r t i (m :: ms)) (hw : 0 < r.minWidth) (hk : i ≤ k)
    (hn : r.matchAt t k = some n) : m.start ≤ k := by
  obtain ⟨m', hm', hle, _⟩ := h.covers k n hk hn
  rcases List.mem_cons.1 hm' with rfl | hm'
  · exact hle
  · have hd := (List.pairwise_cons.1 h.disjoint).1 m' hm'
    have hlt := (matchAt_lt hw (h.matches_at m List.mem_cons_self)).1
    omega

theorem IsScan.unique (hw : 0 < r.minWidth) (h : IsScan r t i ms) (h' : IsScan r t i ms') :
    ms = ms' := by
  induction ms generalizing i ms' with
  | nil =>
    cases ms' with
    | nil => rfl
    | cons m' ms' =>
      have hm' := h'.matches_at m' List.mem_cons_self
      obtain ⟨_, hm, _⟩ := h.covers _ _ (h'.start_ge m' List.mem_cons_self) hm'
      cases hm
  | cons m ms ih =>
    have hm := h.matches_at m List.mem_cons_self
    have hi := h.start_ge m List.mem_cons_self
    cases ms' with
    | nil =>
      obtain ⟨_, hm', _⟩ := h'.covers _ _ hi hm
      cases hm'
    | cons m' ms' =>
      have hm' := h'.matches_at m' List.mem_cons_self
      have hi' := h'.start_ge m' List.mem_cons_self
      have hs : m.start = m'.start :=
        Nat.le_antisymm (h.head_le hw hi' hm') (h'.head_le hw hi hm)
      rw [hs, hm'] at hm
      cases hm
      rw [ih (h.tail (matchAt_lt hw hm').1) (h'.tail (matchAt_lt hw hm').1)]

end Pattern

end Backtrack
