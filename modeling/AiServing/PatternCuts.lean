import AiServing.PatternSearch

namespace Backtrack
set_option autoImplicit true

variable {α : Type u} {c : α} {p q t : List α} {r : Pattern α} {f : α → Bool}

namespace Pattern

/-- No class of the pattern, in an assertion or not, holds of `c`. -/
def stopsAt : Pattern α → α → Bool
  | cls p, c | many p _, c => !p c
  | seq r s, c | alt r s, c => r.stopsAt c && s.stopsAt c
  | rep r _ _, c | group _ r, c => r.stopsAt c
  | notBehind p, c | notAhead p, c | boundary p, c => !p c

end Pattern

def Cursor.shift (d : Nat) (cur : Cursor) : Cursor where
  pos := cur.pos + d
  groups := cur.groups.map fun g => (g.1, g.2.1 + d, g.2.2 + d)

def Match.shift (d : Nat) (m : Match) : Match where
  start := m.start + d
  stop := m.stop + d
  groups := m.groups.map fun g => (g.1, g.2.1 + d, g.2.2 + d)

theorem holdsAt_cut_left (hc : f c = false) (q : List α) (h : i ≤ p.length) :
    holdsAt f (p ++ c :: q) i = holdsAt f p i := by
  rcases Nat.lt_or_eq_of_le h with h | rfl
  · exact holdsAt_congr (List.getElem?_append_left h)
  · rw [holdsAt, holdsAt, List.getElem?_append_right (Nat.le_refl _), Nat.sub_self,
      List.getElem?_cons_zero, List.getElem?_eq_none (Nat.le_refl _)]
    exact hc

theorem holdsBefore_cut_left (hc : f c = false) (q : List α) (h : i ≤ p.length) :
    holdsBefore f (p ++ c :: q) i = holdsBefore f p i := by
  cases i with
  | zero => rfl
  | succ i => exact holdsAt_cut_left hc q (Nat.le_of_succ_le h)

theorem holdsAt_cut_right (f : α → Bool) (p : List α) (c : α) (q : List α) (i : Nat) :
    holdsAt f (p ++ c :: q) (i + (p.length + 1)) = holdsAt f q i := by
  apply holdsAt_congr
  rw [List.getElem?_append_right (by omega), ← Nat.add_assoc, Nat.add_right_comm,
    Nat.add_sub_cancel]
  rfl

theorem holdsBefore_cut_right (hc : f c = false) (p q : List α) (i : Nat) :
    holdsBefore f (p ++ c :: q) (i + (p.length + 1)) = holdsBefore f q i := by
  cases i with
  | zero =>
    rw [Nat.zero_add]
    exact (holdsAt_cut_left hc q (Nat.le_refl _)).trans (by simp [holdsAt])
  | succ i =>
    rw [Nat.succ_add]
    exact holdsAt_cut_right f p c q i

theorem runLength_cut_left (hc : f c = false) (q : List α) (h : i ≤ p.length) :
    runLength f (p ++ c :: q) i = runLength f p i := by
  have htake (l : List α) : (l ++ c :: q).takeWhile f = l.takeWhile f := by
    induction l with
    | nil => exact List.takeWhile_cons_of_neg (by rw [hc]; exact Bool.false_ne_true)
    | cons a l ih => rw [List.cons_append, List.takeWhile_cons, List.takeWhile_cons, ih]
  rw [runLength, runLength, List.drop_append_of_le_length h, htake]

theorem runLength_cut_right (f : α → Bool) (p : List α) (c : α) (q : List α) (i : Nat) :
    runLength f (p ++ c :: q) (i + (p.length + 1)) = runLength f q i := by
  rw [runLength, runLength, List.drop_append, List.drop_eq_nil_of_le (by omega), List.nil_append,
    ← Nat.add_assoc, Nat.add_right_comm, Nat.add_sub_cancel, List.drop_succ_cons]

theorem upTo_congr {P : β → Prop} {f g : β → List β} (hfg : ∀ a, P a → f a = g a)
    (hP : ∀ a, P a → ∀ b ∈ f a, P b) (n : Nat) (ha : P a) : upTo f n a = upTo g n a := by
  induction n generalizing a with
  | zero => rfl
  | succ n ih =>
    rw [upTo, upTo, ← hfg a ha, List.flatMap_congr fun b hb => ih (hP a ha b hb)]

theorem rounds_congr {P : β → Prop} {f g f' g' : β → List β} (hf : ∀ a, P a → f a = f' a)
    (hg : ∀ a, P a → g a = g' a) (hP : ∀ a, P a → ∀ b ∈ f a, P b) (n : Nat) (ha : P a) :
    rounds f g n a = rounds f' g' n a := by
  induction n generalizing a with
  | zero => exact hg a ha
  | succ n ih =>
    rw [rounds, rounds, ← hf a ha, List.flatMap_congr fun b hb => ih (hP a ha b hb)]

namespace Pattern

theorem run_pos_le (h : d ∈ run p r cur) (hpos : cur.pos ≤ p.length) : d.pos ≤ p.length := by
  have hends := pos_mem_ends h
  rcases Nat.lt_or_ge cur.pos d.pos with hlt | hge
  · exact ends_le_length hends hlt
  · exact Nat.le_trans hge hpos

/-- In front of a character that stops the pattern, nothing behind it is seen. -/
theorem run_cut_left (hc : r.stopsAt c) (q : List α) (h : cur.pos ≤ p.length) :
    run (p ++ c :: q) r cur = run p r cur := by
  induction r generalizing cur with
  | cls f =>
    have hf : f c = false := by simpa [stopsAt] using hc
    rw [run, run, holdsAt_cut_left hf q h]
  | seq r s ihr ihs =>
    simp only [stopsAt, Bool.and_eq_true] at hc
    rw [run, run, ihr hc.1 h, List.flatMap_congr fun d hd => ihs hc.2 (run_pos_le hd h)]
  | alt r s ihr ihs =>
    simp only [stopsAt, Bool.and_eq_true] at hc
    rw [run, run, ihr hc.1 h, ihs hc.2 h]
  | rep r lo hi ih =>
    have hstep (a : Cursor) (ha : a.pos ≤ p.length) : run (p ++ c :: q) r a = run p r a :=
      ih hc ha
    have hkeep (a : Cursor) (ha : a.pos ≤ p.length) (b) (hb : b ∈ run (p ++ c :: q) r a) :
        b.pos ≤ p.length := by
      rw [hstep a ha] at hb
      exact run_pos_le hb ha
    rw [run, run]
    apply rounds_congr (P := fun a => a.pos ≤ p.length) hstep _ hkeep _ h
    intro a ha
    exact upTo_congr hstep hkeep _ ha
  | many f lo =>
    have hf : f c = false := by simpa [stopsAt] using hc
    rw [run, run, manyEnds, manyEnds, runLength_cut_left hf q h]
  | group k r ih => rw [run, run, ih hc h]
  | notBehind f =>
    have hf : f c = false := by simpa [stopsAt] using hc
    rw [run, run, holdsBefore_cut_left hf q h]
  | notAhead f =>
    have hf : f c = false := by simpa [stopsAt] using hc
    rw [run, run, holdsAt_cut_left hf q h]
  | boundary f =>
    have hf : f c = false := by simpa [stopsAt] using hc
    rw [run, run, holdsAt_cut_left hf q h, holdsBefore_cut_left hf q h]

theorem run_cut_right (hc : r.stopsAt c) (p q : List α) (cur : Cursor) :
    run (p ++ c :: q) r (cur.shift (p.length + 1)) =
      (run q r cur).map (Cursor.shift (p.length + 1)) := by
  induction r generalizing cur with
  | cls f =>
    rw [run, run, Cursor.shift, holdsAt_cut_right]
    split
    · simp only [List.map_cons, List.map_nil, Cursor.shift, Nat.add_right_comm]
    · rfl
  | seq r s ihr ihs =>
    simp only [stopsAt, Bool.and_eq_true] at hc
    simp only [run, ihr hc.1, List.flatMap_map, List.map_flatMap, ihs hc.2]
  | alt r s ihr ihs =>
    simp only [stopsAt, Bool.and_eq_true] at hc
    rw [run, run, ihr hc.1, ihs hc.2, List.map_append]
  | rep r lo hi ih =>
    rw [run, run]
    have hstep (a : Cursor) : (run q r a).map (Cursor.shift (p.length + 1)) =
        run (p ++ c :: q) r (a.shift (p.length + 1)) := (ih hc a).symm
    exact (map_rounds hstep (map_upTo hstep _) _ _).symm
  | many f lo =>
    simp only [run, manyEnds, Cursor.shift, runLength_cut_right, List.map_map]
    apply List.map_congr_left
    intro k hk
    have hk := List.mem_range.1 hk
    simp only [Function.comp, Cursor.shift, Cursor.mk.injEq, and_true]
    omega
  | group k r ih =>
    simp only [run, ih hc, List.map_map]
    rfl
  | notBehind f =>
    have hf : f c = false := by simpa [stopsAt] using hc
    rw [run, run, Cursor.shift, holdsBefore_cut_right hf]
    split
    · rfl
    · rfl
  | notAhead f =>
    rw [run, run, Cursor.shift, holdsAt_cut_right]
    split
    · rfl
    · rfl
  | boundary f =>
    have hf : f c = false := by simpa [stopsAt] using hc
    rw [run, run, Cursor.shift, holdsAt_cut_right, holdsBefore_cut_right hf]
    split
    · rfl
    · rfl

theorem matchAt_cut_left (hc : r.stopsAt c) (q : List α) (h : i ≤ p.length) :
    r.matchAt (p ++ c :: q) i = r.matchAt p i := by
  rw [matchAt, matchAt, run_cut_left hc q h]

theorem matchAt_cut_right (hc : r.stopsAt c) (p q : List α) (i : Nat) :
    r.matchAt (p ++ c :: q) (i + (p.length + 1)) =
      (r.matchAt q i).map (Match.shift (p.length + 1)) := by
  have hrun := run_cut_right hc p q ⟨i, []⟩
  rw [matchAt, matchAt]
  simp only [Cursor.shift, List.map_nil] at hrun
  rw [hrun, List.head?_map, Option.map_map, Option.map_map]
  rfl

/-- A character that stops the pattern cuts the search in two. -/
theorem finditer_cut (hw : 0 < r.minWidth) (hc : r.stopsAt c) (p q : List α) :
    r.finditer (p ++ c :: q) =
      r.finditer p ++ (r.finditer q).map (Match.shift (p.length + 1)) := by
  have hp := finditer_isScan hw p
  have hq := finditer_isScan hw q
  have hleft (m) (hm : m ∈ r.finditer p) : m.start < m.stop ∧ m.stop ≤ p.length :=
    matchAt_lt hw (hp.matches_at m hm)
  apply IsScan.unique hw (finditer_isScan hw _)
  refine ⟨?_, fun _ _ => Nat.zero_le _, ?_, ?_⟩
  · intro m hm
    rcases List.mem_append.1 hm with hm | hm
    · have hlt := hleft m hm
      rw [matchAt_cut_left hc q (by omega)]
      exact hp.matches_at m hm
    · obtain ⟨n, hn, rfl⟩ := List.mem_map.1 hm
      have hat := hq.matches_at n hn
      rw [Match.shift, matchAt_cut_right hc, hat]
      rfl
  · rw [List.pairwise_append, List.pairwise_map]
    refine ⟨hp.disjoint, hq.disjoint.imp fun h => Nat.add_le_add_right h _, ?_⟩
    intro m hm n hn
    obtain ⟨n, _, rfl⟩ := List.mem_map.1 hn
    have hlt := hleft m hm
    have hshift : (n.shift (p.length + 1)).start = n.start + (p.length + 1) := rfl
    omega
  · intro k m _ hm
    rcases Nat.lt_or_ge p.length k with hk | hk
    · obtain ⟨i, rfl⟩ := Nat.exists_eq_add_of_le' (Nat.succ_le_of_lt hk)
      rw [Nat.succ_eq_add_one, matchAt_cut_right hc] at hm
      obtain ⟨n, hn, rfl⟩ := Option.map_eq_some_iff.1 hm
      obtain ⟨n', hn', hle, hlt⟩ := hq.covers i n (Nat.zero_le i) hn
      refine ⟨n'.shift (p.length + 1), List.mem_append_right _ (List.mem_map_of_mem hn'), ?_, ?_⟩
      · exact Nat.add_le_add_right hle _
      · exact Nat.add_lt_add_right hlt _
    · rw [matchAt_cut_left hc q hk] at hm
      obtain ⟨m', hm', hcov⟩ := hp.covers k m (Nat.zero_le k) hm
      exact ⟨m', List.mem_append_left _ hm', hcov⟩

theorem finditer_apart (hw : 0 < r.minWidth) (hm : m ∈ r.finditer t) (hm' : m' ∈ r.finditer t) :
    m = m' ∨ m.stop ≤ m'.start ∨ m'.stop ≤ m.start := by
  have hpairs := (finditer_isScan hw t).disjoint.imp
    fun {a b : Match} h => (Or.inl h : a.stop ≤ b.start ∨ b.stop ≤ a.start)
  have hsymm : Std.Symm fun a b : Match => a.stop ≤ b.start ∨ b.stop ≤ a.start :=
    ⟨fun _ _ => Or.symm⟩
  by_cases h : m = m'
  · exact .inl h
  · exact .inr (hpairs.forall hm hm' h)

/-- Every group closed so far ends at the cursor or before it. -/
def GroupsBehind (cur : Cursor) : Prop := ∀ g ∈ cur.groups, g.2.2 ≤ cur.pos

theorem GroupsBehind.mono (h : GroupsBehind cur) (hpos : cur.pos ≤ d.pos)
    (hgroups : d.groups = cur.groups) : GroupsBehind d := by
  intro g hg
  rw [hgroups] at hg
  exact Nat.le_trans (h g hg) hpos

theorem run_pos_ge (h : d ∈ run t r cur) : cur.pos ≤ d.pos :=
  Nat.le_of_add_right_le (ends_ge (pos_mem_ends h))

theorem GroupsBehind.of_groupless (h : GroupsBehind cur) (hr : r.groupless)
    (hd : d ∈ run t r cur) : GroupsBehind d :=
  h.mono (run_pos_ge hd) (groups_run hr hd)

theorem GroupsBehind.run (h : GroupsBehind cur) (hd : d ∈ run t r cur) : GroupsBehind d := by
  induction r generalizing cur d with
  | cls f => exact h.of_groupless rfl hd
  | seq r s ihr ihs =>
    obtain ⟨e, he, hd⟩ := mem_run_seq.1 hd
    exact ihs (ihr h he) hd
  | alt r s ihr ihs =>
    rcases List.mem_append.1 hd with hd | hd
    · exact ihr h hd
    · exact ihs h hd
  | rep r lo hi ih =>
    obtain ⟨e, he, hd⟩ := mem_rounds.1 hd
    obtain ⟨m, _, hm⟩ := mem_upTo.1 hd
    have hstep (a) (ha : GroupsBehind a) (b) (hb : b ∈ Pattern.run t r a) : GroupsBehind b :=
      ih ha hb
    exact hm.preserves hstep (he.preserves hstep h)
  | many f lo => exact h.of_groupless rfl hd
  | group k r ih =>
    obtain ⟨e, he, rfl⟩ := mem_run_group.1 hd
    intro g hg
    rcases List.mem_cons.1 hg with rfl | hg
    · exact Nat.le_refl _
    · exact ih h he g hg
  | notBehind f => exact h.of_groupless rfl hd
  | notAhead f => exact h.of_groupless rfl hd
  | boundary f => exact h.of_groupless rfl hd

end Pattern

theorem slice_cut_left (h : j ≤ p.length) (c : α) (q : List α) :
    slice (p ++ c :: q) i j = slice p i j := by
  rw [slice, slice, List.take_append_of_le_length h]

theorem slice_cut_right (p : List α) (c : α) (q : List α) (i j : Nat) :
    slice (p ++ c :: q) (i + (p.length + 1)) (j + (p.length + 1)) = slice q i j := by
  have hlen : (p ++ [c]).length = p.length + 1 := by rw [List.length_append]; rfl
  have hsplit : p ++ c :: q = (p ++ [c]) ++ q := by rw [List.append_assoc]; rfl
  rw [slice, slice, hsplit, ← hlen, Nat.add_comm i, Nat.add_comm j, List.take_length_add_append,
    List.drop_length_add_append]

theorem Match.group_cut_left (hw : 0 < r.minWidth) (h : r.matchAt p i = some m) (c : α)
    (q : List α) (k : Nat) : m.group (p ++ c :: q) k = m.group p k := by
  have hlt := Pattern.matchAt_lt hw h
  rw [Match.group, Match.group]
  split
  · exact slice_cut_left hlt.2 c q
  · split
    · next g i j hfind =>
      have hbehind : Pattern.GroupsBehind ⟨m.stop, m.groups⟩ :=
        Pattern.GroupsBehind.run (fun _ hg => (by cases hg)) (Pattern.matchAt_run h)
      have hj : j ≤ m.stop := hbehind _ (List.mem_of_find?_eq_some hfind)
      exact slice_cut_left (Nat.le_trans hj hlt.2) c q
    · rfl

theorem Match.group_cut_right (m : Match) (p : List α) (c : α) (q : List α) (k : Nat) :
    (m.shift (p.length + 1)).group (p ++ c :: q) k = m.group q k := by
  rw [Match.group, Match.group]
  split
  · exact slice_cut_right p c q _ _
  · simp only [Match.shift, List.find?_map, Function.comp_def]
    cases m.groups.find? fun g => g.1 = k with
    | none => rfl
    | some g => exact slice_cut_right p c q _ _

theorem getElem?_slice (t : List α) (i j k : Nat) :
    (slice t i j)[k]? = if i + k < j then t[i + k]? else none := by
  rw [slice, List.getElem?_drop, List.getElem?_take]

theorem holdsAt_slice (h : i + k < j) : holdsAt f (slice t i j) k = holdsAt f t (i + k) := by
  rw [holdsAt, holdsAt, getElem?_slice, if_pos h]

theorem holdsAt_slice_false (h : holdsAt f t (i + k) = false) (j : Nat) :
    holdsAt f (slice t i j) k = false := by
  rw [holdsAt, getElem?_slice]
  split
  · exact h
  · rfl

theorem holdsBefore_slice_false (h : holdsBefore f t (i + k) = false) (j : Nat) :
    holdsBefore f (slice t i j) k = false := by
  cases k with
  | zero => rfl
  | succ k => exact holdsAt_slice_false h j

theorem slice_slice (t : List α) (i : Nat) (h : i + b ≤ j) (a : Nat) :
    slice (slice t i j) a b = slice t (i + a) (i + b) := by
  apply List.ext_getElem?
  intro k
  rw [getElem?_slice, getElem?_slice, getElem?_slice, Nat.add_assoc]
  by_cases hk : a + k < b
  · rw [if_pos hk, if_pos (by omega), if_pos (by omega)]
  · rw [if_neg hk, if_neg (by omega)]

theorem length_slice_le (t : List α) (i j : Nat) : (slice t i j).length ≤ j - i := by
  rw [slice, List.length_drop, List.length_take]
  omega

namespace Pattern

/-- What a pattern without assertions matches in a stretch, it matches in the whole text. -/
theorem ends_of_slice (hr : r.plain) (h : b ∈ ends (slice t i j) r a) :
    i + b ∈ ends t r (i + a) := by
  have hab := ends_ge h
  obtain ⟨n, rfl⟩ := Nat.exists_eq_add_of_le (Nat.le_of_add_right_le hab)
  rw [← Nat.add_assoc]
  apply ends_shift hr h
  intro k hk
  have hle := ends_le_length h (by omega)
  have hlen := length_slice_le t i j
  rw [getElem?_slice, if_pos (by omega), Nat.add_assoc]

theorem ends_to_slice (hr : r.plain) (h : i + b ∈ ends t r (i + a)) (hj : i + b ≤ j) :
    b ∈ ends (slice t i j) r a := by
  have hab := ends_ge h
  obtain ⟨n, rfl⟩ := Nat.exists_eq_add_of_le (show a ≤ b by omega)
  rw [← Nat.add_assoc] at h
  apply ends_shift hr h
  intro k hk
  rw [getElem?_slice, if_pos (by omega), Nat.add_assoc]

end Pattern

end Backtrack
