import Mathlib.Data.List.Nodup
import Mathlib.Data.Finset.Card

namespace Numbering
set_option autoImplicit true

variable [DecidableEq α] {l l' : List α} {a b : α}

/-- The distinct elements, each at its first occurrence. -/
def firstSeen (l : List α) : List α := l.eraseDups

/-- Elements are numbered from 1 in the order in which they first occur. -/
def number (l : List α) (a : α) : Nat := (firstSeen l).idxOf a + 1

@[simp] theorem mem_firstSeen : a ∈ firstSeen l ↔ a ∈ l := List.mem_eraseDups

theorem firstSeen_append (l l' : List α) :
    firstSeen (l ++ l') = firstSeen l ++ firstSeen (l'.removeAll l) := List.eraseDups_append

theorem firstSeen_concat_old (h : a ∈ l) : firstSeen (l ++ [a]) = firstSeen l := by
  have hrest : [a].removeAll l = [] := by simp [List.removeAll, h]
  rw [firstSeen_append, hrest]
  exact List.append_nil _

theorem firstSeen_concat_new (h : a ∉ l) : firstSeen (l ++ [a]) = firstSeen l ++ [a] := by
  have hrest : [a].removeAll l = [a] := by simp [List.removeAll, h]
  rw [firstSeen_append, hrest]
  rfl

theorem nodup_firstSeen (l : List α) : (firstSeen l).Nodup := by
  induction l using List.reverseRecOn with
  | nil => exact List.nodup_nil
  | append_singleton l a ih =>
    by_cases h : a ∈ l
    · rw [firstSeen_concat_old h]
      exact ih
    · rw [firstSeen_concat_new h]
      apply ih.append (List.nodup_singleton a)
      rw [List.disjoint_singleton, mem_firstSeen]
      exact h

theorem length_firstSeen (l : List α) : (firstSeen l).length = l.toFinset.card := by
  have hset : (firstSeen l).toFinset = l.toFinset := by
    ext a
    rw [List.mem_toFinset, List.mem_toFinset, mem_firstSeen]
  rw [← hset, List.toFinset_card_of_nodup (nodup_firstSeen l)]

theorem number_append (h : a ∈ l) (l' : List α) : number (l ++ l') a = number l a := by
  rw [number, firstSeen_append, List.idxOf_append_of_mem (mem_firstSeen.2 h), number]

theorem number_concat_new (h : a ∉ l) : number (l ++ [a]) a = (firstSeen l).length + 1 := by
  have hn : a ∉ firstSeen l := fun hm => h (mem_firstSeen.1 hm)
  rw [number, firstSeen_concat_new h, List.idxOf_append_of_notMem hn]
  simp

theorem number_pos (l : List α) (a : α) : 0 < number l a := Nat.succ_pos _

theorem number_le (h : a ∈ l) : number l a ≤ (firstSeen l).length :=
  List.idxOf_lt_length_of_mem (mem_firstSeen.2 h)

theorem number_inj (ha : a ∈ l) : number l a = number l b ↔ a = b := by
  rw [number, number, Nat.add_right_cancel_iff]
  exact List.idxOf_inj (mem_firstSeen.2 ha)

theorem exists_number (hpos : 0 < i) (hle : i ≤ (firstSeen l).length) :
    ∃ a ∈ l, number l a = i := by
  obtain ⟨j, rfl⟩ := Nat.exists_eq_succ_of_ne_zero (Nat.ne_of_gt hpos)
  have hj : j < (firstSeen l).length := hle
  refine ⟨(firstSeen l)[j], mem_firstSeen.1 (List.getElem_mem hj), ?_⟩
  rw [number, (nodup_firstSeen l).idxOf_getElem j hj]

theorem number_lt_number (ha : a ∈ l) (hb : b ∈ l) :
    number l a < number l b ↔ l.idxOf a < l.idxOf b := by
  induction l using List.reverseRecOn with
  | nil => cases ha
  | append_singleton l x ih =>
    by_cases hal : a ∈ l
    · have hlt := List.idxOf_lt_length_of_mem hal
      rw [number_append hal, List.idxOf_append_of_mem hal]
      by_cases hbl : b ∈ l
      · rw [number_append hbl, List.idxOf_append_of_mem hbl]
        exact ih hal hbl
      · obtain rfl : b = x := by simpa [hbl] using hb
        have hle := number_le hal
        rw [number_concat_new hbl, List.idxOf_append_of_notMem hbl]
        exact iff_of_true (Nat.lt_succ_of_le hle) (Nat.lt_add_right _ hlt)
    · obtain rfl : a = x := by simpa [hal] using ha
      rw [number_concat_new hal, List.idxOf_append_of_notMem hal]
      by_cases hbl : b ∈ l
      · have hle := number_le hbl
        have hlt := List.idxOf_lt_length_of_mem hbl
        rw [number_append hbl, List.idxOf_append_of_mem hbl]
        exact iff_of_false (by omega) (by omega)
      · obtain rfl : b = a := by simpa [hbl] using hb
        rw [number_concat_new hbl, List.idxOf_append_of_notMem hbl]
        exact iff_of_false (Nat.lt_irrefl _) (Nat.lt_irrefl _)

/-- The number in `l'` of the element with number `i` in `l`; the numbers that `l` does not use go
beyond those of `l'`. -/
def renumber (l l' : List α) : Nat → Nat
  | 0 => 0
  | i + 1 => ((firstSeen l)[i]?).elim (i + 1 + (firstSeen l').length) (number l')

theorem renumber_number (h : a ∈ l) : renumber l l' (number l a) = number l' a := by
  have hmem : a ∈ firstSeen l := mem_firstSeen.2 h
  rw [number, renumber, List.getElem?_eq_getElem (List.idxOf_lt_length_of_mem hmem),
    List.getElem_idxOf]
  rfl

theorem renumber_succ_cases (l l' : List α) (i : Nat) :
    (∃ a, (firstSeen l)[i]? = some a ∧ a ∈ l ∧ renumber l l' (i + 1) = number l' a) ∨
      renumber l l' (i + 1) = i + 1 + (firstSeen l').length := by
  rw [renumber]
  cases h : (firstSeen l)[i]? with
  | none => exact .inr rfl
  | some a => exact .inl ⟨a, rfl, mem_firstSeen.1 (List.mem_of_getElem? h), rfl⟩

theorem renumber_injective (h : l ⊆ l') : Function.Injective (renumber l l') := by
  have hzero (i : Nat) : renumber l l' (i + 1) ≠ 0 := by
    rcases renumber_succ_cases l l' i with ⟨a, _, _, heq⟩ | heq
    · rw [heq]
      exact Nat.ne_of_gt (number_pos l' a)
    · omega
  intro i j hij
  cases i with
  | zero =>
    cases j with
    | zero => rfl
    | succ j => exact absurd hij.symm (hzero j)
  | succ i =>
    cases j with
    | zero => exact absurd hij (hzero i)
    | succ j =>
      rcases renumber_succ_cases l l' i with ⟨a, hi, ha, heq⟩ | heq
      · have hle := number_le (h ha)
        rcases renumber_succ_cases l l' j with ⟨b, hj, _, heq'⟩ | heq'
        · rw [heq, heq', number_inj (h ha)] at hij
          subst hij
          have hlt := (List.getElem?_eq_some_iff.1 hi).1
          exact congrArg Nat.succ ((List.getElem?_inj hlt (nodup_firstSeen l)).1 (hi.trans hj.symm))
        · omega
      · rcases renumber_succ_cases l l' j with ⟨b, _, hb, heq'⟩ | heq'
        · have hle := number_le (h hb)
          omega
        · omega

end Numbering
