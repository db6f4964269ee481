import AiServing.Dictionary
import Mathlib.Algebra.GroupWithZero.Nat

namespace Dictionary
set_option autoImplicit true

variable [DecidableEq κ]

namespace Dict

/-- Add to the count of a key. What counts nothing leaves no key. -/
def tally (d : Dict κ Nat) (k : κ) (n : Nat) : Dict κ Nat :=
  if n = 0 then d else d.set k ((d.get? k).getD 0 + n)

def Counts (d : Dict κ Nat) (f : κ → Nat) : Prop :=
  ∀ k, d.get? k = if f k = 0 then none else some (f k)

theorem counts_empty : (empty : Dict κ Nat).Counts fun _ => 0 := fun _ => rfl

variable {d : Dict κ Nat} {f : κ → Nat} {k : κ}

theorem Counts.getD (h : d.Counts f) (k : κ) : (d.get? k).getD 0 = f k := by
  rw [h]
  split
  · rename_i hf
    exact hf.symm
  · rfl

theorem Counts.mem_keys (h : d.Counts f) : k ∈ d.keys ↔ f k ≠ 0 := by
  rw [← get?_isSome, h]
  split
  · rename_i hf
    exact iff_of_false Bool.false_ne_true (not_not.2 hf)
  · rename_i hf
    exact iff_of_true rfl hf

theorem Counts.tally (h : d.Counts f) (k : κ) (n : Nat) :
    (d.tally k n).Counts fun k' => f k' + if k = k' then n else 0 := by
  intro k'
  rw [Dict.tally]
  by_cases hn : n = 0
  · simp only [hn, ite_self, Nat.add_zero]
    exact h k'
  · rw [if_neg hn, get?_set, h.getD]
    by_cases hk : k = k'
    · subst hk
      simp only [if_true, Nat.add_eq_zero_iff, hn, and_false, if_false]
    · simp only [if_neg (Ne.symm hk), if_neg hk, Nat.add_zero]
      exact h k'

theorem Counts.foldl (h : d.Counts f) (es : List (κ × Nat)) :
    (es.foldl (fun d e => d.tally e.1 e.2) d).Counts fun k =>
      f k + (es.map fun e => if e.1 = k then e.2 else 0).sum := by
  induction es generalizing d f with
  | nil => exact h
  | cons e es ih =>
    intro k
    rw [List.foldl_cons, ih (h.tally e.1 e.2) k]
    simp only [List.map_cons, List.sum_cons, Nat.add_assoc]

end Dict

end Dictionary
