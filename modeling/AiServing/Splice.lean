import AiServing.PatternSyntax

namespace Backtrack
set_option autoImplicit true

/-- Replace `[start, stop)` by `text`. -/
structure Edit (α : Type u) where
  start : Nat
  stop : Nat
  text : List α

/-- Edits from position `i` on, left to right, inside a text of length `n`. -/
inductive Edits {α : Type u} (n : Nat) : Nat → List (Edit α) → Prop
  | nil (h : i ≤ n) : Edits n i []
  | cons (h : i ≤ e.start) (h' : e.start ≤ e.stop) (hs : Edits n e.stop es) : Edits n i (e :: es)

def Edit.span (e : Edit α) : Nat × Nat := (e.start, e.stop)

/-- The stretches of the text that no span touches. -/
def segments (t : List α) : Nat → List (Nat × Nat) → List (List α)
  | i, [] => [t.drop i]
  | i, s :: ss => slice t i s.1 :: segments t s.2 ss

/-- Alternate segments and replacements. -/
def weave : List (List α) → List (List α) → List α
  | g :: gs, r :: rs => g ++ r ++ weave gs rs
  | gs, _ => gs.flatten

/-- Apply one edit to the text as it stands. -/
def Edit.apply (t : List α) (e : Edit α) : List α := t.take e.start ++ e.text ++ t.drop e.stop

/-- The text after all edits, from position `i` of the original on. -/
def spliced (t : List α) (i : Nat) (es : List (Edit α)) : List α :=
  weave (segments t i (es.map Edit.span)) (es.map Edit.text)

theorem Edits.le (h : Edits n i es) : i ≤ n := by
  induction h with
  | nil h => exact h
  | cons h h' _ ih => omega

theorem take_append_slice (t : List α) (h : i ≤ j) : t.take i ++ slice t i j = t.take j := by
  have hi : (t.take j).take i = t.take i := by rw [List.take_take, Nat.min_eq_left h]
  rw [slice, ← hi, List.take_append_drop]

@[simp] theorem spliced_nil (t : List α) (i : Nat) : spliced t i [] = t.drop i := by
  simp [spliced, segments, weave]

@[simp] theorem spliced_cons (t : List α) (i : Nat) (e : Edit α) (es : List (Edit α)) :
    spliced t i (e :: es) = slice t i e.start ++ e.text ++ spliced t e.stop es := rfl

theorem slice_append_drop (t : List α) (h : i ≤ j) : slice t i j ++ t.drop j = t.drop i := by
  have hsplit := (t.drop i).take_append_drop (j - i)
  rwa [List.drop_drop, Nat.add_sub_cancel' h, ← List.drop_take] at hsplit

theorem weave_slices {t : List α} {es : List (Edit α)} (h : Edits t.length i es) :
    weave (segments t i (es.map Edit.span)) (es.map fun e => slice t e.start e.stop) =
      t.drop i := by
  induction h with
  | nil => simp [segments, weave]
  | @cons i es e h h' _ ih =>
    rw [List.map_cons, List.map_cons, segments, weave, Edit.span, ih, List.append_assoc,
      slice_append_drop t h', slice_append_drop t h]

/-- Applied from the right, the edits do not move one another. -/
theorem foldr_apply {t : List α} (h : Edits t.length i es) :
    es.foldr (fun e t => e.apply t) t = t.take i ++ spliced t i es := by
  induction h with
  | nil h => rw [List.foldr_nil, spliced_nil, List.take_append_drop]
  | @cons i es e h h' hs ih =>
    have hl : (t.take e.stop).length = e.stop := by
      rw [List.length_take, Nat.min_eq_left hs.le]
    have htake : (t.take e.stop ++ spliced t e.stop es).take e.start =
        t.take i ++ slice t i e.start := by
      rw [List.take_append_of_le_length (by omega), List.take_take, Nat.min_eq_left h',
        take_append_slice t h]
    have hdrop : (t.take e.stop ++ spliced t e.stop es).drop e.stop = spliced t e.stop es :=
      List.drop_left' hl
    rw [List.foldr_cons, ih, Edit.apply, htake, hdrop, spliced_cons]
    simp only [List.append_assoc]

theorem foldr_apply_zero {t : List α} (h : Edits t.length 0 es) :
    es.foldr (fun e t => e.apply t) t = spliced t 0 es := by
  rw [foldr_apply h, List.take_zero, List.nil_append]

end Backtrack
