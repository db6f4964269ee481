import Mathlib.Data.List.Basic

namespace EventStream
set_option autoImplicit true

/-- A stream cut behind each of its blank lines. -/
def frames : List Char → List (List Char)
  | [] => []
  | '\n' :: '\n' :: t => ['\n', '\n'] :: frames t
  | c :: t =>
    match frames t with
    | [] => [[c]]
    | f :: fs => (c :: f) :: fs

/-- Neither a blank line nor the first half of one at the end. -/
def unbroken : List Char → Bool
  | [] => true
  | '\n' :: '\n' :: _ => false
  | ['\n'] => false
  | _ :: t => unbroken t

variable {c : Char} {g t : List Char} {fs : List (List Char)}

theorem frames_cons (h : ∀ u, c = '\n' → t = '\n' :: u → False) (hf : frames t = f :: fs) :
    frames (c :: t) = (c :: f) :: fs := by
  rw [frames, hf]
  exact h

theorem frames_append (hg : unbroken g) (t : List Char) :
    frames (g ++ '\n' :: '\n' :: t) = (g ++ ['\n', '\n']) :: frames t := by
  induction g using unbroken.induct with
  | case1 => simp only [List.nil_append, frames]
  | case2 u => simp [unbroken] at hg
  | case3 => simp [unbroken] at hg
  | case4 c u h₁ h₂ ih =>
    rw [unbroken] at hg
    · refine frames_cons (fun v hc hv => ?_) (ih hg)
      cases u with
      | nil => exact h₂ hc rfl
      | cons d u => exact h₁ u hc (congrArg (· :: u) (List.cons.inj hv).1)
    · exact h₁
    · exact h₂

/-- A frame ends with the only blank line in it. -/
def IsFrame (t : List Char) : Prop := ∃ g, unbroken g ∧ t = g ++ ['\n', '\n']

/-- A stream made of frames is cut into these frames. -/
theorem frames_flatten (h : ∀ t ∈ fs, IsFrame t) : frames fs.flatten = fs := by
  induction fs with
  | nil => rfl
  | cons t fs ih =>
    obtain ⟨g, hg, rfl⟩ := h t List.mem_cons_self
    have hrest := ih fun u hu => h u (List.mem_cons_of_mem _ hu)
    calc frames ((g ++ ['\n', '\n']) ++ fs.flatten)
        = frames (g ++ '\n' :: '\n' :: fs.flatten) := by rw [List.append_assoc]; rfl
      _ = (g ++ ['\n', '\n']) :: frames fs.flatten := frames_append hg _
      _ = (g ++ ['\n', '\n']) :: fs := by rw [hrest]

theorem unbroken_cons (h : c ≠ '\n') (t : List Char) : unbroken (c :: t) = unbroken t := by
  rw [unbroken]
  · exact fun _ hc => absurd hc h
  · exact fun hc => absurd hc h

theorem unbroken_append (h : '\n' ∉ g) (t : List Char) : unbroken (g ++ t) = unbroken t := by
  induction g with
  | nil => rfl
  | cons c g ih =>
    rw [List.cons_append, unbroken_cons fun hc => h (hc ▸ List.mem_cons_self)]
    exact ih fun hg => h (List.mem_cons_of_mem _ hg)

theorem unbroken_of_line (h : '\n' ∉ g) : unbroken g := by
  have hend := unbroken_append h []
  rwa [List.append_nil] at hend

theorem unbroken_two_lines (hg : '\n' ∉ g) (hne : t ≠ []) (ht : '\n' ∉ t) :
    unbroken (g ++ '\n' :: t) := by
  cases t with
  | nil => exact absurd rfl hne
  | cons c t =>
    rw [unbroken_append hg, unbroken]
    · exact unbroken_of_line ht
    · exact fun _ _ hu => ht (List.mem_cons.2 (.inl (List.cons.inj hu).1.symm))
    · exact fun _ hu => nomatch hu

end EventStream
