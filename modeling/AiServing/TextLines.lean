import AiServing.UnicodeClasses
import Mathlib.Data.List.DropRight

namespace AiServing
set_option autoImplicit true

/-- Reading as UTF-8, strictly. -/
def decodeUtf8 (bytes : ByteArray) : Option Text := bytes.utf8Decode?.map Array.toList

def encodeUtf8 (t : Text) : ByteArray := (String.ofList t).toByteArray

theorem decodeUtf8_encodeUtf8 (t : Text) : decodeUtf8 (encodeUtf8 t) = some t := by
  simp [decodeUtf8, encodeUtf8]

theorem encodeUtf8_append (t u : Text) : encodeUtf8 (t ++ u) = encodeUtf8 t ++ encodeUtf8 u := by
  simp [encodeUtf8]

/-- Text mode reads every line ending as a newline. -/
def universalNewlines : Text → Text
  | '\r' :: '\n' :: t => '\n' :: universalNewlines t
  | '\r' :: t => '\n' :: universalNewlines t
  | c :: t => c :: universalNewlines t
  | [] => []

/-- The characters at which `str.splitlines` ends a line. -/
def isLineBreak (c : Char) : Bool :=
  [0x0a, 0x0b, 0x0c, 0x0d, 0x1c, 0x1d, 0x1e, 0x85, 0x2028, 0x2029].contains c.toNat

def consLine (c : Char) : List Text → List Text
  | [] => [[c]]
  | l :: ls => (c :: l) :: ls

def splitlines : Text → List Text
  | '\r' :: '\n' :: t => [] :: splitlines t
  | c :: t => if isLineBreak c then [] :: splitlines t else consLine c (splitlines t)
  | [] => []

def isReturnOrNewline (c : Char) : Bool := c = '\r' || c = '\n'

/-- `str.rstrip("\r\n")` -/
def rstripNewlines (l : Text) : Text := l.rdropWhile isReturnOrNewline

theorem universalNewlines_cons (h : c ≠ '\r') (t : Text) :
    universalNewlines (c :: t) = c :: universalNewlines t := by
  rw [universalNewlines]
  · exact fun _ hc _ => h hc
  · exact h

theorem universalNewlines_eq (h : '\r' ∉ t) : universalNewlines t = t := by
  induction t with
  | nil => rfl
  | cons c t ih =>
    rw [List.mem_cons, not_or] at h
    rw [universalNewlines_cons (Ne.symm h.1), ih h.2]

theorem splitlines_cons (h : c ≠ '\r') (t : Text) :
    splitlines (c :: t) =
      if isLineBreak c then [] :: splitlines t else consLine c (splitlines t) := by
  rw [splitlines]
  exact fun _ hc _ => h hc

theorem splitlines_line (hl : ∀ c ∈ l, isLineBreak c = false) (t : Text) :
    splitlines (l ++ '\n' :: t) = l :: splitlines t := by
  induction l with
  | nil => exact splitlines_cons (by decide) t
  | cons c l ih =>
    have hc := hl c List.mem_cons_self
    have hne : c ≠ '\r' := by
      intro h
      subst h
      cases hc
    have hrest := ih fun d hd => hl d (List.mem_cons_of_mem _ hd)
    rw [List.cons_append, splitlines_cons hne, hrest, hc]
    rfl

theorem rstripNewlines_eq (h : ∀ c ∈ l, isLineBreak c = false) : rstripNewlines l = l := by
  have hnone (c) (hc : c ∈ l.reverse) : isReturnOrNewline c = false := by
    have hb := h c (List.mem_reverse.1 hc)
    by_contra hcr
    rw [Bool.not_eq_false, isReturnOrNewline, Bool.or_eq_true, decide_eq_true_eq,
      decide_eq_true_eq] at hcr
    rcases hcr with rfl | rfl
    · cases hb
    · cases hb
  rw [rstripNewlines, List.rdropWhile]
  cases hl : l.reverse with
  | nil => exact (List.reverse_eq_nil_iff.1 hl).symm
  | cons c m =>
    have hc := hnone c (hl ▸ List.mem_cons_self)
    rw [List.dropWhile_cons_of_neg (by rw [hc]; exact Bool.false_ne_true), ← hl,
      List.reverse_reverse]

theorem consLine_append (h : ls ≠ []) : consLine c (ls ++ ms) = consLine c ls ++ ms := by
  cases ls with
  | nil => exact (h rfl).elim
  | cons l ls => rfl

theorem splitlines_ne_nil (h : t ≠ []) : splitlines t ≠ [] := by
  fun_cases splitlines t with
  | case1 t => exact List.cons_ne_nil _ _
  | case2 c t => exact List.cons_ne_nil _ _
  | case3 c t _ hc =>
    rw [consLine.eq_def]
    split
    · exact List.cons_ne_nil _ _
    · exact List.cons_ne_nil _ _
  | case4 => exact absurd rfl h

/-- Every break cuts the text like a newline; only a return joins with what follows it. -/
theorem splitlines_append_break (hb : isLineBreak b) (hr : b ≠ '\r') (hu : '\r' ∉ u) (t : Text) :
    splitlines (u ++ b :: t) = splitlines (u ++ ['\n']) ++ splitlines t := by
  induction u with
  | nil =>
    rw [List.nil_append, splitlines_cons hr, if_pos hb]
    rfl
  | cons c u ih =>
    rw [List.mem_cons, not_or] at hu
    have hc : c ≠ '\r' := Ne.symm hu.1
    have hne : u ++ ['\n'] ≠ [] := List.append_ne_nil_of_right_ne_nil _ (List.cons_ne_nil _ _)
    rw [List.cons_append, List.cons_append, splitlines_cons hc, splitlines_cons hc, ih hu.2]
    by_cases hbreak : isLineBreak c
    · rw [if_pos hbreak, if_pos hbreak]
      rfl
    · rw [if_neg hbreak, if_neg hbreak, consLine_append (splitlines_ne_nil hne)]

theorem exists_mem_splitlines (hc : isLineBreak c = false) (h : c ∈ t) :
    ∃ l ∈ splitlines t, c ∈ l := by
  fun_induction splitlines t with
  | case1 t ih =>
    have hmem : c ∈ t := by
      rcases List.mem_cons.1 h with rfl | h
      · cases hc
      · rcases List.mem_cons.1 h with rfl | h
        · cases hc
        · exact h
    obtain ⟨l, hl, hcl⟩ := ih hmem
    exact ⟨l, List.mem_cons_of_mem _ hl, hcl⟩
  | case2 d t _ hd ih =>
    rcases List.mem_cons.1 h with rfl | h
    · rw [hc] at hd
      cases hd
    · obtain ⟨l, hl, hcl⟩ := ih h
      exact ⟨l, List.mem_cons_of_mem _ hl, hcl⟩
  | case3 d t _ hd ih =>
    cases hls : splitlines t with
    | nil =>
      refine ⟨[d], List.mem_singleton_self _, ?_⟩
      rcases List.mem_cons.1 h with rfl | h
      · exact List.mem_singleton_self _
      · obtain ⟨l, hl, _⟩ := ih h
        rw [hls] at hl
        cases hl
    | cons m ls =>
      rw [hls] at ih
      rcases List.mem_cons.1 h with rfl | h
      · exact ⟨c :: m, List.mem_cons_self, List.mem_cons_self⟩
      · obtain ⟨l, hl, hcl⟩ := ih h
        rcases List.mem_cons.1 hl with rfl | hl
        · exact ⟨d :: l, List.mem_cons_self, List.mem_cons_of_mem _ hcl⟩
        · exact ⟨l, List.mem_cons_of_mem _ hl, hcl⟩
  | case4 => cases h

end AiServing
