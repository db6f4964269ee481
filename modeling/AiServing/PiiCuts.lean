import AiServing.PiiTwoRuns
import AiServing.PatternCuts
import AiServing.DecimalText

namespace AiServing
open Backtrack Pattern
set_option autoImplicit true

variable {p q text : Text} {t : PiiType}

def Candidate.shift (d : Nat) (c : Candidate) : Candidate :=
  { c with start := c.start + d, stop := c.stop + d }

theorem PiiType.stopsAt (t : PiiType) (h : c ∈ ['[', ']', ':']) : t.pattern.stopsAt c := by
  have hall : ['[', ']', ':'].all fun c => DETECTOR_PRIORITY.all fun t => t.pattern.stopsAt c := by
    decide +kernel
  exact List.all_eq_true.1 (List.all_eq_true.1 hall c h) t (mem_DETECTOR_PRIORITY t)

theorem PiiType.accepts_cut_left (t : PiiType) (h : t.pattern.matchAt p i = some m) (c : Char)
    (q : Text) : t.accepts (p ++ c :: q) m = t.accepts p m := by
  have hgroup (k : Nat) : m.group (p ++ c :: q) k = m.group p k :=
    Match.group_cut_left t.minWidth_pos h c q k
  cases t with
  | rrn => simp only [accepts, hgroup]
  | card => simp only [accepts, hgroup]
  | phone => rfl
  | email => rfl

theorem PiiType.accepts_cut_right (t : PiiType) (m : Match) (p : Text) (c : Char) (q : Text) :
    t.accepts (p ++ c :: q) (m.shift (p.length + 1)) = t.accepts q m := by
  cases t with
  | rrn => simp only [accepts, Match.group_cut_right]
  | card => simp only [accepts, Match.group_cut_right]
  | phone => rfl
  | email => rfl

/-- A bracket or a colon cuts the work of a detector in two. -/
theorem DETECTORS_cut (t : PiiType) (hc : c ∈ ['[', ']', ':']) (p q : Text) :
    DETECTORS t (p ++ c :: q) =
      DETECTORS t p ++ (DETECTORS t q).map (.shift (p.length + 1)) := by
  have hmatch (m) (hm : m ∈ t.pattern.finditer p) : t.pattern.matchAt p m.start = some m :=
    (finditer_isScan t.minWidth_pos p).matches_at m hm
  rw [DETECTORS_eq, DETECTORS_eq, DETECTORS_eq, finditer_cut t.minWidth_pos (t.stopsAt hc),
    List.filter_append, List.map_append]
  congr 1
  · have hfilter : ((t.pattern.finditer p).filter fun m => t.accepts (p ++ c :: q) m) =
        (t.pattern.finditer p).filter fun m => t.accepts p m :=
      List.filter_congr fun m hm => t.accepts_cut_left (hmatch m hm) c q
    rw [hfilter]
    apply List.map_congr_left
    intro m hm
    have hat := hmatch m (List.mem_filter.1 hm).1
    rw [Candidate.ofMatch, Candidate.ofMatch, Match.group_cut_left t.minWidth_pos hat]
  · rw [List.filter_map, List.map_map, List.map_map]
    have hfilter : ((t.pattern.finditer q).filter
          ((fun m => t.accepts (p ++ c :: q) m) ∘ Match.shift (p.length + 1))) =
        (t.pattern.finditer q).filter fun m => t.accepts q m :=
      List.filter_congr fun m _ => t.accepts_cut_right m p c q
    rw [hfilter]
    apply List.map_congr_left
    intro m _
    simp only [Function.comp, Candidate.ofMatch, Match.group_cut_right]
    rfl

/-- The values a detector yields, in their order. -/
def detected (t : PiiType) (text : Text) : List Text := (DETECTORS t text).map Candidate.rawValue

theorem detected_cut (t : PiiType) (hc : c ∈ ['[', ']', ':']) (p q : Text) :
    detected t (p ++ c :: q) = detected t p ++ detected t q := by
  rw [detected, detected, detected, DETECTORS_cut t hc, List.map_append, List.map_map]
  rfl

theorem detected_eq_nil : detected t text = [] ↔ DETECTORS t text = [] := List.map_eq_nil_iff

theorem DETECTORS_eq_nil (h : ∀ i j, j ∉ ends text t.pattern i) : DETECTORS t text = [] := by
  rw [List.eq_nil_iff_forall_not_mem]
  intro c hc
  obtain ⟨m, hm, _, _⟩ := mem_DETECTORS hc
  exact h _ _ (matchAt_stop ((finditer_isScan t.minWidth_pos text).matches_at m hm))

theorem DETECTORS_short (h : text.length < t.pattern.minWidth) : DETECTORS t text = [] := by
  apply DETECTORS_eq_nil
  intro i j hj
  have hge := ends_ge hj
  have hle := ends_le_length hj (by have := t.minWidth_pos; omega)
  omega

theorem exists_at_of_email (h : j ∈ ends text EMAIL_RE i) : ∃ k, holdsAt (· == '@') text k := by
  obtain ⟨k, _, hk⟩ := mem_ends_seq.1 h
  obtain ⟨_, hat, _⟩ := mem_ends_seq.1 hk
  exact ⟨k, (mem_ends_cls.1 hat).1⟩

theorem first_of_phone (h : j ∈ ends text phoneBody i) :
    holdsAt (fun c => c == '0' || c == '+') text i := by
  have hfirst (c : Char) (r : Pattern Char) (k) (hk : k ∈ ends text (seq (lit c) r) i) :
      holdsAt (· == c) text i := by
    obtain ⟨_, hc, _⟩ := mem_ends_seq.1 hk
    exact (mem_ends_cls.1 hc).1
  rcases mem_ends_alt.1 h with h | h
  · obtain ⟨k, hk, _⟩ := mem_ends_seq.1 h
    have hzero : holdsAt (· == '0') text i := by
      rcases mem_ends_alt.1 hk with hk | hk
      · exact hfirst _ _ k hk
      rcases mem_ends_alt.1 hk with hk | hk
      · exact hfirst _ _ k hk
      · exact hfirst _ _ k hk
    exact holdsAt_mono hzero fun a ha => by rw [ha, Bool.true_or]
  · exact holdsAt_mono (hfirst _ _ j h) fun a ha => by rw [ha, Bool.or_true]

theorem mem_ends_PHONE_RE : j ∈ ends text PHONE_RE i ↔
    holdsBefore isDecimal text i = false ∧ j ∈ ends text phoneBody i ∧
      holdsAt isDecimal text j = false := by
  simp only [PHONE_RE, mem_ends_seq, mem_ends_notBehind, mem_ends_notAhead]
  constructor
  · rintro ⟨k, ⟨hb, rfl⟩, l, hl, ha, rfl⟩
    exact ⟨hb, hl, ha⟩
  · rintro ⟨hb, hl, ha⟩
    exact ⟨i, ⟨hb, rfl⟩, j, hl, ha, rfl⟩

theorem digitsOf_head (h : 0 < n) : holdsAt (· == '0') (digitsOf n) 0 = false := by
  induction n using Nat.strongRecOn with
  | ind n ih =>
    rcases Nat.lt_or_ge n 10 with hn | hn
    · have hdigits : ∀ n < 10, 0 < n → holdsAt (· == '0') (digitsOf n) 0 = false := by decide
      exact hdigits n hn h
    · have hrec := ih (n / 10) (Nat.div_lt_self h (by decide)) (Nat.div_pos hn (by decide))
      have hsplit : digitsOf n = digitsOf (n / 10) ++ [(n % 10).digitChar] :=
        Nat.toDigits_of_base_le (by decide) hn
      have hlen : 0 < (digitsOf (n / 10)).length := List.length_pos_iff.2 (digitsOf_ne_nil _)
      rw [hsplit, holdsAt, List.getElem?_append_left hlen]
      exact hrec

theorem digitsOf_holdsAt (h : i < (digitsOf n).length) : holdsAt isAsciiDigit (digitsOf n) i := by
  rw [holdsAt, List.getElem?_eq_getElem h]
  exact digitsOf_isDigit (List.getElem_mem h)

theorem DETECTORS_digitsOf (t : PiiType) (h : 0 < n) (hn : n < 10 ^ 12) :
    DETECTORS t (digitsOf n) = [] := by
  have hlen : (digitsOf n).length ≤ 12 := by
    rw [digitsOf, Nat.length_toDigits_le_iff (by decide) (Nat.succ_pos 11)]
    exact hn
  have hdigit (i) (hi : i < (digitsOf n).length) (f : Char → Bool)
      (hf : ∀ k < 10, f (Char.ofNat (48 + k)) = true) : holdsAt f (digitsOf n) i :=
    holdsAt_mono (digitsOf_holdsAt hi) fun c hc => isAsciiDigit.elim hc hf
  cases t with
  | rrn => exact DETECTORS_short (Nat.lt_of_le_of_lt hlen (by decide))
  | card => exact DETECTORS_short (Nat.lt_of_le_of_lt hlen (by decide))
  | email =>
    apply DETECTORS_eq_nil
    intro i j hj
    obtain ⟨k, hk⟩ := exists_at_of_email hj
    obtain ⟨c, hc, hat⟩ := holdsAt_iff.1 hk
    have hne := hdigit k (holdsAt_lt_length hk) (· != '@') (by decide)
    rw [holdsAt, hc, Option.any_some, bne, hat] at hne
    cases hne
  | phone =>
    apply DETECTORS_eq_nil
    intro i j hj
    obtain ⟨hbefore, hbody, _⟩ := mem_ends_PHONE_RE.1 hj
    have hfirst := first_of_phone hbody
    have hi := holdsAt_lt_length hfirst
    cases i with
    | zero =>
      obtain ⟨c, hc, hstart⟩ := holdsAt_iff.1 hfirst
      have hhead := digitsOf_head h
      have hplus := hdigit 0 hi (· != '+') (by decide)
      rw [holdsAt, hc, Option.any_some] at hhead hplus
      rw [hhead, Bool.false_or] at hstart
      rw [bne, hstart] at hplus
      cases hplus
    | succ i =>
      rw [holdsBefore_succ, hdigit i (Nat.lt_of_succ_lt hi) isDecimal (by decide)] at hbefore
      cases hbefore

/-- No detector yields anything in a placeholder, and none looks through it. -/
theorem detected_placeholder (t τ : PiiType) (h : 0 < n) (hn : n < 10 ^ 12) (g rest : Text) :
    detected t (g ++ placeholder τ n ++ rest) = detected t g ++ detected t rest := by
  have hword : ∀ t ∈ DETECTOR_PRIORITY, detected t "REDACTED".toList = [] := by decide +kernel
  have hname : ∀ t ∈ DETECTOR_PRIORITY, ∀ τ ∈ DETECTOR_PRIORITY,
      detected t τ.upper.toList = [] := by
    decide +kernel
  have hsplit : g ++ placeholder τ n ++ rest =
      g ++ '[' :: ("REDACTED".toList ++ ':' :: (τ.upper.toList ++ ':' ::
        (digitsOf n ++ ']' :: rest))) := by
    have hopen : "[REDACTED:".toList = '[' :: "REDACTED".toList ++ [':'] := by decide
    have hplaceholder : placeholder τ n =
      "[REDACTED:".toList ++ τ.upper.toList ++ [':'] ++ digitsOf n ++ [']'] := rfl
    rw [hplaceholder, hopen]
    simp only [List.append_assoc, List.cons_append, List.nil_append]
  have hdigits : detected t (digitsOf n) = [] := detected_eq_nil.2 (DETECTORS_digitsOf t h hn)
  rw [hsplit, detected_cut t (by decide), detected_cut t (by decide), detected_cut t (by decide),
    detected_cut t (by decide), hword t (mem_DETECTOR_PRIORITY t),
    hname t (mem_DETECTOR_PRIORITY t) τ (mem_DETECTOR_PRIORITY τ), hdigits]
  simp only [List.nil_append]

end AiServing
