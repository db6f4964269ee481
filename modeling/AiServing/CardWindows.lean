import AiServing.PiiSplicing
import AiServing.PatternOrder

namespace AiServing
open Backtrack Pattern
set_option autoImplicit true

/-- `n` digits fill `[i, j)`, with at most one separator between neighbours. -/
inductive DigitRun (t : Text) : Nat → Nat → Nat → Prop
  | last (h : holdsAt isDecimal t i) : DigitRun t i (i + 1) 1
  | next (h : holdsAt isDecimal t i) (ho : o ≤ 1)
      (hs : ∀ k < o, holdsAt isCardSeparator t (i + 1 + k)) (hr : DigitRun t (i + 1 + o) j n) :
      DigitRun t i j (n + 1)

theorem DigitRun.first (h : DigitRun t i j n) : holdsAt isDecimal t i := by
  cases h <;> assumption

theorem DigitRun.bounds (h : DigitRun t i j n) : i + n ≤ j ∧ 0 < n := by
  induction h with
  | last => omega
  | next => omega

theorem DigitRun.start_lt_stop (h : DigitRun t i j n) : i < j := by
  have hb := h.bounds
  omega

theorem DigitRun.final (h : DigitRun t i j n) : holdsAt isDecimal t (j - 1) := by
  induction h with
  | last h => exact h
  | next _ _ _ _ ih => exact ih

theorem DigitRun.inner (h : DigitRun t i j n) (hi : i ≤ x) (hj : x < j)
    (hx : holdsAt isDecimal t x = false) :
    i < x ∧ x + 1 < j ∧ holdsAt isCardSeparator t x ∧ holdsAt isDecimal t (x - 1) ∧
      holdsAt isDecimal t (x + 1) := by
  induction h with
  | @last i h =>
    obtain rfl : x = i := by omega
    rw [h] at hx; cases hx
  | @next i o j n h ho hs hr ih =>
    have hlt := hr.bounds
    by_cases hxi : x = i
    · rw [hxi, h] at hx; cases hx
    · by_cases hxo : x < i + 1 + o
      · obtain rfl : x = i + 1 := by omega
        obtain rfl : o = 1 := by omega
        exact ⟨by omega, by omega, hs 0 Nat.one_pos, h, hr.first⟩
      · obtain ⟨hlt', hrest⟩ := ih (by omega) hj
        exact ⟨by omega, hrest⟩

theorem mem_ends_cardStep : j ∈ ends t (seq (cls isDecimal) (optional isCardSeparator)) i ↔
    holdsAt isDecimal t i ∧ ∃ o ≤ 1, j = i + 1 + o ∧
      ∀ k < o, holdsAt isCardSeparator t (i + 1 + k) := by
  simp only [mem_ends_seq, mem_ends_cls, optional, mem_ends_rep_cls, Nat.zero_le, true_and,
    Nat.zero_add, Nat.sub_zero]
  constructor
  · rintro ⟨_, ⟨h, rfl⟩, ho⟩
    exact ⟨h, ho⟩
  · rintro ⟨h, ho⟩
    exact ⟨i + 1, ⟨h, rfl⟩, ho⟩

theorem rounds_cardStep :
    (∃ k, Rounds (ends t (seq (cls isDecimal) (optional isCardSeparator))) n i k ∧
      holdsAt isDecimal t k ∧ j = k + 1) ↔ DigitRun t i j (n + 1) := by
  induction n generalizing i with
  | zero =>
    constructor
    · rintro ⟨_, rfl, h, rfl⟩
      exact .last h
    · intro h
      cases h with
      | last h => exact ⟨i, rfl, h, rfl⟩
      | next _ _ _ hr => exact absurd hr.bounds.2 (Nat.lt_irrefl 0)
  | succ n ih =>
    constructor
    · rintro ⟨k, ⟨c, hc, hr⟩, hk⟩
      obtain ⟨h, o, ho, rfl, hs⟩ := mem_ends_cardStep.1 hc
      exact .next h ho hs (ih.1 ⟨k, hr, hk⟩)
    · intro h
      cases h with
      | @next _ o _ _ h ho hs hr =>
        obtain ⟨k, hk, hrest⟩ := ih.2 hr
        exact ⟨k, ⟨i + 1 + o, mem_ends_cardStep.2 ⟨h, o, ho, rfl, hs⟩, hk⟩, hrest⟩

theorem mem_ends_cardBody : j ∈ ends t cardBody i ↔ ∃ n, 13 ≤ n ∧ n ≤ 19 ∧ DigitRun t i j n := by
  simp only [cardBody, mem_ends_seq, mem_ends_rep, mem_ends_cls]
  constructor
  · rintro ⟨k, ⟨n, hlo, hhi, hr⟩, hk, rfl⟩
    exact ⟨n + 1, by omega, by omega, rounds_cardStep.1 ⟨k, hr, hk, rfl⟩⟩
  · rintro ⟨n, hlo, hhi, hr⟩
    obtain ⟨m, rfl⟩ := Nat.exists_eq_add_of_le' (show 1 ≤ n by omega)
    obtain ⟨k, hk, hd, rfl⟩ := rounds_cardStep.2 hr
    exact ⟨k, ⟨m, by omega, by omega, hk⟩, hd, rfl⟩

/-- The stretches `CARD_RE` can match: whole digit groups with 13 to 19 digits in all. -/
structure CardWindow (t : Text) (i j : Nat) : Prop where
  run : ∃ n, 13 ≤ n ∧ n ≤ 19 ∧ DigitRun t i j n
  before : holdsBefore isDecimal t i = false
  after : holdsAt isDecimal t j = false

theorem mem_ends_CARD_RE : j ∈ ends t CARD_RE i ↔ CardWindow t i j := by
  simp only [CARD_RE, mem_ends_seq, mem_ends_notBehind, mem_ends_notAhead, mem_ends_cardBody]
  constructor
  · rintro ⟨k, ⟨hb, hk⟩, l, hn, ha, hl⟩
    obtain rfl : i = k := hk.symm
    obtain rfl : j = l := hl
    exact ⟨hn, hb, ha⟩
  · rintro ⟨hn, hb, ha⟩
    exact ⟨i, ⟨hb, rfl⟩, j, hn, ha, rfl⟩

theorem isCardSeparator.not_isDecimal (h : isCardSeparator c) : isDecimal c = false := by
  simp only [isCardSeparator, Bool.or_eq_true, beq_iff_eq] at h
  rcases h with rfl | rfl <;> decide

theorem holdsAt_isCardSeparator (h : holdsAt isCardSeparator t i) :
    holdsAt isDecimal t i = false := by
  obtain ⟨a, ha, hs⟩ := holdsAt_iff.1 h
  simpa [holdsAt, ha] using isCardSeparator.not_isDecimal hs

theorem cardStep_forced (t : Text) : Forced (holdsAt isDecimal t)
    (ends t (seq (cls isDecimal) (optional isCardSeparator))) where
  dead a ha := by
    rw [List.eq_nil_iff_forall_not_mem]
    intro b hb
    rw [(mem_ends_cardStep.1 hb).1] at ha
    cases ha
  one a := by
    by_cases hd : holdsAt isDecimal t a
    · have hends : ends t (seq (cls isDecimal) (optional isCardSeparator)) a =
          if holdsAt isCardSeparator t (a + 1) then [a + 2, a + 1] else [a + 1] := by
        simp only [ends, hd, if_true, List.flatMap_singleton, optional, rounds, upTo]
        split <;> rfl
      rw [hends]
      split
      · rename_i hs
        have hn := holdsAt_isCardSeparator hs
        by_cases hd' : holdsAt isDecimal t (a + 2)
        · exact .inr ⟨a + 2, by omega, by simp [hd', hn]⟩
        · exact .inl (by simp [hd', hn])
      · by_cases hd' : holdsAt isDecimal t (a + 1)
        · exact .inr ⟨a + 1, by omega, by simp [hd']⟩
        · exact .inl (by simp [hd'])
    · left
      rw [List.filter_eq_nil_iff]
      intro b hb
      exact absurd (mem_ends_cardStep.1 hb).1 hd

/-- Greed: from a given start the longest window is tried first. -/
theorem ends_CARD_RE_descending (t : Text) (i : Nat) :
    (ends t CARD_RE i).Pairwise (· > ·) := by
  have hbody := ends_rep_cls_descending (cardStep_forced t) 12 18 i
  change ((if holdsBefore isDecimal t i then [] else [i]).flatMap
    (ends t (seq cardBody (notAhead isDecimal)))).Pairwise (· > ·)
  split
  · exact .nil
  · rw [List.flatMap_singleton]
    change ((ends t cardBody i).flatMap (ends t (notAhead isDecimal))).Pairwise (· > ·)
    rw [flatMap_ends_notAhead]
    exact hbody.sublist List.filter_sublist

theorem card_matchAt_window (h : CARD_RE.matchAt t i = some m) : CardWindow t m.start m.stop := by
  have hi := matchAt_start h
  rw [hi]
  exact mem_ends_CARD_RE.1 (matchAt_stop h)

theorem card_matchAt_longest (h : CARD_RE.matchAt t i = some m) (hw : CardWindow t i j) :
    j ≤ m.stop := by
  have hd := ends_CARD_RE_descending t i
  have hhead := head?_ends h
  have hj := mem_ends_CARD_RE.2 hw
  cases hl : ends t CARD_RE i with
  | nil => rw [hl] at hj; cases hj
  | cons b l =>
    rw [hl] at hj hd hhead
    cases hhead
    rcases List.mem_cons.1 hj with rfl | hj
    · exact Nat.le_refl _
    · exact Nat.le_of_lt ((List.pairwise_cons.1 hd).1 j hj)

theorem CardWindow.start_lt_stop (h : CardWindow t i j) : i < j := by
  obtain ⟨n, _, _, hr⟩ := h.run
  exact hr.start_lt_stop

/-- The windows of one pass over the text: each the longest from its start, none overlapping,
and none starting outside the others. -/
structure CardTiling (t : Text) (ws : List (Nat × Nat)) : Prop where
  window : ∀ w ∈ ws, CardWindow t w.1 w.2
  longest : ∀ w ∈ ws, ∀ j, CardWindow t w.1 j → j ≤ w.2
  disjoint : ws.Pairwise fun w w' => w.2 ≤ w'.1
  covers : ∀ i j, CardWindow t i j → ∃ w ∈ ws, w.1 ≤ i ∧ i < w.2

theorem finditer_cardTiling (t : Text) :
    CardTiling t ((CARD_RE.finditer t).map fun m => (m.start, m.stop)) := by
  have hs := finditer_isScan (r := CARD_RE) (by decide) t
  refine ⟨?_, ?_, List.pairwise_map.2 hs.disjoint, ?_⟩
  · intro w hw
    obtain ⟨m, hm, rfl⟩ := List.mem_map.1 hw
    exact card_matchAt_window (hs.matches_at m hm)
  · intro w hw j hj
    obtain ⟨m, hm, rfl⟩ := List.mem_map.1 hw
    exact card_matchAt_longest (hs.matches_at m hm) hj
  · intro i j h
    obtain ⟨m, hm⟩ := exists_matchAt (mem_ends_CARD_RE.2 h)
    obtain ⟨m', hm', hc⟩ := hs.covers i m (Nat.zero_le i) hm
    exact ⟨_, List.mem_map_of_mem hm', hc⟩

/-- A longest window is what the search reports at its start. -/
theorem CardWindow.matchAt (h : CardWindow t i j) (hl : ∀ k, CardWindow t i k → k ≤ j) :
    CARD_RE.matchAt t i = some ⟨i, j, []⟩ := by
  obtain ⟨m, hm⟩ := exists_matchAt (mem_ends_CARD_RE.2 h)
  have hi := matchAt_start hm
  have hw := card_matchAt_window hm
  rw [hi] at hw
  have hj : m.stop = j := Nat.le_antisymm (hl _ hw) (card_matchAt_longest hm h)
  have hg : m.groups = [] := groups_run (t := t) (r := CARD_RE) rfl (matchAt_run hm)
  rw [hm, ← hi, ← hj, ← hg]

theorem CardTiling.unique (h : CardTiling t ws) :
    ws = (CARD_RE.finditer t).map fun m => (m.start, m.stop) := by
  have hscan : IsScan CARD_RE t 0 (ws.map fun w => ⟨w.1, w.2, []⟩) := by
    refine ⟨?_, fun _ _ => Nat.zero_le _, List.pairwise_map.2 h.disjoint, ?_⟩
    · intro m hm
      obtain ⟨w, hw, rfl⟩ := List.mem_map.1 hm
      exact (h.window w hw).matchAt (h.longest w hw)
    · intro i m _ hm
      have hw := card_matchAt_window hm
      rw [matchAt_start hm] at hw
      obtain ⟨w, hw, hc⟩ := h.covers i _ hw
      exact ⟨_, List.mem_map_of_mem hw, hc⟩
  rw [← hscan.unique (by decide) (finditer_isScan (by decide) t), List.map_map]
  exact (List.map_id ws).symm

theorem slice_cons (h : holdsAt p t i) (hij : i < j) :
    ∃ c, p c ∧ slice t i j = c :: slice t (i + 1) j := by
  obtain ⟨c, hc, hp⟩ := holdsAt_iff.1 h
  obtain ⟨hi, rfl⟩ := List.getElem?_eq_some_iff.1 hc
  refine ⟨t[i], hp, ?_⟩
  have hl : i < (t.take j).length := by rw [List.length_take]; omega
  rw [slice, List.drop_eq_getElem_cons hl, List.getElem_take]
  rfl

theorem slice_self (t : List α) (i : Nat) : slice t i i = [] := by
  simp [slice]

theorem cardDigits_cons_digit (h : isDecimal c) : cardDigits (c :: v) = c :: cardDigits v := by
  have hn : isCardSeparator c = false := by
    rw [← Bool.not_eq_true]
    intro hs
    rw [isCardSeparator.not_isDecimal hs] at h
    cases h
  simp [cardDigits, hn]

theorem cardDigits_slice_next (h : holdsAt isDecimal t i) (ho : o ≤ 1)
    (hs : ∀ k < o, holdsAt isCardSeparator t (i + 1 + k)) (hj : i + 1 + o < j) :
    ∃ c, isDecimal c ∧ cardDigits (slice t i j) = c :: cardDigits (slice t (i + 1 + o) j) := by
  obtain ⟨c, hc, hsl⟩ := slice_cons h (show i < j by omega)
  refine ⟨c, hc, ?_⟩
  rw [hsl, cardDigits_cons_digit hc]
  rcases (show o = 0 ∨ o = 1 by omega) with rfl | rfl
  · rfl
  · obtain ⟨d, hd, hsl'⟩ := slice_cons (hs 0 Nat.one_pos) (show i + 1 < j by omega)
    have hskip : cardDigits (slice t (i + 1) j) = cardDigits (slice t (i + 1 + 1) j) := by
      rw [show slice t (i + 1) j = d :: slice t (i + 1 + 1) j from hsl']
      simp [cardDigits, hd]
    rw [hskip]

theorem cardDigits_slice_last (h : holdsAt isDecimal t i) :
    ∃ c, isDecimal c ∧ cardDigits (slice t i (i + 1)) = [c] := by
  obtain ⟨c, hc, hs⟩ := slice_cons h (Nat.lt_succ_self i)
  refine ⟨c, hc, ?_⟩
  rw [hs, cardDigits_cons_digit hc, slice_self]
  rfl

theorem DigitRun.length_cardDigits (h : DigitRun t i j n) :
    (cardDigits (slice t i j)).length = n := by
  induction h with
  | last h =>
    obtain ⟨c, _, hc⟩ := cardDigits_slice_last h
    rw [hc]
    rfl
  | next h ho hs hr ih =>
    obtain ⟨c, _, hc⟩ := cardDigits_slice_next h ho hs hr.start_lt_stop
    rw [hc, List.length_cons, ih]

theorem CardWindow.cardAccepts (h : CardWindow t i j) :
    cardAccepts (slice t i j) = luhnValid (cardDigits (slice t i j)) := by
  obtain ⟨n, hlo, hhi, hr⟩ := h.run
  rw [AiServing.cardAccepts, hr.length_cardDigits, decide_eq_true hlo, decide_eq_true hhi,
    Bool.true_and, Bool.true_and]

theorem collectCandidates_singleton (text : Text) (t : PiiType) :
    collectCandidates text {t} = DETECTORS t text := by
  rw [collectCandidates_eq]
  cases t <;> simp [DETECTOR_PRIORITY, collectType, overlaps]

theorem mem_collectCandidates_singleton :
    c ∈ collectCandidates text {t} ↔ c ∈ DETECTORS t text := by
  rw [collectCandidates_singleton]

theorem card_redacted_iff_window (t : Text) (i j : Nat) :
    Redacted t {.card} i j ↔ ∃ ws, CardTiling t ws ∧ ∃ w ∈ ws, w.1 < j ∧ i < w.2 ∧
      luhnValid (cardDigits (slice t w.1 w.2)) := by
  have hs := finditer_isScan (r := CARD_RE) (by decide) t
  simp only [Redacted, collectCandidates_singleton]
  constructor
  · rintro ⟨c, hc, hi, hj⟩
    obtain ⟨m, hm, hacc, rfl⟩ := mem_DETECTORS hc
    refine ⟨_, finditer_cardTiling t, _, List.mem_map_of_mem hm, hi, hj, ?_⟩
    rw [← (card_matchAt_window (hs.matches_at m hm)).cardAccepts]
    simpa [PiiType.accepts, Match.group] using hacc
  · rintro ⟨ws, hws, w, hw, hi, hj, hl⟩
    rw [hws.unique] at hw
    obtain ⟨m, hm, rfl⟩ := List.mem_map.1 hw
    refine ⟨.ofMatch t .card m, ?_, hi, hj⟩
    rw [DETECTORS_eq]
    refine List.mem_map_of_mem (List.mem_filter.2 ⟨hm, ?_⟩)
    rw [← (card_matchAt_window (hs.matches_at m hm)).cardAccepts] at hl
    simpa [PiiType.accepts, Match.group] using hl

/-- A Luhn-valid number of 13 to 19 ASCII digits with no digit next to it. -/
structure CardNumber (t : Text) (i j : Nat) : Prop where
  run : ∃ n, 13 ≤ n ∧ n ≤ 19 ∧ DigitRun t i j n
  ascii : ∀ x, i ≤ x → x < j → holdsAt (fun c => isAsciiDigit c || isCardSeparator c) t x
  luhn : luhnValid (cardDigits (slice t i j))
  before : holdsBefore isDecimal t i = false
  after : holdsAt isDecimal t j = false

/-- No further digit group follows or precedes after a single separator. -/
structure Isolated (t : Text) (i j : Nat) : Prop where
  before : ¬ (2 ≤ i ∧ holdsAt isCardSeparator t (i - 1) ∧ holdsAt isDecimal t (i - 2))
  after : ¬ (holdsAt isCardSeparator t j ∧ holdsAt isDecimal t (j + 1))

theorem CardNumber.window (h : CardNumber t i j) : CardWindow t i j := ⟨h.run, h.before, h.after⟩

/-- The window that covers the start of an isolated number is the number. -/
theorem Isolated.window_eq (h : Isolated t i j) (hn : CardNumber t i j) (hw : CardWindow t a b)
    (hl : ∀ k, CardWindow t a k → k ≤ b) (ha : a ≤ i) (hb : i < b) : a = i ∧ b = j := by
  obtain ⟨n, _, _, hr⟩ := hw.run
  have hai : a = i := by
    by_contra hne
    have hbefore := hn.before
    rw [holdsBefore_of_pos (by omega)] at hbefore
    obtain ⟨hlt, _, hs, hd, _⟩ := hr.inner (by omega) (by omega) hbefore
    exact h.before ⟨by omega, hs, by rwa [Nat.sub_sub] at hd⟩
  subst hai
  refine ⟨rfl, Nat.le_antisymm ?_ (hl j hn.window)⟩
  by_contra hlt
  have hij := hn.window.start_lt_stop
  obtain ⟨_, _, hs, _, hd⟩ := hr.inner (by omega) (by omega) hn.after
  exact h.after ⟨hs, hd⟩

/-- A card number and a three-digit code behind it read as one number that fails the check. -/
theorem cardNumber_before_code :
    CardNumber "4111111111111111 123".toList 0 16 ∧
      ¬ Redacted "4111111111111111 123".toList {.card} 0 16 ∧
      (maskText "4111111111111111 123".toList ["card"]).1 = "4111111111111111 123".toList := by
  have hnil : collectCandidates "4111111111111111 123".toList {.card} = [] := by decide +kernel
  have hrun : ∃ n, 13 ≤ n ∧ n ≤ 19 ∧ DigitRun "4111111111111111 123".toList 0 16 n :=
    mem_ends_cardBody.1 (by decide +kernel)
  refine ⟨⟨hrun, ?_, by decide +kernel, by decide, by decide⟩, ?_, by decide +kernel⟩
  · intro x _ hx
    have hall : ∀ x < 16, holdsAt (fun c => isAsciiDigit c || isCardSeparator c)
        "4111111111111111 123".toList x := by decide +kernel
    exact hall x hx
  · rintro ⟨c, hc, _⟩
    rw [hnil] at hc
    cases hc

theorem cardNumber_redacted_iff (h : CardNumber t i j) :
    (Redacted t {.card} i j ↔ ∃ ws, CardTiling t ws ∧ ∃ w ∈ ws, w.1 < j ∧ i < w.2 ∧
      luhnValid (cardDigits (slice t w.1 w.2))) ∧
      (Isolated t i j → Redacted t {.card} i j) := by
  refine ⟨card_redacted_iff_window t i j, fun hiso => ?_⟩
  have htile := finditer_cardTiling t
  obtain ⟨w, hw, hle, hlt⟩ := htile.covers i j h.window
  obtain ⟨hi, hj⟩ := hiso.window_eq h (htile.window w hw) (htile.longest w hw) hle hlt
  have hij := h.window.start_lt_stop
  refine (card_redacted_iff_window t i j).2 ⟨_, htile, w, hw, by omega, by omega, ?_⟩
  rw [hi, hj]
  exact h.luhn

theorem cardNumber_redacted_iff_sentence :
    Redacted "card 4111111111111111.".toList {.card} 5 21 := by
  have hrun : ∃ n, 13 ≤ n ∧ n ≤ 19 ∧ DigitRun "card 4111111111111111.".toList 5 21 n :=
    mem_ends_cardBody.1 (by decide +kernel)
  have hascii : ∀ x < 21, 5 ≤ x → holdsAt (fun c => isAsciiDigit c || isCardSeparator c)
      "card 4111111111111111.".toList x := by decide +kernel
  have hnum : CardNumber "card 4111111111111111.".toList 5 21 :=
    ⟨hrun, fun x hi hj => hascii x hj hi, by decide +kernel, by decide, by decide⟩
  exact (cardNumber_redacted_iff hnum).2 ⟨by decide, by decide⟩

end AiServing
