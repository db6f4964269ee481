import AiServing.PiiSplicing

namespace AiServing
open Backtrack Pattern
set_option autoImplicit true

theorem mem_ends_digits : j ∈ ends t (digits n n) i ↔
    j = i + n ∧ ∀ k < n, holdsAt isDecimal t (i + k) := by
  rw [digits, mem_ends_rep_cls]
  constructor
  · rintro ⟨m, hlo, hhi, rfl, h⟩
    obtain rfl : m = n := by omega
    exact ⟨rfl, h⟩
  · rintro ⟨rfl, h⟩
    exact ⟨n, Nat.le_refl n, by omega, rfl, h⟩

theorem mem_ends_optional : j ∈ ends t (optional p) i ↔
    ∃ o ≤ 1, j = i + o ∧ ∀ k < o, holdsAt p t (i + k) := by
  rw [optional, mem_ends_rep_cls]
  simp only [Nat.zero_le, true_and, Nat.zero_add, Nat.sub_zero]

theorem isGenderDigit.isDecimal (h : isGenderDigit c) : isDecimal c := by
  simp only [isGenderDigit, Bool.and_eq_true, decide_eq_true_eq] at h
  refine isAsciiDigit.isDecimal ?_
  simp only [isAsciiDigit, Bool.and_eq_true, decide_eq_true_eq]
  exact ⟨Char.le_trans (by decide) h.1, Char.le_trans h.2 (by decide)⟩

theorem isDashOrSpace.not_isDecimal (h : isDashOrSpace c) : isDecimal c = false := by
  have hcodes : ∀ n ∈ spaceCodes, ∀ z ∈ decimalZeros, ¬ (z ≤ n ∧ n < z + 10) := by decide
  have hdash : ∀ z ∈ decimalZeros, ¬ (z ≤ '-'.toNat ∧ '-'.toNat < z + 10) := by decide
  simp only [isDashOrSpace, Bool.or_eq_true, beq_iff_eq, isSpace, List.contains_eq_mem,
    decide_eq_true_eq] at h
  simp only [isDecimal, decimalValue?, Option.isSome_map, Option.isSome_eq_false_iff,
    Option.isNone_iff_eq_none, List.find?_eq_none, Bool.and_eq_true, decide_eq_true_eq]
  rcases h with rfl | h
  · exact hdash
  · exact hcodes _ h

/-- `YYMMDD`, `o` separators, a gender digit and six more digits fill `[i, j)`. -/
structure RrnForm (t : Text) (i j o : Nat) : Prop where
  le_one : o ≤ 1
  stop : j = i + 13 + o
  front : ∀ k < 6, holdsAt isDecimal t (i + k)
  separator : ∀ k < o, holdsAt isDashOrSpace t (i + 6 + k)
  gender : holdsAt isGenderDigit t (i + 6 + o)
  back : ∀ k < 6, holdsAt isDecimal t (i + 7 + o + k)

theorem RrnForm.digit (h : RrnForm t i j o) (hx : i ≤ x) (hj : x < j) (ho : x ≠ i + 6 ∨ o = 0) :
    holdsAt isDecimal t x := by
  obtain ⟨hle, rfl, hfront, _, hgender, hback⟩ := h
  by_cases h6 : x < i + 6
  · have := hfront (x - i) (by omega)
    rwa [Nat.add_sub_cancel' hx] at this
  · by_cases hg : x = i + 6 + o
    · rw [hg]
      exact holdsAt_mono hgender fun _ => isGenderDigit.isDecimal
    · have := hback (x - (i + 7 + o)) (by omega)
      rwa [Nat.add_sub_cancel' (by omega)] at this

theorem RrnForm.separator_not_digit (h : RrnForm t i j 1) :
    holdsAt isDecimal t (i + 6) = false := by
  obtain ⟨a, ha, hs⟩ := holdsAt_iff.1 (h.separator 0 Nat.one_pos)
  rw [Nat.add_zero] at ha
  simpa [holdsAt, ha] using isDashOrSpace.not_isDecimal hs

theorem mem_ends_rrnBody : j ∈ ends t rrnBody i ↔ ∃ o, RrnForm t i j o := by
  simp only [rrnBody, mem_ends_seq, mem_ends_group, mem_ends_digits, mem_ends_optional,
    mem_ends_cls]
  constructor
  · rintro ⟨_, ⟨rfl, h₁⟩, _, ⟨rfl, h₂⟩, _, ⟨rfl, h₃⟩, _, ⟨o, ho, rfl, hs⟩, _, ⟨hg, rfl⟩, rfl, hb⟩
    refine ⟨o, ho, by omega, fun k hk => ?_, hs, hg, fun k hk => ?_⟩
    · rcases (show k < 2 ∨ 2 ≤ k ∧ k < 4 ∨ 4 ≤ k by omega) with hk' | hk' | hk'
      · exact h₁ k hk'
      · have := h₂ (k - 2) (by omega)
        rwa [show i + 2 + (k - 2) = i + k by omega] at this
      · have := h₃ (k - 4) (by omega)
        rwa [show i + 2 + 2 + (k - 4) = i + k by omega] at this
    · have := hb k hk
      rwa [show i + 2 + 2 + 2 + o + 1 + k = i + 7 + o + k by omega] at this
  · rintro ⟨o, ho, rfl, hf, hs, hg, hb⟩
    refine ⟨_, ⟨rfl, fun k hk => hf k (by omega)⟩, _, ⟨rfl, fun k hk => ?_⟩, _,
      ⟨rfl, fun k hk => ?_⟩, _, ⟨o, ho, rfl, hs⟩, _, ⟨hg, rfl⟩, by omega, fun k hk => ?_⟩
    · simpa only [Nat.add_assoc] using hf (2 + k) (by omega)
    · simpa only [Nat.add_assoc] using hf (2 + (2 + k)) (by omega)
    · have := hb k hk
      rwa [show i + 7 + o + k = i + 2 + 2 + 2 + o + 1 + k by omega] at this

/-- The stretches `RRN_RE` matches: no word character touches them. -/
structure RrnWindow (t : Text) (i j o : Nat) : Prop where
  form : RrnForm t i j o
  before : holdsBefore isWord t i = false
  after : holdsAt isWord t j = false

theorem holdsAt_isDecimal_of_not_isWord (h : holdsAt isWord t i = false) :
    holdsAt isDecimal t i = false := by
  rw [← Bool.not_eq_true] at h ⊢
  exact fun hd => h (holdsAt_mono hd fun _ => isDecimal.isWord)

theorem RrnForm.start_lt_stop (h : RrnForm t i j o) : i < j := by
  have := h.stop; omega

theorem mem_ends_RRN_RE : j ∈ ends t RRN_RE i ↔ ∃ o, RrnWindow t i j o := by
  have hword (x : Nat) (h : holdsAt isDecimal t x) : holdsAt isWord t x :=
    holdsAt_mono h fun _ => isDecimal.isWord
  simp only [RRN_RE, mem_ends_seq, mem_ends_boundary, mem_ends_rrnBody]
  constructor
  · rintro ⟨k, ⟨hi, hk⟩, l, ⟨o, ho⟩, hj, hl⟩
    obtain rfl : i = k := hk.symm
    obtain rfl : j = l := hl
    have hlt := ho.start_lt_stop
    rw [hword i (ho.digit (Nat.le_refl i) hlt (.inl (by omega))), ne_eq,
      Bool.not_eq_true] at hi
    have hlast := hword (j - 1)
      (ho.digit (by omega) (by omega) (.inl (by have := ho.stop; omega)))
    rw [holdsBefore_of_pos (by omega), hlast, ne_comm, ne_eq, Bool.not_eq_true] at hj
    exact ⟨o, ho, hi, hj⟩
  · rintro ⟨o, ho, hi, hj⟩
    have hlt := ho.start_lt_stop
    have hfirst := hword i (ho.digit (Nat.le_refl i) hlt (.inl (by omega)))
    have hlast := hword (j - 1)
      (ho.digit (by omega) (by omega) (.inl (by have := ho.stop; omega)))
    refine ⟨i, ⟨by rw [hi, hfirst]; decide, rfl⟩, j, ⟨o, ho⟩, ?_, rfl⟩
    rw [holdsBefore_of_pos (by omega), hlast, hj]
    decide

/-- Only the number itself can be matched where a number without digit neighbours stands. -/
theorem RrnWindow.eq_of_overlap (hw : RrnWindow t i j o) (h : RrnForm t a b o')
    (ha : holdsBefore isDecimal t a = false) (hb : holdsAt isDecimal t b = false)
    (hib : i < b) (haj : a < j) : i = a ∧ j = b := by
  have hj := hw.form.stop
  have hb' := h.stop
  have ho := hw.form.le_one
  have ho' := h.le_one
  have hafter := holdsAt_isDecimal_of_not_isWord hw.after
  have hia : a ≤ i := by
    by_contra hlt
    rw [holdsBefore_of_pos (by omega)] at ha
    have hsep : a = i + 7 ∧ o = 1 := by
      by_contra hn
      rw [hw.form.digit (by omega) (by omega) (by omega)] at ha
      cases ha
    rw [h.digit (by omega) (by omega) (by omega)] at hafter
    cases hafter
  have hai : i ≤ a := by
    by_contra hlt
    have hbefore : holdsAt isDecimal t (i - 1) = false := by
      have := hw.before
      rw [holdsBefore_of_pos (by omega)] at this
      exact holdsAt_isDecimal_of_not_isWord this
    have hsep : i = a + 7 ∧ o' = 1 := by
      by_contra hn
      rw [h.digit (by omega) (by omega) (by omega)] at hbefore
      cases hbefore
    rw [hw.form.digit (by omega) (by omega) (by omega)] at hb
    cases hb
  obtain rfl : i = a := Nat.le_antisymm hai hia
  refine ⟨rfl, ?_⟩
  rcases (show o = o' ∨ o = 1 ∧ o' = 0 ∨ o = 0 ∧ o' = 1 by omega) with rfl | ⟨rfl, rfl⟩ | ⟨rfl, rfl⟩
  · omega
  · have := hw.form.separator_not_digit
    rw [h.digit (by omega) (by omega) (.inr rfl)] at this
    cases this
  · have := h.separator_not_digit
    rw [hw.form.digit (by omega) (by omega) (.inr rfl)] at this
    cases this

theorem run_digits (h : d ∈ run t (digits n n) c) : d = ⟨c.pos + n, c.groups⟩ := by
  have hpos := (mem_ends_digits.1 (pos_mem_ends h)).1
  have hgroups := groups_run (t := t) (r := digits n n) rfl h
  cases d
  simp_all

theorem run_boundary (h : d ∈ run t (boundary p) c) : d = c := by
  simp only [run] at h
  split at h <;> simp_all

theorem run_cls (h : d ∈ run t (cls p) c) : d = ⟨c.pos + 1, c.groups⟩ := by
  simp only [run] at h
  split at h <;> simp_all

theorem rrn_groups (h : RRN_RE.matchAt t i = some m) :
    m.groups = [(4, m.stop - 7, m.stop), (3, i + 4, i + 6), (2, i + 2, i + 4), (1, i, i + 2)] := by
  have hrun := matchAt_run h
  simp only [RRN_RE, rrnBody, mem_run_seq, mem_run_group] at hrun
  obtain ⟨_, h₀, e, ⟨_, ⟨e₁, h₁, rfl⟩, _, ⟨e₂, h₂, rfl⟩, _, ⟨e₃, h₃, rfl⟩, e₄, h₄, e₅,
    ⟨e₆, h₅, h₆⟩, rfl⟩, h₇⟩ := hrun
  obtain rfl := run_boundary h₀
  obtain rfl := run_digits h₁
  obtain rfl := run_digits h₂
  obtain rfl := run_digits h₃
  obtain rfl := run_cls h₅
  obtain rfl := run_digits h₆
  have hg := groups_run (t := t) (r := optional isDashOrSpace) rfl h₄
  obtain h₇ := run_boundary h₇
  simp only [Cursor.mk.injEq] at h₇
  rw [h₇.1, h₇.2, hg]
  simp [Nat.add_assoc]

theorem rrn_matchAt (h : RRN_RE.matchAt t i = some m) : ∃ o, RrnWindow t m.start m.stop o := by
  have hi := matchAt_start h
  rw [hi]
  exact mem_ends_RRN_RE.1 (matchAt_stop h)

theorem rrn_accepts (h : RRN_RE.matchAt t i = some m) :
    PiiType.rrn.accepts t m = validRrnDate (slice t i (i + 2)) (slice t (i + 2) (i + 4))
      (slice t (i + 4) (i + 6)) (slice t (m.stop - 7) m.stop) := by
  simp [PiiType.accepts, Match.group, rrn_groups h]

/-- A number with a real date and no digit next to it. -/
structure ResidentNumber (t : Text) (i j : Nat) : Prop where
  form : ∃ o, RrnForm t i j o
  date : validRrnDate (slice t i (i + 2)) (slice t (i + 2) (i + 4)) (slice t (i + 4) (i + 6))
    (slice t (j - 7) j)
  before : holdsBefore isDecimal t i = false
  after : holdsAt isDecimal t j = false

/-- No letter, digit or underscore touches `[i, j)`. -/
def Delimited (t : Text) (i j : Nat) : Prop :=
  holdsBefore isWord t i = false ∧ holdsAt isWord t j = false

theorem ResidentNumber.mem_candidates (h : ResidentNumber t i j) (hd : Delimited t i j) :
    ⟨i, j, .rrn, slice t i j⟩ ∈ DETECTORS .rrn t := by
  obtain ⟨o, ho⟩ := h.form
  have hends : j ∈ ends t RRN_RE i := mem_ends_RRN_RE.2 ⟨o, ho, hd.1, hd.2⟩
  obtain ⟨m, hm⟩ := exists_matchAt hends
  have hscan := finditer_isScan (r := RRN_RE) (by decide) t
  obtain ⟨m', hm', hle, hlt⟩ := hscan.covers i m (Nat.zero_le i) hm
  have hat := hscan.matches_at m' hm'
  obtain ⟨o', hw⟩ := rrn_matchAt hat
  have hij := ho.start_lt_stop
  obtain ⟨hi', hj'⟩ := hw.eq_of_overlap ho h.before h.after (by omega) hlt
  rw [hi'] at hat
  have hacc : PiiType.rrn.accepts t m' := by
    rw [rrn_accepts hat, hj']; exact h.date
  rw [DETECTORS_eq]
  refine List.mem_map.2 ⟨m', List.mem_filter.2 ⟨hm', hacc⟩, ?_⟩
  simp [Candidate.ofMatch, Match.group, hi', hj']

/-- The candidates of `RRN_RE` that touch a number are the number itself. -/
theorem ResidentNumber.delimited_of_touch (h : ResidentNumber t i j)
    (hc : c ∈ DETECTORS .rrn t) (hi : c.start < j) (hj : i < c.stop) : Delimited t i j := by
  obtain ⟨m, hm, _, rfl⟩ := mem_DETECTORS hc
  obtain ⟨o', hw⟩ := rrn_matchAt ((finditer_isScan (r := RRN_RE) (by decide) t).matches_at m hm)
  obtain ⟨o, ho⟩ := h.form
  have heq : m.start = i ∧ m.stop = j := hw.eq_of_overlap ho h.before h.after hi hj
  rw [← heq.1, ← heq.2]
  exact ⟨hw.before, hw.after⟩

/-- A span of another type touches `[i, j)`. -/
def RedactedByOther (t : Text) (enabled : Finset PiiType) (i j : Nat) : Prop :=
  ∃ c ∈ collectCandidates t enabled, c.piiType ≠ .rrn ∧ c.start < j ∧ i < c.stop

/-- A particle written without a space hides the number. -/
theorem residentNumber_before_particle :
    ResidentNumber "900101-1234567입니다".toList 0 14 ∧
      ¬ Redacted "900101-1234567입니다".toList {.rrn} 0 14 ∧
      (maskText "900101-1234567입니다".toList ["rrn"]).1 = "900101-1234567입니다".toList := by
  have hnil : collectCandidates "900101-1234567입니다".toList {.rrn} = [] := by decide +kernel
  have hform : RrnForm "900101-1234567입니다".toList 0 14 1 :=
    ⟨by decide, rfl, by decide, by decide, by decide, by decide⟩
  refine ⟨⟨⟨1, hform⟩, by decide, by decide, by decide⟩, ?_, by decide +kernel⟩
  rintro ⟨c, hc, _⟩
  rw [hnil] at hc
  cases hc

theorem residentNumber_redacted_iff (h : ResidentNumber t i j) (hr : .rrn ∈ enabled) :
    (Redacted t enabled i j ↔ Delimited t i j ∨ RedactedByOther t enabled i j) ∧
      (enabled = {.rrn} → (Redacted t enabled i j ↔ Delimited t i j)) := by
  have hiff : Redacted t enabled i j ↔ Delimited t i j ∨ RedactedByOther t enabled i j := by
    constructor
    · rintro ⟨c, hc, hi, hj⟩
      by_cases ht : c.piiType = .rrn
      · have hdet := (mem_collectCandidates hc).2
        rw [ht] at hdet
        exact .inl (h.delimited_of_touch hdet hi hj)
      · exact .inr ⟨c, hc, ht, hi, hj⟩
    · rintro (hd | ⟨c, hc, _, hi, hj⟩)
      · rcases collectCandidates_covers hr (h.mem_candidates hd) with hc | ⟨a, ha, ho, _⟩
        · obtain ⟨o, ho⟩ := h.form
          exact ⟨_, hc, ho.start_lt_stop, ho.start_lt_stop⟩
        · exact ⟨a, ha, ho.2, ho.1⟩
      · exact ⟨c, hc, hi, hj⟩
  refine ⟨hiff, fun he => hiff.trans (or_iff_left ?_)⟩
  rintro ⟨c, hc, hne, _⟩
  have := (mem_collectCandidates hc).1
  rw [he, Finset.mem_singleton] at this
  exact hne this

theorem residentNumber_redacted_iff_plain :
    (Redacted "id 900101-1234567.".toList {.rrn} 3 17 ↔
        Delimited "id 900101-1234567.".toList 3 17 ∨
          RedactedByOther "id 900101-1234567.".toList {.rrn} 3 17) ∧
      (({.rrn} : Finset PiiType) = {.rrn} →
        (Redacted "id 900101-1234567.".toList {.rrn} 3 17 ↔
          Delimited "id 900101-1234567.".toList 3 17)) :=
  residentNumber_redacted_iff
    ⟨⟨1, by decide, rfl, by decide, by decide, by decide, by decide⟩, by decide, by decide,
      by decide⟩
    (by decide)

end AiServing
