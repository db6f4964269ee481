import AiServing.PiiGaps

namespace AiServing
open Backtrack Pattern Dictionary
set_option autoImplicit true

variable {c : Candidate} {t : PiiType} {text : Text} {enabled : Finset PiiType}

theorem DETECTORS_email_accepted (he : .email ∈ enabled) (hc : c ∈ DETECTORS .email text) :
    c ∈ collectCandidates text enabled := by
  rcases collectCandidates_covers he hc with hc | ⟨a, _, _, hearlier⟩
  · exact hc
  · cases hearlier

theorem email_gap (hg : Gap text (collectCandidates text enabled) i j) (he : .email ∈ enabled) :
    DETECTORS .email (slice text i j) = [] := by
  apply DETECTORS_eq_nil
  intro a b hb
  have hge := ends_ge hb
  have hw := PiiType.email.minWidth_pos
  have hlt := ends_le_length hb (by omega)
  have hlen := length_slice_le text i j
  exact hg.no_match (fun c hc => DETECTORS_email_accepted he hc) (fun _ => rfl)
    (Nat.le_add_right i a) (by omega) (ends_of_slice rfl hb)

theorem phoneBody_last (h : j ∈ ends text phoneBody i) :
    ∃ b, j = b + 1 ∧ holdsAt isDecimal text b := by
  have htail (k) (hk : j ∈ ends text phoneTail k) : ∃ b, j = b + 1 ∧ holdsAt isDecimal text b := by
    obtain ⟨_, _, hk⟩ := mem_ends_seq.1 hk
    obtain ⟨l, _, hk⟩ := mem_ends_seq.1 hk
    obtain ⟨rfl, hdigits⟩ := mem_ends_digits.1 hk
    exact ⟨l + 3, rfl, hdigits 3 (by decide)⟩
  rcases mem_ends_alt.1 h with h | h
  · obtain ⟨_, _, h⟩ := mem_ends_seq.1 h
    obtain ⟨k, _, h⟩ := mem_ends_seq.1 h
    exact htail k h
  · obtain ⟨_, _, h⟩ := mem_ends_seq.1 h
    obtain ⟨_, _, h⟩ := mem_ends_seq.1 h
    obtain ⟨_, _, h⟩ := mem_ends_seq.1 h
    obtain ⟨_, _, h⟩ := mem_ends_seq.1 h
    obtain ⟨_, _, h⟩ := mem_ends_seq.1 h
    obtain ⟨k, _, h⟩ := mem_ends_seq.1 h
    exact htail k h

theorem DETECTORS_phone_edges (hc : c ∈ DETECTORS .phone text) :
    holdsBefore isDecimal text c.start = false ∧ holdsAt isDecimal text c.stop = false := by
  obtain ⟨m, hm, _, rfl⟩ := mem_DETECTORS hc
  have hat := (finditer_isScan (r := PHONE_RE) (by decide) text).matches_at m hm
  obtain ⟨hbefore, _, hafter⟩ := mem_ends_PHONE_RE.1 (matchAt_stop hat)
  exact ⟨hbefore, hafter⟩

/-- A number in a gap that was no match before stood behind another one, with its plus sign. -/
theorem phone_gap (hg : Gap text (collectCandidates text {.phone}) i j)
    (hplus : ∀ c ∈ collectCandidates text {.phone}, holdsAt (· == '+') text c.stop = false) :
    DETECTORS .phone (slice text i j) = [] := by
  have hgap : Gap text (DETECTORS .phone text) i j := by rwa [collectCandidates_singleton] at hg
  rw [collectCandidates_singleton] at hplus
  have hnofirst (c) (hc : c ∈ DETECTORS .phone text) :
      holdsAt (fun c => c == '0' || c == '+') text c.stop = false := by
    have hdigit := (DETECTORS_phone_edges hc).2
    have hnoplus := hplus c hc
    by_contra hfirst
    rw [Bool.not_eq_false] at hfirst
    obtain ⟨a, ha, hstart⟩ := holdsAt_iff.1 hfirst
    rw [holdsAt, ha, Option.any_some] at hnoplus hdigit
    rw [hnoplus, Bool.or_false, beq_iff_eq] at hstart
    rw [hstart] at hdigit
    cases hdigit
  apply DETECTORS_eq_nil
  intro a b hb
  obtain ⟨hbefore, hbody, hafter⟩ := mem_ends_PHONE_RE.1 hb
  obtain ⟨b, rfl, hlast⟩ := phoneBody_last hbody
  have hfirst := first_of_phone hbody
  have hbefore' := hgap.before hnofirst hfirst hbefore
  have hafter' := hgap.after (fun c hc => (DETECTORS_phone_edges hc).1) hlast hafter
  have ha := holdsAt_lt_length hfirst
  have hlen := length_slice_le text i j
  have hends : i + (b + 1) ∈ ends text PHONE_RE (i + a) :=
    mem_ends_PHONE_RE.2 ⟨hbefore', ends_of_slice rfl hbody, hafter'⟩
  exact hg.no_match (t := .phone) (fun c hc => mem_collectCandidates_singleton.2 hc) (fun _ => rfl)
    (Nat.le_add_right i a) (by omega) hends

theorem DETECTORS_rrn_edges (hc : c ∈ DETECTORS .rrn text) :
    holdsBefore isWord text c.start = false ∧ holdsAt isWord text c.stop = false := by
  obtain ⟨m, hm, _, rfl⟩ := mem_DETECTORS hc
  obtain ⟨o, hw⟩ := rrn_matchAt ((finditer_isScan (r := RRN_RE) (by decide) text).matches_at m hm)
  exact ⟨hw.before, hw.after⟩

theorem holdsBefore_isDecimal_of_not_isWord (h : holdsBefore isWord text i = false) :
    holdsBefore isDecimal text i = false := by
  cases i with
  | zero => rfl
  | succ i => exact holdsAt_isDecimal_of_not_isWord h

theorem rrn_gap (hg : Gap text (collectCandidates text {.rrn}) i j) :
    DETECTORS .rrn (slice text i j) = [] := by
  rw [collectCandidates_singleton] at hg
  rw [List.eq_nil_iff_forall_not_mem]
  intro c hc
  obtain ⟨m, hm, hacc, rfl⟩ := mem_DETECTORS hc
  have hat := (finditer_isScan (r := RRN_RE) (by decide) _).matches_at m hm
  obtain ⟨o, hw⟩ := rrn_matchAt hat
  have hword (x) (h : holdsAt isDecimal (slice text i j) x) :
      holdsAt isWord (slice text i j) x := holdsAt_mono h fun _ => isDecimal.isWord
  have hlt := hw.form.start_lt_stop
  have hstop := hw.form.stop
  have hfirst := hword _ (hw.form.digit (Nat.le_refl _) hlt (.inl (by omega)))
  obtain ⟨b, hb⟩ := Nat.exists_eq_add_of_le' (show 1 ≤ m.stop by omega)
  have hlast := hword b (hw.form.digit (by omega) (by omega) (.inl (by omega)))
  have hend := hw.after
  rw [hb] at hend
  have hbefore := hg.before (fun c hc => (DETECTORS_rrn_edges hc).2) hfirst hw.before
  have hafter := hg.after (fun c hc => (DETECTORS_rrn_edges hc).1) hlast hend
  have hlen := length_slice_le text i j
  have hin := holdsAt_lt_length hlast
  have hform : i + m.stop ∈ ends text rrnBody (i + m.start) :=
    ends_of_slice rfl (mem_ends_rrnBody.2 ⟨o, hw.form⟩)
  have hdate : validRrnDate (slice text (i + m.start) (i + m.start + 2))
      (slice text (i + m.start + 2) (i + m.start + 4))
      (slice text (i + m.start + 4) (i + m.start + 6))
      (slice text (i + m.stop - 7) (i + m.stop)) := by
    rw [rrn_accepts hat, slice_slice _ _ (by omega), slice_slice _ _ (by omega),
      slice_slice _ _ (by omega), slice_slice _ _ (by omega),
      ← Nat.add_sub_assoc (by omega)] at hacc
    exact hacc
  have hnumber : ResidentNumber text (i + m.start) (i + m.stop) :=
    ⟨mem_ends_rrnBody.1 hform, hdate, holdsBefore_isDecimal_of_not_isWord hbefore,
      holdsAt_isDecimal_of_not_isWord (hb ▸ hafter)⟩
  have hdelimited : Delimited text (i + m.start) (i + m.stop) := ⟨hbefore, hb ▸ hafter⟩
  have hcandidate := hnumber.mem_candidates hdelimited
  have hfree := hg.free _ hcandidate
  simp only at hfree
  omega

theorem DETECTORS_card_window (hc : c ∈ DETECTORS .card text) :
    CardWindow text c.start c.stop := by
  obtain ⟨m, hm, _, rfl⟩ := mem_DETECTORS hc
  exact card_matchAt_window ((finditer_isScan (r := CARD_RE) (by decide) text).matches_at m hm)

theorem CardWindow.of_gap (hw : CardWindow (slice text i j) a b)
    (hg : Gap text (collectCandidates text {.card}) i j) :
    CardWindow text (i + a) (i + b) := by
  rw [collectCandidates_singleton] at hg
  obtain ⟨n, hlo, hhi, hrun⟩ := hw.run
  have hbounds := hrun.bounds
  obtain ⟨b, rfl⟩ := Nat.exists_eq_add_of_le' (show 1 ≤ b by omega)
  constructor
  · exact mem_ends_cardBody.1 (ends_of_slice rfl (mem_ends_cardBody.2 hw.run))
  · exact hg.before (fun c hc => (DETECTORS_card_window hc).after) hrun.first hw.before
  · exact hg.after (fun c hc => (DETECTORS_card_window hc).before) hrun.final hw.after

theorem CardWindow.to_slice (hw : CardWindow text (i + a) (i + b)) (hj : i + b ≤ j) :
    CardWindow (slice text i j) a b where
  run := mem_ends_cardBody.1 (ends_to_slice rfl (mem_ends_cardBody.2 hw.run) hj)
  before := holdsBefore_slice_false hw.before j
  after := holdsAt_slice_false hw.after j

/-- A match that reaches into a gap lies in it: the spans around are matches of the same scan. -/
theorem Gap.match_inside (hg : Gap text (collectCandidates text {.card}) i j)
    (hm : m ∈ CARD_RE.finditer text) (hi : i < m.stop) (hj : m.start < j) :
    i ≤ m.start ∧ m.stop ≤ j := by
  have hscan := finditer_isScan (r := CARD_RE) (by decide) text
  have hmlt := (card_matchAt_window (hscan.matches_at m hm)).start_lt_stop
  rw [collectCandidates_singleton] at hg
  have hspan (c) (hc : c ∈ DETECTORS .card text) :
      c.start < c.stop ∧ (c.start = m.start ∧ c.stop = m.stop ∨ c.stop ≤ m.start ∨
        m.stop ≤ c.start) := by
    have hlt := (DETECTORS_card_window hc).start_lt_stop
    obtain ⟨n, hn, _, rfl⟩ := mem_DETECTORS hc
    rcases finditer_apart (by decide) hn hm with rfl | hapart
    · exact ⟨hlt, .inl ⟨rfl, rfl⟩⟩
    · exact ⟨hlt, .inr hapart⟩
  constructor
  · rcases hg.left with rfl | ⟨c, hc, rfl⟩
    · exact Nat.zero_le _
    · have hc := hspan c hc
      omega
  · rcases hg.right with rfl | ⟨c, hc, rfl⟩
    · exact (matchAt_lt (by decide) (hscan.matches_at m hm)).2
    · have hc := hspan c hc
      omega

theorem Gap.cardTiling (hg : Gap text (collectCandidates text {.card}) i j) :
    CardTiling (slice text i j)
      (((CARD_RE.finditer text).filter fun m => i ≤ m.start && m.stop ≤ j).map
        fun m => (m.start - i, m.stop - i)) := by
  have htiling := finditer_cardTiling text
  have hscan := finditer_isScan (r := CARD_RE) (by decide) text
  have hinside (m) (hm : m ∈ (CARD_RE.finditer text).filter fun m => i ≤ m.start && m.stop ≤ j) :
      m ∈ CARD_RE.finditer text ∧ i ≤ m.start ∧ m.stop ≤ j ∧ m.start < m.stop := by
    obtain ⟨hm, hbounds⟩ := List.mem_filter.1 hm
    rw [Bool.and_eq_true, decide_eq_true_eq, decide_eq_true_eq] at hbounds
    exact ⟨hm, hbounds.1, hbounds.2, (card_matchAt_window (hscan.matches_at m hm)).start_lt_stop⟩
  constructor
  · intro w hw
    obtain ⟨m, hm, rfl⟩ := List.mem_map.1 hw
    obtain ⟨hm, hi, hj, hlt⟩ := hinside m hm
    have hwindow := card_matchAt_window (hscan.matches_at m hm)
    apply CardWindow.to_slice
    · rwa [Nat.add_sub_cancel' hi, Nat.add_sub_cancel' (by omega)]
    · omega
  · intro w hw b hb
    obtain ⟨m, hm, rfl⟩ := List.mem_map.1 hw
    obtain ⟨hm, hi, hj, hlt⟩ := hinside m hm
    have hwindow := hb.of_gap hg
    rw [Nat.add_sub_cancel' hi] at hwindow
    have hle := htiling.longest _ (List.mem_map_of_mem hm) _ hwindow
    simp only at hle
    omega
  · rw [List.pairwise_map]
    apply (hscan.disjoint.sublist List.filter_sublist).imp
    intro m m' h
    exact Nat.sub_le_sub_right h i
  · intro a b hw
    have hwindow := hw.of_gap hg
    obtain ⟨_, hmem, hle, hlt⟩ := htiling.covers _ _ hwindow
    obtain ⟨m, hm, rfl⟩ := List.mem_map.1 hmem
    have hend := hw.start_lt_stop
    have hlen := length_slice_le text i j
    have hb := (ends_le_length (mem_ends_CARD_RE.2 hw) hend)
    simp only at hle hlt
    have hreach : i < m.stop ∧ m.start < j := by omega
    obtain ⟨hi, hj⟩ := hg.match_inside hm hreach.1 hreach.2
    refine ⟨_, List.mem_map_of_mem (List.mem_filter.2 ⟨hm, ?_⟩), ?_, ?_⟩
    · rw [decide_eq_true hi, decide_eq_true hj]
      rfl
    · simp only
      omega
    · simp only
      omega

theorem card_gap (hg : Gap text (collectCandidates text {.card}) i j) :
    DETECTORS .card (slice text i j) = [] := by
  rw [List.eq_nil_iff_forall_not_mem]
  intro c hc
  obtain ⟨m, hm, hacc, rfl⟩ := mem_DETECTORS hc
  have htile := List.mem_map_of_mem (f := fun m : Match => (m.start, m.stop)) hm
  rw [PiiType.pattern, ← hg.cardTiling.unique] at htile
  obtain ⟨n, hn, heq⟩ := List.mem_map.1 htile
  obtain ⟨hn, hbounds⟩ := List.mem_filter.1 hn
  rw [Bool.and_eq_true, decide_eq_true_eq, decide_eq_true_eq] at hbounds
  have hlt := (card_matchAt_window
    ((finditer_isScan (r := CARD_RE) (by decide) text).matches_at n hn)).start_lt_stop
  have hstart : n.start - i = m.start := congrArg Prod.fst heq
  have hstop : n.stop - i = m.stop := congrArg Prod.snd heq
  have hvalue : n.group text 0 = m.group (slice text i j) 0 := by
    have hslice := slice_slice text i (b := m.stop) (j := j) (by omega) m.start
    rw [Match.group, Match.group, if_pos rfl, if_pos rfl, hslice]
    congr 1
    · omega
    · omega
  have hmem : Candidate.ofMatch text .card n ∈ collectCandidates text {.card} := by
    apply mem_collectCandidates_singleton.2
    rw [DETECTORS_eq]
    apply List.mem_map_of_mem
    apply List.mem_filter.2
    constructor
    · exact hn
    · rw [PiiType.accepts, hvalue]
      exact hacc
  have hfree := hg.free _ hmem
  simp only [Candidate.ofMatch] at hfree
  omega

/-- Masking the masked text changes nothing. -/
def FixedPoint (text : Text) (names : List String) : Prop :=
  maskText (maskText text names).1 names = ((maskText text names).1, .empty)

theorem maskText_fst (text : Text) (names : List String) :
    (maskText text names).1 = maskedText .init text (enabledOf names) := by
  rw [maskText_eq]

theorem DETECTORS_maskedText_eq_nil (h : text.length < 10 ^ 12) :
    DETECTORS t (maskedText .init text enabled) = [] ↔
      ∀ g ∈ outside text enabled, DETECTORS t g = [] := by
  rw [← detected_eq_nil, detected_maskedText t enabled h, List.flatMap_eq_nil_iff]
  simp only [detected_eq_nil]

theorem fixedPoint_iff (h : text.length < 10 ^ 12) (names : List String) :
    FixedPoint text names ↔
      ∀ g ∈ outside text (enabledOf names), ∀ t ∈ enabledOf names, DETECTORS t g = [] := by
  rw [FixedPoint, maskText_eq_self, collectCandidates_eq_nil, maskText_fst]
  simp only [DETECTORS_maskedText_eq_nil h]
  constructor
  · intro hall g hg t ht
    exact hall t ht g hg
  · intro hall t ht g hg
    exact hall g hg t ht

/-- The only one of the four patterns that masking can uncover on its own is `PHONE_RE`, whose
numbers may follow each other without a space. -/
def Alone (text : Text) (enabled : Finset PiiType) : Prop :=
  enabled = {.email} ∨ enabled = {.rrn} ∨ enabled = {.card} ∨
    enabled = {.phone} ∧
      ∀ c ∈ collectCandidates text enabled, holdsAt (· == '+') text c.stop = false

theorem Alone.fixedPoint (ha : Alone text (enabledOf names)) (h : text.length < 10 ^ 12) :
    FixedPoint text names := by
  rw [fixedPoint_iff h]
  intro g hg t ht
  obtain ⟨i, j, rfl, hgap⟩ := exists_gap hg
  rcases ha with he | he | he | ⟨he, hplus⟩
  · rw [he] at hgap ht
    rw [Finset.mem_singleton.1 ht]
    exact email_gap hgap (Finset.mem_singleton_self _)
  · rw [he] at hgap ht
    rw [Finset.mem_singleton.1 ht]
    exact rrn_gap hgap
  · rw [he] at hgap ht
    rw [Finset.mem_singleton.1 ht]
    exact card_gap hgap
  · rw [he] at hgap ht hplus
    rw [Finset.mem_singleton.1 ht]
    exact phone_gap hgap hplus

/-- The second number is found once the first one no longer ends in a digit in front of it; the
card number once the address has taken away the digits behind it. -/
theorem masking_uncovers :
    ¬ FixedPoint "010-1234-5678+82-10-1234-5678".toList ["phone"] ∧
      ¬ FixedPoint "4111111111111111 12a@b.co".toList ["email", "card"] := by
  have hphone : (maskText (maskText "010-1234-5678+82-10-1234-5678".toList ["phone"]).1
      ["phone"]).1 ≠ (maskText "010-1234-5678+82-10-1234-5678".toList ["phone"]).1 := by
    decide +kernel
  have hcard : (maskText (maskText "4111111111111111 12a@b.co".toList ["email", "card"]).1
      ["email", "card"]).1 ≠ (maskText "4111111111111111 12a@b.co".toList ["email", "card"]).1 := by
    decide +kernel
  constructor
  · intro h
    rw [FixedPoint] at h
    rw [h] at hphone
    exact hphone rfl
  · intro h
    rw [FixedPoint] at h
    rw [h] at hcard
    exact hcard rfl

theorem maskText_twice (h : text.length < 10 ^ 12) (names : List String) :
    (∀ t, detected t (maskText text names).1 =
        (outside text (enabledOf names)).flatMap (detected t)) ∧
      (FixedPoint text names ↔
        ∀ g ∈ outside text (enabledOf names), ∀ t ∈ enabledOf names, DETECTORS t g = []) ∧
      (.email ∈ enabledOf names → DETECTORS .email (maskText text names).1 = []) ∧
      (Alone text (enabledOf names) → FixedPoint text names) := by
  refine ⟨?_, fixedPoint_iff h names, ?_, fun ha => ha.fixedPoint h⟩
  · intro t
    rw [maskText_fst]
    exact detected_maskedText t _ h
  · intro he
    rw [maskText_fst, DETECTORS_maskedText_eq_nil h]
    intro g hg
    obtain ⟨i, j, rfl, hgap⟩ := exists_gap hg
    exact email_gap hgap he

theorem maskText_twice_phones :
    FixedPoint "010-1234-5678, 02-123-4567".toList ["phone"] := by
  have halone : Alone "010-1234-5678, 02-123-4567".toList (enabledOf ["phone"]) :=
    .inr (.inr (.inr ⟨by decide, by decide +kernel⟩))
  exact (maskText_twice (by decide) ["phone"]).2.2.2 halone

end AiServing
