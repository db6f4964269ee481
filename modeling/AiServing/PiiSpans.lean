import AiServing.PiiMasking

namespace AiServing
open Backtrack Pattern
set_option autoImplicit true

theorem mem_DETECTOR_PRIORITY (t : PiiType) : t ∈ DETECTOR_PRIORITY := by
  cases t <;> decide

def PiiType.pattern : PiiType → Pattern Char
  | .email => EMAIL_RE
  | .rrn => RRN_RE
  | .card => CARD_RE
  | .phone => PHONE_RE

/-- The check a detector makes on a match before it yields it. -/
def PiiType.accepts (text : Text) (m : Match) : PiiType → Bool
  | .rrn => validRrnDate (m.group text 1) (m.group text 2) (m.group text 3) (m.group text 4)
  | .card => cardAccepts (m.group text 0)
  | .phone | .email => true

theorem filterMap_ofMatch (p : Match → Bool) (ms : List Match) :
    (ms.filterMap fun m => if p m then some (Candidate.ofMatch text t m) else none) =
      (ms.filter p).map (.ofMatch text t) := by
  induction ms with
  | nil => rfl
  | cons m ms ih => by_cases h : p m <;> simp [h, ih]

/-- All four detectors are one scan, a filter and a constructor. -/
theorem DETECTORS_eq (t : PiiType) (text : Text) :
    DETECTORS t text =
      ((t.pattern.finditer text).filter fun m => t.accepts text m).map (.ofMatch text t) := by
  cases t with
  | rrn => exact filterMap_ofMatch _ _
  | card => exact filterMap_ofMatch _ _
  | phone => simp [DETECTORS, phoneCandidates, PiiType.accepts, PiiType.pattern]
  | email => simp [DETECTORS, emailCandidates, PiiType.accepts, PiiType.pattern]

theorem PiiType.minWidth_pos (t : PiiType) : 0 < t.pattern.minWidth := by
  cases t <;> decide

/-- A span is a nonempty stretch of the text and carries the text it covers. -/
structure Candidate.Placed (text : Text) (c : Candidate) : Prop where
  start_lt : c.start < c.stop
  stop_le : c.stop ≤ text.length
  raw : c.rawValue = slice text c.start c.stop

def Candidate.Overlaps (c a : Candidate) : Prop := c.start < a.stop ∧ a.start < c.stop

def Candidate.Disjoint (c a : Candidate) : Prop := c.stop ≤ a.start ∨ a.stop ≤ c.start

variable {c a : Candidate} {cs accepted : List Candidate} {ts : List PiiType}

theorem Candidate.disjoint_iff : c.Disjoint a ↔ ¬ c.Overlaps a := by
  simp only [Candidate.Disjoint, Candidate.Overlaps]
  omega

theorem Candidate.Disjoint.symm (h : Candidate.Disjoint c a) : a.Disjoint c := Or.symm h

theorem overlaps_iff : overlaps c accepted ↔ ∃ a ∈ accepted, c.Overlaps a := by
  simp [overlaps, Candidate.Overlaps]

theorem mem_DETECTORS (h : c ∈ DETECTORS t text) :
    ∃ m ∈ t.pattern.finditer text, t.accepts text m ∧ c = .ofMatch text t m := by
  rw [DETECTORS_eq] at h
  obtain ⟨m, hm, rfl⟩ := List.mem_map.1 h
  obtain ⟨hm, ha⟩ := List.mem_filter.1 hm
  exact ⟨m, hm, ha, rfl⟩

theorem DETECTORS_type (h : c ∈ DETECTORS t text) : c.piiType = t := by
  obtain ⟨m, _, _, rfl⟩ := mem_DETECTORS h
  rfl

theorem DETECTORS_placed (h : c ∈ DETECTORS t text) : c.Placed text := by
  obtain ⟨m, hm, _, rfl⟩ := mem_DETECTORS h
  have hs := finditer_isScan t.minWidth_pos text
  have hlt := matchAt_lt t.minWidth_pos (hs.matches_at m hm)
  exact ⟨hlt.1, hlt.2, rfl⟩

theorem DETECTORS_disjoint (t : PiiType) (text : Text) :
    (DETECTORS t text).Pairwise Candidate.Disjoint := by
  rw [DETECTORS_eq, List.pairwise_map]
  have hs := (finditer_isScan t.minWidth_pos text).disjoint
  exact (hs.sublist List.filter_sublist).imp fun h => .inl h

/-- Candidates of one detector never push each other out. -/
theorem foldl_acceptCandidate (hd : cs.Pairwise Candidate.Disjoint) (accepted : List Candidate) :
    cs.foldl acceptCandidate accepted = accepted ++ cs.filter fun c => !overlaps c accepted := by
  induction cs generalizing accepted with
  | nil => simp
  | cons c cs ih =>
    obtain ⟨hc, hd⟩ := List.pairwise_cons.1 hd
    rw [List.foldl_cons, ih hd]
    by_cases ho : overlaps c accepted
    · simp [acceptCandidate, ho]
    · have hcs : (cs.filter fun c' => !overlaps c' (accepted ++ [c])) =
          cs.filter fun c' => !overlaps c' accepted := by
        refine List.filter_congr fun c' hc' => ?_
        have hn := Candidate.disjoint_iff.1 (hc c' hc').symm
        simp only [Candidate.Overlaps, not_and_or, Nat.not_lt] at hn
        simp only [overlaps, List.any_append, List.any_cons, List.any_nil, Bool.or_false]
        rcases hn with hn | hn <;> simp [Nat.not_lt.2 hn]
      simp [acceptCandidate, ho, hcs]

/-- One round of the loop of `_collect_candidates`. -/
def collectType (text : Text) (enabled : Finset PiiType) (accepted : List Candidate)
    (t : PiiType) : List Candidate :=
  accepted ++ if t ∈ enabled then (DETECTORS t text).filter fun c => !overlaps c accepted else []

theorem collectCandidates_eq (text : Text) (enabled : Finset PiiType) :
    collectCandidates text enabled = DETECTOR_PRIORITY.foldl (collectType text enabled) [] := by
  unfold collectCandidates
  congr 1
  funext accepted t
  rw [collectType]
  split
  · exact foldl_acceptCandidate (DETECTORS_disjoint t text) accepted
  · exact (List.append_nil _).symm

theorem mem_collectType : c ∈ collectType text enabled accepted t ↔
    c ∈ accepted ∨ t ∈ enabled ∧ c ∈ DETECTORS t text ∧ ¬ overlaps c accepted := by
  simp only [collectType, List.mem_append]
  split <;> simp_all

theorem subset_foldl_collectType (ts : List PiiType) (h : c ∈ accepted) :
    c ∈ ts.foldl (collectType text enabled) accepted := by
  induction ts generalizing accepted with
  | nil => exact h
  | cons t ts ih => exact ih (mem_collectType.2 (.inl h))

theorem mem_foldl_collectType (h : c ∈ ts.foldl (collectType text enabled) accepted) :
    c ∈ accepted ∨ c.piiType ∈ ts ∧ c.piiType ∈ enabled ∧ c ∈ DETECTORS c.piiType text := by
  induction ts generalizing accepted with
  | nil => exact .inl h
  | cons t ts ih =>
    rcases ih h with h | ⟨ht, he, hc⟩
    · rcases mem_collectType.1 h with h | ⟨he, hc, _⟩
      · exact .inl h
      · obtain rfl := DETECTORS_type hc
        exact .inr ⟨List.mem_cons_self, he, hc⟩
    · exact .inr ⟨List.mem_cons_of_mem _ ht, he, hc⟩

theorem mem_collectCandidates (h : c ∈ collectCandidates text enabled) :
    c.piiType ∈ enabled ∧ c ∈ DETECTORS c.piiType text := by
  rw [collectCandidates_eq] at h
  rcases mem_foldl_collectType h with h | h
  · cases h
  · exact h.2

theorem collectCandidates_placed (h : c ∈ collectCandidates text enabled) : c.Placed text :=
  DETECTORS_placed (mem_collectCandidates h).2

theorem collectType_disjoint (h : accepted.Pairwise Candidate.Disjoint) :
    (collectType text enabled accepted t).Pairwise Candidate.Disjoint := by
  refine List.pairwise_append.2 ⟨h, ?_, fun a ha c hc => ?_⟩
  · split
    · exact (DETECTORS_disjoint t text).sublist List.filter_sublist
    · exact .nil
  · split at hc
    · have ho := (List.mem_filter.1 hc).2
      simp only [Bool.not_eq_true', ← Bool.not_eq_true, overlaps_iff, not_exists, not_and] at ho
      exact (Candidate.disjoint_iff.2 (ho a ha)).symm
    · cases hc

theorem foldl_collectType_disjoint (ts : List PiiType)
    (h : accepted.Pairwise Candidate.Disjoint) :
    (ts.foldl (collectType text enabled) accepted).Pairwise Candidate.Disjoint := by
  induction ts generalizing accepted with
  | nil => exact h
  | cons t ts ih => exact ih (collectType_disjoint h)

theorem collectCandidates_disjoint (text : Text) (enabled : Finset PiiType) :
    (collectCandidates text enabled).Pairwise Candidate.Disjoint := by
  rw [collectCandidates_eq]
  exact foldl_collectType_disjoint _ .nil

/-- A candidate is accepted unless a span of an earlier type touches it. -/
theorem foldl_collectType_covers (ht : t ∈ enabled) (hc : c ∈ DETECTORS t text)
    (pre post : List PiiType) :
    let spans := (pre ++ t :: post).foldl (collectType text enabled) []
    c ∈ spans ∨ ∃ a ∈ spans, c.Overlaps a ∧ a.piiType ∈ pre := by
  simp only [List.foldl_append, List.foldl_cons]
  by_cases ho : overlaps c (pre.foldl (collectType text enabled) [])
  · obtain ⟨a, ha, hca⟩ := overlaps_iff.1 ho
    refine .inr ⟨a, subset_foldl_collectType _ (mem_collectType.2 (.inl ha)), hca, ?_⟩
    rcases mem_foldl_collectType ha with ha | ha
    · cases ha
    · exact ha.1
  · exact .inl (subset_foldl_collectType _ (mem_collectType.2 (.inr ⟨ht, hc, ho⟩)))

/-- The types whose detectors run before that of `t`. -/
def earlierTypes (t : PiiType) : List PiiType := DETECTOR_PRIORITY.takeWhile (· ≠ t)

theorem collectCandidates_covers (ht : t ∈ enabled) (hc : c ∈ DETECTORS t text) :
    c ∈ collectCandidates text enabled ∨
      ∃ a ∈ collectCandidates text enabled, c.Overlaps a ∧ a.piiType ∈ earlierTypes t := by
  rw [collectCandidates_eq]
  have hsplit : DETECTOR_PRIORITY =
      earlierTypes t ++ t :: (DETECTOR_PRIORITY.drop ((earlierTypes t).length + 1)) := by
    cases t <;> rfl
  rw [hsplit]
  exact foldl_collectType_covers ht hc _ _

/-- Some accepted span touches `[i, j)`. -/
def Redacted (text : Text) (enabled : Finset PiiType) (i j : Nat) : Prop :=
  ∃ a ∈ collectCandidates text enabled, a.start < j ∧ i < a.stop

/-- Position `i` lies in an accepted span. -/
def Covered (text : Text) (enabled : Finset PiiType) (i : Nat) : Prop :=
  ∃ a ∈ collectCandidates text enabled, a.start ≤ i ∧ i < a.stop

/-- Every character of every match of an enabled detector lies in an accepted span. -/
def FullyCovered (text : Text) (enabled : Finset PiiType) : Prop :=
  ∀ t ∈ enabled, ∀ c ∈ DETECTORS t text, ∀ i, c.start ≤ i → i < c.stop → Covered text enabled i

/-- The last digits of the card also start the address, so the whole card is dropped. -/
theorem card_before_email_not_fullyCovered :
    ¬ FullyCovered "4111 1111 1111 1111a@b.co".toList {.email, .card} := by
  intro h
  have hc : ⟨0, 19, .card, "4111 1111 1111 1111".toList⟩ ∈
      DETECTORS .card "4111 1111 1111 1111a@b.co".toList := by decide +kernel
  have hs : collectCandidates "4111 1111 1111 1111a@b.co".toList {.email, .card} =
      [⟨15, 25, .email, "1111a@b.co".toList⟩] := by decide +kernel
  obtain ⟨a, ha, hle, _⟩ := h .card (by decide) _ hc 0 (Nat.le_refl 0) (by decide)
  rw [hs, List.mem_singleton] at ha
  rw [ha] at hle
  exact absurd hle (by decide)

/-- The accepted spans are disjoint matches of enabled detectors, and a match is covered as a whole
unless a span of an earlier type has it dropped. -/
theorem detected_covered_or_dropped (text : Text) (enabled : Finset PiiType) :
    (collectCandidates text enabled).Pairwise Candidate.Disjoint ∧
    (∀ c ∈ collectCandidates text enabled, c.piiType ∈ enabled ∧ c ∈ DETECTORS c.piiType text) ∧
    ∀ t ∈ enabled, ∀ c ∈ DETECTORS t text,
      ((c ∈ collectCandidates text enabled ∧
          ∀ i, c.start ≤ i → i < c.stop → Covered text enabled i) ∨
        ∃ a ∈ collectCandidates text enabled, c.Overlaps a ∧ a.piiType ∈ earlierTypes t) ∧
      (∀ i, c.start ≤ i → i < c.stop → ¬ Covered text enabled i →
        c ∉ collectCandidates text enabled ∧
          ∃ a ∈ collectCandidates text enabled, c.Overlaps a ∧ a.piiType ∈ earlierTypes t) ∧
      ((∀ s ∈ earlierTypes t, s ∉ enabled) → c ∈ collectCandidates text enabled ∧
        ∀ i, c.start ≤ i → i < c.stop → Covered text enabled i) := by
  refine ⟨collectCandidates_disjoint text enabled, fun c hc => mem_collectCandidates hc, ?_⟩
  intro t ht c hc
  have hcovers (h : c ∈ collectCandidates text enabled) (i : Nat) (hi : c.start ≤ i)
      (hi' : i < c.stop) : Covered text enabled i := ⟨c, h, hi, hi'⟩
  refine ⟨?_, ?_, ?_⟩
  · exact (collectCandidates_covers ht hc).imp_left fun h => ⟨h, hcovers h⟩
  · intro i hi hi' hnot
    have hdropped : c ∉ collectCandidates text enabled := fun h => hnot (hcovers h i hi hi')
    exact ⟨hdropped, (collectCandidates_covers ht hc).resolve_left hdropped⟩
  · intro hfirst
    rcases collectCandidates_covers ht hc with h | ⟨a, ha, _, htype⟩
    · exact ⟨h, hcovers h⟩
    · exact absurd (mem_collectCandidates ha).1 (hfirst _ htype)

theorem detected_covered_or_dropped_card :
    let text := "4111 1111 1111 1111a@b.co".toList
    let card : Candidate := ⟨0, 19, .card, "4111 1111 1111 1111".toList⟩
    let email : Candidate := ⟨15, 25, .email, "1111a@b.co".toList⟩
    (email ∈ collectCandidates text {.email, .card} ∧
      ∀ i, 15 ≤ i → i < 25 → Covered text {.email, .card} i) ∧
    card ∉ collectCandidates text {.email, .card} ∧
      ∃ a ∈ collectCandidates text {.email, .card}, card.Overlaps a ∧
        a.piiType ∈ earlierTypes .card := by
  intro text card email
  obtain ⟨_, _, hmatches⟩ := detected_covered_or_dropped text {.email, .card}
  have huncovered : ¬ Covered text {.email, .card} 0 := by
    have hspans : collectCandidates text {.email, .card} = [email] := by decide +kernel
    rintro ⟨a, ha, hle, _⟩
    rw [hspans, List.mem_singleton] at ha
    rw [ha] at hle
    exact absurd hle (by decide)
  refine ⟨(hmatches .email (by decide) email (by decide +kernel)).2.2 (by decide), ?_⟩
  exact (hmatches .card (by decide) card (by decide +kernel)).2.1 0 (by decide) (by decide)
    huncovered

end AiServing
