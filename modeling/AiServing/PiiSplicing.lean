import AiServing.PiiSpans
import AiServing.Splice

namespace AiServing
open Backtrack Dictionary
set_option autoImplicit true

variable {c c' a b : Candidate} {cs cs' : List Candidate} {s s' : MaskState}

def leftToRight (cs : List Candidate) : List Candidate :=
  cs.insertionSort fun a b => a.start ≤ b.start

/-- The spans `_collect_candidates` accepts, in the order of the text. -/
def acceptedSpans (text : Text) (enabled : Finset PiiType) : List Candidate :=
  leftToRight (collectCandidates text enabled)

theorem mem_leftToRight : c ∈ leftToRight cs ↔ c ∈ cs := List.mem_insertionSort _

theorem mem_acceptedSpans : c ∈ acceptedSpans text enabled ↔ c ∈ collectCandidates text enabled :=
  mem_leftToRight

theorem leftToRight_sorted (cs : List Candidate) :
    (leftToRight cs).Pairwise fun a b => a.start ≤ b.start := by
  have : Std.Total fun a b : Candidate => a.start ≤ b.start := ⟨fun a b => Nat.le_total _ _⟩
  have : IsTrans Candidate fun a b => a.start ≤ b.start := ⟨fun _ _ _ => Nat.le_trans⟩
  exact List.pairwise_insertionSort _ cs

theorem rightToLeft_sorted (cs : List Candidate) :
    (cs.insertionSort fun a b => b.start ≤ a.start).Pairwise fun a b => b.start ≤ a.start := by
  have : Std.Total fun a b : Candidate => b.start ≤ a.start := ⟨fun a b => Nat.le_total _ _⟩
  have : IsTrans Candidate fun a b => b.start ≤ a.start :=
    ⟨fun _ _ _ hab hbc => Nat.le_trans hbc hab⟩
  exact List.pairwise_insertionSort _ cs

theorem acceptedSpans_placed (h : c ∈ acceptedSpans text enabled) : c.Placed text :=
  collectCandidates_placed (mem_acceptedSpans.1 h)

theorem acceptedSpans_disjoint (text : Text) (enabled : Finset PiiType) :
    (acceptedSpans text enabled).Pairwise Candidate.Disjoint :=
  (collectCandidates_disjoint text enabled).perm (List.perm_insertionSort _ _).symm
    Candidate.Disjoint.symm

theorem acceptedSpans_sorted (text : Text) (enabled : Finset PiiType) :
    (acceptedSpans text enabled).Pairwise fun a b => a.stop ≤ b.start := by
  have hs := leftToRight_sorted (collectCandidates text enabled)
  refine (hs.and (acceptedSpans_disjoint text enabled)).imp_of_mem ?_
  rintro a b ha hb ⟨hle, hd | hd⟩
  · exact hd
  · have := (acceptedSpans_placed hb).start_lt
    omega

theorem rightToLeft_eq (text : Text) (enabled : Finset PiiType) :
    ((collectCandidates text enabled).insertionSort fun a b => b.start ≤ a.start) =
      (acceptedSpans text enabled).reverse := by
  have hs := leftToRight_sorted (collectCandidates text enabled)
  refine List.Perm.eq_of_pairwise ?_ (rightToLeft_sorted _) (List.pairwise_reverse.2 hs) ?_
  · intro a b ha hb hle hle'
    by_contra hne
    have ha' := (List.mem_insertionSort _).1 ha
    have hb' := mem_acceptedSpans.1 (List.mem_reverse.1 hb)
    have hsym : Std.Symm Candidate.Disjoint := ⟨fun _ _ => Candidate.Disjoint.symm⟩
    have hd := (collectCandidates_disjoint text enabled).forall ha' hb' hne
    have hpa := (collectCandidates_placed ha').start_lt
    have hpb := (collectCandidates_placed hb').start_lt
    rcases hd with hd | hd <;> omega
  · exact (List.perm_insertionSort _ _).trans
      ((List.perm_insertionSort _ _).symm.trans (List.reverse_perm _).symm)

def Candidate.edit (s : MaskState) (c : Candidate) : Edit Char := ⟨c.start, c.stop, s.lookup c⟩

theorem edits_of_sorted (hp : ∀ c ∈ cs, c.Placed text)
    (hs : cs.Pairwise fun a b => a.stop ≤ b.start) (hi : ∀ c ∈ cs, i ≤ c.start)
    (hl : i ≤ text.length) : Edits text.length i (cs.map (Candidate.edit s)) := by
  induction cs generalizing i with
  | nil => exact .nil hl
  | cons c cs ih =>
    obtain ⟨hc, hs⟩ := List.pairwise_cons.1 hs
    have hpc := hp c List.mem_cons_self
    refine .cons (hi c List.mem_cons_self) (Nat.le_of_lt hpc.start_lt) ?_
    exact ih (fun c' hc' => hp c' (List.mem_cons_of_mem _ hc')) hs hc hpc.stop_le

theorem acceptedSpans_edits (text : Text) (enabled : Finset PiiType) (s : MaskState) :
    Edits text.length 0 ((acceptedSpans text enabled).map (Candidate.edit s)) :=
  edits_of_sorted (fun _ => acceptedSpans_placed) (acceptedSpans_sorted text enabled)
    (fun _ _ => Nat.zero_le _) (Nat.zero_le _)

/-- The stretches of the text outside the accepted spans, left to right. -/
def outside (text : Text) (enabled : Finset PiiType) : List Text :=
  segments text 0 ((acceptedSpans text enabled).map fun c => (c.start, c.stop))

/-- The state after the first loop of `_apply_mask`. -/
def recordAll (s : MaskState) (text : Text) (enabled : Finset PiiType) : MaskState :=
  (acceptedSpans text enabled).foldl .record s

/-- The content after the second loop of `_apply_mask`. -/
def maskedText (s : MaskState) (text : Text) (enabled : Finset PiiType) : Text :=
  weave (outside text enabled)
    ((acceptedSpans text enabled).map (recordAll s text enabled).lookup)

theorem applyMask_eq (text : Text) (enabled : Finset PiiType) (s : MaskState) :
    applyMask text (collectCandidates text enabled) s =
      (maskedText s text enabled, recordAll s text enabled) := by
  have hf := foldr_apply_zero (acceptedSpans_edits text enabled (recordAll s text enabled))
  simp only [applyMask, rightToLeft_eq, List.foldl_reverse]
  refine Prod.ext ?_ rfl
  rw [List.foldr_map] at hf
  refine hf.trans ?_
  simp only [spliced, maskedText, outside, List.map_map]
  rfl

theorem acceptedSpans_eq_nil (h : collectCandidates text enabled = []) :
    acceptedSpans text enabled = [] := by
  rw [acceptedSpans, h]; rfl

theorem maskedText_of_no_spans (s : MaskState) (h : acceptedSpans text enabled = []) :
    maskedText s text enabled = text := by
  simp [maskedText, outside, h, segments, weave]

theorem maskMessage_eq (enabled : Finset PiiType) (s : MaskState) (m : NormalizedMessage) :
    maskMessage enabled s m =
      ({ m with content := maskedText s m.content enabled }, recordAll s m.content enabled) := by
  simp only [maskMessage]
  split
  · rename_i h
    have hn := acceptedSpans_eq_nil h
    rw [maskedText_of_no_spans s hn, recordAll, hn]
    rfl
  · rw [applyMask_eq]

theorem collectCandidates_empty (text : Text) : collectCandidates text ∅ = [] := by
  simp [collectCandidates, DETECTOR_PRIORITY]

theorem maskAll_empty (s : MaskState) (ms : List NormalizedMessage) :
    maskAll ∅ s ms = (ms, s) := by
  induction ms generalizing s with
  | nil => rfl
  | cons m ms ih => simp [maskAll, maskMessage, collectCandidates_empty, ih]

theorem maskMessages_eq (ms : List NormalizedMessage) (names : List String) :
    maskMessages ms names =
      ((maskAll (enabledOf names) .init ms).1, (maskAll (enabledOf names) .init ms).2.counts) := by
  simp only [maskMessages]
  split
  · rename_i h
    rw [h, maskAll_empty]; rfl
  · rfl

theorem maskText_eq (text : Text) (names : List String) :
    maskText text names =
      (maskedText .init text (enabledOf names),
        (recordAll .init text (enabledOf names)).counts) := by
  simp only [maskText]
  have hnil (h : collectCandidates text (enabledOf names) = []) :
      (text, (Dict.empty : Dict PiiType Nat)) =
        (maskedText .init text (enabledOf names),
          (recordAll .init text (enabledOf names)).counts) := by
    have hn := acceptedSpans_eq_nil h
    rw [maskedText_of_no_spans _ hn, recordAll, hn]
    rfl
  split
  · rename_i h
    exact hnil (by rw [h, collectCandidates_empty])
  · split
    · exact hnil ‹_›
    · rw [applyMask_eq]

theorem lookup_congr (h : (s.placeholders.get? (c.piiType, c.rawValue)) =
    s'.placeholders.get? (c'.piiType, c'.rawValue)) : s.lookup c = s'.lookup c' := by
  simp only [MaskState.lookup, h]

theorem record_counts (s : MaskState) (c : Candidate) :
    (s.record c).counts = s.counts.set c.piiType ((s.counts.get? c.piiType).getD 0 + 1) := by
  simp only [MaskState.record]; split <;> rfl

theorem record_of_seen (h : (s.placeholders.get? (c.piiType, c.rawValue)).isSome) :
    (s.record c).nextIndexes = s.nextIndexes ∧ (s.record c).placeholders = s.placeholders := by
  simp [MaskState.record, h]

theorem record_of_new (h : s.placeholders.get? (c.piiType, c.rawValue) = none) :
    let index := (s.nextIndexes.get? c.piiType).getD 0 + 1
    (s.record c).nextIndexes = s.nextIndexes.set c.piiType index ∧
      (s.record c).placeholders =
        s.placeholders.set (c.piiType, c.rawValue) (placeholder c.piiType index) := by
  simp [MaskState.record, h]

theorem record_get? (h : s.placeholders.get? k = some p) (c : Candidate) :
    (s.record c).placeholders.get? k = some p := by
  cases hc : s.placeholders.get? (c.piiType, c.rawValue) with
  | some q => rw [(record_of_seen (by rw [hc]; rfl)).2, h]
  | none =>
    rw [(record_of_new hc).2, Dict.get?_set]
    split
    · rename_i hk; rw [hk, hc] at h; cases h
    · exact h

end AiServing
