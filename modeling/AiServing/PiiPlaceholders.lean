import AiServing.PiiTwoRuns
import AiServing.RepeatedMasking
import AiServing.FirstSeen

namespace AiServing
open Backtrack Dictionary Numbering
set_option autoImplicit true

variable {os : List (PiiType × Text)} {s : MaskState} {t : PiiType} {k k' : PiiType × Text}
  {c : Candidate}

/-- The raw values of one type, as they occur. -/
def valuesOf (t : PiiType) (os : List (PiiType × Text)) : List Text :=
  (os.filter fun k => k.1 = t).map Prod.snd

/-- The placeholder of a value: its type, and its number among the values of that type. -/
def placeholderOf (os : List (PiiType × Text)) (k : PiiType × Text) : Text :=
  placeholder k.1 (number (valuesOf k.1 os) k.2)

theorem mem_valuesOf : v ∈ valuesOf t os ↔ (t, v) ∈ os := by
  simp [valuesOf]

@[simp] theorem valuesOf_append (t : PiiType) (os os' : List (PiiType × Text)) :
    valuesOf t (os ++ os') = valuesOf t os ++ valuesOf t os' := by
  simp [valuesOf]

theorem length_valuesOf (t : PiiType) (os : List (PiiType × Text)) :
    (valuesOf t os).length = (os.map Prod.fst).count t := by
  induction os with
  | nil => rfl
  | cons k os ih =>
    rw [List.map_cons, List.count_cons, ← ih]
    by_cases h : k.1 = t <;> simp [valuesOf, h]

theorem placeholderOf_append (h : k ∈ os) (os' : List (PiiType × Text)) :
    placeholderOf (os ++ os') k = placeholderOf os k := by
  rw [placeholderOf, valuesOf_append, number_append (mem_valuesOf.2 h), placeholderOf]

theorem PiiType.upper_no_colon (t : PiiType) : ':' ∉ t.upper.toList := by
  cases t <;> decide

theorem PiiType.upper_injective (h : t.upper = τ.upper) : t = τ := by
  cases t <;> cases τ <;> first | rfl | (revert h; decide)

theorem placeholder_inj (h : placeholder t i = placeholder τ j) : t = τ ∧ i = j := by
  have hform (t : PiiType) (i : Nat) : placeholder t i =
      "[REDACTED:".toList ++ (t.upper.toList ++ ':' :: (digitsOf i ++ [']'])) := by
    have hplaceholder : placeholder t i =
      "[REDACTED:".toList ++ t.upper.toList ++ [':'] ++ digitsOf i ++ [']'] := rfl
    rw [hplaceholder]
    simp only [List.append_assoc, List.cons_append, List.nil_append]
  have hcolon : ':' ∉ digitsOf j ++ [']'] := by
    intro hm
    rcases List.mem_append.1 hm with hm | hm
    · have hdigit := digitsOf_isDigit hm
      revert hdigit
      decide
    · revert hm
      decide
  rw [hform, hform] at h
  have hrest := (List.append_cancel_left h).symm
  obtain ⟨hupper, _, hdigits⟩ :=
    (List.append_cons_inj_of_notMem τ.upper_no_colon hcolon).1 hrest
  have hindex := congrArg intOf (List.append_cancel_right hdigits)
  rw [intOf_digitsOf, intOf_digitsOf] at hindex
  exact ⟨PiiType.upper_injective (String.toList_inj.1 hupper.symm), hindex.symm⟩

theorem record_get?_counts (s : MaskState) (c : Candidate) (t : PiiType) :
    (s.record c).counts.get? t =
      if t = c.piiType then some ((s.counts.get? t).getD 0 + 1) else s.counts.get? t := by
  rw [record_counts, Dict.get?_set]
  split
  · rename_i h
    rw [h]
  · rfl

theorem record_get?_nextIndexes (s : MaskState) (c : Candidate) (t : PiiType) :
    ((s.record c).nextIndexes.get? t).getD 0 = (s.nextIndexes.get? t).getD 0 +
      if t = c.piiType ∧ s.placeholders.get? c.key = none then 1 else 0 := by
  cases hc : s.placeholders.get? c.key with
  | some p =>
    rw [(record_of_seen (by rw [← Candidate.key, hc]; rfl)).1]
    simp
  | none =>
    rw [(record_of_new hc).1, Dict.get?_set]
    by_cases ht : t = c.piiType
    · simp [ht]
    · simp [ht]

theorem record_get?_placeholders (s : MaskState) (c : Candidate) (k : PiiType × Text) :
    (s.record c).placeholders.get? k =
      if k = c.key ∧ s.placeholders.get? c.key = none then
        some (placeholder c.piiType ((s.nextIndexes.get? c.piiType).getD 0 + 1))
      else s.placeholders.get? k := by
  cases hc : s.placeholders.get? c.key with
  | some p =>
    rw [(record_of_seen (by rw [← Candidate.key, hc]; rfl)).2]
    simp
  | none =>
    rw [(record_of_new hc).2, Dict.get?_set, ← Candidate.key]
    simp

theorem foldl_record_get?_counts (s : MaskState) (cs : List Candidate) (t : PiiType) :
    (cs.foldl .record s).counts.get? t =
      if cs.countP (fun c => c.piiType = t) = 0 then s.counts.get? t
      else some ((s.counts.get? t).getD 0 + cs.countP fun c => c.piiType = t) := by
  induction cs generalizing s with
  | nil => rfl
  | cons c cs ih =>
    rw [List.foldl_cons, ih, record_get?_counts]
    by_cases ht : c.piiType = t
    · subst ht
      rw [if_pos rfl, List.countP_cons_of_pos (by simp), if_neg (Nat.succ_ne_zero _)]
      split
      · rename_i h
        rw [h]
      · rw [Option.getD_some, Nat.add_assoc, Nat.add_comm 1]
    · rw [if_neg (Ne.symm ht), List.countP_cons_of_neg (by simpa using ht)]

theorem weave_rawValues (text : Text) (enabled : Finset PiiType) :
    weave (outside text enabled) ((acceptedSpans text enabled).map Candidate.rawValue) = text := by
  have hslices := weave_slices (acceptedSpans_edits text enabled .init)
  rw [List.map_map, List.map_map] at hslices
  have hraw : (acceptedSpans text enabled).map Candidate.rawValue =
      (acceptedSpans text enabled).map fun c => slice text c.start c.stop :=
    List.map_congr_left fun c hc => (acceptedSpans_placed hc).raw
  rw [hraw]
  exact hslices

/-- The spans of a text are cut out exactly and the rest of the text stays as it is. -/
theorem applyMask_splices (text : Text) (enabled : Finset PiiType) (s : MaskState) :
    let candidates := collectCandidates text enabled
    let spans := acceptedSpans text enabled
    let masked := applyMask text candidates s
    (∀ c ∈ candidates, c.start < c.stop ∧ c.stop ≤ text.length ∧
      c.rawValue = slice text c.start c.stop) ∧
    candidates.Pairwise Candidate.Disjoint ∧
    spans.Perm candidates ∧ (spans.Pairwise fun a b => a.stop ≤ b.start) ∧
    weave (outside text enabled) (spans.map Candidate.rawValue) = text ∧
    masked.1 = weave (outside text enabled) (spans.map masked.2.lookup) ∧
    (∀ c ∈ spans, masked.2.placeholders.get? c.key = some (masked.2.lookup c)) ∧
    ∀ t, masked.2.counts.get? t =
      if candidates.countP (fun c => c.piiType = t) = 0 then s.counts.get? t
      else some ((s.counts.get? t).getD 0 + candidates.countP fun c => c.piiType = t) := by
  intro candidates spans masked
  have hperm : spans.Perm candidates := List.perm_insertionSort _ _
  have hmasked : masked = (maskedText s text enabled, recordAll s text enabled) :=
    applyMask_eq text enabled s
  refine ⟨?_, collectCandidates_disjoint text enabled, hperm, acceptedSpans_sorted text enabled,
    weave_rawValues text enabled, ?_, ?_, ?_⟩
  · intro c hc
    have hplaced := collectCandidates_placed hc
    exact ⟨hplaced.start_lt, hplaced.stop_le, hplaced.raw⟩
  · rw [hmasked]
    rfl
  · intro c hc
    obtain ⟨p, hp⟩ := foldl_record_recorded hc s
    have hlookup : masked.2.lookup c = p := by
      rw [hmasked]
      exact congrArg (·.getD []) hp
    rw [hlookup, hmasked]
    exact hp
  · intro t
    rw [hmasked, ← hperm.countP_eq]
    exact foldl_record_get?_counts s spans t

/-- What the three dictionaries hold after the occurrences `os`. -/
structure MaskState.Records (s : MaskState) (os : List (PiiType × Text)) : Prop where
  counts : ∀ t, s.counts.get? t =
    if valuesOf t os = [] then none else some (valuesOf t os).length
  nextIndexes : ∀ t, (s.nextIndexes.get? t).getD 0 = (firstSeen (valuesOf t os)).length
  placeholders : ∀ k, s.placeholders.get? k =
    if k ∈ os then some (placeholderOf os k) else none

theorem MaskState.Records.init : MaskState.init.Records [] where
  counts _ := rfl
  nextIndexes _ := rfl
  placeholders _ := rfl

theorem MaskState.Records.get?_eq_none (h : s.Records os) :
    s.placeholders.get? k = none ↔ k ∉ os := by
  rw [h.placeholders]
  by_cases hk : k ∈ os <;> simp [hk]

theorem valuesOf_concat_same (os : List (PiiType × Text)) (c : Candidate) :
    valuesOf c.piiType (os ++ [c.key]) = valuesOf c.piiType os ++ [c.rawValue] := by
  simp [valuesOf, Candidate.key]

theorem valuesOf_concat_other (h : t ≠ c.piiType) (os : List (PiiType × Text)) :
    valuesOf t (os ++ [c.key]) = valuesOf t os := by
  simp [valuesOf, Candidate.key, Ne.symm h]

theorem MaskState.Records.record_counts (h : s.Records os) (c : Candidate) (t : PiiType) :
    (s.record c).counts.get? t = if valuesOf t (os ++ [c.key]) = [] then none
      else some (valuesOf t (os ++ [c.key])).length := by
  rw [record_get?_counts, h.counts]
  by_cases ht : t = c.piiType
  · subst ht
    rw [if_pos rfl, valuesOf_concat_same, if_neg (List.concat_ne_nil _ _), List.length_append]
    cases valuesOf c.piiType os <;> rfl
  · rw [if_neg ht, valuesOf_concat_other ht]

theorem MaskState.Records.record_nextIndexes (h : s.Records os) (c : Candidate) (t : PiiType) :
    ((s.record c).nextIndexes.get? t).getD 0 =
      (firstSeen (valuesOf t (os ++ [c.key]))).length := by
  simp only [record_get?_nextIndexes, h.nextIndexes, h.get?_eq_none]
  by_cases ht : t = c.piiType
  · subst ht
    rw [valuesOf_concat_same]
    by_cases hk : c.key ∈ os
    · rw [firstSeen_concat_old (mem_valuesOf.2 hk), if_neg fun hn => hn.2 hk]
      rfl
    · rw [firstSeen_concat_new fun hm => hk (mem_valuesOf.1 hm), if_pos ⟨rfl, hk⟩,
        List.length_append]
      rfl
  · rw [valuesOf_concat_other ht, if_neg fun hn => ht hn.1]
    rfl

theorem MaskState.Records.record_placeholders (h : s.Records os) (c : Candidate)
    (k : PiiType × Text) :
    (s.record c).placeholders.get? k =
      if k ∈ os ++ [c.key] then some (placeholderOf (os ++ [c.key]) k) else none := by
  simp only [record_get?_placeholders, h.get?_eq_none, h.placeholders k, h.nextIndexes]
  by_cases hk : k ∈ os
  · have hold : ¬ (k = c.key ∧ c.key ∉ os) := fun hn => hn.2 (hn.1 ▸ hk)
    rw [if_neg hold, if_pos hk, if_pos (List.mem_append_left _ hk), placeholderOf_append hk]
  · by_cases hkc : k = c.key
    · subst hkc
      have hnew : c.rawValue ∉ valuesOf c.piiType os := fun hm => hk (mem_valuesOf.1 hm)
      rw [if_pos ⟨rfl, hk⟩, if_pos (List.mem_append_right _ List.mem_cons_self), placeholderOf]
      have hnumber := number_concat_new hnew
      rw [← valuesOf_concat_same] at hnumber
      exact congrArg (fun i => some (placeholder c.piiType i)) hnumber.symm
    · have hnot : k ∉ os ++ [c.key] := by
        intro hm
        rcases List.mem_append.1 hm with hm | hm
        · exact hk hm
        · exact hkc (List.mem_singleton.1 hm)
      rw [if_neg fun hn => hkc hn.1, if_neg hk, if_neg hnot]

theorem MaskState.Records.record (h : s.Records os) (c : Candidate) :
    (s.record c).Records (os ++ [c.key]) where
  counts := h.record_counts c
  nextIndexes := h.record_nextIndexes c
  placeholders := h.record_placeholders c

theorem MaskState.Records.foldl (h : s.Records os) (cs : List Candidate) :
    (cs.foldl .record s).Records (os ++ cs.map Candidate.key) := by
  induction cs generalizing s os with
  | nil => rwa [List.map_nil, List.append_nil]
  | cons c cs ih =>
    have hrest := ih (h.record c)
    rwa [List.append_assoc] at hrest

theorem MaskState.Records.lookup (h : s.Records os) (hc : c.key ∈ os) :
    s.lookup c = placeholderOf os c.key := by
  rw [MaskState.lookup, ← Candidate.key, h.placeholders, if_pos hc]
  rfl

/-- The content of a message under the placeholders that the occurrences `os` receive. -/
def renderedWith (os : List (PiiType × Text)) (enabled : Finset PiiType) (text : Text) : Text :=
  weave (outside text enabled)
    ((acceptedSpans text enabled).map fun c => placeholderOf os c.key)

theorem MaskState.Records.maskedText (h : s.Records os) (text : Text)
    (enabled : Finset PiiType) (os' : List (PiiType × Text)) :
    maskedText s text enabled =
      renderedWith (os ++ (acceptedSpans text enabled).map Candidate.key ++ os') enabled text := by
  have hrecords := h.foldl (acceptedSpans text enabled)
  rw [AiServing.maskedText, renderedWith]
  congr 1
  apply List.map_congr_left
  intro c hc
  have hmem : c.key ∈ os ++ (acceptedSpans text enabled).map Candidate.key :=
    List.mem_append_right _ (List.mem_map_of_mem hc)
  rw [recordAll, hrecords.lookup hmem, placeholderOf_append hmem]

/-- The run lemma: a placeholder given in one message is the one of the whole request. -/
theorem MaskState.Records.maskAll (h : s.Records os) (ms : List NormalizedMessage) :
    (maskAll enabled s ms).1 = ms.map (fun m => { m with
        content := renderedWith (os ++ occurrences enabled ms) enabled m.content }) ∧
      (AiServing.maskAll enabled s ms).2.Records (os ++ occurrences enabled ms) := by
  induction ms generalizing s os with
  | nil => exact ⟨rfl, by rwa [occurrences, List.flatMap_nil, List.append_nil]⟩
  | cons m ms ih =>
    have hos : os ++ occurrences enabled (m :: ms) =
        os ++ (acceptedSpans m.content enabled).map Candidate.key ++ occurrences enabled ms := by
      rw [occurrences, List.flatMap_cons, List.append_assoc]
      rfl
    obtain ⟨hrest, hrecords⟩ := ih (h.foldl (acceptedSpans m.content enabled))
    simp only [AiServing.maskAll, maskMessage_eq, recordAll, List.map_cons, hos]
    rw [hrest, h.maskedText m.content enabled (occurrences enabled ms)]
    exact ⟨rfl, hrecords⟩

theorem idxOf_valuesOf (t : PiiType) (v v' : Text) (os : List (PiiType × Text)) :
    (valuesOf t os).idxOf v < (valuesOf t os).idxOf v' ↔ os.idxOf (t, v) < os.idxOf (t, v') := by
  induction os with
  | nil => exact Iff.rfl
  | cons k os ih =>
    obtain ⟨τ, w⟩ := k
    by_cases ht : τ = t
    · subst ht
      have hvalues : valuesOf τ ((τ, w) :: os) = w :: valuesOf τ os := by simp [valuesOf]
      have hpair (u : Text) : (τ, w) = (τ, u) ↔ w = u := by simp
      simp only [hvalues, List.idxOf_cons, cond_eq_ite, beq_iff_eq, hpair]
      by_cases hv' : w = v'
      · simp only [if_pos hv', Nat.not_lt_zero]
      · by_cases hv : w = v
        · simp only [if_pos hv, if_neg hv', Nat.succ_pos]
        · simp only [if_neg hv, if_neg hv', Nat.add_lt_add_iff_right, ih]
    · have hvalues : valuesOf t ((τ, w) :: os) = valuesOf t os := by simp [valuesOf, ht]
      have hne (u : Text) : (τ, w) ≠ (t, u) := fun h => ht (congrArg Prod.fst h)
      rw [hvalues, List.idxOf_cons_ne _ (hne v), List.idxOf_cons_ne _ (hne v'), ih]
      exact Nat.succ_lt_succ_iff.symm

theorem placeholderOf_inj (hk : k ∈ os) :
    placeholderOf os k = placeholderOf os k' ↔ k = k' := by
  constructor
  · intro h
    obtain ⟨htype, hnumber⟩ := placeholder_inj h
    rw [← htype] at hnumber
    exact Prod.ext htype ((number_inj (mem_valuesOf.2 hk)).1 hnumber)
  · rintro rfl
    rfl

theorem indexes_used (t : PiiType) (os : List (PiiType × Text)) :
    {i | ∃ v, (t, v) ∈ os ∧ placeholderOf os (t, v) = placeholder t i} =
      Set.Icc 1 (valuesOf t os).toFinset.card := by
  ext i
  rw [← length_firstSeen]
  constructor
  · rintro ⟨v, hv, hp⟩
    obtain ⟨_, rfl⟩ := placeholder_inj hp
    exact ⟨number_pos _ _, number_le (mem_valuesOf.2 hv)⟩
  · rintro ⟨hpos, hle⟩
    obtain ⟨v, hv, rfl⟩ := exists_number hpos hle
    exact ⟨v, mem_valuesOf.1 hv, rfl⟩

theorem valuesOf_eq_nil : valuesOf t os = [] ↔ (os.map Prod.fst).count t = 0 := by
  rw [← length_valuesOf, List.length_eq_zero_iff]

theorem counts_of_records (h : s.Records os) (t : PiiType) :
    s.counts.get? t = if (os.map Prod.fst).count t = 0 then none
      else some ((os.map Prod.fst).count t) := by
  simp only [h.counts, valuesOf_eq_nil, length_valuesOf]

/-- The output of a request is its input with each value under the placeholder of its number. -/
theorem maskMessages_numbered (ms : List NormalizedMessage) (names : List String) :
    let enabled := enabledOf names
    let os := occurrences enabled ms
    (maskMessages ms names).1 =
        ms.map (fun m => { m with content := renderedWith os enabled m.content }) ∧
      (∀ k ∈ os, ∀ k' ∈ os, placeholderOf os k = placeholderOf os k' ↔ k = k') ∧
      (∀ t, {i | ∃ v, (t, v) ∈ os ∧ placeholderOf os (t, v) = placeholder t i} =
        Set.Icc 1 (valuesOf t os).toFinset.card) ∧
      (∀ t v v' i i', (t, v) ∈ os → (t, v') ∈ os → placeholderOf os (t, v) = placeholder t i →
        placeholderOf os (t, v') = placeholder t i' →
        (i < i' ↔ os.idxOf (t, v) < os.idxOf (t, v'))) ∧
      ∀ t, (maskMessages ms names).2.get? t = if (os.map Prod.fst).count t = 0 then none
        else some ((os.map Prod.fst).count t) := by
  intro enabled os
  obtain ⟨hcontents, hrecords⟩ := @MaskState.Records.maskAll [] .init enabled .init ms
  rw [maskMessages_eq]
  refine ⟨hcontents, fun k hk k' _ => placeholderOf_inj hk, fun t => indexes_used t os, ?_,
    counts_of_records hrecords⟩
  intro t v v' i i' hv hv' hi hi'
  obtain ⟨_, rfl⟩ := placeholder_inj hi
  obtain ⟨_, rfl⟩ := placeholder_inj hi'
  have hbeq : (List.instBEq : BEq Text) = instBEqOfDecidableEq := lawful_beq_subsingleton _ _
  rw [← idxOf_valuesOf, hbeq]
  exact number_lt_number (mem_valuesOf.2 hv) (mem_valuesOf.2 hv')

end AiServing
