import AiServing.PiiCuts

namespace AiServing
open Backtrack Pattern Dictionary
set_option autoImplicit true

variable {c : Candidate} {cs : List Candidate} {s : MaskState} {t : PiiType} {text : Text}

/-- Every placeholder given so far is numbered from 1 to at most `n`. -/
structure MaskState.Numbered (s : MaskState) (n : Nat) : Prop where
  placeholders : ∀ k p, s.placeholders.get? k = some p →
    ∃ τ index, p = placeholder τ index ∧ 0 < index ∧ index ≤ n
  nextIndexes : ∀ τ, (s.nextIndexes.get? τ).getD 0 ≤ n

theorem MaskState.Numbered.init : MaskState.init.Numbered 0 where
  placeholders k p h := by cases h
  nextIndexes τ := Nat.le_refl 0

theorem MaskState.Numbered.record (h : s.Numbered n) (c : Candidate) :
    (s.record c).Numbered (n + 1) := by
  cases hc : s.placeholders.get? (c.piiType, c.rawValue) with
  | some q =>
    obtain ⟨hindexes, hplaceholders⟩ := record_of_seen (by rw [hc]; rfl)
    constructor
    · intro k p hk
      rw [hplaceholders] at hk
      obtain ⟨τ, index, hp, hpos, hle⟩ := h.placeholders k p hk
      exact ⟨τ, index, hp, hpos, Nat.le_succ_of_le hle⟩
    · intro τ
      rw [hindexes]
      exact Nat.le_succ_of_le (h.nextIndexes τ)
  | none =>
    obtain ⟨hindexes, hplaceholders⟩ := record_of_new hc
    have hnext := h.nextIndexes c.piiType
    constructor
    · intro k p hk
      rw [hplaceholders, Dict.get?_set] at hk
      split at hk
      · exact ⟨_, _, (Option.some.inj hk).symm, Nat.succ_pos _, Nat.succ_le_succ hnext⟩
      · obtain ⟨τ, index, hp, hpos, hle⟩ := h.placeholders k p hk
        exact ⟨τ, index, hp, hpos, Nat.le_succ_of_le hle⟩
    · intro τ
      rw [hindexes, Dict.get?_set]
      split
      · exact Nat.succ_le_succ hnext
      · exact Nat.le_succ_of_le (h.nextIndexes τ)

theorem MaskState.Numbered.foldl (h : s.Numbered n) (cs : List Candidate) :
    (cs.foldl .record s).Numbered (n + cs.length) := by
  induction cs generalizing s n with
  | nil => exact h
  | cons c cs ih =>
    have hrest := ih (h.record c)
    rwa [Nat.add_right_comm] at hrest

theorem foldl_record_get? (h : s.placeholders.get? k = some p) (cs : List Candidate) :
    (cs.foldl .record s).placeholders.get? k = some p := by
  induction cs generalizing s with
  | nil => exact h
  | cons c cs ih => exact ih (record_get? h c)

theorem foldl_record_recorded (hc : c ∈ cs) (s : MaskState) :
    ∃ p, (cs.foldl .record s).placeholders.get? c.key = some p := by
  induction cs generalizing s with
  | nil => cases hc
  | cons a cs ih =>
    rcases List.mem_cons.1 hc with rfl | hc
    · obtain ⟨p, hp, _⟩ := record_get?_key s c
      exact ⟨p, foldl_record_get? hp cs⟩
    · exact ih hc _

theorem length_le_of_sorted (hp : ∀ c ∈ cs, c.Placed text)
    (hs : cs.Pairwise fun a b => a.stop ≤ b.start) (hi : ∀ c ∈ cs, i ≤ c.start)
    (hl : i ≤ text.length) : i + cs.length ≤ text.length := by
  induction cs generalizing i with
  | nil => exact hl
  | cons c cs ih =>
    obtain ⟨hc, hs⟩ := List.pairwise_cons.1 hs
    have hpc := hp c List.mem_cons_self
    have hic := hi c List.mem_cons_self
    have hrest := ih (fun a ha => hp a (List.mem_cons_of_mem _ ha)) hs hc hpc.stop_le
    have hlt := hpc.start_lt
    rw [List.length_cons]
    omega

theorem lookup_placeholder (hc : c ∈ acceptedSpans text enabled) :
    ∃ τ index, (recordAll .init text enabled).lookup c = placeholder τ index ∧
      0 < index ∧ index ≤ text.length := by
  obtain ⟨p, hp⟩ := foldl_record_recorded hc .init
  have hnumbered := MaskState.Numbered.init.foldl (acceptedSpans text enabled)
  obtain ⟨τ, index, rfl, hpos, hle⟩ := hnumbered.placeholders _ _ hp
  have hcount := length_le_of_sorted (fun _ => acceptedSpans_placed)
    (acceptedSpans_sorted text enabled) (fun _ _ => Nat.zero_le _) (Nat.zero_le text.length)
  have hlookup : (recordAll .init text enabled).lookup c = placeholder τ index := by
    rw [MaskState.lookup, recordAll]
    exact congrArg (·.getD []) hp
  exact ⟨τ, index, hlookup, hpos, Nat.le_trans hle hcount⟩

theorem length_segments (text : List α) (i : Nat) (ss : List (Nat × Nat)) :
    (segments text i ss).length = ss.length + 1 := by
  induction ss generalizing i with
  | nil => rfl
  | cons s ss ih => rw [segments, List.length_cons, List.length_cons, ih]

/-- Between placeholders a detector reads each stretch as a text of its own. -/
theorem detected_weave (t : PiiType) {gs rs : List Text} (hlen : gs.length = rs.length + 1)
    (hrs : ∀ r ∈ rs, ∃ τ index, r = placeholder τ index ∧ 0 < index ∧ index < 10 ^ 12) :
    detected t (weave gs rs) = gs.flatMap (detected t) := by
  induction rs generalizing gs with
  | nil =>
    obtain ⟨g, rfl⟩ := List.length_eq_one_iff.1 hlen
    simp only [weave, List.flatten_cons, List.flatten_nil, List.append_nil, List.flatMap_cons,
      List.flatMap_nil]
  | cons r rs ih =>
    cases gs with
    | nil => cases hlen
    | cons g gs =>
      obtain ⟨τ, index, rfl, hpos, hlt⟩ := hrs r List.mem_cons_self
      have hrest := ih (Nat.succ.inj hlen) fun r hr => hrs r (List.mem_cons_of_mem _ hr)
      rw [weave, detected_placeholder t τ hpos hlt, hrest, List.flatMap_cons]

/-- What the second pass reads is what stands in the stretches the first one copied. -/
theorem detected_maskedText (t : PiiType) (enabled : Finset PiiType) (h : text.length < 10 ^ 12) :
    detected t (maskedText .init text enabled) =
      (outside text enabled).flatMap (detected t) := by
  apply detected_weave
  · rw [outside, length_segments, List.length_map, List.length_map]
  · intro r hr
    obtain ⟨c, hc, rfl⟩ := List.mem_map.1 hr
    obtain ⟨τ, index, hlookup, hpos, hle⟩ := lookup_placeholder hc
    exact ⟨τ, index, hlookup, hpos, Nat.lt_of_le_of_lt hle h⟩

theorem collectCandidates_eq_nil :
    collectCandidates text enabled = [] ↔ ∀ t ∈ enabled, DETECTORS t text = [] := by
  constructor
  · intro h t ht
    rw [List.eq_nil_iff_forall_not_mem]
    intro c hc
    rcases collectCandidates_covers ht hc with hc | ⟨a, ha, _⟩
    · rw [h] at hc
      cases hc
    · rw [h] at ha
      cases ha
  · intro h
    rw [List.eq_nil_iff_forall_not_mem]
    intro c hc
    obtain ⟨ht, hmem⟩ := mem_collectCandidates hc
    rw [h _ ht] at hmem
    cases hmem

theorem record_counts_isSome (s : MaskState) (c : Candidate) :
    ((s.record c).counts.get? c.piiType).isSome ∧
      ∀ τ, (s.counts.get? τ).isSome → ((s.record c).counts.get? τ).isSome := by
  rw [record_counts]
  constructor
  · rw [Dict.get?_set, if_pos rfl]
    rfl
  · intro τ hτ
    rw [Dict.get?_set]
    split
    · rfl
    · exact hτ

theorem foldl_record_counts (s : MaskState) (cs : List Candidate) :
    (∀ c ∈ cs, ((cs.foldl .record s).counts.get? c.piiType).isSome) ∧
      ∀ τ, (s.counts.get? τ).isSome → ((cs.foldl .record s).counts.get? τ).isSome := by
  induction cs generalizing s with
  | nil => exact ⟨fun c hc => (by cases hc), fun τ hτ => hτ⟩
  | cons c cs ih =>
    obtain ⟨hc, hkeep⟩ := record_counts_isSome s c
    obtain ⟨hcs, hrest⟩ := ih (s.record c)
    constructor
    · intro a ha
      rcases List.mem_cons.1 ha with rfl | ha
      · exact hrest _ hc
      · exact hcs a ha
    · intro τ hτ
      exact hrest τ (hkeep τ hτ)

theorem maskText_eq_self :
    maskText text names = (text, .empty) ↔ collectCandidates text (enabledOf names) = [] := by
  constructor
  · intro h
    rw [maskText_eq] at h
    rw [List.eq_nil_iff_forall_not_mem]
    intro c hc
    have hsome := (foldl_record_counts .init (acceptedSpans text (enabledOf names))).1 c
      (mem_acceptedSpans.2 hc)
    have hempty : (recordAll .init text (enabledOf names)).counts = .empty := congrArg Prod.snd h
    rw [recordAll] at hempty
    rw [hempty] at hsome
    cases hsome
  · intro h
    have hspans := acceptedSpans_eq_nil h
    rw [maskText_eq, maskedText_of_no_spans _ hspans, recordAll, hspans]
    rfl

end AiServing
