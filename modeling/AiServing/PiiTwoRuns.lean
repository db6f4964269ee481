import AiServing.PiiSplicing
import Mathlib.Data.Set.Insert

namespace AiServing
open Dictionary
set_option autoImplicit true

variable {c c' : Candidate} {cs cs' : List Candidate} {s s' : MaskState}

def Candidate.key (c : Candidate) : PiiType × Text := (c.piiType, c.rawValue)

/-- Two occurrences hold equal values in one run exactly when they do in the other. -/
def SameRepetition (P : Set ((PiiType × Text) × PiiType × Text)) : Prop :=
  ∀ x ∈ P, ∀ y ∈ P, x.1.1 = y.1.1 → (x.1.2 = y.1.2 ↔ x.2.2 = y.2.2)

/-- Two runs that have recorded the occurrences `P` side by side. -/
structure Linked (P : Set ((PiiType × Text) × PiiType × Text)) (s s' : MaskState) : Prop where
  counts : s.counts = s'.counts
  nextIndexes : s.nextIndexes = s'.nextIndexes
  seen : ∀ x ∈ P, ∃ p, s.placeholders.get? x.1 = some p ∧ s'.placeholders.get? x.2 = some p
  known : ∀ k p, s.placeholders.get? k = some p → ∃ k', (k, k') ∈ P
  known' : ∀ k' p, s'.placeholders.get? k' = some p → ∃ k, (k, k') ∈ P

theorem Linked.init : Linked ∅ .init .init where
  counts := rfl
  nextIndexes := rfl
  seen _ hx := hx.elim
  known _ _ h := by cases h
  known' _ _ h := by cases h

theorem Linked.get?_eq (h : Linked P s s') (hP : SameRepetition (insert (c.key, c'.key) P))
    (ht : ∀ x ∈ P, x.1.1 = x.2.1) (hc : c.piiType = c'.piiType) :
    s.placeholders.get? c.key = s'.placeholders.get? c'.key := by
  have hpair (k) (hk : (c.key, k) ∈ P) : k = c'.key := by
    have hv := (hP _ (Set.mem_insert_of_mem _ hk) _ (Set.mem_insert _ _) rfl).1 rfl
    exact Prod.ext ((ht _ hk).symm.trans hc) hv
  have hpair' (k) (hk : (k, c'.key) ∈ P) : k = c.key := by
    have htk : k.1 = c.piiType := (ht _ hk).trans hc.symm
    have hv := (hP _ (Set.mem_insert_of_mem _ hk) _ (Set.mem_insert _ _) htk).2 rfl
    exact Prod.ext htk hv
  cases hs : s.placeholders.get? c.key with
  | some p =>
    obtain ⟨k, hk⟩ := h.known _ _ hs
    obtain ⟨q, hq, hq'⟩ := h.seen _ hk
    obtain rfl := hpair k hk
    rw [hq', ← hq, hs]
  | none =>
    cases hs' : s'.placeholders.get? c'.key with
    | none => rfl
    | some p =>
      obtain ⟨k, hk⟩ := h.known' _ _ hs'
      obtain ⟨q, hq, _⟩ := h.seen _ hk
      obtain rfl := hpair' k hk
      rw [hs] at hq; cases hq

theorem record_get?_key (s : MaskState) (c : Candidate) :
    ∃ p, (s.record c).placeholders.get? c.key = some p ∧
      (s.placeholders.get? c.key = some p ∨ s.placeholders.get? c.key = none ∧
        p = placeholder c.piiType ((s.nextIndexes.get? c.piiType).getD 0 + 1)) := by
  cases h : s.placeholders.get? c.key with
  | some p => exact ⟨p, record_get? h c, .inl rfl⟩
  | none =>
    refine ⟨_, ?_, .inr ⟨rfl, rfl⟩⟩
    rw [(record_of_new h).2, Dict.get?_set]
    exact if_pos rfl

theorem record_known (h : (s.record c).placeholders.get? k = some p) :
    k = c.key ∨ s.placeholders.get? k = some p := by
  cases hc : s.placeholders.get? (c.piiType, c.rawValue) with
  | some q => exact .inr ((record_of_seen (by rw [hc]; rfl)).2 ▸ h)
  | none =>
    rw [(record_of_new hc).2, Dict.get?_set] at h
    split at h
    · exact .inl ‹_›
    · exact .inr h

theorem Linked.record (h : Linked P s s') (hP : SameRepetition (insert (c.key, c'.key) P))
    (ht : ∀ x ∈ P, x.1.1 = x.2.1) (hc : c.piiType = c'.piiType) :
    Linked (insert (c.key, c'.key) P) (s.record c) (s'.record c') := by
  have hget := h.get?_eq hP ht hc
  refine ⟨?_, ?_, ?_, ?_, ?_⟩
  · rw [record_counts, record_counts, h.counts, hc]
  · cases hs : s.placeholders.get? c.key with
    | some p =>
      have hs' := hget.symm.trans hs
      rw [(record_of_seen (by rw [← Candidate.key, hs]; rfl)).1,
        (record_of_seen (by rw [← Candidate.key, hs']; rfl)).1, h.nextIndexes]
    | none =>
      rw [(record_of_new hs).1, (record_of_new (hget.symm.trans hs)).1, h.nextIndexes, hc]
  · rintro x (rfl | hx)
    · obtain ⟨p, hp, ho⟩ := record_get?_key s c
      obtain ⟨p', hp', ho'⟩ := record_get?_key s' c'
      have hpp : p = p' := by
        rw [hget] at ho
        rcases ho with ho | ⟨ho, rfl⟩ <;> rcases ho' with ho' | ⟨ho', rfl⟩
        · rw [ho] at ho'; cases ho'; rfl
        · rw [ho] at ho'; cases ho'
        · rw [ho] at ho'; cases ho'
        · rw [h.nextIndexes, hc]
      exact ⟨p, hp, hpp ▸ hp'⟩
    · obtain ⟨p, hp, hp'⟩ := h.seen x hx
      exact ⟨p, record_get? hp c, record_get? hp' c'⟩
  · intro k p hk
    rcases record_known hk with rfl | hk
    · exact ⟨_, Set.mem_insert _ _⟩
    · obtain ⟨k', hk'⟩ := h.known k p hk
      exact ⟨k', Set.mem_insert_of_mem _ hk'⟩
  · intro k p hk
    rcases record_known hk with rfl | hk
    · exact ⟨_, Set.mem_insert _ _⟩
    · obtain ⟨k', hk'⟩ := h.known' k p hk
      exact ⟨k', Set.mem_insert_of_mem _ hk'⟩

/-- The occurrences of two span lists, paired up. -/
def pairs (cs cs' : List Candidate) : Set ((PiiType × Text) × PiiType × Text) :=
  {x | x ∈ (cs.map Candidate.key).zip (cs'.map Candidate.key)}

theorem pairs_cons : pairs (c :: cs) (c' :: cs') = insert (c.key, c'.key) (pairs cs cs') := by
  ext x; simp [pairs]

theorem SameRepetition.mono (h : SameRepetition Q) (hPQ : P ⊆ Q) : SameRepetition P :=
  fun x hx y hy => h x (hPQ hx) y (hPQ hy)

theorem Linked.foldl_record (h : Linked P s s')
    (hcs : List.Forall₂ (fun c c' => c.piiType = c'.piiType) cs cs')
    (hP : SameRepetition (P ∪ pairs cs cs')) (ht : ∀ x ∈ P, x.1.1 = x.2.1) :
    Linked (P ∪ pairs cs cs') (cs.foldl .record s) (cs'.foldl .record s') := by
  induction hcs generalizing P s s' with
  | nil => simpa [pairs] using h
  | @cons c c' cs cs' hc hcs ih =>
    have hunion : P ∪ pairs (c :: cs) (c' :: cs') =
        insert (c.key, c'.key) P ∪ pairs cs cs' := by
      rw [pairs_cons, Set.union_insert, Set.insert_union]
    rw [hunion] at hP ⊢
    refine ih (h.record (hP.mono Set.subset_union_left) ht hc) hP ?_
    rintro x (rfl | hx)
    · exact hc
    · exact ht x hx

theorem Linked.map_lookup (h : Linked P s s') (hl : cs.length = cs'.length)
    (hP : pairs cs cs' ⊆ P) : cs.map s.lookup = cs'.map s'.lookup := by
  induction cs generalizing cs' with
  | nil => cases cs' with
    | nil => rfl
    | cons => cases hl
  | cons c cs ih => cases cs' with
    | nil => cases hl
    | cons c' cs' =>
      rw [pairs_cons, Set.insert_subset_iff] at hP
      obtain ⟨p, hp, hp'⟩ := h.seen _ hP.1
      rw [List.map_cons, List.map_cons, ih (Nat.succ.inj hl) hP.2]
      rw [lookup_congr (hp.trans hp'.symm)]

/-- Two messages that differ in the redacted values only. -/
structure SameOutside (enabled : Finset PiiType) (m m' : NormalizedMessage) : Prop where
  role : m.role = m'.role
  types : (acceptedSpans m.content enabled).map Candidate.piiType =
    (acceptedSpans m'.content enabled).map Candidate.piiType
  outside : outside m.content enabled = AiServing.outside m'.content enabled

def occurrences (enabled : Finset PiiType) (ms : List NormalizedMessage) :
    List (PiiType × Text) :=
  ms.flatMap fun m => (acceptedSpans m.content enabled).map Candidate.key

theorem SameOutside.maskMessage (hm : SameOutside enabled m m') (h : Linked P s s')
    (ht : ∀ x ∈ P, x.1.1 = x.2.1)
    (hP : SameRepetition
      (P ∪ pairs (acceptedSpans m.content enabled) (acceptedSpans m'.content enabled))) :
    (maskMessage enabled s m).1 = (AiServing.maskMessage enabled s' m').1 ∧
      Linked (P ∪ pairs (acceptedSpans m.content enabled) (acceptedSpans m'.content enabled))
        (AiServing.maskMessage enabled s m).2 (AiServing.maskMessage enabled s' m').2 := by
  have hcs : List.Forall₂ (fun c c' => c.piiType = c'.piiType)
      (acceptedSpans m.content enabled) (acceptedSpans m'.content enabled) := by
    have htypes := hm.types
    rwa [← List.forall₂_eq_eq_eq, List.forall₂_map_left_iff, List.forall₂_map_right_iff]
      at htypes
  have hlink := h.foldl_record hcs hP ht
  have hmap := hlink.map_lookup hcs.length_eq Set.subset_union_right
  rw [maskMessage_eq, maskMessage_eq]
  refine ⟨?_, hlink⟩
  simp only [maskedText, recordAll, hm.role, hm.outside, hmap]

theorem Linked.maskAll (hms : List.Forall₂ (SameOutside enabled) ms ms') (h : Linked P s s')
    (ht : ∀ x ∈ P, x.1.1 = x.2.1)
    (hP : SameRepetition
      (P ∪ {x | x ∈ (occurrences enabled ms).zip (occurrences enabled ms')})) :
    (maskAll enabled s ms).1 = (AiServing.maskAll enabled s' ms').1 ∧
      (AiServing.maskAll enabled s ms).2.counts = (AiServing.maskAll enabled s' ms').2.counts := by
  induction hms generalizing P s s' with
  | nil => exact ⟨rfl, h.counts⟩
  | @cons m m' ms ms' hm hms ih =>
    have hlen : ((acceptedSpans m.content enabled).map Candidate.key).length =
        ((acceptedSpans m'.content enabled).map Candidate.key).length := by
      simpa using congrArg List.length hm.types
    have hunion : P ∪ {x | x ∈ (occurrences enabled (m :: ms)).zip
          (occurrences enabled (m' :: ms'))} =
        (P ∪ pairs (acceptedSpans m.content enabled) (acceptedSpans m'.content enabled)) ∪
          {x | x ∈ (occurrences enabled ms).zip (occurrences enabled ms')} := by
      ext x
      simp [occurrences, List.zip_append hlen, pairs, or_assoc]
    rw [hunion] at hP
    obtain ⟨hmsg, hlink⟩ := hm.maskMessage h ht (hP.mono Set.subset_union_left)
    have ht' : ∀ x ∈ P ∪ pairs (acceptedSpans m.content enabled)
        (acceptedSpans m'.content enabled), x.1.1 = x.2.1 := by
      rintro x (hx | hx)
      · exact ht x hx
      · have htypes := hm.types
        obtain ⟨i, hi, hx⟩ := List.mem_iff_getElem.1 hx
        rw [List.getElem_zip, List.getElem_map, List.getElem_map] at hx
        rw [List.length_zip, List.length_map, List.length_map] at hi
        have hti := congrArg (fun l => l[i]?) htypes
        simp only [List.getElem?_map] at hti
        rw [List.getElem?_eq_getElem (by omega), List.getElem?_eq_getElem (by omega)] at hti
        rw [← hx]
        exact Option.some.inj hti
    obtain ⟨hrest, hcounts⟩ := ih hlink ht' hP
    exact ⟨congrArg₂ List.cons hmsg hrest, hcounts⟩

/-- The output depends on the redacted values only through their type, order and repetition. -/
theorem maskMessages_two_runs
    (hms : List.Forall₂ (SameOutside (enabledOf names)) ms ms')
    (hrep : SameRepetition
      {x | x ∈ (occurrences (enabledOf names) ms).zip (occurrences (enabledOf names) ms')}) :
    maskMessages ms names = maskMessages ms' names := by
  have h := Linked.init.maskAll hms (fun _ hx => hx.elim) (by rwa [Set.empty_union])
  rw [maskMessages_eq, maskMessages_eq]
  exact Prod.ext h.1 h.2

theorem maskMessages_two_runs_emails :
    maskMessages [⟨"user", "a@b.co to a@b.co, 900101-1234567".toList⟩] ["email", "rrn"] =
      maskMessages [⟨"user", "xy@z.org to xy@z.org, 851231-2345678".toList⟩] ["email", "rrn"] := by
  refine maskMessages_two_runs (.cons ⟨rfl, by decide +kernel, by decide +kernel⟩ .nil) ?_
  show ∀ x ∈ (occurrences _ _).zip (occurrences _ _), ∀ y ∈ (occurrences _ _).zip (occurrences _ _),
    x.1.1 = y.1.1 → (x.1.2 = y.1.2 ↔ x.2.2 = y.2.2)
  decide +kernel

end AiServing
