import AiServing.RepeatedMasking
import AiServing.ResidentNumbers
import AiServing.CardWindows

namespace AiServing
open Backtrack Pattern
set_option autoImplicit true

variable {c : Candidate} {cs : List Candidate} {t : PiiType} {text : Text}
variable {enabled : Finset PiiType} {f h : Char → Bool}

/-- `[i, j)` reaches from one accepted span, or the start of the text, to the next or the end. -/
structure Gap (text : Text) (cs : List Candidate) (i j : Nat) : Prop where
  le : i ≤ j
  le_length : j ≤ text.length
  left : i = 0 ∨ ∃ c ∈ cs, c.stop = i
  right : j = text.length ∨ ∃ c ∈ cs, c.start = j
  free : ∀ c ∈ cs, c.stop ≤ i ∨ j ≤ c.start

theorem exists_gap_of_segments (hp : ∀ c ∈ cs, c.Placed text)
    (hs : cs.Pairwise fun a b => a.stop ≤ b.start) (hi : ∀ c ∈ cs, i₀ ≤ c.start)
    (hl : i₀ ≤ text.length) (hg : g ∈ segments text i₀ (cs.map fun c => (c.start, c.stop))) :
    ∃ i j, g = slice text i j ∧ i₀ ≤ i ∧ i ≤ j ∧ j ≤ text.length ∧
      (i = i₀ ∨ ∃ c ∈ cs, c.stop = i) ∧ (j = text.length ∨ ∃ c ∈ cs, c.start = j) ∧
      ∀ c ∈ cs, c.stop ≤ i ∨ j ≤ c.start := by
  induction cs generalizing i₀ with
  | nil =>
    have hdrop : g = slice text i₀ text.length := by
      rw [List.mem_singleton.1 hg, slice, List.take_length]
    exact ⟨i₀, text.length, hdrop, Nat.le_refl _, hl, Nat.le_refl _, .inl rfl, .inl rfl,
      fun c hc => (by cases hc)⟩
  | cons c cs ih =>
    obtain ⟨hc, hs⟩ := List.pairwise_cons.1 hs
    have hpc := hp c List.mem_cons_self
    have hlt := hpc.start_lt
    have hle := hpc.stop_le
    have hic := hi c List.mem_cons_self
    rcases List.mem_cons.1 hg with rfl | hg
    · refine ⟨i₀, c.start, rfl, Nat.le_refl _, hic, by omega, .inl rfl,
        .inr ⟨c, List.mem_cons_self, rfl⟩, ?_⟩
      intro a ha
      rcases List.mem_cons.1 ha with rfl | ha
      · exact .inr (Nat.le_refl _)
      · exact .inr (by have := hc a ha; omega)
    · obtain ⟨i, j, rfl, hi', hij, hj, hleft, hright, hfree⟩ :=
        ih (fun a ha => hp a (List.mem_cons_of_mem _ ha)) hs hc hle hg
      refine ⟨i, j, rfl, by omega, hij, hj, ?_, ?_, ?_⟩
      · rcases hleft with rfl | ⟨a, ha, hstop⟩
        · exact .inr ⟨c, List.mem_cons_self, rfl⟩
        · exact .inr ⟨a, List.mem_cons_of_mem _ ha, hstop⟩
      · rcases hright with hend | ⟨a, ha, hstart⟩
        · exact .inl hend
        · exact .inr ⟨a, List.mem_cons_of_mem _ ha, hstart⟩
      · intro a ha
        rcases List.mem_cons.1 ha with rfl | ha
        · exact .inl hi'
        · exact hfree a ha

theorem exists_gap (hg : g ∈ outside text enabled) :
    ∃ i j, g = slice text i j ∧ Gap text (collectCandidates text enabled) i j := by
  obtain ⟨i, j, hslice, _, hij, hj, hleft, hright, hfree⟩ :=
    exists_gap_of_segments (fun _ => acceptedSpans_placed) (acceptedSpans_sorted text enabled)
      (fun _ _ => Nat.zero_le _) (Nat.zero_le _) hg
  simp only [mem_acceptedSpans] at hleft hright hfree
  exact ⟨i, j, hslice, hij, hj, hleft, hright, hfree⟩

/-- At the left edge of a gap stands what follows a span: a stretch that starts otherwise is
not at the edge. -/
theorem Gap.before (hg : Gap text cs i j) (hno : ∀ c ∈ cs, holdsAt h text c.stop = false)
    (hfirst : holdsAt h (slice text i j) a) (hb : holdsBefore f (slice text i j) a = false) :
    holdsBefore f text (i + a) = false := by
  have ha : i + a < j := by
    have hlt := holdsAt_lt_length hfirst
    have hlen := length_slice_le text i j
    omega
  cases a with
  | zero =>
    rcases hg.left with rfl | ⟨c, hc, rfl⟩
    · rfl
    · rw [holdsAt_slice ha, Nat.add_zero, hno c hc] at hfirst
      cases hfirst
  | succ a => rwa [holdsBefore_succ, holdsAt_slice (by omega)] at hb

theorem Gap.after (hg : Gap text cs i j) (hno : ∀ c ∈ cs, holdsBefore h text c.start = false)
    (hlast : holdsAt h (slice text i j) b) (hf : holdsAt f (slice text i j) (b + 1) = false) :
    holdsAt f text (i + (b + 1)) = false := by
  have hb : i + b < j := by
    have hlt := holdsAt_lt_length hlast
    have hlen := length_slice_le text i j
    omega
  rcases Nat.lt_or_ge (i + (b + 1)) j with hlt | hge
  · rwa [holdsAt_slice hlt] at hf
  · have hj : j = i + (b + 1) := by omega
    rcases hg.right with hend | ⟨c, hc, hstart⟩
    · rw [← hj, hend, holdsAt, List.getElem?_eq_none (Nat.le_refl _)]
      rfl
    · have hnoc := hno c hc
      rw [hstart, hj, ← Nat.add_assoc, holdsBefore_succ, ← holdsAt_slice hb, hlast] at hnoc
      cases hnoc

/-- Where every candidate is accepted, none starts in a gap. -/
theorem Gap.no_match (hg : Gap text (collectCandidates text enabled) i j)
    (hall : ∀ c ∈ DETECTORS t text, c ∈ collectCandidates text enabled)
    (hacc : ∀ m, t.accepts text m) (hk : i ≤ k) (hkj : k < j) : e ∉ ends text t.pattern k := by
  intro he
  obtain ⟨m, hm⟩ := exists_matchAt he
  obtain ⟨m', hm', hle, hlt⟩ := (finditer_isScan t.minWidth_pos text).covers k m (Nat.zero_le k) hm
  have hmem : Candidate.ofMatch text t m' ∈ DETECTORS t text := by
    rw [DETECTORS_eq]
    exact List.mem_map_of_mem (List.mem_filter.2 ⟨hm', hacc m'⟩)
  have hfree := hg.free _ (hall _ hmem)
  simp only [Candidate.ofMatch] at hfree
  omega

end AiServing
