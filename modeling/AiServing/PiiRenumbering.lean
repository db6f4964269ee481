import AiServing.PiiPlaceholders
import AiServing.Tallies

namespace AiServing
open Backtrack Dictionary Numbering
set_option autoImplicit true

variable {enabled : Finset PiiType} {ms : List NormalizedMessage} {m : NormalizedMessage}

/-- The values that a text alone would have redacted. -/
def ownKeys (enabled : Finset PiiType) (text : Text) : List (PiiType × Text) :=
  (acceptedSpans text enabled).map Candidate.key

/-- The text with each accepted span under its own number among the values of the text, taken
through `ρ`. -/
def renumberedWith (ρ : PiiType → Nat → Nat) (enabled : Finset PiiType) (text : Text) : Text :=
  weave (outside text enabled) ((acceptedSpans text enabled).map fun c =>
    placeholder c.piiType (ρ c.piiType (number (valuesOf c.piiType (ownKeys enabled text)) c.rawValue)))

theorem maskText_renumbered (text : Text) (names : List String) :
    (maskText text names).1 = renumberedWith (fun _ => id) (enabledOf names) text := by
  have hmasked := MaskState.Records.init.maskedText text (enabledOf names) []
  rw [List.nil_append, List.append_nil] at hmasked
  rw [maskText_eq, hmasked]
  rfl

theorem ownKeys_subset (hm : m ∈ ms) : ownKeys enabled m.content ⊆ occurrences enabled ms := by
  intro k hk
  exact List.mem_flatMap.2 ⟨m, hm, hk⟩

theorem valuesOf_subset {os os' : List (PiiType × Text)} (h : os ⊆ os') (t : PiiType) :
    valuesOf t os ⊆ valuesOf t os' := by
  intro v hv
  exact mem_valuesOf.2 (h (mem_valuesOf.1 hv))

/-- How the numbers of one text go over to those of the whole request. -/
def requestNumber (enabled : Finset PiiType) (ms : List NormalizedMessage) (m : NormalizedMessage)
    (t : PiiType) : Nat → Nat :=
  renumber (valuesOf t (ownKeys enabled m.content)) (valuesOf t (occurrences enabled ms))

theorem requestNumber_injective (hm : m ∈ ms) (t : PiiType) :
    Function.Injective (requestNumber enabled ms m t) :=
  renumber_injective (valuesOf_subset (ownKeys_subset hm) t)

theorem renderedWith_renumbered (enabled : Finset PiiType) (ms : List NormalizedMessage)
    (m : NormalizedMessage) :
    renderedWith (occurrences enabled ms) enabled m.content =
      renumberedWith (requestNumber enabled ms m) enabled m.content := by
  rw [renderedWith, renumberedWith]
  congr 1
  apply List.map_congr_left
  intro c hc
  have hown : c.rawValue ∈ valuesOf c.piiType (ownKeys enabled m.content) :=
    mem_valuesOf.2 (List.mem_map_of_mem hc)
  rw [requestNumber, renumber_number hown]
  rfl

theorem maskText_counts (text : Text) (names : List String) :
    (maskText text names).2.Counts fun t =>
      ((ownKeys (enabledOf names) text).map Prod.fst).count t := by
  intro t
  have hrecords := MaskState.Records.init.foldl (acceptedSpans text (enabledOf names))
  rw [maskText_eq]
  exact counts_of_records hrecords t

theorem count_occurrences (enabled : Finset PiiType) (ms : List NormalizedMessage) (t : PiiType) :
    ((occurrences enabled ms).map Prod.fst).count t =
      (ms.map fun m => ((ownKeys enabled m.content).map Prod.fst).count t).sum := by
  induction ms with
  | nil => rfl
  | cons m ms ih =>
    rw [List.map_cons, List.sum_cons, ← ih, occurrences, List.flatMap_cons, List.map_append,
      List.count_append]
    rfl

theorem maskMessages_counts (ms : List NormalizedMessage) (names : List String) :
    (maskMessages ms names).2.Counts fun t =>
      (ms.map fun m => ((maskText m.content names).2.get? t).getD 0).sum := by
  have htexts (t : PiiType) : (ms.map fun m => ((maskText m.content names).2.get? t).getD 0).sum =
      ((occurrences (enabledOf names) ms).map Prod.fst).count t := by
    rw [count_occurrences]
    congr 1
    apply List.map_congr_left
    intro m _
    exact (maskText_counts m.content names).getD t
  have hrecords := (@MaskState.Records.maskAll [] .init (enabledOf names) .init ms).2
  intro t
  have hcount := counts_of_records hrecords t
  rw [List.nil_append] at hcount
  simp only [maskMessages_eq, htexts]
  exact hcount

theorem maskMessages_single (m : NormalizedMessage) (names : List String) :
    maskMessages [m] names =
      ([{ m with content := (maskText m.content names).1 }], (maskText m.content names).2) := by
  rw [maskMessages_eq, maskText_eq]
  simp only [maskAll, maskMessage_eq]

/-- Each message is masked like a text of its own, up to the numbers of the placeholders. -/
theorem maskMessages_message_by_message (ms : List NormalizedMessage) (names : List String) :
    (∃ ρ : NormalizedMessage → PiiType → Nat → Nat,
      (∀ m ∈ ms, ∀ t, Function.Injective (ρ m t)) ∧
      (maskMessages ms names).1 = ms.map fun m =>
        { m with content := renumberedWith (ρ m) (enabledOf names) m.content }) ∧
    (∀ m ∈ ms, (maskText m.content names).1 =
      renumberedWith (fun _ => id) (enabledOf names) m.content) ∧
    ((maskMessages ms names).2.Counts fun t =>
      (ms.map fun m => ((maskText m.content names).2.get? t).getD 0).sum) ∧
    ∀ m, maskMessages [m] names =
      ([{ m with content := (maskText m.content names).1 }], (maskText m.content names).2) := by
  refine ⟨⟨requestNumber (enabledOf names) ms, ?_, ?_⟩, ?_, maskMessages_counts ms names, ?_⟩
  · intro m hm t
    exact requestNumber_injective hm t
  · rw [maskMessages_eq, (@MaskState.Records.maskAll [] .init (enabledOf names) .init ms).1]
    apply List.map_congr_left
    intro m _
    rw [List.nil_append, renderedWith_renumbered]
  · intro m _
    exact maskText_renumbered m.content names
  · intro m
    exact maskMessages_single m names

end AiServing
