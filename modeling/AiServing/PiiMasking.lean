import AiServing.PiiDetectors
import AiServing.Dictionary
import Mathlib.Data.List.Sort
import Mathlib.Data.Finset.Dedup

namespace AiServing
open Backtrack Dictionary
set_option autoImplicit true

structure NormalizedMessage where
  role : String
  content : Text
  deriving DecidableEq, Repr

def overlaps (c : Candidate) (accepted : List Candidate) : Bool :=
  accepted.any fun a => c.start < a.stop && a.start < c.stop

def acceptCandidate (accepted : List Candidate) (c : Candidate) : List Candidate :=
  if overlaps c accepted then accepted else accepted ++ [c]

def collectCandidates (text : Text) (enabled : Finset PiiType) : List Candidate :=
  DETECTOR_PRIORITY.foldl (fun accepted t =>
    if t ∈ enabled then (DETECTORS t text).foldl acceptCandidate accepted else accepted) []

/-- The three dictionaries that `mask_messages` threads through all messages. -/
structure MaskState where
  counts : Dict PiiType Nat
  nextIndexes : Dict PiiType Nat
  placeholders : Dict (PiiType × Text) Text

def MaskState.init : MaskState := ⟨.empty, .empty, .empty⟩

def placeholder (t : PiiType) (index : Nat) : Text :=
  "[REDACTED:".toList ++ t.upper.toList ++ [':'] ++ Nat.toDigits 10 index ++ [']']

/-- The body of the first loop of `_apply_mask`. -/
def MaskState.record (s : MaskState) (c : Candidate) : MaskState :=
  let counts := s.counts.set c.piiType ((s.counts.get? c.piiType).getD 0 + 1)
  if (s.placeholders.get? (c.piiType, c.rawValue)).isSome then { s with counts }
  else
    let index := (s.nextIndexes.get? c.piiType).getD 0 + 1
    { counts
      nextIndexes := s.nextIndexes.set c.piiType index
      placeholders := s.placeholders.set (c.piiType, c.rawValue) (placeholder c.piiType index) }

/-- `placeholders[(pii_type, raw_value)]`; the first loop has stored every key looked up here. -/
def MaskState.lookup (s : MaskState) (c : Candidate) : Text :=
  (s.placeholders.get? (c.piiType, c.rawValue)).getD []

def applyMask (text : Text) (candidates : List Candidate) (s : MaskState) : Text × MaskState :=
  let s := (candidates.insertionSort fun a b => a.start ≤ b.start).foldl .record s
  let masked := (candidates.insertionSort fun a b => b.start ≤ a.start).foldl
    (fun masked c => masked.take c.start ++ s.lookup c ++ masked.drop c.stop) text
  (masked, s)

def enabledOf (names : List String) : Finset PiiType := (names.filterMap PiiType.ofName?).toFinset

def maskText (text : Text) (enabledTypes : List String) : Text × Dict PiiType Nat :=
  let enabled := enabledOf enabledTypes
  if enabled = ∅ then (text, .empty)
  else
    let candidates := collectCandidates text enabled
    if candidates = [] then (text, .empty)
    else
      let (masked, s) := applyMask text candidates .init
      (masked, s.counts)

/-- The body of the loop of `mask_messages`. -/
def maskMessage (enabled : Finset PiiType) (s : MaskState) (m : NormalizedMessage) :
    NormalizedMessage × MaskState :=
  let candidates := collectCandidates m.content enabled
  if candidates = [] then (m, s)
  else
    let (masked, s) := applyMask m.content candidates s
    ({ m with content := masked }, s)

def maskAll (enabled : Finset PiiType) :
    MaskState → List NormalizedMessage → List NormalizedMessage × MaskState
  | s, [] => ([], s)
  | s, m :: ms =>
    let (m', s) := maskMessage enabled s m
    let (ms', s) := maskAll enabled s ms
    (m' :: ms', s)

def maskMessages (messages : List NormalizedMessage) (enabledTypes : List String) :
    List NormalizedMessage × Dict PiiType Nat :=
  let enabled := enabledOf enabledTypes
  if enabled = ∅ then (messages, .empty)
  else
    let (masked, s) := maskAll enabled .init messages
    (masked, s.counts)

end AiServing
