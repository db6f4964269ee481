import AiServing.PiiMasking
import AiServing.ScopeCodec
import AiServing.Tallies
import Mathlib.Data.Char
import Mathlib.Data.List.Lex

namespace AiServing
open Dictionary
set_option autoImplicit true

def MAX_RULES : Nat := 200

def MAX_RULE_PATTERN_CHARS : Nat := 512

/-- A rule, with the number of matches that `pattern.finditer` yields on a content. -/
structure CompiledRule where
  ruleId : Text
  finditer : Text → Nat

structure PolicyMatch where
  ruleId : Text
  count : Nat
  severity : String
  deriving DecidableEq, Repr

/-- How `re.compile` ends: with a pattern, with `re.error`, or with another exception. -/
inductive ReCompile
  | compiled (finditer : Text → Nat)
  | error
  | raised

section Compiling

variable (compile : Text → ReCompile)

/-- The body of the loop of `_compile_rules_cached`, `none` where an exception leaves it. -/
def compileRule (entry : Text) : Option (List CompiledRule) :=
  let ruleId := strip (entry.takeWhile (· ≠ '='))
  let regex := (entry.dropWhile (· ≠ '=')).tail
  if '=' ∉ entry ∨ ruleId = [] then some []
  else if regex = [] then some []
  else if MAX_RULE_PATTERN_CHARS < regex.length then some []
  else match compile regex with
    | .compiled finditer => some [⟨ruleId, finditer⟩]
    | .error => some []
    | .raised => none

def compileRules (patterns : List Text) : Option (List CompiledRule) :=
  ((patterns.take MAX_RULES).mapM (compileRule compile)).map List.flatten

end Compiling

/-- The body of the inner loop of `scan_messages`. -/
def noteMatches (content : Text) (counts : Dict Text Nat) (rule : CompiledRule) : Dict Text Nat :=
  let matchCount := rule.finditer content
  if matchCount = 0 then counts
  else counts.set rule.ruleId ((counts.get? rule.ruleId).getD 0 + matchCount)

def scanCounts (messages : List NormalizedMessage) (rules : List CompiledRule) : Dict Text Nat :=
  messages.foldl (fun counts m => rules.foldl (noteMatches m.content) counts) .empty

def scanMessages (messages : List NormalizedMessage) (rules : List CompiledRule) :
    List PolicyMatch :=
  let counts := scanCounts messages rules
  (counts.keys.insertionSort (· ≤ ·)).map fun ruleId =>
    { ruleId := ruleId, count := (counts.get? ruleId).getD 0, severity := "medium" }

/-- The matches of all rules of one id in all messages. -/
def ruleTotal (messages : List NormalizedMessage) (rules : List CompiledRule) (id : Text) : Nat :=
  (messages.map fun m =>
    (rules.map fun rule => if rule.ruleId = id then rule.finditer m.content else 0).sum).sum

/-- Some rule of this id matches some message. -/
def RuleMatches (messages : List NormalizedMessage) (rules : List CompiledRule) (id : Text) :
    Prop :=
  ∃ rule ∈ rules, rule.ruleId = id ∧ ∃ m ∈ messages, 0 < rule.finditer m.content

variable {messages : List NormalizedMessage} {rules : List CompiledRule} {id : Text}

theorem ruleTotal_pos : 0 < ruleTotal messages rules id ↔ RuleMatches messages rules id := by
  simp only [ruleTotal, List.sum_pos_iff_exists_pos_nat, List.mem_map]
  constructor
  · rintro ⟨_, ⟨m, hm, rfl⟩, hpos⟩
    obtain ⟨_, hmem, hpos⟩ := List.sum_pos_iff_exists_pos_nat.1 hpos
    obtain ⟨rule, hrule, rfl⟩ := List.mem_map.1 hmem
    by_cases hid : rule.ruleId = id
    · rw [if_pos hid] at hpos
      exact ⟨rule, hrule, hid, m, hm, hpos⟩
    · rw [if_neg hid] at hpos
      exact absurd hpos (Nat.lt_irrefl 0)
  · rintro ⟨rule, hrule, hid, m, hm, hpos⟩
    refine ⟨_, ⟨m, hm, rfl⟩, List.sum_pos_iff_exists_pos_nat.2 ⟨_, List.mem_map_of_mem hrule, ?_⟩⟩
    rwa [if_pos hid]

theorem foldl_noteMatches {d : Dict Text Nat} {f : Text → Nat} (h : d.Counts f)
    (rules : List CompiledRule) (content : Text) :
    (rules.foldl (noteMatches content) d).Counts fun id =>
      f id + (rules.map fun rule => if rule.ruleId = id then rule.finditer content else 0).sum := by
  have hentries := h.foldl (rules.map fun rule => (rule.ruleId, rule.finditer content))
  simp only [List.foldl_map, List.map_map] at hentries
  exact hentries

theorem foldl_scan {d : Dict Text Nat} {f : Text → Nat} (h : d.Counts f)
    (messages : List NormalizedMessage) (rules : List CompiledRule) :
    (messages.foldl (fun counts m => rules.foldl (noteMatches m.content) counts) d).Counts
      fun id => f id + ruleTotal messages rules id := by
  induction messages generalizing d f with
  | nil => exact h
  | cons m messages ih =>
    have hrest := ih (foldl_noteMatches h rules m.content)
    simp only [Nat.add_assoc] at hrest
    exact hrest

theorem scanCounts_counts (messages : List NormalizedMessage) (rules : List CompiledRule) :
    (scanCounts messages rules).Counts (ruleTotal messages rules) := by
  intro id
  have hcounts := foldl_scan Dict.counts_empty messages rules id
  simp only [Nat.zero_add] at hcounts
  exact hcounts

theorem mem_scanMessages : p ∈ scanMessages messages rules ↔
    RuleMatches messages rules p.ruleId ∧ p = ⟨p.ruleId, ruleTotal messages rules p.ruleId, "medium"⟩ := by
  have hcounts := scanCounts_counts messages rules
  simp only [scanMessages, List.mem_map, List.mem_insertionSort, hcounts.mem_keys, hcounts.getD,
    ← Nat.pos_iff_ne_zero, ruleTotal_pos]
  constructor
  · rintro ⟨id, hid, rfl⟩
    exact ⟨hid, rfl⟩
  · rintro ⟨hid, hp⟩
    exact ⟨p.ruleId, hid, hp.symm⟩

theorem scanMessages_ruleIds (messages : List NormalizedMessage) (rules : List CompiledRule) :
    ((scanMessages messages rules).map PolicyMatch.ruleId).Nodup ∧
      ((scanMessages messages rules).map PolicyMatch.ruleId).Pairwise (· ≤ ·) := by
  have hids : (scanMessages messages rules).map PolicyMatch.ruleId =
      (scanCounts messages rules).keys.insertionSort (· ≤ ·) := by
    rw [scanMessages, List.map_map]
    exact List.map_id _
  rw [hids]
  constructor
  · exact ((List.perm_insertionSort _ _).nodup_iff).2 (scanCounts messages rules).nodup
  · exact List.pairwise_insertionSort _ _

theorem scanMessages_eq_nil :
    scanMessages messages rules = [] ↔ ∀ id, ¬ RuleMatches messages rules id := by
  rw [List.eq_nil_iff_forall_not_mem]
  constructor
  · intro h id hid
    exact h ⟨id, ruleTotal messages rules id, "medium"⟩ (mem_scanMessages.2 ⟨hid, rfl⟩)
  · intro h p hp
    exact h p.ruleId (mem_scanMessages.1 hp).1

end AiServing
