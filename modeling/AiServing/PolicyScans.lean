import AiServing.PolicyFilter

namespace AiServing
set_option autoImplicit true

variable {messages messages' : List NormalizedMessage} {rules rules' : List CompiledRule} {id : Text}

/-- The count that a scan reports for a rule id. -/
def reportedCount (found : List PolicyMatch) (id : Text) : Nat :=
  (found.find? fun p => p.ruleId = id).elim 0 PolicyMatch.count

theorem scanMessages_increasing (messages : List NormalizedMessage) (rules : List CompiledRule) :
    (scanMessages messages rules).Pairwise fun p q => p.ruleId < q.ruleId := by
  obtain ⟨hnodup, hsorted⟩ := scanMessages_ruleIds messages rules
  have hne := List.pairwise_map.1 hnodup
  have hle := List.pairwise_map.1 hsorted
  exact (hle.and hne).imp fun h => lt_of_le_of_ne h.1 h.2

theorem reportedCount_scan (messages : List NormalizedMessage) (rules : List CompiledRule)
    (id : Text) : reportedCount (scanMessages messages rules) id = ruleTotal messages rules id := by
  rw [reportedCount]
  cases h : (scanMessages messages rules).find? fun p => p.ruleId = id with
  | some p =>
    have hid := List.find?_some h
    rw [decide_eq_true_eq] at hid
    subst hid
    have hp := (mem_scanMessages.1 (List.mem_of_find?_eq_some h)).2
    exact congrArg PolicyMatch.count hp
  | none =>
    have hnone : ¬ RuleMatches messages rules id := by
      intro hid
      have hmem : ⟨id, ruleTotal messages rules id, "medium"⟩ ∈ scanMessages messages rules :=
        mem_scanMessages.2 ⟨hid, rfl⟩
      exact List.find?_eq_none.1 h _ hmem (decide_eq_true rfl)
    exact (Nat.eq_zero_of_not_pos (mt ruleTotal_pos.1 hnone)).symm

theorem scanMessages_congr
    (h : ∀ id, ruleTotal messages rules id = ruleTotal messages' rules' id) :
    scanMessages messages rules = scanMessages messages' rules' := by
  have hincreasing := scanMessages_increasing messages rules
  have hincreasing' := scanMessages_increasing messages' rules'
  have hmem (p : PolicyMatch) :
      p ∈ scanMessages messages rules ↔ p ∈ scanMessages messages' rules' := by
    rw [mem_scanMessages, mem_scanMessages, ← ruleTotal_pos, ← ruleTotal_pos, h]
  have hnodup := hincreasing.imp fun {p q} hlt (heq : p = q) => lt_irrefl q.ruleId (heq ▸ hlt)
  have hnodup' := hincreasing'.imp fun {p q} hlt (heq : p = q) => lt_irrefl q.ruleId (heq ▸ hlt)
  have hperm := (List.perm_ext_iff_of_nodup hnodup hnodup').2 hmem
  apply hperm.eq_of_pairwise _ hincreasing hincreasing'
  intro p q _ _ hpq hqp
  exact absurd (hpq.trans hqp) (lt_irrefl _)

theorem ruleTotal_perm (hmessages : messages.Perm messages') (hrules : rules.Perm rules')
    (id : Text) : ruleTotal messages rules id = ruleTotal messages' rules' id := by
  have hrule (m : NormalizedMessage) :
      (rules.map fun rule => if rule.ruleId = id then rule.finditer m.content else 0).sum =
        (rules'.map fun rule => if rule.ruleId = id then rule.finditer m.content else 0).sum :=
    (hrules.map _).sum_nat
  simp only [ruleTotal, hrule]
  exact (hmessages.map _).sum_nat

theorem ruleTotal_append (messages messages' : List NormalizedMessage) (rules : List CompiledRule)
    (id : Text) : ruleTotal (messages ++ messages') rules id =
      ruleTotal messages rules id + ruleTotal messages' rules id := by
  rw [ruleTotal, List.map_append, List.sum_append]
  rfl

/-- One entry for each rule id that matches, in the order of the ids; neither the order of the
messages nor that of the rules plays a part, and the counts of two message lists add up. -/
theorem scanMessages_totals (messages : List NormalizedMessage) (rules : List CompiledRule) :
    ((scanMessages messages rules).Pairwise fun p q => p.ruleId < q.ruleId) ∧
    (∀ id, (∃ p ∈ scanMessages messages rules, p.ruleId = id) ↔ RuleMatches messages rules id) ∧
    (∀ p ∈ scanMessages messages rules, p.count = ruleTotal messages rules p.ruleId) ∧
    (∀ messages' rules', messages.Perm messages' → rules.Perm rules' →
      scanMessages messages' rules' = scanMessages messages rules) ∧
    ∀ messages' id, reportedCount (scanMessages (messages ++ messages') rules) id =
      reportedCount (scanMessages messages rules) id +
        reportedCount (scanMessages messages' rules) id := by
  refine ⟨scanMessages_increasing messages rules, ?_, ?_, ?_, ?_⟩
  · intro id
    constructor
    · rintro ⟨p, hp, rfl⟩
      exact (mem_scanMessages.1 hp).1
    · intro hid
      exact ⟨⟨id, ruleTotal messages rules id, "medium"⟩, mem_scanMessages.2 ⟨hid, rfl⟩, rfl⟩
  · intro p hp
    exact congrArg PolicyMatch.count (mem_scanMessages.1 hp).2
  · intro messages' rules' hmessages hrules
    apply scanMessages_congr
    intro id
    exact (ruleTotal_perm hmessages hrules id).symm
  · intro messages' id
    simp only [reportedCount_scan]
    exact ruleTotal_append messages messages' rules id

end AiServing
