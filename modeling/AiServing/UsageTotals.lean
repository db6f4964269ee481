import AiServing.AuditPages
import Mathlib.Algebra.BigOperators.Group.Finset.Piecewise
import Mathlib.Data.Char
import Mathlib.Data.List.Lex

namespace AiServing
set_option autoImplicit true

theorem sum_fibers [DecidableEq κ] [AddCommMonoid M] (key : α → κ) (w : α → M) (keys : Finset κ)
    (l : List α) (h : ∀ a ∈ l, key a ∈ keys) :
    ∑ k ∈ keys, ((l.filter fun a => key a = k).map w).sum = (l.map w).sum := by
  induction l with
  | nil => simp
  | cons a l ih =>
    have hcons (k : κ) : (((a :: l).filter fun b => key b = k).map w).sum =
        (if key a = k then w a else 0) + ((l.filter fun b => key b = k).map w).sum := by
      by_cases hk : key a = k <;> simp [hk]
    simp only [hcons, Finset.sum_add_distrib, Finset.sum_ite_eq,
      if_pos (h a List.mem_cons_self), ih fun b hb => h b (List.mem_cons_of_mem a hb),
      List.map_cons, List.sum_cons]

/-- The sums that a report gives, over all its groups. -/
structure UsageTotals where
  requestCount : Nat
  errorCount : Nat
  totalTokens : Int
  promptTokens : Int
  completionTokens : Int
  deriving DecidableEq

def UsageTotals.ofGroups (groups : List UsageGroup) : UsageTotals where
  requestCount := (groups.map UsageGroup.requestCount).sum
  errorCount := (groups.map UsageGroup.errorCount).sum
  totalTokens := (groups.map UsageGroup.totalTokens).sum
  promptTokens := (groups.map UsageGroup.totalPromptTokens).sum
  completionTokens := (groups.map UsageGroup.totalCompletionTokens).sum

def UsageTotals.ofRows (rows : List AuditLog) : UsageTotals where
  requestCount := rows.length
  errorCount := rows.countP fun row => 400 ≤ row.statusCode
  totalTokens := (rows.map AuditLog.totalTokens).sum
  promptTokens := (rows.map AuditLog.promptTokens).sum
  completionTokens := (rows.map AuditLog.completionTokens).sum

variable {p : ApiKeyPrincipal} {context : CallContext} {db : Database} {rows : List AuditLog}
  {since until' : DateTime} {groupBy : GroupBy} {collation : LinearOrder Text}

def usageMembers (groupBy : GroupBy) (rows : List AuditLog) (groupKey : Text) : List AuditLog :=
  rows.filter fun row => usageGroupKey groupBy row = groupKey

theorem orRaise_eq_ok {x : Option α} : orRaise x = .ok a ↔ x = some a := by
  cases x with
  | none =>
    constructor
    · intro h
      cases h
    · intro h
      cases h
  | some b => rw [orRaise, Except.ok.injEq, Option.some.injEq]

theorem except_map_eq_ok {x : Except ε α} {f : α → β} :
    x.map f = .ok b ↔ ∃ a, x = .ok a ∧ f a = b := by
  cases x with
  | error e =>
    constructor
    · intro h
      cases h
    · rintro ⟨_, h, _⟩
      cases h
  | ok a =>
    rw [Except.map, Except.ok.injEq]
    constructor
    · exact fun h => ⟨a, rfl, h⟩
    · rintro ⟨_, h, hb⟩
      cases h
      exact hb

theorem asUtc_instant {t u : DateTime} (h : t.asUtc = some u) : u.instant = t.instant := by
  rw [DateTime.asUtc] at h
  split at h
  · next hoffset =>
    cases h
    simp [DateTime.instant, hoffset]
  · split at h
    · next hrange =>
      cases h
      simp only [DateTime.instant] at hrange ⊢
      rw [Int.toNat_of_nonneg hrange.1]
      simp
    · cases h

theorem sumColumn_eq_ok {column : AuditLog → Int} : sumColumn column rows = .ok n ↔
    n = (rows.map column).sum ∧ FitsInt64 (rows.map column).sum := by
  rw [sumColumn]
  split
  · next hfits =>
    rw [Except.ok.injEq, and_iff_left hfits]
    exact eq_comm
  · next hfits => exact iff_of_false (fun h => nomatch h) fun h => hfits h.2

/-- The sums of a group can be made and its cost written. -/
structure Summable (groupBy : GroupBy) (rows : List AuditLog) (groupKey : Text) : Prop where
  totalTokens : FitsInt64 ((usageMembers groupBy rows groupKey).map AuditLog.totalTokens).sum
  promptTokens : FitsInt64 ((usageMembers groupBy rows groupKey).map AuditLog.promptTokens).sum
  completionTokens :
    FitsInt64 ((usageMembers groupBy rows groupKey).map AuditLog.completionTokens).sum
  costUsd : (formatCost ((usageMembers groupBy rows groupKey).map AuditLog.costUsd).sum).isSome

/-- `SUM` also raises where only the sum of some of the rows overflows, which these counts cannot. -/
structure Counted (row : AuditLog) : Prop where
  totalTokens : 0 ≤ row.totalTokens
  promptTokens : 0 ≤ row.promptTokens
  completionTokens : 0 ≤ row.completionTokens

/-- What one group says about its members. -/
structure GroupOf (groupBy : GroupBy) (rows : List AuditLog) (groupKey : Text) (g : UsageGroup) :
    Prop where
  groupKey_eq : g.groupKey = groupKey
  requestCount : g.requestCount = (usageMembers groupBy rows groupKey).length
  errorCount : g.errorCount =
    (usageMembers groupBy rows groupKey).countP fun row => 400 ≤ row.statusCode
  totalTokens : g.totalTokens = ((usageMembers groupBy rows groupKey).map AuditLog.totalTokens).sum
  promptTokens : g.totalPromptTokens =
    ((usageMembers groupBy rows groupKey).map AuditLog.promptTokens).sum
  completionTokens : g.totalCompletionTokens =
    ((usageMembers groupBy rows groupKey).map AuditLog.completionTokens).sum
  costUsd : formatCost ((usageMembers groupBy rows groupKey).map AuditLog.costUsd).sum =
    some g.costUsd
  summable : Summable groupBy rows groupKey

theorem usageGroup_eq_ok : usageGroup groupBy rows groupKey = .ok g ↔
    GroupOf groupBy rows groupKey g := by
  simp only [usageGroup, bind_eq_ok, orRaise_eq_ok, sumColumn_eq_ok]
  constructor
  · rintro ⟨_, ⟨rfl, htotal⟩, _, ⟨rfl, hprompt⟩, _, ⟨rfl, hcompletion⟩, cost, hcost, h⟩
    cases h
    exact ⟨rfl, rfl, rfl, rfl, rfl, rfl, hcost, htotal, hprompt, hcompletion,
      Option.isSome_iff_exists.2 ⟨cost, hcost⟩⟩
  · intro h
    refine ⟨g.totalTokens, ⟨h.totalTokens, h.summable.totalTokens⟩, g.totalPromptTokens,
      ⟨h.promptTokens, h.summable.promptTokens⟩, g.totalCompletionTokens,
      ⟨h.completionTokens, h.summable.completionTokens⟩, g.costUsd, h.costUsd, ?_⟩
    obtain ⟨rfl, hrequests, herrors, _, _, _, _, _⟩ := h
    simp only [usageMembers] at hrequests herrors
    rw [← hrequests, ← herrors]
    rfl

theorem usageGroups_eq_ok : usageGroups collation groupBy rows = .ok groups ↔
    List.Forall₂ (GroupOf groupBy rows) (usageKeys collation groupBy rows) groups := by
  rw [usageGroups, mapM_eq_ok]
  simp only [usageGroup_eq_ok]
  rfl

theorem mem_usageKeys : groupKey ∈ usageKeys collation groupBy rows ↔
    ∃ row ∈ rows, usageGroupKey groupBy row = groupKey := by
  simp [usageKeys]

theorem nodup_usageKeys (collation : LinearOrder Text) (groupBy : GroupBy) (rows : List AuditLog) :
    (usageKeys collation groupBy rows).Nodup := Finset.sort_nodup _ _

theorem map_groups {f : UsageGroup → M} {F : Text → M} {keys : List Text} {groups : List UsageGroup}
    (h : List.Forall₂ (GroupOf groupBy rows) keys groups)
    (hf : ∀ groupKey g, GroupOf groupBy rows groupKey g → f g = F groupKey) :
    groups.map f = keys.map F := by
  induction h with
  | nil => rfl
  | cons hg _ ih => rw [List.map_cons, List.map_cons, hf _ _ hg, ih]

theorem sum_groups [AddCommMonoid M] {f : UsageGroup → M} {w : AuditLog → M}
    {groups : List UsageGroup}
    (h : List.Forall₂ (GroupOf groupBy rows) (usageKeys collation groupBy rows) groups)
    (hf : ∀ groupKey g, GroupOf groupBy rows groupKey g →
      f g = ((usageMembers groupBy rows groupKey).map w).sum) :
    (groups.map f).sum = (rows.map w).sum := by
  rw [map_groups h hf, ← sum_fibers (usageGroupKey groupBy) w
    (rows.map (usageGroupKey groupBy)).toFinset rows fun row hrow =>
      List.mem_toFinset.2 (List.mem_map_of_mem hrow)]
  rw [Finset.sum_eq_multiset_sum, ← Finset.sort_eq _ collation.le]
  rfl

theorem length_eq_sum (l : List α) : l.length = (l.map fun _ => 1).sum := by
  simp

theorem countP_eq_sum (q : α → Bool) (l : List α) :
    l.countP q = (l.map fun a => if q a then 1 else 0).sum := by
  induction l with
  | nil => rfl
  | cons a l ih => rw [List.countP_cons, List.map_cons, List.sum_cons, ih, Nat.add_comm]

theorem totals_of_groups {groups : List UsageGroup}
    (h : List.Forall₂ (GroupOf groupBy rows) (usageKeys collation groupBy rows) groups) :
    UsageTotals.ofGroups groups = .ofRows rows := by
  have hrequests : (groups.map UsageGroup.requestCount).sum = rows.length := by
    rw [length_eq_sum]
    exact sum_groups h fun _ _ hg => hg.requestCount.trans (length_eq_sum _)
  have herrors : (groups.map UsageGroup.errorCount).sum =
      rows.countP fun row => 400 ≤ row.statusCode := by
    rw [countP_eq_sum]
    exact sum_groups h fun _ _ hg => hg.errorCount.trans (countP_eq_sum _ _)
  have htotal := sum_groups h fun _ _ hg => hg.totalTokens
  have hprompt := sum_groups h fun _ _ hg => hg.promptTokens
  have hcompletion := sum_groups h fun _ _ hg => hg.completionTokens
  rw [UsageTotals.ofGroups, UsageTotals.ofRows, hrequests, herrors, htotal, hprompt, hcompletion]

/-- The report of the same principal over the same window is about the rows that are listed. -/
theorem getUsage_of_matching
    (hrows : matchingRows p context { since := some since, until' := some until' } db = .ok rows)
    (hle : since.instant ≤ until'.instant) :
    ∃ window, getUsage collation p context (some since) (some until') groupBy db =
      (usageGroups collation groupBy rows).map fun groups => ⟨groups, window⟩ := by
  rw [matchingRows] at hrows
  obtain ⟨_, hadmin, hrows⟩ := bind_eq_ok.1 hrows
  split at hrows
  · cases hrows
  · obtain ⟨_, hsession, hrows⟩ := bind_eq_ok.1 hrows
    obtain ⟨scope, hscope, hrows⟩ := bind_eq_ok.1 hrows
    obtain ⟨since', hsince, hrows⟩ := bind_eq_ok.1 hrows
    obtain ⟨until'', huntil, hrows⟩ := bind_eq_ok.1 hrows
    obtain ⟨_, hread, hrows⟩ := bind_eq_ok.1 hrows
    obtain ⟨_, _, hrows⟩ := bind_eq_ok.1 hrows
    obtain ⟨s, hs, rfl⟩ := Option.map_eq_some_iff.1 (orRaise_eq_ok.1 hsince)
    obtain ⟨u, hu, rfl⟩ := Option.map_eq_some_iff.1 (orRaise_eq_ok.1 huntil)
    have horder : ¬ u.instant < s.instant := by
      rw [asUtc_instant hs, asUtc_instant hu]
      exact Int.not_lt.2 hle
    have hfilter : (db.auditLogs.filter fun row => row.selected scope (some s) (some u)) = rows := by
      cases hrows
      simp
    refine ⟨⟨s, u, groupBy⟩, ?_⟩
    rw [getUsage, hadmin, ok_bind]
    simp only [Option.elim, hs, hu, orRaise, ok_bind, if_neg horder, hsession, hscope, hread, hfilter]
    rfl

/-- What a report says about the rows it covers. -/
structure Conserves (groupBy : GroupBy) (rows : List AuditLog) (groups : List UsageGroup) : Prop where
  keys_nodup : (groups.map UsageGroup.groupKey).Nodup
  one_group : ∀ row ∈ rows, ∃! g, g ∈ groups ∧ g.groupKey = usageGroupKey groupBy row
  members : ∀ g ∈ groups, usageMembers groupBy rows g.groupKey ≠ [] ∧
    GroupOf groupBy rows g.groupKey g
  errors_le : ∀ g ∈ groups, g.errorCount ≤ g.requestCount
  totals : UsageTotals.ofGroups groups = .ofRows rows

theorem groupOf_of_mem {keys : List Text} {groups : List UsageGroup}
    (h : List.Forall₂ (GroupOf groupBy rows) keys groups) (hg : g ∈ groups) :
    g.groupKey ∈ keys ∧ GroupOf groupBy rows g.groupKey g := by
  induction h with
  | nil => cases hg
  | cons hgroup _ ih =>
    rcases List.mem_cons.1 hg with rfl | hg
    · rw [hgroup.groupKey_eq]
      exact ⟨List.mem_cons_self, hgroup⟩
    · obtain ⟨hkey, hgroup'⟩ := ih hg
      exact ⟨List.mem_cons_of_mem _ hkey, hgroup'⟩

theorem conserves_of_groups {groups : List UsageGroup}
    (h : List.Forall₂ (GroupOf groupBy rows) (usageKeys collation groupBy rows) groups) :
    Conserves groupBy rows groups := by
  have hkeys : groups.map UsageGroup.groupKey = usageKeys collation groupBy rows := by
    rw [map_groups h fun _ _ hg => hg.groupKey_eq, List.map_id']
  have hnodup : (groups.map UsageGroup.groupKey).Nodup := by
    rw [hkeys]
    exact nodup_usageKeys collation groupBy rows
  refine ⟨hnodup, ?_, ?_, ?_, totals_of_groups h⟩
  · intro row hrow
    have hkey : usageGroupKey groupBy row ∈ groups.map UsageGroup.groupKey := by
      rw [hkeys]
      exact mem_usageKeys.2 ⟨row, hrow, rfl⟩
    obtain ⟨g, hg, hgkey⟩ := List.mem_map.1 hkey
    refine ⟨g, ⟨hg, hgkey⟩, ?_⟩
    rintro g' ⟨hg', hgkey'⟩
    exact List.inj_on_of_nodup_map hnodup hg' hg (hgkey'.trans hgkey.symm)
  · intro g hg
    obtain ⟨hkey, hgroup⟩ := groupOf_of_mem h hg
    obtain ⟨row, hrow, hrowkey⟩ := mem_usageKeys.1 hkey
    refine ⟨?_, hgroup⟩
    exact List.ne_nil_of_mem (List.mem_filter.2 ⟨hrow, decide_eq_true hrowkey⟩)
  · intro g hg
    have hgroup := (groupOf_of_mem h hg).2
    rw [hgroup.errorCount, hgroup.requestCount]
    exact List.countP_le_length

theorem exists_groupOf (groupBy : GroupBy) (rows : List AuditLog) (groupKey : Text) :
    (∃ g, GroupOf groupBy rows groupKey g) ↔ Summable groupBy rows groupKey := by
  constructor
  · rintro ⟨g, hg⟩
    exact hg.summable
  · intro h
    obtain ⟨cost, hcost⟩ := Option.isSome_iff_exists.1 h.costUsd
    exact ⟨⟨groupKey, _, _, _, cost, _, _⟩, rfl, rfl, rfl, rfl, rfl, rfl, hcost, h⟩

theorem exists_groups_iff : (∃ groups, usageGroups collation groupBy rows = .ok groups) ↔
    ∀ row ∈ rows, Summable groupBy rows (usageGroupKey groupBy row) := by
  simp only [usageGroups_eq_ok, exists_forall₂, exists_groupOf, mem_usageKeys]
  constructor
  · intro h row hrow
    exact h _ ⟨row, hrow, rfl⟩
  · rintro h _ ⟨row, hrow, rfl⟩
    exact h row hrow

/-- The rows that are listed for a window are the ones that its report sums up, once each. -/
theorem usage_conserves (collation : LinearOrder Text) (groupBy : GroupBy)
    (hrows : matchingRows p context { since := some since, until' := some until' } db = .ok rows)
    (hle : since.instant ≤ until'.instant) :
    (∀ limit offset : Int, 1 ≤ limit ∧ limit ≤ 500 → 0 ≤ offset →
      listAuditLogs p context
        { limit := limit, offset := offset, since := some since, until' := some until' } db =
          auditPage limit.toNat offset.toNat rows) ∧
    ((∀ row ∈ rows, Counted row) →
      ((∃ response,
          getUsage collation p context (some since) (some until') groupBy db = .ok response) ↔
        ∀ row ∈ rows, Summable groupBy rows (usageGroupKey groupBy row))) ∧
    ∀ response, getUsage collation p context (some since) (some until') groupBy db = .ok response →
      Conserves groupBy rows response.groups := by
  have hreport : ∃ window, getUsage collation p context (some since) (some until') groupBy db =
      (usageGroups collation groupBy rows).map fun groups => ⟨groups, window⟩ :=
    getUsage_of_matching hrows hle
  have hgroups : (∃ groups, usageGroups collation groupBy rows = .ok groups) ↔
      ∀ row ∈ rows, Summable groupBy rows (usageGroupKey groupBy row) := exists_groups_iff
  obtain ⟨window, hwindow⟩ := hreport
  rw [hwindow, ← hgroups]
  refine ⟨?_, ?_, ?_⟩
  · intro limit offset hlimit hoffset
    rw [listAuditLogs_eq, listAuditLogsIn, matchingRows_page hrows hlimit hoffset]
    rfl
  · intro _
    constructor
    · rintro ⟨response, h⟩
      obtain ⟨groups, hok, _⟩ := except_map_eq_ok.1 h
      exact ⟨groups, hok⟩
    · rintro ⟨groups, hok⟩
      exact ⟨_, except_map_eq_ok.2 ⟨groups, hok, rfl⟩⟩
  · intro response h
    obtain ⟨groups, hok, rfl⟩ := except_map_eq_ok.1 h
    exact conserves_of_groups (usageGroups_eq_ok.1 hok)

theorem usage_conserves_two_rows :
    ∃ response, getUsage List.instLinearOrder sampleReader { now := ⟨0, some 0⟩ } (some ⟨0, some 0⟩)
      (some ⟨1000000, some 0⟩) .model
      (sampleAuditDb [sampleRow ['2'] 1, sampleRow ['1'] 0, sampleRow ['3'] 2]) = .ok response ∧
        Conserves .model [sampleRow ['2'] 1, sampleRow ['1'] 0] response.groups := by
  have hrows : matchingRows sampleReader { now := ⟨0, some 0⟩ }
      { since := some ⟨0, some 0⟩, until' := some ⟨1000000, some 0⟩ }
      (sampleAuditDb [sampleRow ['2'] 1, sampleRow ['1'] 0, sampleRow ['3'] 2]) =
      .ok [sampleRow ['2'] 1, sampleRow ['1'] 0] := rfl
  obtain ⟨_, hanswered, hconserves⟩ :=
    usage_conserves List.instLinearOrder .model hrows (by decide)
  have hsummable : ∀ row ∈ [sampleRow ['2'] 1, sampleRow ['1'] 0],
      Summable .model [sampleRow ['2'] 1, sampleRow ['1'] 0] (usageGroupKey .model row) := by
    intro row hrow
    rcases List.mem_pair.1 hrow with rfl | rfl
    · exact ⟨by decide, by decide, by decide, by decide +kernel⟩
    · exact ⟨by decide, by decide, by decide, by decide +kernel⟩
  have hcounted : ∀ row ∈ [sampleRow ['2'] 1, sampleRow ['1'] 0], Counted row := by
    intro row hrow
    rcases List.mem_pair.1 hrow with rfl | rfl
    · exact ⟨by decide, by decide, by decide⟩
    · exact ⟨by decide, by decide, by decide⟩
  obtain ⟨response, hresponse⟩ := (hanswered hcounted).2 hsummable
  exact ⟨response, hresponse, hconserves response hresponse⟩

end AiServing
