import AiServing.UsageTotals
import Mathlib.Algebra.Order.BigOperators.Group.List
import Mathlib.Tactic.Linarith

namespace AiServing
set_option autoImplicit true

theorem abs_sum_sub_le {f g b : α → ℚ} {l : List α} (h : ∀ a ∈ l, |f a - g a| ≤ b a) :
    |(l.map f).sum - (l.map g).sum| ≤ (l.map b).sum := by
  induction l with
  | nil => simp
  | cons a l ih =>
    have hrest := ih fun x hx => h x (List.mem_cons_of_mem a hx)
    have hsplit : ((a :: l).map f).sum - ((a :: l).map g).sum =
        (f a - g a) + ((l.map f).sum - (l.map g).sum) := by
      rw [List.map_cons, List.map_cons, List.sum_cons, List.sum_cons]
      ring
    rw [hsplit, List.map_cons, List.sum_cons]
    exact (abs_add_le _ _).trans (add_le_add (h a List.mem_cons_self) hrest)

theorem abs_roundHalfEven_sub_le (q : ℚ) : |(roundHalfEven q : ℚ) - q| ≤ 1 / 2 := by
  have hle := Int.floor_le q
  have hlt := Int.lt_floor_add_one q
  rw [abs_le, roundHalfEven]
  split
  · constructor <;> linarith
  · split
    · rw [Int.cast_add, Int.cast_one]
      constructor <;> linarith
    · split
      · constructor <;> linarith
      · rw [Int.cast_add, Int.cast_one]
        constructor <;> linarith

/-- To six places. -/
def toMillionths (q : ℚ) : ℚ := roundHalfEven (q * 1000000) / 1000000

theorem abs_toMillionths_sub_le (q : ℚ) : |toMillionths q - q| ≤ 1 / 2000000 := by
  have hround := abs_roundHalfEven_sub_le (q * 1000000)
  rw [abs_le] at hround
  rw [toMillionths, abs_le]
  constructor <;> linarith [hround.1, hround.2]

theorem roundHalfEven_intCast (n : ℤ) : roundHalfEven (n : ℚ) = n := by
  rw [roundHalfEven, Int.floor_intCast, sub_self, if_pos (by norm_num)]

theorem decimalContext_exact {k : ℤ} (e : ℤ) (hk : |k| < 10 ^ 28) :
    decimalContext (k * 10 ^ e) = k * 10 ^ e := by
  have hten : (10 : ℚ) ≠ 0 := by norm_num
  have hscale : (0 : ℚ) < 10 ^ e := zpow_pos (by norm_num) e
  rw [decimalContext]
  generalize hu : Int.log 10 |(k * 10 ^ e : ℚ)| - 27 = u
  have hpow : (10 : ℚ) ^ u ≠ 0 := zpow_ne_zero u hten
  by_cases hzero : k = 0
  · subst hzero
    rw [Int.cast_zero, zero_mul, zero_div]
    have hround := roundHalfEven_intCast 0
    rw [Int.cast_zero] at hround
    rw [hround, Int.cast_zero, zero_mul]
  · have hue : u ≤ e := by
      have habs : |(k * 10 ^ e : ℚ)| < 10 ^ (28 + e) := by
        rw [abs_mul, abs_of_pos hscale, zpow_add₀ hten]
        apply mul_lt_mul_of_pos_right _ hscale
        exact_mod_cast hk
      have hpos : 0 < |(k * 10 ^ e : ℚ)| :=
        abs_pos.2 (mul_ne_zero (Int.cast_ne_zero.2 hzero) hscale.ne')
      have hlog : Int.log 10 |(k * 10 ^ e : ℚ)| < 28 + e := by
        rw [← Int.lt_zpow_iff_log_lt (by decide) hpos]
        exact_mod_cast habs
      omega
    obtain ⟨n, hn⟩ := Int.eq_ofNat_of_zero_le (Int.sub_nonneg.2 hue)
    have hquot : (k * 10 ^ e : ℚ) / 10 ^ u = ((k * 10 ^ n : ℤ) : ℚ) := by
      rw [mul_div_assoc, ← zpow_sub₀ hten, hn, Int.cast_mul, Int.cast_pow]
      rfl
    rw [hquot, roundHalfEven_intCast, ← hquot, div_mul_cancel₀ _ hpow]

theorem prices_in_cents (h : modelPricingUsdPer1M.lookup model = some (inputPrice, outputPrice)) :
    ∃ i j : ℤ, inputPrice = i * 10 ^ (-2 : ℤ) ∧ outputPrice = j * 10 ^ (-2 : ℤ) ∧
      |i| ≤ 1500 ∧ |j| ≤ 1500 := by
  obtain ⟨before, after, hlist, _⟩ := List.lookup_eq_some_iff.1 h
  have hmem : (model, inputPrice, outputPrice) ∈ modelPricingUsdPer1M := by
    rw [hlist]
    exact List.mem_append_right _ List.mem_cons_self
  simp only [modelPricingUsdPer1M, List.mem_cons, List.not_mem_nil, or_false, Prod.mk.injEq] at hmem
  rcases hmem with ⟨_, rfl, rfl⟩ | ⟨_, rfl, rfl⟩ | ⟨_, rfl, rfl⟩ | ⟨_, rfl, rfl⟩
  · exact ⟨250, 1000, by norm_num, by norm_num, by norm_num, by norm_num⟩
  · exact ⟨15, 60, by norm_num, by norm_num, by norm_num, by norm_num⟩
  · exact ⟨300, 1500, by norm_num, by norm_num, by norm_num, by norm_num⟩
  · exact ⟨80, 400, by norm_num, by norm_num, by norm_num, by norm_num⟩

/-- What the tokens cost at the listed prices. -/
def listPrice (model : Option String) (promptTokens completionTokens : Int) : ℚ :=
  match model.bind fun m => modelPricingUsdPer1M.lookup m with
  | none => 0
  | some (inputPrice, outputPrice) =>
    (promptTokens * inputPrice + completionTokens * outputPrice) / 1000000

/-- No cost of a request is rounded: 28 digits hold it. -/
theorem calculateCost_exact (model : Option String) (hprompt : |promptTokens| < 2 ^ 63)
    (hcompletion : |completionTokens| < 2 ^ 63) :
    calculateCost model promptTokens completionTokens =
      listPrice model promptTokens completionTokens := by
  rw [calculateCost, listPrice]
  cases hprices : model.bind fun m => modelPricingUsdPer1M.lookup m with
  | none => rfl
  | some prices =>
    obtain ⟨inputPrice, outputPrice⟩ := prices
    obtain ⟨m, _, hlookup⟩ := Option.bind_eq_some_iff.1 hprices
    obtain ⟨i, j, rfl, rfl, hi, hj⟩ := prices_in_cents hlookup
    have hin : |promptTokens * i| ≤ 2 ^ 63 * 1500 := by
      rw [abs_mul]
      exact mul_le_mul hprompt.le hi (abs_nonneg i) (by norm_num)
    have hout : |completionTokens * j| ≤ 2 ^ 63 * 1500 := by
      rw [abs_mul]
      exact mul_le_mul hcompletion.le hj (abs_nonneg j) (by norm_num)
    have hsum : |promptTokens * i + completionTokens * j| < 10 ^ 28 :=
      (abs_add_le _ _).trans_lt ((add_le_add hin hout).trans_lt (by norm_num))
    have hprompts : (promptTokens : ℚ) * (i * 10 ^ (-2 : ℤ)) =
        (promptTokens * i : ℤ) * 10 ^ (-2 : ℤ) := by
      rw [Int.cast_mul, mul_assoc]
    have hcompletions : (completionTokens : ℚ) * (j * 10 ^ (-2 : ℤ)) =
        (completionTokens * j : ℤ) * 10 ^ (-2 : ℤ) := by
      rw [Int.cast_mul, mul_assoc]
    have hboth : ((promptTokens * i : ℤ) : ℚ) * 10 ^ (-2 : ℤ) + (completionTokens * j : ℤ) * 10 ^ (-2 : ℤ) =
        (promptTokens * i + completionTokens * j : ℤ) * 10 ^ (-2 : ℤ) := by
      rw [Int.cast_add, add_mul]
    have hmillion (k : ℤ) : (k : ℚ) * 10 ^ (-2 : ℤ) / 1000000 = k * 10 ^ (-8 : ℤ) := by
      norm_num
      ring
    dsimp only
    rw [hprompts, hcompletions, decimalContext_exact _ (hin.trans_lt (by norm_num)),
      decimalContext_exact _ (hout.trans_lt (by norm_num)), hboth, decimalContext_exact _ hsum,
      hmillion, decimalContext_exact _ hsum]

theorem Decimal.ofText_point {int frac : Text} (hint : int ≠ [])
    (h : ∀ c ∈ int ++ frac, isAsciiDigit c) (hfrac : frac ≠ []) :
    ofText (int ++ '.' :: frac) = some ⟨false, intOf (int ++ frac), -frac.length⟩ := by
  have hplain {c} (hc : c ∈ int ++ frac) :
      isDot c = false ∧ isExponentMark c = false ∧ isDecimal c = true := by
    have hd := h c hc
    have hnot := isAsciiDigit.elim (P := fun c => !isDot c && !isExponentMark c) hd (by decide)
    simp only [Bool.and_eq_true, Bool.not_eq_true'] at hnot
    exact ⟨hnot.1, hnot.2, isAsciiDigit.isDecimal hd⟩
  have hchars : ∀ c ∈ int ++ '.' :: frac, c = '.' ∨ c ∈ int ++ frac := by
    intro c hc
    rcases List.mem_append.1 hc with hc | hc
    · exact .inr (List.mem_append_left _ hc)
    · exact (List.mem_cons.1 hc).imp_right (List.mem_append_right _)
  have hnumeral : ∀ c ∈ int ++ '.' :: frac, isNumeral c := by
    intro c hc
    rcases hchars c hc with rfl | hc
    · decide
    · exact isAsciiDigit.isNumeral (h c hc)
  have hmark : ∀ c ∈ int ++ '.' :: frac, (!isExponentMark c) = true := by
    intro c hc
    rcases hchars c hc with rfl | hc
    · decide
    · rw [(hplain hc).2.1]
      rfl
  have hsign : splitSign (int ++ '.' :: frac) = (false, int ++ '.' :: frac) := by
    obtain ⟨c, t, rfl⟩ := List.exists_cons_of_ne_nil hint
    exact splitSign_digit (h c List.mem_cons_self)
  obtain ⟨hi, hf⟩ := split_fracPart frac fun c hc => (hplain (List.mem_append_left frac hc)).1
  rw [if_neg hfrac] at hi hf
  have hall : int ++ frac ≠ [] ∧ (int ++ frac).all isDecimal :=
    ⟨List.append_ne_nil_of_left_ne_nil hint _, List.all_eq_true.2 fun c hc => (hplain hc).2.2⟩
  simp only [ofText, strip_numeral hnumeral, hsign, List.takeWhile_eq_self_iff.2 hmark,
    List.dropWhile_eq_nil_iff.2 hmark, hi, hf, if_pos hall, Option.map_some, Int.zero_sub]

def Decimal.toRat (d : Decimal) : ℚ :=
  (if d.negative then -1 else 1) * d.coefficient * 10 ^ d.exponent

/-- The number that a cost of a report says. -/
def costValue (cost : Text) : ℚ := (Decimal.ofText cost).elim 0 Decimal.toRat

theorem length_digitsOf_le {n : Nat} (h : n < 1000000) : (digitsOf n).length ≤ 6 :=
  (Nat.length_toDigits_le_iff (by decide) (by decide)).2 h

theorem ofText_millionths (n : Nat) :
    let digits := digitsOf (n % 1000000)
    Decimal.ofText (digitsOf (n / 1000000) ++
      '.' :: List.replicate (6 - digits.length) '0' ++ digits) = some ⟨false, n, -6⟩ := by
  intro digits
  have hle : digits.length ≤ 6 := length_digitsOf_le (Nat.mod_lt n (by decide))
  have hlen : (List.replicate (6 - digits.length) '0' ++ digits).length = 6 := by
    rw [List.length_append, List.length_replicate]
    omega
  have hchars : ∀ c ∈ digitsOf (n / 1000000) ++ (List.replicate (6 - digits.length) '0' ++ digits),
      isAsciiDigit c := by
    intro c hc
    rcases List.mem_append.1 hc with hc | hc
    · exact digitsOf_isDigit hc
    · rcases List.mem_append.1 hc with hc | hc
      · rw [List.eq_of_mem_replicate hc]
        decide
      · exact digitsOf_isDigit hc
  have hvalue : intOf (digitsOf (n / 1000000) ++ (List.replicate (6 - digits.length) '0' ++ digits)) =
      n := by
    rw [intOf_eq_ofDigitChars hchars, Nat.ofDigitChars_append, Nat.ofDigitChars_eq_ofDigitChars_zero,
      hlen, Nat.ofDigitChars_append, Nat.ofDigitChars_replicate_zero, Nat.mul_zero]
    have hhigh : Nat.ofDigitChars 10 (digitsOf (n / 1000000)) 0 = n / 1000000 :=
      Nat.ofDigitChars_toDigits (by decide) (by decide)
    have hlow : Nat.ofDigitChars 10 digits 0 = n % 1000000 :=
      Nat.ofDigitChars_toDigits (by decide) (by decide)
    rw [hhigh, hlow]
    exact Nat.div_add_mod n 1000000
  have hne : List.replicate (6 - digits.length) '0' ++ digits ≠ [] :=
    List.append_ne_nil_of_right_ne_nil _ (digitsOf_ne_nil _)
  have hread := Decimal.ofText_point (digitsOf_ne_nil _) hchars hne
  rw [hvalue, hlen] at hread
  rw [List.append_assoc]
  exact hread

theorem formatCost_value (h : formatCost value = some cost) : costValue cost = toMillionths value := by
  rw [formatCost] at h
  dsimp only at h
  split at h
  · cases h
  · next hnot =>
    have hround := abs_roundHalfEven_sub_le (value * 1000000)
    rw [toMillionths]
    generalize roundHalfEven (value * 1000000) = units at h hnot hround
    have hunits : 0 ≤ units := by
      by_contra hneg
      have hvalue : 0 ≤ value := not_lt.1 fun hneg => hnot (.inl hneg)
      have hle : (units : ℚ) ≤ -1 := by exact_mod_cast Int.le_sub_one_of_lt (not_le.1 hneg)
      linarith [(abs_le.1 hround).1]
    obtain ⟨n, rfl⟩ := Int.eq_ofNat_of_zero_le hunits
    have hcost : Decimal.ofText cost = some ⟨false, n, -6⟩ := by
      rw [← Option.some.inj h]
      exact ofText_millionths n
    rw [costValue, hcost, Int.cast_natCast]
    norm_num [Decimal.toRat]
    ring

theorem listPrice_zero (model : Option String) : listPrice model 0 0 = 0 := by
  rw [listPrice]
  split
  · rfl
  · simp

theorem listPrice_add (model : Option String) (p c p' c' : Int) :
    listPrice model (p + p') (c + c') = listPrice model p c + listPrice model p' c' := by
  rw [listPrice, listPrice, listPrice]
  split
  · exact (add_zero 0).symm
  · push_cast
    ring

theorem listPrice_unknown (p c : Int) : listPrice (some "unknown") p c = listPrice none p c := rfl

def AuditLog.listPrice (row : AuditLog) : ℚ :=
  AiServing.listPrice (row.model.map String.ofList) row.promptTokens row.completionTokens

/-- The row holds what `_schedule_audit_log` bills, in a column that keeps `numeric` of a cost. -/
structure AuditLog.Stores (numeric : ℚ → ℚ) (outcome : AuditedOutcome) (row : AuditLog) : Prop where
  model : row.model.map String.ofList = outcome.model
  promptTokens : row.promptTokens = outcome.promptTokens
  completionTokens : row.completionTokens = outcome.completionTokens
  costUsd : row.costUsd = numeric outcome.costUsd

/-- The row of a request, with counts that a column can hold. -/
structure AuditLog.Billed (numeric : ℚ → ℚ) (row : AuditLog) : Prop where
  written : ∃ model request statusCode,
    row.Stores numeric (scheduleAuditLog model request statusCode)
  prompt_lt : |row.promptTokens| < 2 ^ 63
  completion_lt : |row.completionTokens| < 2 ^ 63

section Reports

variable {numeric : ℚ → ℚ} {row : AuditLog} {rows : List AuditLog} {g : UsageGroup}
  {groups : List UsageGroup} {groupBy : GroupBy} {groupKey : Text} {collation : LinearOrder Text}
  {p : ApiKeyPrincipal} {context : CallContext} {db : Database}

theorem AuditLog.Billed.costUsd (h : row.Billed numeric) : row.costUsd = numeric row.listPrice := by
  obtain ⟨model, request, statusCode, hrow⟩ := h.written
  rw [hrow.costUsd, AuditLog.listPrice, ← calculateCost_exact _ h.prompt_lt h.completion_lt, hrow.model,
    hrow.promptTokens, hrow.completionTokens]
  rfl

/-- The cost of a group is off by half a digit for each of its rows, and for the print. -/
theorem GroupOf.cost_close (hnumeric : ∀ q, |numeric q - q| ≤ 1 / 2000000)
    (hbilled : ∀ row ∈ rows, row.Billed numeric) (hg : GroupOf groupBy rows groupKey g) :
    |costValue g.costUsd - ((usageMembers groupBy rows groupKey).map AuditLog.listPrice).sum| ≤
      (g.requestCount + 1) / 2000000 := by
  have hstored : |((usageMembers groupBy rows groupKey).map AuditLog.costUsd).sum -
      ((usageMembers groupBy rows groupKey).map AuditLog.listPrice).sum| ≤
      ((usageMembers groupBy rows groupKey).map fun _ => (1 / 2000000 : ℚ)).sum := by
    apply abs_sum_sub_le
    intro row hrow
    rw [(hbilled row (List.mem_of_mem_filter hrow)).costUsd]
    exact hnumeric _
  rw [List.map_const', List.sum_replicate, nsmul_eq_mul, ← hg.requestCount] at hstored
  have hprinted : |costValue g.costUsd - ((usageMembers groupBy rows groupKey).map AuditLog.costUsd).sum|
      ≤ 1 / 2000000 := by
    rw [formatCost_value hg.costUsd]
    exact abs_toMillionths_sub_le _
  apply (abs_sub_le _ _ _).trans ((add_le_add hprinted hstored).trans_eq _)
  ring

theorem listPrice_sum {model : Option String} {l : List AuditLog}
    (h : ∀ row ∈ l, row.listPrice = listPrice model row.promptTokens row.completionTokens) :
    (l.map AuditLog.listPrice).sum =
      listPrice model (l.map AuditLog.promptTokens).sum (l.map AuditLog.completionTokens).sum := by
  induction l with
  | nil => exact (listPrice_zero model).symm
  | cons row l ih =>
    rw [List.map_cons, List.map_cons, List.map_cons, List.sum_cons, List.sum_cons, List.sum_cons,
      listPrice_add, h row List.mem_cons_self, ih fun r hr => h r (List.mem_cons_of_mem _ hr)]

theorem GroupOf.listPrice_model (hg : GroupOf .model rows groupKey g) :
    ((usageMembers .model rows groupKey).map AuditLog.listPrice).sum =
      listPrice (some (String.ofList groupKey)) g.totalPromptTokens g.totalCompletionTokens := by
  rw [hg.promptTokens, hg.completionTokens]
  apply listPrice_sum
  intro row hrow
  have hkey : row.model.getD "unknown".toList = groupKey := of_decide_eq_true (List.mem_filter.1 hrow).2
  rw [AuditLog.listPrice, ← hkey]
  cases row.model with
  | none => exact (listPrice_unknown _ _).symm
  | some model => rfl

theorem sum_bounds (groups : List UsageGroup) :
    (groups.map fun g => ((g.requestCount : ℚ) + 1) / 2000000).sum =
      ((groups.map UsageGroup.requestCount).sum + groups.length) / 2000000 := by
  induction groups with
  | nil => simp
  | cons g groups ih =>
    rw [List.map_cons, List.map_cons, List.sum_cons, List.sum_cons, ih, List.length_cons]
    push_cast
    ring

theorem getUsage_groups {since until' : Option DateTime} {response : UsageResponse}
    (h : getUsage collation p context since until' groupBy db = .ok response) :
    ∃ scope, readScope p = .ok scope ∧ usageGroups collation groupBy (db.auditLogs.filter fun row =>
      row.selected scope (some response.window.since) (some response.window.until')) =
        .ok response.groups := by
  obtain ⟨_, _, h⟩ := bind_eq_ok.1 h
  obtain ⟨s, _, h⟩ := bind_eq_ok.1 h
  obtain ⟨u, _, h⟩ := bind_eq_ok.1 h
  split at h
  · cases h
  · obtain ⟨_, _, h⟩ := bind_eq_ok.1 h
    obtain ⟨scope, hscope, h⟩ := bind_eq_ok.1 h
    obtain ⟨_, _, h⟩ := bind_eq_ok.1 h
    obtain ⟨groups, hgroups, h⟩ := bind_eq_ok.1 h
    cases h
    exact ⟨scope, hscope, hgroups⟩

/-- What a report charges is the price of the tokens, but for half a millionth of a dollar for each
request and for each group; by model, of the tokens that the group shows. -/
theorem reported_costs_close {since until' : Option DateTime} {response : UsageResponse}
    (hnumeric : ∀ q, |numeric q - q| ≤ 1 / 2000000)
    (hbilled : ∀ row ∈ db.auditLogs, row.Billed numeric)
    (h : getUsage collation p context since until' groupBy db = .ok response) :
    ∃ scope, readScope p = .ok scope ∧
      let rows := db.auditLogs.filter fun row =>
        row.selected scope (some response.window.since) (some response.window.until')
      |(response.groups.map fun g => costValue g.costUsd).sum - (rows.map AuditLog.listPrice).sum| ≤
        (rows.length + response.groups.length) / 2000000 ∧
      ∀ g ∈ response.groups,
        |costValue g.costUsd -
          ((usageMembers groupBy rows g.groupKey).map AuditLog.listPrice).sum| ≤
            (g.requestCount + 1) / 2000000 ∧
        (groupBy = .model →
          |costValue g.costUsd - listPrice (some (String.ofList g.groupKey)) g.totalPromptTokens
            g.totalCompletionTokens| ≤ (g.requestCount + 1) / 2000000) := by
  obtain ⟨scope, hscope, hok⟩ := getUsage_groups h
  refine ⟨scope, hscope, ?_⟩
  generalize hrows : (db.auditLogs.filter fun row =>
    row.selected scope (some response.window.since) (some response.window.until')) = rows at hok
  have hrowsBilled : ∀ row ∈ rows, row.Billed numeric := by
    intro row hrow
    rw [← hrows] at hrow
    exact hbilled row (List.mem_of_mem_filter hrow)
  have hgroups := usageGroups_eq_ok.1 hok
  have hgroup : ∀ g ∈ response.groups, GroupOf groupBy rows g.groupKey g :=
    fun g hg => (groupOf_of_mem hgroups hg).2
  have hclose : ∀ g ∈ response.groups, |costValue g.costUsd -
      ((usageMembers groupBy rows g.groupKey).map AuditLog.listPrice).sum| ≤
        ((g.requestCount : ℚ) + 1) / 2000000 :=
    fun g hg => (hgroup g hg).cost_close hnumeric hrowsBilled
  refine ⟨?_, fun g hg => ⟨hclose g hg, fun hmodel => ?_⟩⟩
  · have hprices : (response.groups.map fun g =>
        ((usageMembers groupBy rows g.groupKey).map AuditLog.listPrice).sum).sum =
          (rows.map AuditLog.listPrice).sum :=
      sum_groups hgroups fun groupKey g hg => by rw [hg.groupKey_eq]
    have hcount : (response.groups.map UsageGroup.requestCount).sum = rows.length :=
      congrArg UsageTotals.requestCount (totals_of_groups hgroups)
    have hsum := abs_sum_sub_le hclose
    rw [hprices, sum_bounds, hcount] at hsum
    exact hsum
  · subst hmodel
    rw [← (hgroup g hg).listPrice_model]
    exact hclose g hg

/-- A request whose cost has a digit too many. -/
def billedRow : AuditLog :=
  { sampleRow ['1'] 0 with
    model := some "gpt-4o-mini".toList, promptTokens := 7, completionTokens := 3, totalTokens := 10,
    costUsd := 3 / 1000000 }

theorem billedRow_billed : billedRow.Billed toMillionths where
  written := by
    refine ⟨some "gpt-4o-mini", { tokenUsage := some ⟨7, 3, 10⟩ }, 200, by decide, rfl, rfl, ?_⟩
    show (3 / 1000000 : ℚ) = toMillionths (calculateCost (some "gpt-4o-mini") 7 3)
    rw [calculateCost_exact _ (by decide) (by decide)]
    decide +kernel
  prompt_lt := by decide
  completion_lt := by decide

theorem reported_costs_close_digit : ∃ response,
    getUsage List.instLinearOrder sampleReader { now := ⟨0, some 0⟩ } (some ⟨0, some 0⟩)
      (some ⟨1000000, some 0⟩) .model (sampleAuditDb [billedRow]) = .ok response ∧
      ∀ g ∈ response.groups, |costValue g.costUsd - listPrice (some (String.ofList g.groupKey))
        g.totalPromptTokens g.totalCompletionTokens| ≤ (g.requestCount + 1) / 2000000 := by
  have hmade : (getUsage List.instLinearOrder sampleReader { now := ⟨0, some 0⟩ } (some ⟨0, some 0⟩)
      (some ⟨1000000, some 0⟩) .model (sampleAuditDb [billedRow])).toBool = true := by decide +kernel
  cases hreport : getUsage List.instLinearOrder sampleReader { now := ⟨0, some 0⟩ } (some ⟨0, some 0⟩)
      (some ⟨1000000, some 0⟩) .model (sampleAuditDb [billedRow]) with
  | error e =>
    rw [hreport] at hmade
    cases hmade
  | ok response =>
    have hbilled : ∀ row ∈ (sampleAuditDb [billedRow]).auditLogs, row.Billed toMillionths := by
      intro row hrow
      obtain rfl := List.mem_singleton.1 hrow
      exact billedRow_billed
    obtain ⟨_, _, _, hclose⟩ := reported_costs_close abs_toMillionths_sub_le hbilled hreport
    exact ⟨response, rfl, fun g hg => (hclose g hg).2 rfl⟩

end Reports

end AiServing
