import AiServing.RateLimitFills

namespace AiServing
open TokenBucket
set_option autoImplicit true

section Statements

variable (call : σ → RateLimitCall → σ × RateLimitResult)

/-- No allow call on `key` is granted in a run. -/
def NoneGranted (key : String) : σ → List RateLimitCall → Prop
  | _, [] => True
  | s, c :: cs =>
    (c.method = .allow → c.key = key → (call s c).2.allowed = false) ∧
      NoneGranted key (call s c).1 cs

/-- Behind the calls `before`, an allow call on `key` at `t` is denied. -/
structure Denied (init : σ) (before : List RateLimitCall) (key : String) (t : ℚ) : Prop where
  inOrder : InOrder (before ++ [⟨.allow, key, t⟩])
  denied : (call (afterCalls call init before) ⟨.allow, key, t⟩).2.allowed = false

/-- What `enforce_rate_limit` answers to that call. -/
def answered (init : σ) (before : List RateLimitCall) (key : String) (t : ℚ) : Option Int :=
  enforceRateLimit (call (afterCalls call init before) ⟨.allow, key, t⟩).2

def afterDenial (init : σ) (before : List RateLimitCall) (key : String) (t : ℚ) : σ :=
  (call (afterCalls call init before) ⟨.allow, key, t⟩).1

/-- The calls `between` follow an allow call at `t`, and then comes one at `t'`. -/
def Follows (key : String) (t : ℚ) (between : List RateLimitCall) (t' : ℚ) : Prop :=
  InOrder (⟨.allow, key, t⟩ :: (between ++ [⟨.allow, key, t'⟩]))

/-- A denied caller is told a time, and gets through when it has waited that long. -/
def RetrySuffices (init : σ) : Prop :=
  ∀ before key t, Denied call init before key t →
    ∃ h, answered call init before key t = some h ∧
      ∀ between t', Follows key t between t' →
        NoneGranted call key (afterDenial call init before key t) between → t + h ≤ t' →
        (call (afterCalls call (afterDenial call init before key t) between)
          ⟨.allow, key, t'⟩).2.allowed = true

/-- A denied caller that comes a second before the time it was told does not get through. -/
def RetryTight (init : σ) : Prop :=
  ∀ before key t, Denied call init before key t →
    ∃ h, answered call init before key t = some h ∧
      (2 ≤ h → ∀ between t', Follows key t between t' → t' ≤ t + (h - 1) →
        (call (afterCalls call (afterDenial call init before key t) between)
          ⟨.allow, key, t'⟩).2.allowed = false)

end Statements

variable {b : Bucket ℚ} {lifetime : Option ℚ} {answer : ℚ → RateLimitResult}
  {call : σ → RateLimitCall → σ × RateLimitResult} {fill : σ → String → ℚ → ℚ}
  {s : σ} {now t u x : ℚ} {key : String} {calls : List RateLimitCall} {c : RateLimitCall}

/-- Since `t` nothing was taken from the bucket of `key`, which then held `x`. -/
def Untouched (b : Bucket ℚ) (lifetime : Option ℚ) (fill : σ → String → ℚ → ℚ) (key : String)
    (t x now : ℚ) (s : σ) : Prop :=
  ∀ u, now ≤ u → b.refill x (u - t) ≤ fill s key u ∧
    ((∀ life ∈ lifetime, u < t + life) → fill s key u = b.refill x (u - t))

theorem Untouched.preview (hf : Fills b lifetime answer call fill)
    (h : Untouched b lifetime fill key t x now s) (hnow : now ≤ u) (k : String) :
    Untouched b lifetime fill key t x u (call s ⟨.preview, k, u⟩).1 := by
  intro v hv
  rw [hf.preview s k u key v hv]
  exact h v (hnow.trans hv)

theorem Untouched.other (hf : Fills b lifetime answer call fill)
    (h : Untouched b lifetime fill key t x now s) (hnow : now ≤ u) {k : String} (hk : k ≠ key) :
    Untouched b lifetime fill key t x u (call s ⟨.allow, k, u⟩).1 := by
  intro v hv
  rw [hf.allow_other s k u key v (Ne.symm hk) hv]
  exact h v (hnow.trans hv)

theorem take_of_lt (h : x < 1) : (take x).1 = x := by
  rw [take, if_neg (not_le.2 h)]

theorem refill_mono {y : ℚ} (h : x ≤ y) (elapsed : ℚ) : b.refill x elapsed ≤ b.refill y elapsed := by
  apply min_le_min_left
  apply add_le_add_left h

theorem fill_refused (hf : Fills b lifetime answer call fill) (hlow : fill s key u < 1)
    {v : ℚ} (hv : u ≤ v) : fill (call s ⟨.allow, key, u⟩).1 key v =
      if lifetime.any fun life => u + life ≤ v then b.capacity
      else b.refill (fill s key u) (v - u) := by
  rw [hf.allow_same s key u v hv, take_of_lt hlow]

theorem Untouched.refused (hf : Fills b lifetime answer call fill) (hrate : 0 ≤ b.rate)
    (h : Untouched b lifetime fill key t x now s) (ht : t ≤ now) (hnow : now ≤ u)
    (hlow : fill s key u < 1) :
    Untouched b lifetime fill key t x u (call s ⟨.allow, key, u⟩).1 := by
  intro v hv
  obtain ⟨hle, heq⟩ := h u hnow
  have hpast : b.refill (b.refill x (u - t)) (v - u) = b.refill x (v - t) := by
    rw [b.refill_refill hrate (sub_nonneg.2 hv)]
    congr 1
    ring
  rw [fill_refused hf hlow hv]
  constructor
  · split
    · exact b.refill_le_capacity _ _
    · rw [← hpast]
      exact refill_mono hle _
  · intro hlife
    have hfresh : (lifetime.any fun life => decide (u + life ≤ v)) = false := by
      rw [Option.any_eq_false]
      intro life hmem
      have hlt := hlife life hmem
      rw [decide_eq_false_iff_not]
      linarith
    have hcurrent : fill s key u = b.refill x (u - t) := by
      apply heq
      intro life hmem
      exact hv.trans_lt (hlife life hmem)
    rw [hfresh, if_neg Bool.false_ne_true, hcurrent, hpast]

theorem Untouched.step (hf : Fills b lifetime answer call fill) (hrate : 0 ≤ b.rate)
    (h : Untouched b lifetime fill key t x now s) (ht : t ≤ now) (hnow : now ≤ c.now)
    (hlow : c.method = .allow → c.key = key → fill s key c.now < 1) :
    Untouched b lifetime fill key t x c.now (call s c).1 := by
  obtain ⟨method, k, u⟩ := c
  cases method with
  | preview => exact h.preview hf hnow k
  | allow =>
    by_cases hk : k = key
    · subst hk
      exact h.refused hf hrate ht hnow (hlow rfl rfl)
    · exact h.other hf hnow hk

theorem allowed_iff (hf : Fills b lifetime answer call fill) (s : σ) (key : String) (u : ℚ) :
    (call s ⟨.allow, key, u⟩).2.allowed = decide (1 ≤ fill s key u) := by
  rw [hf.allowed, hf.answer_allowed]

theorem lt_one_of_refused (hf : Fills b lifetime answer call fill)
    (h : (call s ⟨.allow, key, u⟩).2.allowed = false) : fill s key u < 1 := by
  rw [allowed_iff hf, decide_eq_false_iff_not] at h
  exact not_le.1 h

/-- What holds at a time of the clock and moves on with it holds behind a run. -/
theorem afterCalls_induction {I : ℚ → σ → Prop} {P : σ → List RateLimitCall → Prop}
    (hstep : ∀ {now s c cs}, I now s → P s (c :: cs) → now ≤ c.now → c.now ≤ u →
      I c.now (call s c).1 ∧ P (call s c).1 cs)
    (hlater : ∀ {now s}, I now s → now ≤ u → I u s) (hs : I now s) (hp : P s calls) (hu : now ≤ u)
    (hnow : ∀ c ∈ calls, now ≤ c.now) (hlast : ∀ c ∈ calls, c.now ≤ u) (hcalls : InOrder calls) :
    I u (afterCalls call s calls) := by
  induction calls generalizing now s with
  | nil => exact hlater hs hu
  | cons c cs ih =>
    obtain ⟨hc, hcs⟩ := List.pairwise_cons.1 hcalls
    have hend := hlast c List.mem_cons_self
    obtain ⟨hs', hp'⟩ := hstep hs hp (hnow c List.mem_cons_self) hend
    exact ih hs' hp' hend hc (fun d hd => hlast d (List.mem_cons_of_mem c hd)) hcs

theorem Untouched.later (h : Untouched b lifetime fill key t x now s) (hu : now ≤ u) :
    Untouched b lifetime fill key t x u s := by
  intro v hv
  exact h v (hu.trans hv)

theorem Untouched.noneGranted (hf : Fills b lifetime answer call fill) (hrate : 0 ≤ b.rate)
    (h : Untouched b lifetime fill key t x now s) (ht : t ≤ now) (hu : now ≤ u)
    (hnow : ∀ c ∈ calls, now ≤ c.now) (hlast : ∀ c ∈ calls, c.now ≤ u) (hcalls : InOrder calls)
    (hnone : NoneGranted call key s calls) :
    Untouched b lifetime fill key t x u (afterCalls call s calls) := by
  suffices hrun : t ≤ u ∧ Untouched b lifetime fill key t x u (afterCalls call s calls) from hrun.2
  apply afterCalls_induction (u := u)
    (I := fun now s => t ≤ now ∧ Untouched b lifetime fill key t x now s)
    (P := NoneGranted call key) ?_ (fun hs hu => ⟨hs.1.trans hu, hs.2.later hu⟩) ⟨ht, h⟩ hnone hu
    hnow hlast hcalls
  · intro now s c cs ⟨ht, hs⟩ ⟨hhead, hrest⟩ hle _
    refine ⟨⟨ht.trans hle, hs.step hf hrate ht hle ?_⟩, hrest⟩
    intro hmethod hkey
    have hrefused := hhead hmethod hkey
    subst hkey
    obtain ⟨method, k, now'⟩ := c
    cases hmethod
    exact lt_one_of_refused hf hrefused

/-- Every call before the fill is back at one is refused, so that it stays untouched. -/
theorem Untouched.early (hf : Fills b lifetime answer call fill) (hrate : 0 ≤ b.rate)
    (h : Untouched b lifetime fill key t x now s) (ht : t ≤ now) (hu : now ≤ u)
    (hnow : ∀ c ∈ calls, now ≤ c.now) (hlast : ∀ c ∈ calls, c.now ≤ u) (hcalls : InOrder calls)
    (hlife : ∀ life ∈ lifetime, u < t + life) (hlow : ∀ v ≤ u, b.refill x (v - t) < 1) :
    Untouched b lifetime fill key t x u (afterCalls call s calls) := by
  suffices hrun : t ≤ u ∧ Untouched b lifetime fill key t x u (afterCalls call s calls) from hrun.2
  apply afterCalls_induction (u := u)
    (I := fun now s => t ≤ now ∧ Untouched b lifetime fill key t x now s)
    (P := fun _ _ => True) ?_ (fun hs hu => ⟨hs.1.trans hu, hs.2.later hu⟩) ⟨ht, h⟩ trivial hu
    hnow hlast hcalls
  · intro now s c cs ⟨ht, hs⟩ _ hle hearly
    refine ⟨⟨ht.trans hle, hs.step hf hrate ht hle ?_⟩, trivial⟩
    intro _ _
    rw [(hs c.now hle).2 fun life hmem => hearly.trans_lt (hlife life hmem)]
    exact hlow c.now hearly

theorem untouched_of_refused (hf : Fills b lifetime answer call fill)
    (hlow : fill s key t < 1) :
    Untouched b lifetime fill key t (fill s key t) t (call s ⟨.allow, key, t⟩).1 := by
  intro u hu
  rw [fill_refused hf hlow hu]
  constructor
  · split
    · exact b.refill_le_capacity _ _
    · exact le_refl _
  · intro hlife
    apply if_neg
    rw [Bool.not_eq_true, Option.any_eq_false]
    intro life hmem
    rw [decide_eq_false_iff_not]
    exact not_le.2 (hlife life hmem)

/-- No fill is below nothing, now or later. -/
def FillsNonneg (fill : σ → String → ℚ → ℚ) (now : ℚ) (s : σ) : Prop :=
  ∀ key u, now ≤ u → 0 ≤ fill s key u

theorem FillsNonneg.step (hf : Fills b lifetime answer call fill) (hcap : 0 ≤ b.capacity)
    (hrate : 0 ≤ b.rate) (h : FillsNonneg fill now s) (hnow : now ≤ c.now) :
    FillsNonneg fill c.now (call s c).1 := by
  intro k u hu
  obtain ⟨method, key, t⟩ := c
  cases method with
  | preview =>
    rw [hf.preview s key t k u hu]
    exact h k u (hnow.trans hu)
  | allow =>
    by_cases hk : k = key
    · subst hk
      rw [hf.allow_same s k t u hu]
      split
      · exact hcap
      · apply Bucket.refill_nonneg hcap hrate
        · exact take_fst_nonneg (h k t hnow)
        · exact sub_nonneg.2 hu
    · rw [hf.allow_other s key t k u hk hu]
      exact h k u (hnow.trans hu)

theorem FillsNonneg.after (hf : Fills b lifetime answer call fill) (hcap : 0 ≤ b.capacity)
    (hrate : 0 ≤ b.rate) (h : FillsNonneg fill now s) (hnow : ∀ c ∈ calls, now ≤ c.now)
    (hu : now ≤ u) (hlast : ∀ c ∈ calls, c.now ≤ u) (hcalls : InOrder calls) :
    FillsNonneg fill u (afterCalls call s calls) := by
  apply afterCalls_induction (u := u) (I := FillsNonneg fill) (P := fun _ _ => True) ?_ ?_ h trivial
    hu hnow hlast hcalls
  · intro now s c cs hs _ hle _
    exact ⟨hs.step hf hcap hrate hle, trivial⟩
  · intro now s hs hu k v hv
    exact hs k v (hu.trans hv)

/-- The header is the time in which a low fill comes back to one, in whole seconds. -/
def Tells (b : Bucket ℚ) (answer : ℚ → RateLimitResult) : Prop :=
  ∀ x < 1, (answer x).retryAfter = max 1 ⌈(1 - x) / b.rate⌉

variable {init : σ} {before between : List RateLimitCall} {t' : ℚ}

theorem Denied.answered (hf : Fills b lifetime answer call fill) (htells : Tells b answer)
    (hdenied : Denied call init before key t) :
    fill (afterCalls call init before) key t < 1 ∧ AiServing.answered call init before key t =
      some (max 1 ⌈(1 - fill (afterCalls call init before) key t) / b.rate⌉) := by
  have hlow := lt_one_of_refused hf hdenied.denied
  refine ⟨hlow, ?_⟩
  rw [AiServing.answered, enforceRateLimit, hdenied.denied, if_neg Bool.false_ne_true, hf.allowed,
    htells _ hlow]

theorem Follows.ordered (h : Follows key t between t') :
    InOrder between ∧ t ≤ t' ∧ (∀ c ∈ between, t ≤ c.now) ∧ ∀ c ∈ between, c.now ≤ t' := by
  obtain ⟨hfirst, hrest⟩ := List.pairwise_cons.1 h
  obtain ⟨hbetween, _, hlast⟩ := List.pairwise_append.1 hrest
  have hle := hfirst _ (List.mem_append_right between List.mem_cons_self)
  exact ⟨hbetween, hle, fun c hc => hfirst c (List.mem_append_left _ hc),
    fun c hc => hlast c hc _ List.mem_cons_self⟩

theorem Fills.retrySuffices (hf : Fills b lifetime answer call fill) (htells : Tells b answer)
    (hcap : 1 ≤ b.capacity) (hrate : 0 < b.rate) (init : σ) : RetrySuffices call init := by
  intro before key t hdenied
  obtain ⟨hlow, hheader⟩ := hdenied.answered hf htells
  refine ⟨_, hheader, ?_⟩
  intro between t' hfollows hnone hwait
  obtain ⟨hbetween, hle, hfirst, hlast⟩ := hfollows.ordered
  have huntouched := (untouched_of_refused hf hlow).noneGranted hf hrate.le (le_refl t) hle hfirst
    hlast hbetween hnone
  have hfill := (huntouched t' (le_refl t')).1
  rw [allowed_iff hf, decide_eq_true_eq]
  apply le_trans _ hfill
  apply le_min hcap
  have hneed : (1 - fill (afterCalls call init before) key t) / b.rate ≤ t' - t := by
    have hceil := Int.le_ceil ((1 - fill (afterCalls call init before) key t) / b.rate)
    have hmax : ((⌈(1 - fill (afterCalls call init before) key t) / b.rate⌉ : Int) : ℚ) ≤
        ((max 1 ⌈(1 - fill (afterCalls call init before) key t) / b.rate⌉ : Int) : ℚ) :=
      Int.cast_le.2 (le_max_right _ _)
    linarith
  rw [div_le_iff₀ hrate] at hneed
  linarith

theorem refill_lt_one (hrate : 0 < b.rate) {h : Int} {v : ℚ} (hheader : h = max 1 ⌈(1 - x) / b.rate⌉)
    (hh : 2 ≤ h) (hv : v ≤ h - 1) : v < (1 - x) / b.rate ∧ b.refill x v < 1 := by
  have hceil : h - 1 < ⌈(1 - x) / b.rate⌉ := by omega
  have hneed : ((h - 1 : Int) : ℚ) < (1 - x) / b.rate := Int.lt_ceil.1 hceil
  rw [Int.cast_sub, Int.cast_one] at hneed
  have hlt := hv.trans_lt hneed
  refine ⟨hlt, ?_⟩
  apply (b.refill_le x v).trans_lt
  rw [lt_div_iff₀ hrate] at hlt
  linarith

theorem Fills.retryTight (hf : Fills b lifetime answer call fill) (htells : Tells b answer)
    (hcap : 0 ≤ b.capacity) (hrate : 0 < b.rate) (hlife : ∀ life ∈ lifetime, 1 / b.rate ≤ life)
    {init : σ} (hinit : ∀ now, FillsNonneg fill now init) : RetryTight call init := by
  intro before key t hdenied
  obtain ⟨hlow, hheader⟩ := hdenied.answered hf htells
  refine ⟨_, hheader, ?_⟩
  intro hh between t' hfollows hearly
  obtain ⟨hbetween, hle, hfirst, hlast⟩ := hfollows.ordered
  have hx : 0 ≤ fill (afterCalls call init before) key t := by
    obtain ⟨hbefore, _, hcross⟩ := List.pairwise_append.1 hdenied.inOrder
    obtain ⟨now, hnow⟩ := exists_reading_le hdenied.inOrder
    apply (hinit now).after hf hcap hrate.le (fun c hc => hnow c (List.mem_append_left _ hc))
      (hnow ⟨.allow, key, t⟩ (List.mem_append_right _ List.mem_cons_self))
      (fun c hc => hcross c hc _ List.mem_cons_self) hbefore
    exact le_refl t
  have hshort (v : ℚ) (hv : v ≤ t') :=
    refill_lt_one (v := v - t) hrate rfl hh (by linarith)
  have hfresh : ∀ life ∈ lifetime, t' < t + life := by
    intro life hmem
    have hneed : (1 - fill (afterCalls call init before) key t) / b.rate ≤ 1 / b.rate := by
      gcongr
      linarith
    have hlt := (hshort t' (le_refl t')).1
    have hlong := hlife life hmem
    linarith
  have huntouched := (untouched_of_refused hf hlow).early hf hrate.le (le_refl t) hle hfirst hlast
    hbetween hfresh fun v hv => (hshort v hv).2
  rw [allowed_iff hf, decide_eq_false_iff_not, afterDenial, (huntouched t' (le_refl t')).2 hfresh]
  exact not_le.2 (hshort t' (le_refl t')).2

theorem InMemoryRateLimit.tells (r : InMemoryRateLimit) : Tells r.bucket r.resultForFill := by
  intro x hx
  rw [RateLimitResult.retryAfter, resultForFill, if_neg (not_le.2 hx), Int.ceil_mono.map_max,
    Int.ceil_one, max_comm _ 1, ← max_assoc, max_self]
  rfl

theorem RedisTokenBucketRateLimit.tells (r : RedisTokenBucketRateLimit) :
    Tells r.bucket r.resultForFill := by
  intro x hx
  rw [RateLimitResult.retryAfter, resultForFill, if_neg (not_le.2 hx), ← retryAfter_clamp,
    Int.ceil_mono.map_max, Int.ceil_one, max_comm _ 1, ← max_assoc, max_self]
  rfl

theorem memoryBackend_bucket (hn : 1 ≤ n) :
    (memoryBackend n).bucket = ⟨(n : ℚ), (n : ℚ) / 60⟩ := by
  have hcap : (memoryBackend n).capacity = n := by
    rw [InMemoryRateLimit.capacity, memoryBackend, max_eq_left (Int.le_trans Int.one_nonneg hn)]
  have hpos : (0 : ℚ) < n := by exact_mod_cast hn
  rw [InMemoryRateLimit.bucket, InMemoryRateLimit.refillPerSecond, hcap, if_pos hpos]

theorem redis_default_bucket {r : RedisTokenBucketRateLimit} (hn : 1 ≤ r.requestsPerMinute)
    (hrefill : r.refill = none) :
    r.bucket = ⟨(r.requestsPerMinute : ℚ), (r.requestsPerMinute : ℚ) / 60⟩ := by
  have hcap : r.capacity = r.requestsPerMinute := by
    rw [RedisTokenBucketRateLimit.capacity, max_eq_left (Int.le_trans Int.one_nonneg hn)]
  have hpos : (0 : ℚ) < r.requestsPerMinute := by exact_mod_cast hn
  rw [RedisTokenBucketRateLimit.bucket, RedisTokenBucketRateLimit.refillPerSecond, hrefill, hcap]
  dsimp only
  rw [if_pos hpos]

theorem memory_empty_nonneg (n : Int) (now : ℚ) :
    FillsNonneg (memoryBackend n).fill now .empty := by
  intro key u _
  exact (memoryBackend n).capacity_nonneg

theorem redis_empty_nonneg (r : RedisTokenBucketRateLimit) (now : ℚ) :
    FillsNonneg r.fill now .empty := by
  intro key u _
  have hfull : r.fill .empty key u = r.bucket.refill r.capacity (max (u - u) 0) := rfl
  rw [hfull, sub_self, max_self, Bucket.refill, zero_mul, add_zero]
  exact le_min r.capacity_nonneg r.capacity_nonneg

/-- For Redis with its default rate, under any prefix; a key that expires within the minute would be
full too early. -/
theorem retry_after_exact (n : Int) (hn : 1 ≤ n) :
    (RetrySuffices (memoryBackend n).call .empty ∧ RetryTight (memoryBackend n).call .empty) ∧
      ∀ r : RedisTokenBucketRateLimit, r.requestsPerMinute = n → r.refill = none →
        RetrySuffices r.call .empty ∧ (60 ≤ r.ttlSeconds → RetryTight r.call .empty) := by
  have hcap : (1 : ℚ) ≤ n := by exact_mod_cast hn
  have hrate : (0 : ℚ) < n / 60 := by positivity
  have hminute : 1 / ((n : ℚ) / 60) ≤ 60 := by
    rw [div_le_iff₀ hrate]
    linarith
  have hmemory := InMemoryRateLimit.fills (r := memoryBackend n) hn
  have htells := (memoryBackend n).tells
  rw [memoryBackend_bucket hn] at hmemory htells
  refine ⟨⟨hmemory.retrySuffices htells hcap hrate _, ?_⟩, ?_⟩
  · apply hmemory.retryTight htells (zero_le_one.trans hcap) hrate
    · intro life hmem
      cases hmem
    · exact memory_empty_nonneg n
  · rintro r rfl hrefill
    have hredis := RedisTokenBucketRateLimit.fills hn
    have htells := r.tells
    rw [redis_default_bucket hn hrefill] at hredis htells
    refine ⟨hredis.retrySuffices htells hcap hrate _, ?_⟩
    intro httl
    apply hredis.retryTight htells (zero_le_one.trans hcap) hrate
    · intro life hmem
      obtain rfl := Option.some.inj hmem
      exact hminute.trans (by exact_mod_cast httl)
    · exact redis_empty_nonneg r

/-- At one request a minute, a caller denied after 15 seconds is told 45: another denied call does not
defer it, and at 59 seconds it is still too early. -/
theorem retry_after_exact_minute :
    let call := (redisBackend 1 "rl:").call
    let denial := afterDenial call .empty [⟨.allow, "k", 0⟩] "k" 15
    answered call .empty [⟨.allow, "k", 0⟩] "k" 15 = some 45 ∧
      (call (afterCalls call denial [⟨.allow, "k", 30⟩, ⟨.preview, "k", 30⟩]) ⟨.allow, "k", 60⟩).2.allowed
        = true ∧
      (call (afterCalls call denial [⟨.allow, "k", 30⟩]) ⟨.allow, "k", 59⟩).2.allowed = false := by
  intro call denial
  obtain ⟨hsuffices, htight⟩ := (retry_after_exact 1 (le_refl 1)).2 (redisBackend 1 "rl:") rfl rfl
  have hdenied : Denied call .empty [⟨.allow, "k", 0⟩] "k" 15 := by
    refine ⟨?_, by decide +kernel⟩
    exact .cons (by simp) (List.pairwise_singleton _ _)
  have htold : answered call .empty [⟨.allow, "k", 0⟩] "k" 15 = some 45 := by decide +kernel
  obtain ⟨h, hanswer, hwait⟩ := hsuffices _ _ _ hdenied
  obtain ⟨h', hanswer', hearly⟩ := htight (by decide) _ _ _ hdenied
  obtain rfl := Option.some.inj (htold.symm.trans hanswer)
  obtain rfl := Option.some.inj (htold.symm.trans hanswer')
  refine ⟨htold, hwait _ _ ?_ ?_ (by norm_num), hearly (by decide) _ _ ?_ (by norm_num)⟩
  · simp [Follows, InOrder]
    norm_num
  · refine ⟨fun _ _ => by decide +kernel, ?_, trivial⟩
    intro hmethod
    cases hmethod
  · simp [Follows, InOrder]
    norm_num

end AiServing
