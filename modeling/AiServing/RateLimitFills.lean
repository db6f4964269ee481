import AiServing.RateLimitBackends

namespace AiServing
open Dictionary TokenBucket
set_option autoImplicit true

section Calls

variable (call : σ → RateLimitCall → σ × RateLimitResult)

def afterCalls (s : σ) (calls : List RateLimitCall) : σ := calls.foldl (fun s c => (call s c).1) s

/-- What the allow calls of a run are answered. -/
def allowResults : σ → List RateLimitCall → List RateLimitResult
  | _, [] => []
  | s, c :: cs =>
    if c.method = .allow then (call s c).2 :: allowResults (call s c).1 cs
    else allowResults (call s c).1 cs

end Calls

def RateLimitCall.isAllow (c : RateLimitCall) : Bool := c.method = .allow

/-- The calls in the order of their clock readings. -/
def InOrder (calls : List RateLimitCall) : Prop := calls.Pairwise fun c d => c.now ≤ d.now

/-- A limiter seen through the fill that each key has at each later time. A key that is left alone
for its `lifetime` counts as full. -/
structure Fills (b : Bucket ℚ) (lifetime : Option ℚ) (answer : ℚ → RateLimitResult)
    (call : σ → RateLimitCall → σ × RateLimitResult) (fill : σ → String → ℚ → ℚ) : Prop where
  preview : ∀ s key now k u, now ≤ u → fill (call s ⟨.preview, key, now⟩).1 k u = fill s k u
  previewed : ∀ s key now,
    (call s ⟨.preview, key, now⟩).2.allowed = decide (1 ≤ fill s key now)
  allowed : ∀ s key now, (call s ⟨.allow, key, now⟩).2 = answer (fill s key now)
  allow_same : ∀ s key now u, now ≤ u → fill (call s ⟨.allow, key, now⟩).1 key u =
    if lifetime.any fun life => now + life ≤ u then b.capacity
    else b.refill (take (fill s key now)).1 (u - now)
  allow_other : ∀ s key now k u, k ≠ key → now ≤ u →
    fill (call s ⟨.allow, key, now⟩).1 k u = fill s k u
  answer_allowed : ∀ x, (answer x).allowed = decide (1 ≤ x)

section Fills

variable {b : Bucket ℚ} {lifetime : Option ℚ} {answer : ℚ → RateLimitResult}
  {call : σ → RateLimitCall → σ × RateLimitResult} {fill : σ → String → ℚ → ℚ}
  {s s' : σ} {now t : ℚ} {calls kept : List RateLimitCall}

/-- Two states that no later call can tell apart. -/
def SameFills (fill : σ → String → ℚ → ℚ) (now : ℚ) (s s' : σ) : Prop :=
  ∀ key u, now ≤ u → fill s key u = fill s' key u

theorem SameFills.preview (hf : Fills b lifetime answer call fill) (h : SameFills fill now s s')
    (hnow : now ≤ t) (key : String) : SameFills fill t (call s ⟨.preview, key, t⟩).1 s' := by
  intro k u hu
  rw [hf.preview s key t k u hu]
  exact h k u (hnow.trans hu)

theorem SameFills.allow (hf : Fills b lifetime answer call fill) (h : SameFills fill now s s')
    (hnow : now ≤ t) (key : String) :
    SameFills fill t (call s ⟨.allow, key, t⟩).1 (call s' ⟨.allow, key, t⟩).1 := by
  intro k u hu
  by_cases hk : k = key
  · subst hk
    rw [hf.allow_same s k t u hu, hf.allow_same s' k t u hu, h k t hnow]
  · rw [hf.allow_other s key t k u hk hu, hf.allow_other s' key t k u hk hu]
    exact h k u (hnow.trans hu)

theorem allowResults_filter (hf : Fills b lifetime answer call fill) (h : SameFills fill now s s')
    (hnow : ∀ c ∈ calls, now ≤ c.now) (hcalls : InOrder calls) :
    allowResults call s calls = allowResults call s' (calls.filter RateLimitCall.isAllow) := by
  induction calls generalizing now s s' with
  | nil => rfl
  | cons c cs ih =>
    obtain ⟨hc, hcs⟩ := List.pairwise_cons.1 hcalls
    have hle := hnow c List.mem_cons_self
    obtain ⟨method, key, t⟩ := c
    cases method with
    | allow =>
      have hsame := h.allow hf hle key
      have hanswer : (call s ⟨.allow, key, t⟩).2 = (call s' ⟨.allow, key, t⟩).2 := by
        rw [hf.allowed, hf.allowed, h key t hle]
      have hrest := ih hsame hc hcs
      rw [List.filter_cons_of_pos rfl, allowResults, allowResults, if_pos rfl, if_pos rfl, hanswer,
        hrest]
    | preview =>
      have hsame := h.preview hf hle key
      have hrest := ih hsame hc hcs
      rw [List.filter_cons_of_neg Bool.false_ne_true, allowResults, if_neg nofun]
      exact hrest

/-- No call notices which of the previews before it were made, and a preview answers for an allow
call in its place. -/
structure PreviewInvisible (call : σ → RateLimitCall → σ × RateLimitResult) (init : σ) : Prop where
  deletable : ∀ calls kept, InOrder calls → kept.Sublist calls →
    kept.filter RateLimitCall.isAllow = calls.filter RateLimitCall.isAllow →
    allowResults call init kept = allowResults call init calls
  truthful : ∀ before key t, InOrder (before ++ [⟨.preview, key, t⟩]) →
    (call (afterCalls call init before) ⟨.preview, key, t⟩).2.allowed =
      (call (afterCalls call init before) ⟨.allow, key, t⟩).2.allowed

theorem Fills.previewInvisible (hf : Fills b lifetime answer call fill) (init : σ) :
    PreviewInvisible call init where
  deletable := by
    intro calls kept hcalls hsub hallow
    obtain ⟨now, hnow⟩ := exists_reading_le hcalls
    have hself : SameFills fill now init init := fun _ _ _ => rfl
    have hnow' : ∀ c ∈ kept, now ≤ c.now := fun c hc => hnow c (hsub.subset hc)
    calc allowResults call init kept
        = allowResults call init (kept.filter RateLimitCall.isAllow) :=
          allowResults_filter hf hself hnow' (hcalls.sublist hsub)
      _ = allowResults call init (calls.filter RateLimitCall.isAllow) := by rw [hallow]
      _ = allowResults call init calls := (allowResults_filter hf hself hnow hcalls).symm
  truthful := by
    intro before key t _
    rw [hf.previewed, hf.allowed, hf.answer_allowed]

end Fills

namespace InMemoryRateLimit

variable {r : InMemoryRateLimit}

/-- The fill of a key, as the next call on it computes it. -/
def fill (r : InMemoryRateLimit) (buckets : Buckets) (key : String) (now : ℚ) : ℚ :=
  r.bucket.fillAt (noted buckets key) now

theorem fills (hr : 0 < r.requestsPerMinute) :
    Fills r.bucket none r.resultForFill r.call r.fill where
  preview := by
    intro s key now k u hu
    rw [fill, (call_spec hr s ⟨.preview, key, now⟩).1]
    split
    · next hk =>
      subst hk
      exact Bucket.fillAt_noted r.refillPerSecond_nonneg hu
    · rfl
  previewed := by
    intro s key now
    exact (preview_spec hr s key now).2.1
  allowed := by
    intro s key now
    exact (allow_spec hr s key now).2
  allow_same := by
    intro s key now u _
    rw [fill, (call_spec hr s ⟨.allow, key, now⟩).1, if_pos rfl]
    rfl
  allow_other := by
    intro s key now k u hk _
    rw [fill, (call_spec hr s ⟨.allow, key, now⟩).1, if_neg hk]
    rfl
  answer_allowed := r.resultForFill_allowed

end InMemoryRateLimit

namespace RedisTokenBucketRateLimit

variable {r : RedisTokenBucketRateLimit} {s : RedisServer} {key : String} {now u : ℚ}

/-- What the scripts find under a name at that time. -/
def live (s : RedisServer) (name : String) (now : ℚ) : Option BucketHash :=
  (s.expire name now).hashes.get? name

/-- The fill of a key, as the next script on it computes it. -/
def fill (r : RedisTokenBucketRateLimit) (s : RedisServer) (key : String) (now : ℚ) : ℚ :=
  let found := (live s (r.keyPrefix ++ key) now).getD ⟨r.capacity, now⟩
  r.bucket.refill found.tokens (max (now - found.ts) 0)

theorem live_eq (s : RedisServer) (name : String) (now : ℚ) :
    live s name now = if (s.deadlines.get? name).any (· ≤ now) then none else s.hashes.get? name := by
  rw [live, RedisServer.expire]
  cases s.deadlines.get? name with
  | none => rfl
  | some deadline =>
    by_cases hle : deadline ≤ now
    · simp only [if_pos hle, Option.any_some, decide_eq_true hle, if_true]
      rw [Dict.get?_pop, if_pos rfl]
    · simp only [if_neg hle, Option.any_some, decide_eq_false hle, if_neg Bool.false_ne_true]

theorem live_expire (hu : now ≤ u) (key k : String) :
    live (s.expire (r.keyPrefix ++ key) now) (r.keyPrefix ++ k) u = live s (r.keyPrefix ++ k) u := by
  rw [RedisServer.expire]
  cases hd : s.deadlines.get? (r.keyPrefix ++ key) with
  | none => rfl
  | some deadline =>
    by_cases hle : deadline ≤ now
    · simp only [if_pos hle]
      rw [live_eq, live_eq, get?_pop_append, get?_pop_append]
      by_cases hk : k = key
      · subst hk
        rw [if_pos rfl, if_pos rfl, hd, Option.any_some, decide_eq_true (hle.trans hu), if_pos rfl]
        split
        · rfl
        · rfl
      · rw [if_neg hk, if_neg hk]
    · simp only [if_neg hle]

theorem script_fill_live (r : RedisTokenBucketRateLimit) (s : RedisServer) (key : String) (now : ℚ) :
    let found := ((s.expire (r.keyPrefix ++ key) now).hashes.get? (r.keyPrefix ++ key)).getD
      ⟨r.capacity, now⟩
    let elapsed := if now - found.ts < 0 then 0 else now - found.ts
    let refilled := found.tokens + elapsed * r.refillPerSecond
    (if refilled > r.capacity then r.capacity else refilled) = r.fill s key now :=
  r.script_tokens now _

theorem fill_expire (hu : now ≤ u) (key k : String) :
    r.fill (s.expire (r.keyPrefix ++ key) now) k u = r.fill s k u := by
  rw [fill, live_expire hu]
  rfl

theorem preview_allowed (hr : 0 < r.requestsPerMinute) (s : RedisServer) (key : String) (now : ℚ) :
    (r.call s ⟨.preview, key, now⟩).2.allowed = decide (1 ≤ r.fill s key now) := by
  have htokens := r.script_fill_live s key now
  dsimp only [call]
  rw [preview, if_neg (not_le.2 hr)]
  simp only [PREVIEW_SCRIPT, htokens, parseScriptResult]
  split
  · next hfull => exact (decide_eq_true hfull).symm
  · next hfull => exact (decide_eq_false hfull).symm

theorem allow_eq (hr : 0 < r.requestsPerMinute) (s : RedisServer) (key : String) (now : ℚ) :
    let name := r.keyPrefix ++ key
    let expired := s.expire name now
    r.call s ⟨.allow, key, now⟩ =
      (⟨expired.hashes.set name ⟨(take (r.fill s key now)).1, now⟩,
        expired.deadlines.set name (now + r.ttlSeconds)⟩, r.resultForFill (r.fill s key now)) := by
  intro name expired
  have htokens := r.script_fill_live s key now
  dsimp only [call]
  rw [allow, if_neg (not_le.2 hr)]
  simp only [ALLOW_SCRIPT, htokens, parseScriptResult, toNat_max_zero, resultForFill, take]
  split
  · rfl
  · rfl

theorem fill_allow_same (hr : 0 < r.requestsPerMinute) (hu : now ≤ u) (s : RedisServer)
    (key : String) :
    r.fill (r.call s ⟨.allow, key, now⟩).1 key u =
      if (some (r.ttlSeconds : ℚ)).any fun life => now + life ≤ u then r.capacity
      else r.bucket.refill (take (r.fill s key now)).1 (u - now) := by
  rw [allow_eq hr, fill, live_eq, Dict.get?_set, Dict.get?_set, if_pos rfl, if_pos rfl,
    Option.any_some, Option.any_some]
  split
  · rw [Option.getD_none, Bucket.refill, sub_self, max_self, zero_mul, add_zero]
    exact min_self _
  · rw [Option.getD_some, max_eq_left (sub_nonneg.2 hu)]

theorem fill_allow_other (hr : 0 < r.requestsPerMinute) (hk : k ≠ key) (hu : now ≤ u)
    (s : RedisServer) : r.fill (r.call s ⟨.allow, key, now⟩).1 k u = r.fill s k u := by
  have hlive : live (r.call s ⟨.allow, key, now⟩).1 (r.keyPrefix ++ k) u =
      live (s.expire (r.keyPrefix ++ key) now) (r.keyPrefix ++ k) u := by
    rw [allow_eq hr, live_eq, live_eq, get?_set_append, get?_set_append, if_neg hk, if_neg hk]
  rw [fill, hlive, live_expire hu]
  rfl

theorem fills (hr : 0 < r.requestsPerMinute) :
    Fills r.bucket (some r.ttlSeconds) r.resultForFill r.call r.fill where
  preview := by
    intro s key now k u hu
    exact fill_expire hu key k
  previewed := preview_allowed hr
  allowed := by
    intro s key now
    rw [allow_eq hr]
  allow_same := by
    intro s key now u hu
    exact fill_allow_same hr hu s key
  allow_other := by
    intro s key now k u hk hu
    exact fill_allow_other hr hk hu s
  answer_allowed := by
    intro x
    rw [resultForFill]
    split
    · next hfull => exact (decide_eq_true hfull).symm
    · next hfull => exact (decide_eq_false hfull).symm

end RedisTokenBucketRateLimit

/-- Whatever the prefix, the refill rate and the expiry of the Redis backend. -/
theorem previews_invisible (n : Int) (hn : 1 ≤ n) :
    PreviewInvisible (memoryBackend n).call .empty ∧
      ∀ r : RedisTokenBucketRateLimit, r.requestsPerMinute = n →
        PreviewInvisible r.call .empty := by
  constructor
  · exact (InMemoryRateLimit.fills (r := memoryBackend n) hn).previewInvisible .empty
  · rintro r rfl
    exact (RedisTokenBucketRateLimit.fills hn).previewInvisible .empty

/-- A caller that looks before each of its calls, and is refused at 30 seconds. -/
def previewedCalls : List RateLimitCall :=
  [⟨.preview, "k", 0⟩, ⟨.allow, "k", 0⟩, ⟨.preview, "k", 30⟩, ⟨.allow, "k", 30⟩, ⟨.preview, "k", 60⟩,
    ⟨.allow, "k", 60⟩]

theorem previews_invisible_refusal :
    let kept : List RateLimitCall :=
      [⟨.allow, "k", 0⟩, ⟨.preview, "k", 30⟩, ⟨.allow, "k", 30⟩, ⟨.allow, "k", 60⟩]
    allowResults (memoryBackend 1).call .empty kept =
        allowResults (memoryBackend 1).call .empty previewedCalls ∧
      allowResults (redisBackend 1 "rl:").call .empty kept =
        allowResults (redisBackend 1 "rl:").call .empty previewedCalls ∧
      ((redisBackend 1 "rl:").call (afterCalls (redisBackend 1 "rl:").call .empty
        [⟨.allow, "k", 0⟩]) ⟨.preview, "k", 30⟩).2.allowed = false := by
  intro kept
  obtain ⟨hmemory, hredis⟩ := previews_invisible 1 (le_refl 1)
  have hredis := hredis (redisBackend 1 "rl:") rfl
  have hcalls : InOrder previewedCalls := by
    simp [previewedCalls, InOrder]
    norm_num
  have hkept : kept.Sublist previewedCalls := by
    decide +kernel
  refine ⟨hmemory.deletable _ _ hcalls hkept rfl, hredis.deletable _ _ hcalls hkept rfl, ?_⟩
  rw [hredis.truthful [⟨.allow, "k", 0⟩] "k" 30 (by simp [InOrder])]
  decide +kernel

end AiServing
