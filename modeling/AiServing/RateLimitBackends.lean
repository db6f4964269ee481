import AiServing.InMemoryRateLimit
import AiServing.RedisRateLimit

namespace AiServing
open Dictionary TokenBucket
set_option autoImplicit true

/-- The server drops a key whose time has come. -/
def RedisServer.expire (s : RedisServer) (name : String) (clock : ℚ) : RedisServer :=
  match s.deadlines.get? name with
  | some deadline =>
    if deadline ≤ clock then ⟨s.hashes.pop name, s.deadlines.pop name⟩ else s
  | none => s

namespace RedisTokenBucketRateLimit

/-- A call whose worker and server read one clock. -/
def call (r : RedisTokenBucketRateLimit) (s : RedisServer) (c : RateLimitCall) :
    RedisServer × RateLimitResult :=
  let s := s.expire (r.keyPrefix ++ c.key) c.now
  match c.method with
  | .allow => r.allow s ⟨c.key, c.now, c.now⟩
  | .preview => (s, r.preview s ⟨c.key, c.now, c.now⟩)

def after (r : RedisTokenBucketRateLimit) (s : RedisServer) (calls : List RateLimitCall) :
    RedisServer :=
  calls.foldl (fun s c => (r.call s c).1) s

def hashLevel (h : BucketHash) : Level ℚ := ⟨h.tokens, h.ts⟩

/-- What the server has noted of the bucket of a key. -/
def noted (r : RedisTokenBucketRateLimit) (s : RedisServer) (key : String) : Option (Level ℚ) :=
  (s.hashes.get? (r.keyPrefix ++ key)).map hashLevel

/-- The time at which the bucket of a key expires. -/
def deadlineOf (r : RedisTokenBucketRateLimit) (s : RedisServer) (key : String) : Option ℚ :=
  s.deadlines.get? (r.keyPrefix ++ key)

/-- The answer to a call, from the fill that the bucket has at that time. -/
def resultForFill (r : RedisTokenBucketRateLimit) (fill : ℚ) : RateLimitResult :=
  if 1 ≤ fill then ⟨true, 0, .count ⌊fill - 1⌋.toNat⟩
  else ⟨false, max ((1 - fill) / r.refillPerSecond) 0, .count ⌊fill⌋.toNat⟩

variable {r : RedisTokenBucketRateLimit} {s : RedisServer} {key : String} {now t : ℚ}

theorem capacity_nonneg (r : RedisTokenBucketRateLimit) : 0 ≤ r.capacity :=
  Int.cast_nonneg (le_max_right _ _)

/-- With a clock that does not go back, the scripts' tokens are the bucket's fill. -/
theorem script_fill (h : r.bucket.Sound now (r.noted s key)) :
    let found := (s.hashes.get? (r.keyPrefix ++ key)).getD ⟨r.capacity, now⟩
    r.bucket.refill found.tokens (max (now - found.ts) 0) = r.bucket.fillAt (r.noted s key) now := by
  intro found
  have hfound : found = (s.hashes.get? (r.keyPrefix ++ key)).getD ⟨r.capacity, now⟩ := rfl
  rw [noted] at h ⊢
  cases hs : s.hashes.get? (r.keyPrefix ++ key) with
  | none =>
    rw [hs, Option.getD_none] at hfound
    rw [hfound, sub_self, max_self, Bucket.refill, zero_mul, add_zero]
    exact min_self _
  | some b =>
    rw [hs, Option.getD_some] at hfound
    rw [hs] at h
    have hts : b.ts ≤ now := (h _ rfl).2.2
    rw [hfound, max_eq_left (sub_nonneg.2 hts)]
    rfl

theorem get?_set_append (d : Dict String ν) (p key : String) (v : ν) (k : String) :
    (d.set (p ++ key) v).get? (p ++ k) = if k = key then some v else d.get? (p ++ k) := by
  simp only [Dict.get?_set, String.append_right_inj]

theorem get?_pop_append (d : Dict String ν) (p key k : String) :
    (d.pop (p ++ key)).get? (p ++ k) = if k = key then none else d.get? (p ++ k) := by
  simp only [Dict.get?_pop, String.append_right_inj]

theorem toNat_max_zero (n : Int) : (max n 0).toNat = n.toNat := by omega

theorem allow_spec (hr : 0 < r.requestsPerMinute) (h : r.bucket.Sound now (r.noted s key)) :
    let fill := r.bucket.fillAt (r.noted s key) now
    let out := r.allow s ⟨key, now, now⟩
    (∀ k, r.noted out.1 k = if k = key then some ⟨(take fill).1, now⟩ else r.noted s k) ∧
      (∀ k, r.deadlineOf out.1 k =
        if k = key then some (now + r.ttlSeconds) else r.deadlineOf s k) ∧
      out.2 = r.resultForFill fill := by
  intro fill out
  have htokens := r.script_tokens now ((s.hashes.get? (r.keyPrefix ++ key)).getD ⟨r.capacity, now⟩)
  have hout : out = r.allow s ⟨key, now, now⟩ := rfl
  rw [allow, if_neg (not_le.2 hr)] at hout
  simp only [ALLOW_SCRIPT, htokens, script_fill h, parseScriptResult, toNat_max_zero] at hout
  have hstored : out.1 = ⟨s.hashes.set (r.keyPrefix ++ key) ⟨(take fill).1, now⟩,
      s.deadlines.set (r.keyPrefix ++ key) (now + r.ttlSeconds)⟩ ∧
        out.2 = r.resultForFill fill := by
    rw [hout, resultForFill, take, show r.bucket.fillAt (r.noted s key) now = fill from rfl]
    split
    · exact ⟨rfl, rfl⟩
    · exact ⟨rfl, rfl⟩
  refine ⟨fun k => ?_, fun k => ?_, hstored.2⟩
  · rw [hstored.1, noted, get?_set_append]
    split
    · rfl
    · rfl
  · rw [hstored.1]
    exact get?_set_append ..

theorem preview_spec (hr : 0 < r.requestsPerMinute) (h : r.bucket.Sound now (r.noted s key)) :
    let fill := r.bucket.fillAt (r.noted s key) now
    let out := r.preview s ⟨key, now, now⟩
    out.allowed = decide (1 ≤ fill) ∧
      out.retryAfterSeconds = (r.resultForFill fill).retryAfterSeconds := by
  intro fill out
  have htokens := r.script_tokens now ((s.hashes.get? (r.keyPrefix ++ key)).getD ⟨r.capacity, now⟩)
  have hout : out = r.preview s ⟨key, now, now⟩ := rfl
  rw [preview, if_neg (not_le.2 hr)] at hout
  simp only [PREVIEW_SCRIPT, htokens, script_fill h] at hout
  rw [hout, resultForFill, show r.bucket.fillAt (r.noted s key) now = fill from rfl]
  split
  · next hfill => exact ⟨(decide_eq_true hfill).symm, rfl⟩
  · next hfill => exact ⟨(decide_eq_false hfill).symm, rfl⟩

theorem expire_cases (r : RedisTokenBucketRateLimit) (s : RedisServer) (key : String) (clock : ℚ) :
    let out := s.expire (r.keyPrefix ++ key) clock
    out = s ∨ (∃ d ∈ r.deadlineOf s key, d ≤ clock) ∧
      (∀ k, r.noted out k = if k = key then none else r.noted s k) ∧
      ∀ k, r.deadlineOf out k = if k = key then none else r.deadlineOf s k := by
  intro out
  have hout : out = s.expire (r.keyPrefix ++ key) clock := rfl
  rw [RedisServer.expire] at hout
  rw [deadlineOf]
  cases hd : s.deadlines.get? (r.keyPrefix ++ key) with
  | none =>
    rw [hd] at hout
    exact .inl hout
  | some d =>
    simp only [hd] at hout
    by_cases hle : d ≤ clock
    · rw [if_pos hle] at hout
      refine .inr ⟨⟨d, rfl, hle⟩, fun k => ?_, fun k => ?_⟩
      · rw [hout, noted, get?_pop_append]
        split
        · rfl
        · rfl
      · rw [hout]
        exact get?_pop_append ..
    · rw [if_neg hle] at hout
      exact .inl hout

end RedisTokenBucketRateLimit

def memoryBackend (n : Int) : InMemoryRateLimit := ⟨n⟩

/-- The Redis backend with its default refill rate and expiry. -/
def redisBackend (n : Int) (keyPrefix : String) : RedisTokenBucketRateLimit :=
  { requestsPerMinute := n, keyPrefix := keyPrefix }

/-- At `now` the backends hold the same buckets, as far as any later call can tell. -/
structure SameBuckets (n : Int) (keyPrefix : String) (now : ℚ) (buckets : InMemoryRateLimit.Buckets)
    (s : RedisServer) : Prop where
  memory : (memoryBackend n).Sound now buckets
  redis : ∀ key, (redisBackend n keyPrefix).bucket.Sound now ((redisBackend n keyPrefix).noted s key)
  deadline : ∀ key, ∀ v ∈ (redisBackend n keyPrefix).noted s key,
    ∀ d ∈ (redisBackend n keyPrefix).deadlineOf s key, d = v.since + 300
  fill : ∀ key t, now ≤ t →
    (memoryBackend n).bucket.fillAt (InMemoryRateLimit.noted buckets key) t =
      (redisBackend n keyPrefix).bucket.fillAt ((redisBackend n keyPrefix).noted s key) t

/-- What the gateway takes from the results of the two backends. -/
structure SameAnswer (c : RateLimitCall) (a b : RateLimitResult) : Prop where
  allowed : a.allowed = b.allowed
  remaining : c.method = .allow → a.remaining = b.remaining
  enforced : enforceRateLimit a = enforceRateLimit b
  response : rateLimitResponse a = rateLimitResponse b

variable {n : Int} {keyPrefix : String} {now t : ℚ} {buckets : InMemoryRateLimit.Buckets}
variable {s : RedisServer} {c : RateLimitCall}

theorem SameBuckets.empty (n : Int) (keyPrefix : String) (now : ℚ) :
    SameBuckets n keyPrefix now .empty .empty where
  memory := .empty _ now
  redis key v hv := by cases hv
  deadline key v hv := by cases hv
  fill key t _ := rfl

theorem redis_bucket_eq (n : Int) (keyPrefix : String) :
    (redisBackend n keyPrefix).bucket = (memoryBackend n).bucket := rfl

/-- The expiry is long enough to fill any bucket. -/
theorem fillAt_expired (hn : 1 ≤ n) {v : Level ℚ} (h₀ : 0 ≤ v.tokens) (ht : v.since + 300 ≤ t) :
    (redisBackend n keyPrefix).bucket.fillAt (some v) t = (redisBackend n keyPrefix).capacity := by
  have hcap : 0 < (redisBackend n keyPrefix).capacity := by
    rw [RedisTokenBucketRateLimit.capacity, redisBackend]
    exact_mod_cast lt_max_of_lt_left (by omega : 0 < n)
  have hrate : (redisBackend n keyPrefix).bucket.rate = (redisBackend n keyPrefix).capacity / 60 :=
    if_pos hcap
  refine Bucket.refill_eq_capacity h₀ ?_
  rw [hrate]
  calc (redisBackend n keyPrefix).capacity
      = 60 * ((redisBackend n keyPrefix).capacity / 60) := by ring
    _ ≤ (t - v.since) * ((redisBackend n keyPrefix).capacity / 60) := by
      apply mul_le_mul_of_nonneg_right
      · linarith
      · positivity

/-- An expired key had a full bucket, and an absent one counts as full. -/
theorem SameBuckets.expire (hn : 1 ≤ n) (h : SameBuckets n keyPrefix now buckets s) (hnow : now ≤ t)
    (key : String) : SameBuckets n keyPrefix t buckets
      (s.expire ((redisBackend n keyPrefix).keyPrefix ++ key) t) := by
  have hlater : SameBuckets n keyPrefix t buckets s := {
    memory := fun k => (h.memory k).later hnow
    redis := fun k => (h.redis k).later hnow
    deadline := h.deadline
    fill := fun k u hu => h.fill k u (hnow.trans hu) }
  rcases (redisBackend n keyPrefix).expire_cases s key t with
    hout | ⟨⟨d, hd, hdt⟩, hnoted, hdeadline⟩
  · rw [hout]
    exact hlater
  · refine ⟨hlater.memory, fun k => ?_, fun k v hv e he => ?_, fun k u hu => ?_⟩
    · rw [hnoted]
      split
      · intro v hv
        cases hv
      · exact hlater.redis k
    · rw [hnoted] at hv
      rw [hdeadline] at he
      split at hv
      · cases hv
      · next hk =>
        rw [if_neg hk] at he
        exact h.deadline k v hv e he
    · rw [hnoted, hlater.fill k u hu]
      split
      · next hk =>
        subst hk
        cases hs : (redisBackend n keyPrefix).noted s k with
        | none => rfl
        | some v =>
          have hdead := h.deadline k v hs d hd
          rw [fillAt_expired hn (h.redis k v hs).1 (by linarith)]
          rfl
      · rfl

theorem retryAfter_clamp (x : ℚ) : max 1 ⌈max x 1⌉ = max 1 ⌈max x 0⌉ := by
  rw [Int.ceil_mono.map_max, Int.ceil_mono.map_max, Int.ceil_one, Int.ceil_zero]
  omega

theorem retryAfter_resultForFill (n : Int) (keyPrefix : String) (fill : ℚ)
    {a b : RateLimitResult}
    (ha : a.retryAfterSeconds = ((memoryBackend n).resultForFill fill).retryAfterSeconds)
    (hb : b.retryAfterSeconds =
      ((redisBackend n keyPrefix).resultForFill fill).retryAfterSeconds) :
    a.retryAfter = b.retryAfter := by
  rw [RateLimitResult.retryAfter, RateLimitResult.retryAfter, ha, hb,
    InMemoryRateLimit.resultForFill, RedisTokenBucketRateLimit.resultForFill]
  split
  · rfl
  · exact retryAfter_clamp _

theorem SameAnswer.of_retryAfter {a b : RateLimitResult} (hallowed : a.allowed = b.allowed)
    (hremaining : c.method = .allow → a.remaining = b.remaining)
    (hretry : a.retryAfter = b.retryAfter) : SameAnswer c a b where
  allowed := hallowed
  remaining := hremaining
  enforced := by rw [enforceRateLimit, enforceRateLimit, hallowed, hretry]
  response := hretry

theorem sameAnswer_resultForFill (c : RateLimitCall) (fill : ℚ) :
    SameAnswer c ((memoryBackend n).resultForFill fill)
      ((redisBackend n keyPrefix).resultForFill fill) := by
  have hretry := retryAfter_resultForFill n keyPrefix fill rfl rfl
  rw [InMemoryRateLimit.resultForFill, RedisTokenBucketRateLimit.resultForFill] at hretry ⊢
  split
  · exact .of_retryAfter rfl (fun _ => rfl) rfl
  · next hfill =>
    rw [if_neg hfill, if_neg hfill] at hretry
    have hempty : ⌊fill⌋.toNat = 0 := Int.toNat_eq_zero.2 (Int.lt_add_one_iff.1
      (Int.floor_lt.2 (by simpa using not_le.1 hfill)))
    exact .of_retryAfter rfl (fun _ => by rw [hempty]) hretry

theorem SameBuckets.allow (hn : 1 ≤ n) (h : SameBuckets n keyPrefix now buckets s) (key : String) :
    SameBuckets n keyPrefix now ((memoryBackend n).allow buckets key now).1
        ((redisBackend n keyPrefix).allow s ⟨key, now, now⟩).1 ∧
      SameAnswer ⟨.allow, key, now⟩ ((memoryBackend n).allow buckets key now).2
        ((redisBackend n keyPrefix).allow s ⟨key, now, now⟩).2 := by
  have hmemory : (memoryBackend n).Sound now ((memoryBackend n).allow buckets key now).1 :=
    h.memory.call (c := ⟨.allow, key, now⟩) hn (le_refl now)
  have hfill := h.fill key now (le_refl now)
  obtain ⟨hnoted, hres⟩ := InMemoryRateLimit.allow_spec (r := memoryBackend n) hn buckets key now
  obtain ⟨hnoted', hdeadline, hres'⟩ := RedisTokenBucketRateLimit.allow_spec
    (r := redisBackend n keyPrefix) hn (h.redis key)
  rw [← hfill] at hnoted' hres'
  refine ⟨⟨hmemory, fun k => ?_, fun k v hv d hd => ?_, fun k u hu => ?_⟩, ?_⟩
  · have hk := hmemory k
    rw [hnoted] at hk
    rw [hnoted']
    split
    · next hkey =>
      rw [if_pos hkey] at hk
      exact hk
    · exact h.redis k
  · rw [hnoted'] at hv
    rw [hdeadline] at hd
    split at hv
    · next hkey =>
      rw [if_pos hkey] at hd
      cases hv
      cases hd
      norm_num [redisBackend]
    · next hkey =>
      rw [if_neg hkey] at hd
      exact h.deadline k v hv d hd
  · rw [hnoted, hnoted', redis_bucket_eq]
    split
    · rfl
    · exact h.fill k u hu
  · rw [hres, hres']
    exact sameAnswer_resultForFill _ _

theorem SameBuckets.preview (hn : 1 ≤ n) (h : SameBuckets n keyPrefix now buckets s)
    (key : String) :
    SameBuckets n keyPrefix now ((memoryBackend n).preview buckets key now).1 s ∧
      SameAnswer ⟨.preview, key, now⟩ ((memoryBackend n).preview buckets key now).2
        ((redisBackend n keyPrefix).preview s ⟨key, now, now⟩) := by
  have hmemory := h.memory.call (c := ⟨.preview, key, now⟩) hn (le_refl now)
  have hfill := h.fill key now (le_refl now)
  obtain ⟨hnoted, hallowed, hretry⟩ :=
    InMemoryRateLimit.preview_spec (r := memoryBackend n) hn buckets key now
  obtain ⟨hallowed', hretry'⟩ := RedisTokenBucketRateLimit.preview_spec
    (r := redisBackend n keyPrefix) hn (h.redis key)
  rw [← hfill] at hallowed' hretry'
  refine ⟨⟨hmemory, h.redis, h.deadline, fun k u hu => ?_⟩, ?_⟩
  · rw [hnoted]
    split
    · next hkey =>
      subst hkey
      exact (Bucket.fillAt_noted (b := (memoryBackend n).bucket)
        (InMemoryRateLimit.refillPerSecond_nonneg _) hu).trans (h.fill k u hu)
    · exact h.fill k u hu
  · refine .of_retryAfter (hallowed.trans hallowed'.symm) nofun ?_
    exact retryAfter_resultForFill n keyPrefix _ hretry hretry'

theorem SameBuckets.call (hn : 1 ≤ n) (h : SameBuckets n keyPrefix now buckets s)
    (hnow : now ≤ c.now) :
    SameBuckets n keyPrefix c.now ((memoryBackend n).call buckets c).1
        ((redisBackend n keyPrefix).call s c).1 ∧
      SameAnswer c ((memoryBackend n).call buckets c).2
        ((redisBackend n keyPrefix).call s c).2 := by
  have hexp := h.expire hn hnow c.key
  obtain ⟨_ | _, key, t⟩ := c
  · exact hexp.allow hn key
  · exact hexp.preview hn key

theorem SameBuckets.after (hn : 1 ≤ n) (h : SameBuckets n keyPrefix now buckets s)
    (hnow : ∀ c ∈ calls, now ≤ RateLimitCall.now c)
    (hcalls : calls.Pairwise fun c d => c.now ≤ d.now) :
    ∃ t, (∀ u, (∀ c ∈ calls, RateLimitCall.now c ≤ u) → now ≤ u → t ≤ u) ∧
      SameBuckets n keyPrefix t ((memoryBackend n).after buckets calls)
        ((redisBackend n keyPrefix).after s calls) := by
  induction calls generalizing now buckets s with
  | nil => exact ⟨now, fun u _ hu => hu, h⟩
  | cons c cs ih =>
    obtain ⟨hc, hcs⟩ := List.pairwise_cons.1 hcalls
    obtain ⟨t, ht, hsame⟩ := ih (h.call hn (hnow c List.mem_cons_self)).1 hc hcs
    refine ⟨t, fun u hu _ => ?_, hsame⟩
    exact ht u (fun d hd => hu d (List.mem_cons_of_mem _ hd)) (hu c List.mem_cons_self)

/-- Whatever was called before, the next call gets the same answer from both backends. -/
theorem backends_agree (hn : 1 ≤ n) (keyPrefix : String) (before : List RateLimitCall)
    (c : RateLimitCall) (hcalls : (before ++ [c]).Pairwise fun c d => c.now ≤ d.now) :
    SameAnswer c ((memoryBackend n).call ((memoryBackend n).after .empty before) c).2
      ((redisBackend n keyPrefix).call ((redisBackend n keyPrefix).after .empty before) c).2 := by
  obtain ⟨now, hnow⟩ := exists_reading_le hcalls
  obtain ⟨hbefore, _, hc⟩ := List.pairwise_append.1 hcalls
  obtain ⟨t, ht, hsame⟩ := (SameBuckets.empty n keyPrefix now).after hn
    (fun d hd => hnow d (List.mem_append_left _ hd)) hbefore
  have hlast : t ≤ c.now := ht c.now (fun d hd => hc d hd c List.mem_cons_self)
    (hnow c (List.mem_append_right _ List.mem_cons_self))
  exact (hsame.call hn hlast).2

theorem backends_agree_expired :
    let before : List RateLimitCall := [⟨.allow, "a", 0⟩, ⟨.allow, "a", 1⟩, ⟨.preview, "a", 2⟩]
    let c : RateLimitCall := ⟨.allow, "a", 301⟩
    SameAnswer c ((memoryBackend 1).call ((memoryBackend 1).after .empty before) c).2
      ((redisBackend 1 "rl:").call ((redisBackend 1 "rl:").after .empty before) c).2 := by
  intro before c
  exact backends_agree (by decide) "rl:" before c (by decide +kernel)

end AiServing
