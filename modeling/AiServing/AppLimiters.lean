import AiServing.RetryAfter
import AiServing.ScopeCodec

namespace AiServing
open Dictionary TokenBucket
set_option autoImplicit true

/-- The settings that `build_rate_limit_backend` reads. -/
structure LimiterSettings where
  rateLimitRpm : Int := 60
  preAuthRpmPerIp : Int := 30
  rateLimitBackend : Text := "memory".toList
  redisUrl : Option Text := none
  rateLimitStrict : Bool := false

inductive RateLimitBackend
  | memory (limiter : InMemoryRateLimit)
  | redis (limiter : RedisTokenBucketRateLimit)

inductive BackendError
  | redisUrlRequired
  | redisClient
  | unsupported (backend : Text)
  deriving DecidableEq, Repr

/-- `connects` tells whether `from_url` returns. -/
def buildRateLimitBackend (settings : LimiterSettings) (connects : Bool)
    (requestsPerMinute : Option Int) (keyPrefix : Option String) :
    Except BackendError RateLimitBackend :=
  let rpm := requestsPerMinute.getD settings.rateLimitRpm
  let backend := settings.rateLimitBackend.map Char.toLower
  if backend = "memory".toList then .ok (.memory ⟨rpm⟩)
  else if backend = "redis".toList then
    if settings.redisUrl.getD [] = [] then
      if settings.rateLimitStrict then .error .redisUrlRequired else .ok (.memory ⟨rpm⟩)
    else if connects then .ok (.redis (redisBackend rpm (keyPrefix.getD "rl:")))
    else if settings.rateLimitStrict then .error .redisClient
    else .ok (.memory ⟨rpm⟩)
  else .error (.unsupported settings.rateLimitBackend)

/-- `rate_limiter` and `pre_auth_rate_limiter` of `app.state`. -/
inductive LimiterName
  | rateLimiter
  | preAuthRateLimiter
  deriving DecidableEq, Repr

def LimiterSettings.rpm (settings : LimiterSettings) : LimiterName → Int
  | .rateLimiter => settings.rateLimitRpm
  | .preAuthRateLimiter => settings.preAuthRpmPerIp

def LimiterName.keyPrefix : LimiterName → String
  | .rateLimiter => "rl:"
  | .preAuthRateLimiter => "preauth:"

structure AppLimiters where
  rateLimiter : RateLimitBackend
  preAuthRateLimiter : RateLimitBackend

def AppLimiters.get (limiters : AppLimiters) : LimiterName → RateLimitBackend
  | .rateLimiter => limiters.rateLimiter
  | .preAuthRateLimiter => limiters.preAuthRateLimiter

/-- The two limiters that `create_app` builds. -/
def createLimiters (settings : LimiterSettings) (connects : LimiterName → Bool) :
    Except BackendError AppLimiters :=
  match buildRateLimitBackend settings (connects .rateLimiter) none none with
  | .error e => .error e
  | .ok rateLimiter =>
    match buildRateLimitBackend settings (connects .preAuthRateLimiter)
        (some settings.preAuthRpmPerIp) (some "preauth:") with
    | .error e => .error e
    | .ok preAuthRateLimiter => .ok ⟨rateLimiter, preAuthRateLimiter⟩

/-- The buckets of this process, for each of its limiters, and the server that both may use. -/
structure LimiterState where
  buckets : LimiterName → InMemoryRateLimit.Buckets := fun _ => .empty
  server : RedisServer := .empty

structure AppCall where
  limiter : LimiterName
  call : RateLimitCall

def AppLimiters.call (limiters : AppLimiters) (s : LimiterState) (c : AppCall) :
    LimiterState × RateLimitResult :=
  match limiters.get c.limiter with
  | .memory limiter =>
    let (buckets, result) := limiter.call (s.buckets c.limiter) c.call
    ({ s with buckets := Function.update s.buckets c.limiter buckets }, result)
  | .redis limiter =>
    let (server, result) := limiter.call s.server c.call
    ({ s with server := server }, result)

def AppLimiters.after (limiters : AppLimiters) (s : LimiterState) (calls : List AppCall) :
    LimiterState :=
  calls.foldl (fun s c => (limiters.call s c).1) s

def callsOf (name : LimiterName) (calls : List AppCall) : List RateLimitCall :=
  (calls.filter fun c => c.limiter = name).map AppCall.call

/-- The buckets of an in-memory limiter that is alone with the calls of one of the two. -/
def LimiterSettings.alone (settings : LimiterSettings) (calls : List AppCall) (name : LimiterName) :
    InMemoryRateLimit.Buckets :=
  (memoryBackend (settings.rpm name)).after .empty (callsOf name calls)

variable {settings : LimiterSettings} {connects : LimiterName → Bool} {limiters : AppLimiters}
  {s : LimiterState} {name : LimiterName} {now t : ℚ} {n : Int}

theorem buildRateLimitBackend_cases {backend : RateLimitBackend}
    (h : buildRateLimitBackend settings connected rpm keyPrefix = .ok backend) :
    backend = .memory ⟨rpm.getD settings.rateLimitRpm⟩ ∨
      backend = .redis (redisBackend (rpm.getD settings.rateLimitRpm) (keyPrefix.getD "rl:")) := by
  rw [buildRateLimitBackend] at h
  split at h
  · cases h
    exact .inl rfl
  · split at h
    · split at h
      · split at h
        · cases h
        · cases h
          exact .inl rfl
      · split at h
        · cases h
          exact .inr rfl
        · split at h
          · cases h
          · cases h
            exact .inl rfl
    · cases h

theorem createLimiters_cases (h : createLimiters settings connects = .ok limiters)
    (name : LimiterName) : limiters.get name = .memory (memoryBackend (settings.rpm name)) ∨
      limiters.get name = .redis (redisBackend (settings.rpm name) name.keyPrefix) := by
  rw [createLimiters] at h
  split at h
  · cases h
  · next rateLimiter hrate =>
    split at h
    · cases h
    · next preAuthRateLimiter hpreAuth =>
      cases h
      cases name with
      | rateLimiter => exact buildRateLimitBackend_cases hrate
      | preAuthRateLimiter => exact buildRateLimitBackend_cases hpreAuth

theorem keyPrefix_disjoint {name' : LimiterName} (h : name ≠ name') (k k' : String) :
    name.keyPrefix ++ k ≠ name'.keyPrefix ++ k' := by
  intro heq
  have hlist := congrArg String.toList heq
  rw [String.toList_append, String.toList_append] at hlist
  cases name with
  | rateLimiter =>
    cases name' with
    | rateLimiter => exact h rfl
    | preAuthRateLimiter => cases hlist
  | preAuthRateLimiter =>
    cases name' with
    | rateLimiter => cases hlist
    | preAuthRateLimiter => exact h rfl

theorem expire_get?_other (hne : other ≠ key) (s : RedisServer) (clock : ℚ) :
    (s.expire key clock).hashes.get? other = s.hashes.get? other ∧
      (s.expire key clock).deadlines.get? other = s.deadlines.get? other := by
  rw [RedisServer.expire]
  split
  · split
    · rw [Dict.get?_pop, Dict.get?_pop, if_neg hne, if_neg hne]
      exact ⟨rfl, rfl⟩
    · exact ⟨rfl, rfl⟩
  · exact ⟨rfl, rfl⟩

theorem redis_call_other (r : RedisTokenBucketRateLimit) (s : RedisServer) (c : RateLimitCall)
    (hne : other ≠ r.keyPrefix ++ c.key) :
    (r.call s c).1.hashes.get? other = s.hashes.get? other ∧
      (r.call s c).1.deadlines.get? other = s.deadlines.get? other := by
  obtain ⟨hhash, hdeadline⟩ := expire_get?_other hne s c.now
  obtain ⟨_ | _, key, clock⟩ := c
  · rw [RedisTokenBucketRateLimit.call]
    dsimp only at hhash hdeadline hne ⊢
    rw [RedisTokenBucketRateLimit.allow]
    split
    · exact ⟨hhash, hdeadline⟩
    · dsimp only
      rw [Dict.get?_set, Dict.get?_set, if_neg hne, if_neg hne]
      exact ⟨hhash, hdeadline⟩
  · exact ⟨hhash, hdeadline⟩

theorem SameBuckets.later {s : RedisServer} (h : SameBuckets n keyPrefix now buckets s) (hle : now ≤ t) :
    SameBuckets n keyPrefix t buckets s where
  memory key := (h.memory key).later hle
  redis key := (h.redis key).later hle
  deadline := h.deadline
  fill key u hu := h.fill key u (hle.trans hu)

theorem SameBuckets.congr {s s' : RedisServer} (h : SameBuckets n keyPrefix now buckets s)
    (hsame : ∀ key, s'.hashes.get? (keyPrefix ++ key) = s.hashes.get? (keyPrefix ++ key) ∧
      s'.deadlines.get? (keyPrefix ++ key) = s.deadlines.get? (keyPrefix ++ key)) :
    SameBuckets n keyPrefix now buckets s' := by
  have hnoted (key : String) : (redisBackend n keyPrefix).noted s' key =
      (redisBackend n keyPrefix).noted s key :=
    congrArg (Option.map RedisTokenBucketRateLimit.hashLevel) (hsame key).1
  have hdeadline (key : String) : (redisBackend n keyPrefix).deadlineOf s' key =
      (redisBackend n keyPrefix).deadlineOf s key := (hsame key).2
  exact {
    memory := h.memory
    redis := fun key => by
      rw [hnoted]
      exact h.redis key
    deadline := fun key => by
      rw [hnoted, hdeadline]
      exact h.deadline key
    fill := fun key u hu => by
      rw [hnoted]
      exact h.fill key u hu }

/-- At `now` this limiter of the app stands as one alone in memory does. -/
def StandsAs (settings : LimiterSettings) (limiters : AppLimiters) (now : ℚ)
    (alone : InMemoryRateLimit.Buckets) (s : LimiterState) (name : LimiterName) : Prop :=
  match limiters.get name with
  | .memory _ => s.buckets name = alone
  | .redis _ => 1 ≤ settings.rpm name →
    SameBuckets (settings.rpm name) name.keyPrefix now alone s.server

theorem StandsAs.later (h : StandsAs settings limiters now alone s name) (hle : now ≤ t) :
    StandsAs settings limiters t alone s name := by
  rw [StandsAs] at h ⊢
  split
  · next heq =>
    rw [heq] at h
    exact h
  · next heq =>
    rw [heq] at h
    exact fun hn => (h hn).later hle

theorem SameAnswer.refl (c : RateLimitCall) (a : RateLimitResult) : SameAnswer c a a :=
  ⟨rfl, fun _ => rfl, rfl, rfl⟩

theorem call_unlimited (hn : ¬ 1 ≤ n) (buckets : InMemoryRateLimit.Buckets) (server : RedisServer)
    (keyPrefix : String) (c : RateLimitCall) :
    ((memoryBackend n).call buckets c).2 = ((redisBackend n keyPrefix).call server c).2 := by
  have hle : n ≤ 0 := by omega
  obtain ⟨_ | _, key, clock⟩ := c
  · have hmemory : (memoryBackend n).allow buckets key clock = (buckets, ⟨true, 0, .unlimited⟩) :=
      if_pos hle
    have hredis (server : RedisServer) : (redisBackend n keyPrefix).allow server ⟨key, clock, clock⟩ =
        (server, ⟨true, 0, .unlimited⟩) := if_pos hle
    rw [InMemoryRateLimit.call, RedisTokenBucketRateLimit.call]
    dsimp only
    rw [hmemory, hredis]
  · have hmemory : (memoryBackend n).preview buckets key clock =
        (buckets, ⟨true, 0, .unlimited⟩) := if_pos hle
    have hredis (server : RedisServer) :
        (redisBackend n keyPrefix).preview server ⟨key, clock, clock⟩ = ⟨true, 0, .unlimited⟩ :=
      if_pos hle
    rw [InMemoryRateLimit.call, RedisTokenBucketRateLimit.call]
    dsimp only
    rw [hmemory, hredis]

/-- The limiter that is called moves as the lone one does, and answers the same. -/
theorem StandsAs.call_same (hL : createLimiters settings connects = .ok limiters) {c : AppCall}
    (h : StandsAs settings limiters now alone s c.limiter) (hnow : now ≤ c.call.now) :
    StandsAs settings limiters c.call.now
        ((memoryBackend (settings.rpm c.limiter)).call alone c.call).1 (limiters.call s c).1
        c.limiter ∧
      SameAnswer c.call ((memoryBackend (settings.rpm c.limiter)).call alone c.call).2
        (limiters.call s c).2 := by
  rcases createLimiters_cases hL c.limiter with hget | hget
  · rw [StandsAs, hget] at h
    rw [StandsAs, hget, AppLimiters.call, hget, h]
    exact ⟨Function.update_self .., .refl ..⟩
  · rw [StandsAs, hget] at h
    rw [StandsAs, hget, AppLimiters.call, hget]
    by_cases hn : 1 ≤ settings.rpm c.limiter
    · obtain ⟨hsame, hanswer⟩ := (h hn).call hn hnow
      exact ⟨fun _ => hsame, hanswer⟩
    · refine ⟨fun hn' => absurd hn' hn, ?_⟩
      rw [call_unlimited hn alone s.server c.limiter.keyPrefix]
      exact .refl ..

theorem StandsAs.call_other (hL : createLimiters settings connects = .ok limiters) {c : AppCall}
    (h : StandsAs settings limiters now alone s name) (hne : name ≠ c.limiter) :
    StandsAs settings limiters now alone (limiters.call s c).1 name := by
  rcases createLimiters_cases hL c.limiter with hget | hget
  · rw [StandsAs] at h ⊢
    rw [AppLimiters.call, hget]
    dsimp only
    rw [Function.update_of_ne hne]
    exact h
  · have hserver : (limiters.call s c).1.server =
        ((redisBackend (settings.rpm c.limiter) c.limiter.keyPrefix).call s.server c.call).1 := by
      rw [AppLimiters.call, hget]
    have hbuckets : (limiters.call s c).1.buckets = s.buckets := by
      rw [AppLimiters.call, hget]
    rw [StandsAs] at h ⊢
    rw [hserver, hbuckets]
    split
    · next heq =>
      rw [heq] at h
      exact h
    · next heq =>
      rw [heq] at h
      intro hn
      apply (h hn).congr
      intro key
      exact redis_call_other _ _ _ (keyPrefix_disjoint hne key c.call.key)

theorem alone_snoc (settings : LimiterSettings) (calls : List AppCall) (c : AppCall)
    (name : LimiterName) : settings.alone (calls ++ [c]) name =
      if c.limiter = name then
        ((memoryBackend (settings.rpm name)).call (settings.alone calls name) c.call).1
      else settings.alone calls name := by
  rw [LimiterSettings.alone, callsOf, List.filter_append, List.map_append, List.filter_singleton]
  split
  · next hname =>
    rw [decide_eq_true hname, cond_true, InMemoryRateLimit.after, List.foldl_append]
    rfl
  · next hname =>
    rw [decide_eq_false hname, cond_false, List.map_nil, List.append_nil]
    rfl

/-- The run lemma: whatever was called, both limiters stand as if each were alone. -/
theorem standsAs_after (hL : createLimiters settings connects = .ok limiters)
    {calls : List AppCall} (hcalls : calls.Pairwise fun c d => c.call.now ≤ d.call.now)
    (hnow : ∀ c ∈ calls, (AppCall.call c).now ≤ now) (name : LimiterName) :
    StandsAs settings limiters now (settings.alone calls name) (limiters.after {} calls) name := by
  induction calls using List.reverseRecOn generalizing now with
  | nil =>
    rw [StandsAs]
    split
    · rfl
    · exact fun _ => .empty _ _ _
  | append_singleton calls c ih =>
    obtain ⟨hbefore, _, hlast⟩ := List.pairwise_append.1 hcalls
    have hc := hnow c (List.mem_append_right _ List.mem_cons_self)
    have hprevious := ih hbefore fun d hd => hlast d hd c List.mem_cons_self
    have hafter : limiters.after {} (calls ++ [c]) = (limiters.call (limiters.after {} calls) c).1 := by
      rw [AppLimiters.after, List.foldl_append]
      rfl
    rw [hafter]
    rw [alone_snoc]
    by_cases hname : c.limiter = name
    · subst hname
      rw [if_pos rfl]
      exact (hprevious.call_same hL (le_refl _)).1.later hc
    · rw [if_neg hname]
      exact (hprevious.call_other hL (Ne.symm hname)).later hc

/-- Whatever backend the settings select, and however the calls of the two limiters interleave in the
order of their readings, each answers as an in-memory limiter that sees only its own calls. -/
theorem limiters_answer_alone (hL : createLimiters settings connects = .ok limiters)
    (before : List AppCall) (c : AppCall)
    (hcalls : (before ++ [c]).Pairwise fun c d => c.call.now ≤ d.call.now) :
    SameAnswer c.call
      ((memoryBackend (settings.rpm c.limiter)).call (settings.alone before c.limiter) c.call).2
      (limiters.call (limiters.after {} before) c).2 := by
  obtain ⟨hbefore, _, hlast⟩ := List.pairwise_append.1 hcalls
  have hstands := standsAs_after hL hbefore (fun d hd => hlast d hd c List.mem_cons_self) c.limiter
  exact (hstands.call_same hL (le_refl _)).2

theorem limiters_answer_alone_shared :
    let settings : LimiterSettings :=
      { rateLimitRpm := 1, preAuthRpmPerIp := 2, rateLimitBackend := "Redis".toList,
        redisUrl := some "redis://localhost".toList }
    let limiters : AppLimiters :=
      ⟨.redis (redisBackend 1 "rl:"), .redis (redisBackend 2 "preauth:")⟩
    let before : List AppCall :=
      [⟨.preAuthRateLimiter, ⟨.preview, "a", 0⟩⟩, ⟨.rateLimiter, ⟨.allow, "a", 1⟩⟩,
        ⟨.preAuthRateLimiter, ⟨.allow, "a", 2⟩⟩]
    let c : AppCall := ⟨.rateLimiter, ⟨.allow, "a", 3⟩⟩
    SameAnswer c.call
      ((memoryBackend (settings.rpm c.limiter)).call (settings.alone before c.limiter) c.call).2
      (limiters.call (limiters.after {} before) c).2 := by
  intro settings limiters before c
  exact @limiters_answer_alone settings (fun _ => true) limiters rfl before c (by decide +kernel)

/-- The allow calls on a key of one limiter, between two readings, that a run grants. -/
def AppLimiters.grantedIn (limiters : AppLimiters) (name : LimiterName) (key : String) (lo hi : ℚ)
    (s : LimiterState) : List AppCall → Nat
  | [] => 0
  | c :: cs =>
    (c.limiter = name && c.call.method = .allow && c.call.key = key && (limiters.call s c).2.allowed &&
        lo ≤ c.call.now && c.call.now ≤ hi).toNat +
      limiters.grantedIn name key lo hi (limiters.call s c).1 cs

theorem AppLimiters.grantedIn_append (limiters : AppLimiters) (name : LimiterName) (key : String)
    (lo hi : ℚ) (s : LimiterState) (cs ds : List AppCall) :
    limiters.grantedIn name key lo hi s (cs ++ ds) = limiters.grantedIn name key lo hi s cs +
      limiters.grantedIn name key lo hi (limiters.after s cs) ds := by
  induction cs generalizing s with
  | nil => exact (Nat.zero_add _).symm
  | cons c cs ih =>
    rw [List.cons_append, grantedIn, grantedIn, ih, Nat.add_assoc]
    rfl

theorem StandsAs.grantedIn_eq (hL : createLimiters settings connects = .ok limiters)
    (h : StandsAs settings limiters now alone s name) (key : String) (lo hi : ℚ)
    {calls : List AppCall} (hnow : ∀ c ∈ calls, now ≤ (AppCall.call c).now)
    (hcalls : calls.Pairwise fun c d => c.call.now ≤ d.call.now) :
    limiters.grantedIn name key lo hi s calls =
      (memoryBackend (settings.rpm name)).grantedIn key lo hi alone (callsOf name calls) := by
  induction calls generalizing now alone s with
  | nil => rfl
  | cons c cs ih =>
    obtain ⟨hc, hcs⟩ := List.pairwise_cons.1 hcalls
    have hfirst := hnow c List.mem_cons_self
    rw [AppLimiters.grantedIn, callsOf, List.filter_cons]
    by_cases hname : c.limiter = name
    · subst hname
      obtain ⟨hstands, hanswer⟩ := h.call_same hL hfirst
      rw [if_pos (decide_eq_true rfl), List.map_cons, InMemoryRateLimit.grantedIn, hanswer.allowed,
        ih hstands hc hcs, decide_eq_true (rfl : c.limiter = c.limiter), Bool.true_and]
      rfl
    · have hstands := (h.call_other hL (Ne.symm hname)).later hfirst
      rw [if_neg (by simpa using hname), ih hstands hc hcs, decide_eq_false hname, Bool.false_and,
        Bool.false_and, Bool.false_and, Bool.false_and, Bool.false_and]
      exact Nat.zero_add _

theorem memory_grantedIn_le (hn : 1 ≤ n) {calls : List RateLimitCall} (hcalls : InOrder calls)
    (key : String) {lo hi : ℚ} (hle : lo ≤ hi) :
    ((memoryBackend n).grantedIn key lo hi .empty calls : ℚ) ≤ n + n / 60 * (hi - lo) := by
  have hr : 0 < (memoryBackend n).requestsPerMinute := hn
  have hbucket := memoryBackend_bucket hn
  have hcapacity : (memoryBackend n).bucket.capacity = n := by rw [hbucket]
  have hrate : (memoryBackend n).bucket.rate = n / 60 := by rw [hbucket]
  obtain ⟨now, hnow⟩ := exists_reading_le hcalls
  rw [InMemoryRateLimit.grantedIn_eq hr, ← hrate]
  conv_rhs => rw [← hcapacity]
  apply Bucket.grantedIn_le (InMemoryRateLimit.capacity_nonneg _)
    (InMemoryRateLimit.refillPerSecond_nonneg _) (InMemoryRateLimit.Sound.empty _ now key) _ _ hle
  · exact List.pairwise_map.2 (hcalls.filter _)
  · intro u hu
    obtain ⟨c, hc, rfl⟩ := List.mem_map.1 hu
    exact hnow c (List.mem_filter.1 hc).1

/-- No window sees more grants of a limiter to a key than a full bucket and what flows in. -/
theorem AppLimiters.grantedIn_le (hL : createLimiters settings connects = .ok limiters)
    (hn : 1 ≤ settings.rpm name) {calls : List AppCall}
    (hcalls : calls.Pairwise fun c d => c.call.now ≤ d.call.now) (key : String) {lo hi : ℚ}
    (hle : lo ≤ hi) : (limiters.grantedIn name key lo hi {} calls : ℚ) ≤
      settings.rpm name + settings.rpm name / 60 * (hi - lo) := by
  have hordered : InOrder (calls.map AppCall.call) := List.pairwise_map.2 hcalls
  obtain ⟨now, hnow⟩ := exists_reading_le hordered
  have hstands : StandsAs settings limiters now .empty {} name := by
    rw [StandsAs]
    split
    · rfl
    · exact fun _ => .empty _ _ _
  rw [hstands.grantedIn_eq hL key lo hi (fun c hc => hnow _ (List.mem_map_of_mem hc)) hcalls]
  exact memory_grantedIn_le hn (List.pairwise_map.2 (hcalls.filter _)) key hle

end AiServing
