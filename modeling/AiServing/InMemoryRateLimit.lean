import AiServing.Dictionary
import AiServing.RateLimitBase
import AiServing.TokenBucket

namespace AiServing
open Dictionary TokenBucket
set_option autoImplicit true

structure InMemoryRateLimit where
  requestsPerMinute : Int
  deriving DecidableEq, Repr

namespace InMemoryRateLimit

structure Bucket where
  tokens : ℚ
  updatedAt : ℚ
  deriving DecidableEq, Repr

/-- The attribute `_buckets`. -/
abbrev Buckets := Dict String Bucket

def capacity (r : InMemoryRateLimit) : ℚ := (max r.requestsPerMinute 0 : Int)

def refillPerSecond (r : InMemoryRateLimit) : ℚ := if 0 < r.capacity then r.capacity / 60 else 0

def refillBucket (r : InMemoryRateLimit) (buckets : Buckets) (key : String) (now : ℚ)
    (create : Bool) : Buckets × Option Bucket :=
  match buckets.get? key, create with
  | none, false => (buckets, none)
  | found, _ =>
    let bucket := found.getD ⟨r.capacity, now⟩
    let elapsed := now - bucket.updatedAt
    let bucket : Bucket := ⟨min r.capacity (bucket.tokens + elapsed * r.refillPerSecond), now⟩
    (buckets.set key bucket, some bucket)

def resultForBucket (r : InMemoryRateLimit) : Option Bucket → RateLimitResult
  | none => ⟨true, 0, .unlimited⟩
  | some bucket =>
    if 1 ≤ bucket.tokens then ⟨true, 0, .count ⌊bucket.tokens⌋.toNat⟩
    else ⟨false, max ((1 - bucket.tokens) / r.refillPerSecond) 1, .count 0⟩

def preview (r : InMemoryRateLimit) (buckets : Buckets) (key : String) (now : ℚ) :
    Buckets × RateLimitResult :=
  if r.requestsPerMinute ≤ 0 then (buckets, ⟨true, 0, .unlimited⟩)
  else
    let (buckets, bucket) := r.refillBucket buckets key now false
    (buckets, r.resultForBucket bucket)

def allow (r : InMemoryRateLimit) (buckets : Buckets) (key : String) (now : ℚ) :
    Buckets × RateLimitResult :=
  if r.requestsPerMinute ≤ 0 then (buckets, ⟨true, 0, .unlimited⟩)
  else
    match r.refillBucket buckets key now true with
    | (buckets, none) => (buckets, ⟨true, 0, .unlimited⟩)
    | (buckets, some bucket) =>
      if 1 ≤ bucket.tokens then
        let bucket := { bucket with tokens := bucket.tokens - 1 }
        (buckets.set key bucket, ⟨true, 0, .count ⌊bucket.tokens⌋.toNat⟩)
      else (buckets, r.resultForBucket (some bucket))

def call (r : InMemoryRateLimit) (buckets : Buckets) (c : RateLimitCall) :
    Buckets × RateLimitResult :=
  match c.method with
  | .allow => r.allow buckets c.key c.now
  | .preview => r.preview buckets c.key c.now

def after (r : InMemoryRateLimit) (buckets : Buckets) (calls : List RateLimitCall) : Buckets :=
  calls.foldl (fun buckets c => (r.call buckets c).1) buckets

/-- The allow calls on `key` between two readings that are answered allowed. -/
def grantedIn (r : InMemoryRateLimit) (key : String) (lo hi : ℚ) (buckets : Buckets) :
    List RateLimitCall → Nat
  | [] => 0
  | c :: cs =>
    (c.method = .allow && c.key = key && (r.call buckets c).2.allowed && lo ≤ c.now &&
        c.now ≤ hi).toNat +
      r.grantedIn key lo hi (r.call buckets c).1 cs

def bucket (r : InMemoryRateLimit) : TokenBucket.Bucket ℚ := ⟨r.capacity, r.refillPerSecond⟩

/-- What the limiter has noted of the bucket of a key. -/
def noted (buckets : Buckets) (key : String) : Option (Level ℚ) :=
  (buckets.get? key).map fun bucket => ⟨bucket.tokens, bucket.updatedAt⟩

def useOf (c : RateLimitCall) : Use ℚ := ⟨c.method = .allow, c.now⟩

variable {r : InMemoryRateLimit} {buckets : Buckets} {key : String} {now : ℚ} {c : RateLimitCall}

theorem capacity_nonneg (r : InMemoryRateLimit) : 0 ≤ r.capacity :=
  Int.cast_nonneg (le_max_right _ _)

theorem refillPerSecond_nonneg (r : InMemoryRateLimit) : 0 ≤ r.refillPerSecond := by
  rw [refillPerSecond]
  split
  · exact div_nonneg r.capacity_nonneg (by norm_num)
  · exact le_refl _

theorem refillBucket_tokens (r : InMemoryRateLimit) (buckets : Buckets) (key : String) (now : ℚ) :
    let found := (buckets.get? key).getD ⟨r.capacity, now⟩
    min r.capacity (found.tokens + (now - found.updatedAt) * r.refillPerSecond) =
      r.bucket.fillAt (noted buckets key) now := by
  intro found
  have hfound : found = (buckets.get? key).getD ⟨r.capacity, now⟩ := rfl
  cases h : buckets.get? key with
  | none =>
    rw [h, Option.getD_none] at hfound
    rw [hfound, noted, h, sub_self, zero_mul, add_zero, min_self]
    rfl
  | some b =>
    rw [h, Option.getD_some] at hfound
    rw [hfound, noted, h]
    rfl

theorem refillBucket_eq (r : InMemoryRateLimit) (buckets : Buckets) (key : String) (now : ℚ)
    (create : Bool) :
    r.refillBucket buckets key now create =
      if (noted buckets key).isSome || create then
        (buckets.set key ⟨r.bucket.fillAt (noted buckets key) now, now⟩,
          some ⟨r.bucket.fillAt (noted buckets key) now, now⟩)
      else (buckets, none) := by
  rw [← r.refillBucket_tokens, noted, Option.isSome_map]
  unfold refillBucket
  cases buckets.get? key with
  | none => cases create <;> rfl
  | some b => rfl

theorem noted_set (buckets : Buckets) (key : String) (b : Bucket) (k : String) :
    noted (buckets.set key b) k = if k = key then some ⟨b.tokens, b.updatedAt⟩ else noted buckets k := by
  rw [noted, Dict.get?_set]
  split
  · rfl
  · rfl

/-- The answer to a call, from the fill that the bucket has at that time. -/
def resultForFill (r : InMemoryRateLimit) (fill : ℚ) : RateLimitResult :=
  if 1 ≤ fill then ⟨true, 0, .count ⌊fill - 1⌋.toNat⟩
  else ⟨false, max ((1 - fill) / r.refillPerSecond) 1, .count 0⟩

theorem preview_spec (hr : 0 < r.requestsPerMinute) (buckets : Buckets) (key : String) (now : ℚ) :
    let fill := r.bucket.fillAt (noted buckets key) now
    let out := r.preview buckets key now
    (∀ k, noted out.1 k = if k = key then (noted buckets key).map fun _ => ⟨fill, now⟩
      else noted buckets k) ∧
      out.2.allowed = decide (1 ≤ fill) ∧
      out.2.retryAfterSeconds = (r.resultForFill fill).retryAfterSeconds := by
  intro fill out
  have hcap : 1 ≤ r.capacity := by
    rw [capacity, max_eq_left hr.le]
    exact_mod_cast hr
  have hout : out = r.preview buckets key now := rfl
  rw [preview, if_neg (not_le.2 hr), refillBucket_eq] at hout
  cases h : noted buckets key with
  | none =>
    have hfull : fill = r.capacity := by simp only [fill, h]; rfl
    have hout' : out = (buckets, ⟨true, 0, .unlimited⟩) := by rw [hout, h]; rfl
    rw [hout', hfull, resultForFill, if_pos hcap, decide_eq_true hcap]
    refine ⟨fun k => ?_, rfl, rfl⟩
    split
    · next hk => rw [hk]; exact h
    · rfl
  | some v =>
    have hout' : out = (buckets.set key ⟨fill, now⟩, r.resultForBucket (some ⟨fill, now⟩)) := by
      rw [hout, h]; simp only [fill, h]; rfl
    rw [hout']
    refine ⟨fun k => noted_set .., ?_⟩
    rw [resultForBucket, resultForFill]
    split
    · next hfill => exact ⟨(decide_eq_true hfill).symm, rfl⟩
    · next hfill => exact ⟨(decide_eq_false hfill).symm, rfl⟩

theorem allow_spec (hr : 0 < r.requestsPerMinute) (buckets : Buckets) (key : String) (now : ℚ) :
    let fill := r.bucket.fillAt (noted buckets key) now
    let out := r.allow buckets key now
    (∀ k, noted out.1 k = if k = key then some ⟨(take fill).1, now⟩ else noted buckets k) ∧
      out.2 = r.resultForFill fill := by
  intro fill out
  have hout : out = r.allow buckets key now := rfl
  rw [allow, if_neg (not_le.2 hr), refillBucket_eq, Bool.or_true, if_pos rfl] at hout
  simp only [show r.bucket.fillAt (noted buckets key) now = fill from rfl] at hout
  rw [hout, resultForFill, take, resultForBucket]
  split
  · refine ⟨fun k => ?_, rfl⟩
    rw [noted_set, noted_set]
    split
    · rfl
    · rfl
  · exact ⟨fun k => noted_set .., rfl⟩

theorem resultForFill_allowed (r : InMemoryRateLimit) (fill : ℚ) :
    (r.resultForFill fill).allowed = decide (1 ≤ fill) := by
  rw [resultForFill]
  split
  · next h => exact (decide_eq_true h).symm
  · next h => exact (decide_eq_false h).symm

theorem call_spec (hr : 0 < r.requestsPerMinute) (buckets : Buckets) (c : RateLimitCall) :
    let used := r.bucket.use (noted buckets c.key) (useOf c)
    (∀ k, noted (r.call buckets c).1 k = if k = c.key then used.1 else noted buckets k) ∧
      (c.method = .allow && (r.call buckets c).2.allowed) = used.2 := by
  intro used
  obtain ⟨_ | _, key, now⟩ := c
  · obtain ⟨hnoted, hres⟩ := allow_spec hr buckets key now
    refine ⟨hnoted, ?_⟩
    rw [call, hres, resultForFill_allowed]
    simp only [decide_true, Bool.true_and]
    rw [show used = r.bucket.use (noted buckets key) ⟨true, now⟩ from rfl, Bucket.use_draw, take]
    split
    · next h => exact decide_eq_true h
    · next h => exact decide_eq_false h
  · exact ⟨(preview_spec hr buckets key now).1, rfl⟩

theorem noted_inj {other : Buckets} (h : noted buckets key = noted other key) :
    buckets.get? key = other.get? key := by
  refine Option.map_injective (fun b b' hb => ?_) h
  cases b
  cases hb
  rfl

/-- Every bucket holds between nothing and its capacity, as of a time not after `now`. -/
def Sound (r : InMemoryRateLimit) (now : ℚ) (buckets : Buckets) : Prop :=
  ∀ key, r.bucket.Sound now (noted buckets key)

theorem Sound.empty (r : InMemoryRateLimit) (now : ℚ) : r.Sound now .empty := by
  intro key v hv
  cases hv

theorem Sound.call (hr : 0 < r.requestsPerMinute) (h : r.Sound now buckets) (hnow : now ≤ c.now) :
    r.Sound c.now (r.call buckets c).1 := by
  intro key
  rw [(call_spec hr buckets c).1]
  split
  · exact ((h c.key).later hnow).use r.capacity_nonneg r.refillPerSecond_nonneg
  · exact (h key).later hnow

theorem Sound.after (hr : 0 < r.requestsPerMinute) (h : r.Sound now buckets)
    (hnow : ∀ c ∈ calls, now ≤ RateLimitCall.now c)
    (hcalls : calls.Pairwise fun c d => c.now ≤ d.now) :
    ∃ t, r.Sound t (r.after buckets calls) := by
  induction calls generalizing now buckets with
  | nil => exact ⟨now, h⟩
  | cons c cs ih =>
    obtain ⟨hc, hcs⟩ := List.pairwise_cons.1 hcalls
    exact ih (h.call hr (hnow c List.mem_cons_self)) hc hcs

/-- The calls on one key are the uses of one bucket. -/
theorem grantedIn_eq (hr : 0 < r.requestsPerMinute) (key : String) (lo hi : ℚ) (buckets : Buckets)
    (calls : List RateLimitCall) :
    r.grantedIn key lo hi buckets calls = r.bucket.grantedIn lo hi (noted buckets key)
      ((calls.filter fun c => c.key = key).map useOf) := by
  induction calls generalizing buckets with
  | nil => rfl
  | cons c cs ih =>
    obtain ⟨hnoted, hallowed⟩ := call_spec hr buckets c
    rw [grantedIn, ih, hnoted, List.filter_cons]
    by_cases hkey : c.key = key
    · subst hkey
      rw [if_pos rfl, if_pos (decide_eq_true rfl), List.map_cons, Bucket.grantedIn, ← hallowed,
        decide_eq_true (rfl : c.key = c.key), Bool.and_true]
      rfl
    · rw [if_neg (Ne.symm hkey), decide_eq_false hkey, Bool.and_false, Bool.false_and,
        Bool.false_and, Bool.false_and, if_neg Bool.false_ne_true]
      exact Nat.zero_add _

/-- Every bucket stays within its bounds, keys do not touch each other, and no window sees more
grants than a full bucket and what flows in meanwhile. -/
theorem calls_within_bounds (r : InMemoryRateLimit) (calls : List RateLimitCall)
    (hr : 1 ≤ r.requestsPerMinute) (hcalls : calls.Pairwise fun c d => c.now ≤ d.now) :
    (∀ key b, (r.after .empty calls).get? key = some b → 0 ≤ b.tokens ∧ b.tokens ≤ r.capacity) ∧
      (∀ c key, key ≠ c.key →
        (r.call (r.after .empty calls) c).1.get? key = (r.after .empty calls).get? key) ∧
      ∀ key lo hi, lo ≤ hi → (r.grantedIn key lo hi .empty calls : ℚ) ≤
        r.capacity + r.refillPerSecond * (hi - lo) := by
  obtain ⟨now, hnow⟩ := exists_reading_le hcalls
  refine ⟨fun key b hb => ?_, fun c key hkey => ?_, fun key lo hi hle => ?_⟩
  · obtain ⟨t, ht⟩ := (Sound.empty r now).after hr hnow hcalls
    have hnoted : noted (r.after .empty calls) key = some ⟨b.tokens, b.updatedAt⟩ := by
      rw [noted, hb]; rfl
    exact ⟨(ht key _ hnoted).1, (ht key _ hnoted).2.1⟩
  · apply noted_inj
    rw [(call_spec hr _ c).1, if_neg hkey]
  · rw [grantedIn_eq hr]
    refine Bucket.grantedIn_le (b := r.bucket) r.capacity_nonneg r.refillPerSecond_nonneg
      (Sound.empty r now key) ?_ ?_ hle
    · exact List.pairwise_map.2 (hcalls.filter _)
    · intro u hu
      obtain ⟨c, hc, rfl⟩ := List.mem_map.1 hu
      exact hnow c (List.mem_filter.1 hc).1

theorem calls_within_bounds_mixed :
    let r : InMemoryRateLimit := ⟨2⟩
    let calls : List RateLimitCall := [⟨.preview, "a", 0⟩, ⟨.allow, "a", 0⟩, ⟨.allow, "b", 1⟩,
      ⟨.allow, "a", 1⟩, ⟨.preview, "a", 30⟩, ⟨.allow, "a", 31⟩]
    (∀ key b, (r.after .empty calls).get? key = some b → 0 ≤ b.tokens ∧ b.tokens ≤ r.capacity) ∧
      (∀ c key, key ≠ c.key →
        (r.call (r.after .empty calls) c).1.get? key = (r.after .empty calls).get? key) ∧
      ∀ key lo hi, lo ≤ hi → (r.grantedIn key lo hi .empty calls : ℚ) ≤
        r.capacity + r.refillPerSecond * (hi - lo) := by
  intro r calls
  exact calls_within_bounds r calls (by decide) (by decide +kernel)

end InMemoryRateLimit
end AiServing
