import AiServing.Dictionary
import AiServing.RateLimitBase
import AiServing.TokenBucket

namespace AiServing
open Dictionary TokenBucket
set_option autoImplicit true

/-- The fields the scripts keep under one key. -/
structure BucketHash where
  tokens : ℚ
  ts : ℚ
  deriving DecidableEq, Repr

/-- What a script returns, before its numbers are turned into text and back. -/
structure ScriptResult where
  allowed : Bool
  remaining : Int
  retryAfter : ℚ
  deriving DecidableEq, Repr

/-- `_ALLOW_SCRIPT`, from the bucket that HMGET finds to the one that HSET stores. -/
def ALLOW_SCRIPT (capacity refillPerSecond now : ℚ) (bucket : Option BucketHash) :
    BucketHash × ScriptResult :=
  let found := bucket.getD ⟨capacity, now⟩
  let elapsed := if now - found.ts < 0 then 0 else now - found.ts
  let refilled := found.tokens + elapsed * refillPerSecond
  let tokens := if refilled > capacity then capacity else refilled
  if 1 ≤ tokens then
    (⟨tokens - 1, now⟩, ⟨true, ⌊tokens - 1⌋, 0⟩)
  else
    (⟨tokens, now⟩, ⟨false, ⌊tokens⌋, (1 - tokens) / refillPerSecond⟩)

/-- `_PREVIEW_SCRIPT`, which stores nothing. -/
def PREVIEW_SCRIPT (capacity refillPerSecond now : ℚ) (bucket : Option BucketHash) : ScriptResult :=
  let found := bucket.getD ⟨capacity, now⟩
  let elapsed := if now - found.ts < 0 then 0 else now - found.ts
  let refilled := found.tokens + elapsed * refillPerSecond
  let tokens := if refilled > capacity then capacity else refilled
  if 1 ≤ tokens then ⟨true, ⌊tokens⌋, 0⟩
  else ⟨false, ⌊tokens⌋, (1 - tokens) / refillPerSecond⟩

/-- The server's hashes and the times at which they expire. -/
structure RedisServer where
  hashes : Dict String BucketHash
  deadlines : Dict String ℚ

def RedisServer.empty : RedisServer := ⟨.empty, .empty⟩

structure RedisTokenBucketRateLimit where
  requestsPerMinute : Int
  refill : Option ℚ := none
  keyPrefix : String := "rl:"
  ttlSeconds : Int := 5 * 60

namespace RedisTokenBucketRateLimit

def capacity (r : RedisTokenBucketRateLimit) : ℚ := (max r.requestsPerMinute 0 : Int)

def refillPerSecond (r : RedisTokenBucketRateLimit) : ℚ :=
  match r.refill with
  | some rate => rate
  | none => if 0 < r.capacity then r.capacity / 60 else 0

/-- One call as the server sees it: the worker's reading `now` and the server's own `clock`. -/
structure Call where
  key : String
  now : ℚ
  clock : ℚ

/-- `_parse_script_result`, with exact conversions. -/
def parseScriptResult (res : ScriptResult) : Bool × Nat × ℚ :=
  (res.allowed, (max res.remaining 0).toNat, res.retryAfter)

def allow (r : RedisTokenBucketRateLimit) (s : RedisServer) (c : Call) :
    RedisServer × RateLimitResult :=
  if r.requestsPerMinute ≤ 0 then (s, ⟨true, 0, .unlimited⟩)
  else
    let name := r.keyPrefix ++ c.key
    let out := ALLOW_SCRIPT r.capacity r.refillPerSecond c.now (s.hashes.get? name)
    let (allowed, remaining, retryAfter) := parseScriptResult out.2
    (⟨s.hashes.set name out.1, s.deadlines.set name (c.clock + r.ttlSeconds)⟩,
      ⟨allowed, if allowed then 0 else max retryAfter 0, .count remaining⟩)

def preview (r : RedisTokenBucketRateLimit) (s : RedisServer) (c : Call) : RateLimitResult :=
  if r.requestsPerMinute ≤ 0 then ⟨true, 0, .unlimited⟩
  else
    let out := PREVIEW_SCRIPT r.capacity r.refillPerSecond c.now
      (s.hashes.get? (r.keyPrefix ++ c.key))
    let (allowed, remaining, retryAfter) := parseScriptResult out
    ⟨allowed, if allowed then 0 else max retryAfter 0, .count remaining⟩

/-- The calls on `key` that a run answers allowed. -/
def granted (r : RedisTokenBucketRateLimit) (key : String) (s : RedisServer) : List Call → Nat
  | [] => 0
  | c :: cs =>
    (c.key = key && (r.allow s c).2.allowed).toNat + r.granted key (r.allow s c).1 cs

def readings (key : String) (calls : List Call) : List ℚ :=
  (calls.filter fun c => c.key = key).map Call.now

/-- The largest reading less the smallest. -/
def spread (nows : List ℚ) : ℚ := nows.max?.getD 0 - nows.min?.getD 0

/-- No call on `key` carries a reading behind the one stored with its bucket. -/
def NeverBehind (r : RedisTokenBucketRateLimit) (key : String) (s : RedisServer) :
    List Call → Prop
  | [] => True
  | c :: cs =>
    (c.key = key → ∀ h ∈ s.hashes.get? (r.keyPrefix ++ key), h.ts ≤ c.now) ∧
      r.NeverBehind key (r.allow s c).1 cs

instance NeverBehind.decidable (r : RedisTokenBucketRateLimit) (key : String) (s : RedisServer) :
    (calls : List Call) → Decidable (r.NeverBehind key s calls)
  | [] => .isTrue trivial
  | c :: cs =>
    have := NeverBehind.decidable r key (r.allow s c).1 cs
    inferInstanceAs (Decidable (_ ∧ _))

def bucket (r : RedisTokenBucketRateLimit) : Bucket ℚ := ⟨r.capacity, r.refillPerSecond⟩

variable {r : RedisTokenBucketRateLimit} {s : RedisServer} {c : Call} {calls : List Call}

theorem script_tokens (r : RedisTokenBucketRateLimit) (now : ℚ) (found : BucketHash) :
    let elapsed := if now - found.ts < 0 then 0 else now - found.ts
    let refilled := found.tokens + elapsed * r.refillPerSecond
    (if refilled > r.capacity then r.capacity else refilled) =
      r.bucket.refill found.tokens (max (now - found.ts) 0) := by
  intro elapsed refilled
  have he : elapsed = max (now - found.ts) 0 := by
    rcases lt_or_ge (now - found.ts) 0 with h | h
    · exact (if_pos h).trans (max_eq_right h.le).symm
    · exact (if_neg h.not_gt).trans (max_eq_left h).symm
  have hfill : (if refilled > r.capacity then r.capacity else refilled) =
      min r.capacity refilled := by
    rcases lt_or_ge r.capacity refilled with h | h
    · rw [if_pos h, min_eq_left h.le]
    · rw [if_neg h.not_gt, min_eq_right h]
  rw [hfill, show refilled = found.tokens + elapsed * r.refillPerSecond from rfl, he]
  rfl

/-- The script is one draw from the bucket, refilled by the forward part of the elapsed time. -/
theorem allowScript_eq (r : RedisTokenBucketRateLimit) (now : ℚ) (found : Option BucketHash) :
    let b := found.getD ⟨r.capacity, now⟩
    let d := r.bucket.draw b.tokens (max (now - b.ts) 0)
    let out := ALLOW_SCRIPT r.capacity r.refillPerSecond now found
    out.1 = ⟨d.1, now⟩ ∧ out.2.allowed = d.2 := by
  intro b d out
  have htokens := r.script_tokens now b
  have hd : d = take (r.bucket.refill b.tokens (max (now - b.ts) 0)) := rfl
  have hout : out = ALLOW_SCRIPT r.capacity r.refillPerSecond now found := rfl
  simp only [ALLOW_SCRIPT, ← show b = found.getD ⟨r.capacity, now⟩ from rfl, htokens] at hout
  rw [hd, hout, take]
  split
  · exact ⟨rfl, rfl⟩
  · exact ⟨rfl, rfl⟩

theorem allow_get?_same (hr : 0 < r.requestsPerMinute) :
    let b := (s.hashes.get? (r.keyPrefix ++ c.key)).getD ⟨r.capacity, c.now⟩
    let d := r.bucket.draw b.tokens (max (c.now - b.ts) 0)
    (r.allow s c).1.hashes.get? (r.keyPrefix ++ c.key) = some ⟨d.1, c.now⟩ ∧
      (r.allow s c).2.allowed = d.2 := by
  intro b d
  obtain ⟨hstored, hallowed⟩ := r.allowScript_eq c.now (s.hashes.get? (r.keyPrefix ++ c.key))
  rw [allow, if_neg (not_le.2 hr)]
  refine ⟨?_, hallowed⟩
  rw [Dict.get?_set, if_pos rfl]
  exact congrArg some hstored

theorem allow_get?_other (hkey : c.key ≠ key) :
    (r.allow s c).1.hashes.get? (r.keyPrefix ++ key) = s.hashes.get? (r.keyPrefix ++ key) := by
  rw [allow]
  split
  · rfl
  · have hname : r.keyPrefix ++ key ≠ r.keyPrefix ++ c.key := by
      intro h
      exact hkey ((String.append_right_inj _).1 h).symm
    exact (Dict.get?_set ..).trans (if_neg hname)

theorem readings_cons (key : String) (c : Call) (cs : List Call) :
    readings key (c :: cs) = if c.key = key then c.now :: readings key cs else readings key cs := by
  rw [readings, List.filter_cons]
  split
  · simp_all [readings]
  · simp_all [readings]

theorem granted_eq_of_stored (hr : 0 < r.requestsPerMinute) {h : BucketHash}
    (hs : s.hashes.get? (r.keyPrefix ++ key) = some h) :
    r.granted key s calls = r.bucket.grants h.tokens (advances h.ts (readings key calls)) := by
  induction calls generalizing s h with
  | nil => rfl
  | cons c cs ih =>
    rw [granted, readings_cons]
    by_cases hkey : c.key = key
    · subst hkey
      obtain ⟨hnext, hallowed⟩ := allow_get?_same (s := s) (c := c) hr
      rw [hs] at hnext hallowed
      rw [ih hnext, hallowed, if_pos rfl, advances, Bucket.grants, decide_eq_true rfl,
        Bool.true_and]
      rfl
    · rw [ih ((allow_get?_other hkey).trans hs), if_neg hkey, decide_eq_false hkey,
        Bool.false_and]
      exact Nat.zero_add _

theorem granted_eq (hr : 0 < r.requestsPerMinute)
    (hs : s.hashes.get? (r.keyPrefix ++ key) = none) :
    r.granted key s calls = r.bucket.grants r.capacity
      (advances ((readings key calls).headD 0) (readings key calls)) := by
  induction calls generalizing s with
  | nil => rfl
  | cons c cs ih =>
    rw [granted, readings_cons]
    by_cases hkey : c.key = key
    · subst hkey
      obtain ⟨hnext, hallowed⟩ := allow_get?_same (s := s) (c := c) hr
      rw [hs] at hnext hallowed
      rw [granted_eq_of_stored hr hnext, hallowed, if_pos rfl, List.headD_cons, advances,
        Bucket.grants, decide_eq_true rfl, Bool.true_and]
      rfl
    · rw [ih ((allow_get?_other hkey).trans hs), if_neg hkey, decide_eq_false hkey,
        Bool.false_and]
      exact Nat.zero_add _

/-- Whatever the clocks do, a run grants no more than a full bucket and all forward movement. -/
theorem granted_le_advances (calls : List Call) (hr : 0 < r.requestsPerMinute)
    (hrate : 0 ≤ r.refillPerSecond)
    (hs : s.hashes.get? (r.keyPrefix ++ key) = none) :
    (r.granted key s calls : ℚ) ≤ r.capacity + r.refillPerSecond *
      (advances ((readings key calls).headD 0) (readings key calls)).sum := by
  have hcap : 0 ≤ r.capacity := Int.cast_nonneg (le_max_right _ _)
  rw [granted_eq hr hs]
  exact Bucket.grants_le (b := r.bucket) hcap hrate hcap fun _ h => advances_nonneg h

theorem NeverBehind.chain (hr : 0 < r.requestsPerMinute) {h : BucketHash}
    (hs : s.hashes.get? (r.keyPrefix ++ key) = some h) (hb : r.NeverBehind key s calls) :
    (h.ts :: readings key calls).IsChain (· ≤ ·) := by
  induction calls generalizing s h with
  | nil => exact .singleton _
  | cons c cs ih =>
    obtain ⟨hc, hrest⟩ := hb
    rw [readings_cons]
    by_cases hkey : c.key = key
    · rw [if_pos hkey, List.isChain_cons_cons]
      have hle := hc hkey h hs
      subst hkey
      obtain ⟨hnext, _⟩ := allow_get?_same (s := s) (c := c) hr
      exact ⟨hle, ih hnext hrest⟩
    · rw [if_neg hkey]
      exact ih ((allow_get?_other hkey).trans hs) hrest

theorem NeverBehind.readings_chain (hr : 0 < r.requestsPerMinute)
    (hs : s.hashes.get? (r.keyPrefix ++ key) = none) (hb : r.NeverBehind key s calls) :
    (readings key calls).IsChain (· ≤ ·) := by
  induction calls generalizing s with
  | nil => exact .nil
  | cons c cs ih =>
    rw [readings_cons]
    by_cases hkey : c.key = key
    · subst hkey
      obtain ⟨hnext, _⟩ := allow_get?_same (s := s) (c := c) hr
      rw [if_pos rfl]
      exact hb.2.chain hr hnext
    · rw [if_neg hkey]
      exact ih ((allow_get?_other hkey).trans hs) hb.2

theorem advances_sum_le_spread {nows : List ℚ} (h : nows.IsChain (· ≤ ·)) :
    (advances (nows.headD 0) nows).sum ≤ spread nows := by
  cases nows with
  | nil => simp [advances, spread]
  | cons now nows =>
    have hmax (n : ℚ) (hn : n ∈ now :: nows) := List.le_max_of_mem hn
    have hmin := List.min_le_of_mem (List.mem_cons_self (a := now) (l := nows))
    have hsum := advances_sum_le (List.isChain_cons_cons.2 ⟨le_refl now, h⟩)
      (hmax now List.mem_cons_self) hmax
    rw [spread, List.max?_eq_some_max (List.cons_ne_nil _ _),
      List.min?_eq_some_min (List.cons_ne_nil _ _)]
    simp only [List.headD_cons, Option.getD_some]
    linarith

/-- A worker whose clock is behind carries the stored reading back, and the time is paid twice. -/
theorem granted_by_two_clocks :
    let r : RedisTokenBucketRateLimit := { requestsPerMinute := 1 }
    let calls : List Call := [⟨"k", 0, 0⟩, ⟨"k", 60, 60⟩, ⟨"k", 0, 60⟩, ⟨"k", 60, 61⟩]
    r.capacity + r.refillPerSecond * spread (readings "k" calls) <
      (r.granted "k" .empty calls : ℚ) := by
  decide +kernel

/-- Worker clocks that never carry the stored reading back keep the bound. -/
theorem granted_le_of_neverBehind (hcap : 1 ≤ r.capacity) (hrate : 0 < r.refillPerSecond)
    (h : r.NeverBehind key .empty calls) :
    (r.granted key .empty calls : ℚ) ≤
      r.capacity + r.refillPerSecond * spread (readings key calls) := by
  have hr : 0 < r.requestsPerMinute := by
    by_contra hn
    rw [capacity, max_eq_right (not_lt.1 hn)] at hcap
    norm_num at hcap
  have hempty : RedisServer.empty.hashes.get? (r.keyPrefix ++ key) = none := rfl
  have hgranted := granted_le_advances calls hr hrate.le hempty
  have hchain := h.readings_chain hr hempty
  have hsum := mul_le_mul_of_nonneg_left (advances_sum_le_spread hchain) hrate.le
  linarith

theorem granted_le_of_neverBehind_minute :
    let r : RedisTokenBucketRateLimit := { requestsPerMinute := 1 }
    let calls : List Call := [⟨"k", 0, 0⟩, ⟨"k", 30, 60⟩, ⟨"k", 60, 61⟩]
    (r.granted "k" .empty calls : ℚ) ≤
      r.capacity + r.refillPerSecond * spread (readings "k" calls) := by
  intro r calls
  apply granted_le_of_neverBehind
  · decide +kernel
  · decide +kernel
  · decide +kernel

end RedisTokenBucketRateLimit
end AiServing
