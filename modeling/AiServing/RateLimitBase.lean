import Mathlib.Algebra.Order.Floor.Ring
import Mathlib.Data.Rat.Floor

namespace AiServing
set_option autoImplicit true

inductive Remaining where
  | count (n : Nat)
  | unlimited
  deriving DecidableEq, Repr

structure RateLimitResult where
  allowed : Bool
  retryAfterSeconds : ℚ := 0
  remaining : Remaining := .count 0
  deriving DecidableEq, Repr

/-- The seconds in a `Retry-After` header, in `enforce_rate_limit` and the middleware alike. -/
def RateLimitResult.retryAfter (result : RateLimitResult) : Int := max 1 ⌈result.retryAfterSeconds⌉

/-- `enforce_rate_limit`: the header of the error that it raises. -/
def enforceRateLimit (result : RateLimitResult) : Option Int :=
  if result.allowed then none else some result.retryAfter

/-- `PreAuthRateLimitMiddleware._rate_limit_response`, down to its header. -/
def rateLimitResponse (result : RateLimitResult) : Int := result.retryAfter

inductive RateLimitMethod where
  | allow
  | preview
  deriving DecidableEq, Repr

/-- One call of a backend, at a reading of the clock. -/
structure RateLimitCall where
  method : RateLimitMethod
  key : String
  now : ℚ
  deriving DecidableEq, Repr

theorem exists_reading_le {calls : List RateLimitCall}
    (h : calls.Pairwise fun c d => c.now ≤ d.now) : ∃ now, ∀ c ∈ calls, now ≤ c.now := by
  cases calls with
  | nil => exact ⟨0, fun c hc => nomatch hc⟩
  | cons c cs =>
    refine ⟨c.now, fun d hd => ?_⟩
    rcases List.mem_cons.1 hd with rfl | hd
    · exact le_refl _
    · exact (List.pairwise_cons.1 h).1 d hd

end AiServing
