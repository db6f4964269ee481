import Mathlib.Algebra.Order.Field.Basic
import Mathlib.Algebra.BigOperators.Group.List.Basic
import Mathlib.Tactic.Linarith

namespace TokenBucket
set_option autoImplicit true

variable {K : Type} [Field K] [LinearOrder K]

/-- A cap on the fill and the rate at which the fill grows. -/
structure Bucket (K : Type) where
  capacity : K
  rate : K

variable {b : Bucket K} {tokens elapsed ts now f : K} {gaps nows : List K}

/-- The fill after `elapsed` seconds. -/
def Bucket.refill (b : Bucket K) (tokens elapsed : K) : K :=
  min b.capacity (tokens + elapsed * b.rate)

def take (tokens : K) : K × Bool :=
  if 1 ≤ tokens then (tokens - 1, true) else (tokens, false)

def Bucket.draw (b : Bucket K) (tokens elapsed : K) : K × Bool := take (b.refill tokens elapsed)

/-- The draws granted when `gaps` are the times between them. -/
def Bucket.grants (b : Bucket K) (tokens : K) : List K → Nat
  | [] => 0
  | gap :: gaps =>
    (b.draw tokens gap).2.toNat + b.grants (b.draw tokens gap).1 gaps

/-- A fill and the time it was noted at. -/
structure Level (K : Type) where
  tokens : K
  since : K

/-- The fill at `now`; a bucket of which nothing is noted is full. -/
def Bucket.fillAt (b : Bucket K) (l : Option (Level K)) (now : K) : K :=
  l.elim b.capacity fun l => b.refill l.tokens (now - l.since)

/-- A draw, or a look that only brings a noted fill up to date. -/
structure Use (K : Type) where
  draws : Bool
  now : K

def Bucket.use (b : Bucket K) (l : Option (Level K)) (u : Use K) : Option (Level K) × Bool :=
  let out := take (b.fillAt l u.now)
  if u.draws then (some ⟨out.1, u.now⟩, out.2)
  else (l.map fun _ => ⟨b.fillAt l u.now, u.now⟩, false)

/-- The draws granted between two times. -/
def Bucket.grantedIn (b : Bucket K) (lo hi : K) (l : Option (Level K)) : List (Use K) → Nat
  | [] => 0
  | u :: us =>
    ((b.use l u).2 && lo ≤ u.now && u.now ≤ hi).toNat + b.grantedIn lo hi (b.use l u).1 us

/-- The forward movements of a clock that stood at `ts` and then shows `nows`. -/
def advances (ts : K) : List K → List K
  | [] => []
  | now :: nows => max (now - ts) 0 :: advances now nows

theorem take_fst_add (tokens : K) : (take tokens).1 + ((take tokens).2.toNat : K) = tokens := by
  rw [take]
  split
  · simp
  · simp

theorem Bucket.refill_le (b : Bucket K) (tokens elapsed : K) :
    b.refill tokens elapsed ≤ tokens + elapsed * b.rate :=
  min_le_right _ _

theorem Bucket.refill_le_capacity (b : Bucket K) (tokens elapsed : K) :
    b.refill tokens elapsed ≤ b.capacity :=
  min_le_left _ _

theorem Bucket.draw_le (b : Bucket K) (tokens elapsed : K) :
    (b.draw tokens elapsed).1 + ((b.draw tokens elapsed).2.toNat : K) ≤
      tokens + elapsed * b.rate :=
  (take_fst_add _).trans_le (b.refill_le tokens elapsed)

theorem advances_nonneg (h : f ∈ advances ts nows) : 0 ≤ f := by
  induction nows generalizing ts with
  | nil => cases h
  | cons now nows ih =>
    rcases List.mem_cons.1 h with rfl | h
    · exact le_max_right _ _
    · exact ih h

/-- What is known of a bucket is within bounds, and not from the future. -/
def Bucket.Sound (b : Bucket K) (now : K) (l : Option (Level K)) : Prop :=
  ∀ v ∈ l, 0 ≤ v.tokens ∧ v.tokens ≤ b.capacity ∧ v.since ≤ now

variable {l : Option (Level K)} {u : Use K} {us : List (Use K)} {lo hi t : K}

theorem Bucket.Sound.later (h : b.Sound now l) (hle : now ≤ t) : b.Sound t l := by
  intro v hv
  obtain ⟨h₀, hcap, hsince⟩ := h v hv
  exact ⟨h₀, hcap, hsince.trans hle⟩

theorem Bucket.fillAt_le_capacity (b : Bucket K) (l : Option (Level K)) (now : K) :
    b.fillAt l now ≤ b.capacity := by
  cases l with
  | none => exact le_refl _
  | some v => exact b.refill_le_capacity _ _

theorem Bucket.fillAt_some_self (h : tokens ≤ b.capacity) :
    b.fillAt (some ⟨tokens, now⟩) now = tokens := by
  rw [fillAt, Option.elim_some, refill, sub_self, zero_mul, add_zero, min_eq_right h]

theorem Bucket.use_draw (b : Bucket K) (l : Option (Level K)) (now : K) :
    b.use l ⟨true, now⟩ = (some ⟨(take (b.fillAt l now)).1, now⟩, (take (b.fillAt l now)).2) := rfl

theorem Bucket.use_look (b : Bucket K) (l : Option (Level K)) (now : K) :
    b.use l ⟨false, now⟩ = (l.map fun _ => ⟨b.fillAt l now, now⟩, false) := rfl

theorem Bucket.grantedIn_eq_zero (h : ∀ u ∈ us, hi < Use.now u) :
    b.grantedIn lo hi l us = 0 := by
  induction us generalizing l with
  | nil => rfl
  | cons u us ih =>
    rw [grantedIn, ih fun v hv => h v (List.mem_cons_of_mem _ hv),
      decide_eq_false (not_le.2 (h u List.mem_cons_self)), Bool.and_false]
    rfl

theorem Bucket.grantedIn_cons_eq_zero (hu : ∀ v ∈ us, u.now ≤ v.now) (hlate : hi < u.now) :
    b.grantedIn lo hi l (u :: us) = 0 := by
  apply Bucket.grantedIn_eq_zero
  intro v hv
  rcases List.mem_cons.1 hv with rfl | hv
  · exact hlate
  · exact hlate.trans_le (hu v hv)

variable [IsStrictOrderedRing K]

theorem take_fst_nonneg (h : 0 ≤ tokens) : 0 ≤ (take tokens).1 := by
  rw [take]
  split
  · exact sub_nonneg.2 ‹_›
  · exact h

theorem Bucket.refill_nonneg (hcap : 0 ≤ b.capacity) (hrate : 0 ≤ b.rate) (ht : 0 ≤ tokens)
    (he : 0 ≤ elapsed) : 0 ≤ b.refill tokens elapsed :=
  le_min hcap (add_nonneg ht (mul_nonneg he hrate))

theorem Bucket.draw_nonneg (hcap : 0 ≤ b.capacity) (hrate : 0 ≤ b.rate) (ht : 0 ≤ tokens)
    (he : 0 ≤ elapsed) : 0 ≤ (b.draw tokens elapsed).1 :=
  take_fst_nonneg (Bucket.refill_nonneg hcap hrate ht he)

theorem Bucket.grants_le (hcap : 0 ≤ b.capacity) (hrate : 0 ≤ b.rate) (ht : 0 ≤ tokens)
    (hgaps : ∀ gap ∈ gaps, 0 ≤ gap) :
    (b.grants tokens gaps : K) ≤ tokens + b.rate * gaps.sum := by
  induction gaps generalizing tokens with
  | nil => simpa [Bucket.grants] using ht
  | cons gap gaps ih =>
    have hgap := hgaps gap List.mem_cons_self
    have hnext := Bucket.draw_nonneg hcap hrate ht hgap
    have hrest := ih hnext fun g hg => hgaps g (List.mem_cons_of_mem _ hg)
    have hstep := b.draw_le tokens gap
    rw [Bucket.grants, Nat.cast_add, List.sum_cons]
    linarith

theorem advances_sum_le {hi : K} (h : (ts :: nows).IsChain (· ≤ ·)) (hts : ts ≤ hi)
    (hhi : ∀ now ∈ nows, now ≤ hi) : (advances ts nows).sum ≤ hi - ts := by
  induction nows generalizing ts with
  | nil => simpa [advances] using hts
  | cons now nows ih =>
    rw [List.isChain_cons_cons] at h
    have hrest := ih h.2 (hhi now List.mem_cons_self) fun n hn => hhi n (List.mem_cons_of_mem _ hn)
    rw [advances, List.sum_cons, max_eq_left (sub_nonneg.2 h.1)]
    linarith

/-- A bucket left alone for long enough is full. -/
theorem Bucket.refill_eq_capacity (ht : 0 ≤ tokens) (h : b.capacity ≤ elapsed * b.rate) :
    b.refill tokens elapsed = b.capacity :=
  min_eq_left (h.trans (le_add_of_nonneg_left ht))

/-- Refilling in two goes is refilling once. -/
theorem Bucket.refill_refill (hrate : 0 ≤ b.rate) (he : 0 ≤ f) :
    b.refill (b.refill tokens elapsed) f = b.refill tokens (elapsed + f) := by
  have hgain : 0 ≤ f * b.rate := mul_nonneg he hrate
  rw [refill, refill, refill, ← min_add_add_right, ← min_assoc,
    min_eq_left (le_add_of_nonneg_right hgain), add_mul, add_assoc]

theorem Bucket.fillAt_nonneg (hcap : 0 ≤ b.capacity) (hrate : 0 ≤ b.rate) (h : b.Sound now l) :
    0 ≤ b.fillAt l now := by
  cases l with
  | none => exact hcap
  | some v =>
    obtain ⟨h₀, _, hsince⟩ := h v rfl
    exact Bucket.refill_nonneg hcap hrate h₀ (sub_nonneg.2 hsince)

theorem Bucket.fillAt_noted (hrate : 0 ≤ b.rate) (hle : now ≤ t) :
    b.fillAt (l.map fun _ => ⟨b.fillAt l now, now⟩) t = b.fillAt l t := by
  cases l with
  | none => rfl
  | some v =>
    rw [Option.map_some, fillAt, fillAt, fillAt, Option.elim_some, Option.elim_some,
      Option.elim_some, b.refill_refill hrate (sub_nonneg.2 hle), add_comm, sub_add_sub_cancel]

theorem Bucket.fillAt_mono (hrate : 0 ≤ b.rate) (hle : now ≤ t) :
    b.fillAt l now ≤ b.fillAt l t := by
  cases l with
  | none => exact le_refl _
  | some v =>
    apply min_le_min_left
    gcongr

theorem Bucket.fillAt_le_add (hrate : 0 ≤ b.rate) (h : b.Sound now l) (hle : now ≤ t) :
    b.fillAt l t ≤ b.fillAt l now + b.rate * (t - now) := by
  have hgain : 0 ≤ b.rate * (t - now) := mul_nonneg hrate (sub_nonneg.2 hle)
  cases l with
  | none => exact le_add_of_nonneg_right hgain
  | some v =>
    have hpast := b.fillAt_noted (l := some v) hrate hle
    rw [← hpast, mul_comm]
    exact b.refill_le _ _

theorem take_fst_le (tokens : K) : (take tokens).1 ≤ tokens := by
  rw [take]
  split
  · exact sub_le_self _ zero_le_one
  · exact le_refl _

theorem Bucket.Sound.use (hcap : 0 ≤ b.capacity) (hrate : 0 ≤ b.rate) (h : b.Sound u.now l) :
    b.Sound u.now (b.use l u).1 := by
  obtain ⟨_ | _, now⟩ := u
  · rw [b.use_look]
    intro v hv
    obtain ⟨w, _, rfl⟩ := Option.map_eq_some_iff.1 hv
    exact ⟨Bucket.fillAt_nonneg hcap hrate h, b.fillAt_le_capacity l now, le_refl _⟩
  · rw [b.use_draw]
    intro v hv
    obtain rfl := Option.some.inj hv
    exact ⟨take_fst_nonneg (Bucket.fillAt_nonneg hcap hrate h),
      (take_fst_le _).trans (b.fillAt_le_capacity l now), le_refl _⟩

theorem Bucket.fillAt_use (hrate : 0 ≤ b.rate) :
    b.fillAt (b.use l u).1 u.now + ((b.use l u).2.toNat : K) = b.fillAt l u.now := by
  obtain ⟨_ | _, now⟩ := u
  · rw [b.use_look]
    simpa using b.fillAt_noted (l := l) hrate (le_refl now)
  · rw [b.use_draw, b.fillAt_some_self ((take_fst_le _).trans (b.fillAt_le_capacity l now))]
    exact take_fst_add _

theorem Bucket.grantedIn_le_fill (hcap : 0 ≤ b.capacity) (hrate : 0 ≤ b.rate)
    (h : b.Sound now l) (hus : us.Pairwise fun u v => u.now ≤ v.now) (hnow : ∀ u ∈ us, now ≤ u.now)
    (hhi : now ≤ hi) : (b.grantedIn lo hi l us : K) ≤ b.fillAt l now + b.rate * (hi - now) := by
  have hfill : 0 ≤ b.fillAt l now + b.rate * (hi - now) :=
    add_nonneg (Bucket.fillAt_nonneg hcap hrate h) (mul_nonneg hrate (sub_nonneg.2 hhi))
  induction us generalizing now l with
  | nil => simpa [Bucket.grantedIn] using hfill
  | cons u us ih =>
    obtain ⟨hu, hus⟩ := List.pairwise_cons.1 hus
    have hnow := hnow u List.mem_cons_self
    rcases lt_or_ge hi u.now with hlate | hin
    · rw [Bucket.grantedIn_cons_eq_zero hu hlate, Nat.cast_zero]
      exact hfill
    · have hsound := (h.later hnow).use (u := u) hcap hrate
      have hleft : 0 ≤ b.fillAt (b.use l u).1 u.now := Bucket.fillAt_nonneg hcap hrate hsound
      have hrest := ih hsound hus hu hin
        (add_nonneg hleft (mul_nonneg hrate (sub_nonneg.2 hin)))
      have huse := b.fillAt_use (l := l) (u := u) hrate
      have hpast := Bucket.fillAt_le_add hrate h hnow
      have hcount : ∀ p q r : Bool, (p && q && r).toNat ≤ p.toNat := by decide
      have hcast : (((b.use l u).2 && decide (lo ≤ u.now) && decide (u.now ≤ hi)).toNat : K) ≤
          ((b.use l u).2.toNat : K) := Nat.cast_le.2 (hcount _ _ _)
      rw [Bucket.grantedIn, Nat.cast_add]
      linarith

/-- The window bound: a full bucket and what flows in during the window. -/
theorem Bucket.grantedIn_le (hcap : 0 ≤ b.capacity) (hrate : 0 ≤ b.rate) (h : b.Sound now l)
    (hus : us.Pairwise fun u v => u.now ≤ v.now) (hnow : ∀ u ∈ us, now ≤ u.now) (hle : lo ≤ hi) :
    (b.grantedIn lo hi l us : K) ≤ b.capacity + b.rate * (hi - lo) := by
  have hbound : 0 ≤ b.capacity + b.rate * (hi - lo) :=
    add_nonneg hcap (mul_nonneg hrate (sub_nonneg.2 hle))
  induction us generalizing now l with
  | nil => simpa [Bucket.grantedIn] using hbound
  | cons u us ih =>
    have hu := List.pairwise_cons.1 hus
    have hsound := h.later (hnow u List.mem_cons_self)
    rcases lt_or_ge u.now lo with hearly | hlo
    · rw [Bucket.grantedIn, decide_eq_false (not_le.2 hearly), Bool.and_false, Bool.false_and,
        Bool.toNat_false, Nat.zero_add]
      exact ih (hsound.use hcap hrate) hu.2 hu.1
    · rcases lt_or_ge hi u.now with hlate | hin
      · rw [Bucket.grantedIn_cons_eq_zero hu.1 hlate, Nat.cast_zero]
        exact hbound
      · have hfirst : ∀ v ∈ u :: us, u.now ≤ v.now := by
          intro v hv
          rcases List.mem_cons.1 hv with rfl | hv
          · exact le_refl _
          · exact hu.1 v hv
        have hgranted : (b.grantedIn lo hi l (u :: us) : K) ≤ _ :=
          Bucket.grantedIn_le_fill hcap hrate hsound hus hfirst hin
        have hfull := b.fillAt_le_capacity l u.now
        have hwindow := mul_le_mul_of_nonneg_left (sub_le_sub_left hlo hi) hrate
        linarith

end TokenBucket
