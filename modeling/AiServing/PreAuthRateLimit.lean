import AiServing.InMemoryRateLimit
import AiServing.Transitions

namespace AiServing
open TokenBucket Transitions
set_option autoImplicit true

/-- Where a request stands in `dispatch`: in `call_next`, before and after the application has
looked at its credential, or answered. -/
inductive DispatchPoint where
  | forwarded
  | evaluated
  | answered (status : Nat)
  deriving DecidableEq, Repr

/-- A request and the status that the application has for it, 401 when its credential fails. -/
structure PreAuthRequest where
  key : String
  status : Nat
  point : DispatchPoint
  deriving DecidableEq, Repr

/-- A request of the client whose credential fails. -/
def PreAuthRequest.guesses (q : PreAuthRequest) (key : String) : Bool :=
  q.key = key && q.status = 401

def PreAuthRequest.pending (key : String) (q : PreAuthRequest) : Bool :=
  q.guesses key && (q.point = .forwarded || q.point = .evaluated)

def PreAuthRequest.uncharged (key : String) (q : PreAuthRequest) : Bool :=
  q.guesses key && q.point = .evaluated

inductive PreAuthAction where
  | preview (key : String) (status : Nat)
  | evaluate (id : Nat)
  | respond (id : Nat)
  deriving DecidableEq, Repr

/-- A step of one of the requests; the steps of all of them read one clock. -/
structure PreAuthStep where
  action : PreAuthAction
  now : ℚ
  deriving DecidableEq, Repr

/-- `PreAuthRateLimitMiddleware`; a request is its place in `requests`. -/
structure PreAuthRateLimit where
  limiter : InMemoryRateLimit
  buckets : InMemoryRateLimit.Buckets := .empty
  requests : List PreAuthRequest := []

namespace PreAuthRateLimit

/-- `dispatch`, up to the call of `call_next`. -/
def preview (m : PreAuthRateLimit) (key : String) (status : Nat) (now : ℚ) : PreAuthRateLimit :=
  if m.limiter.requestsPerMinute ≤ 0 then
    { m with requests := m.requests ++ [⟨key, status, .forwarded⟩] }
  else
    let (buckets, preview) := m.limiter.preview m.buckets key now
    if preview.allowed then
      { m with buckets := buckets, requests := m.requests ++ [⟨key, status, .forwarded⟩] }
    else { m with buckets := buckets, requests := m.requests ++ [⟨key, status, .answered 429⟩] }

def move (m : PreAuthRateLimit) (id : Nat) (q : PreAuthRequest) (point : DispatchPoint) :
    PreAuthRateLimit :=
  { m with requests := m.requests.set id { q with point := point } }

/-- `dispatch`, from the return of `call_next`. -/
def respond (m : PreAuthRateLimit) (id : Nat) (q : PreAuthRequest) (now : ℚ) : PreAuthRateLimit :=
  if m.limiter.requestsPerMinute ≤ 0 then m.move id q (.answered q.status)
  else if q.status = 401 then
    let (buckets, charged) := m.limiter.allow m.buckets q.key now
    if charged.allowed then { m with buckets := buckets }.move id q (.answered q.status)
    else { m with buckets := buckets }.move id q (.answered 429)
  else m.move id q (.answered q.status)

def step (m : PreAuthRateLimit) (a : PreAuthStep) : Option PreAuthRateLimit :=
  match a.action with
  | .preview key status => some (m.preview key status a.now)
  | .evaluate id =>
    match m.requests[id]? with
    | some q => if q.point = .forwarded then some (m.move id q .evaluated) else none
    | none => none
  | .respond id =>
    match m.requests[id]? with
    | some q => if q.point = .evaluated then some (m.respond id q a.now) else none
    | none => none

/-- The client's guesses that have passed the preview and are not charged yet. -/
def inFlight (m : PreAuthRateLimit) (key : String) : Nat :=
  m.requests.countP (PreAuthRequest.pending key)

/-- Those of them whose credential has been evaluated. -/
def uncharged (m : PreAuthRateLimit) (key : String) : Nat :=
  m.requests.countP (PreAuthRequest.uncharged key)

def fill (m : PreAuthRateLimit) (key : String) (now : ℚ) : ℚ :=
  m.limiter.bucket.fillAt (InMemoryRateLimit.noted m.buckets key) now

/-- The guesses of the client that the step evaluates. -/
def evaluates (key : String) (m : PreAuthRateLimit) (a : PreAuthStep) : Nat :=
  match a.action with
  | .evaluate id => (m.requests[id]?.any (PreAuthRequest.guesses · key)).toNat
  | _ => 0

/-- Those that fall between two readings. -/
def evaluatesIn (key : String) (lo hi : ℚ) (m : PreAuthRateLimit) (a : PreAuthStep) : Nat :=
  if lo ≤ a.now ∧ a.now ≤ hi then evaluates key m a else 0

/-- The guesses of the client that a run evaluates between two readings. -/
def evaluatedIn (key : String) (lo hi : ℚ) (m : PreAuthRateLimit) (steps : List PreAuthStep) : Nat :=
  along step (evaluatesIn key lo hi) m steps

/-- A guess passes the preview only while the bucket has a token for it besides one for each of
the client's guesses in flight. -/
def Spare (m : PreAuthRateLimit) (a : PreAuthStep) : Prop :=
  match a.action with
  | .preview key status =>
    status = 401 → 1 ≤ m.fill key a.now → (m.inFlight key : ℚ) + 1 ≤ m.fill key a.now
  | _ => True

instance (m : PreAuthRateLimit) : (a : PreAuthStep) → Decidable (m.Spare a)
  | ⟨.preview _ status, _⟩ => inferInstanceAs (Decidable (status = 401 → _ → _))
  | ⟨.evaluate _, _⟩ => .isTrue trivial
  | ⟨.respond _, _⟩ => .isTrue trivial

variable {m m' : PreAuthRateLimit} {a : PreAuthStep} {key : String} {now t : ℚ}
variable {q : PreAuthRequest} {id : Nat}

theorem uncharged_le_inFlight (m : PreAuthRateLimit) (key : String) :
    m.uncharged key ≤ m.inFlight key := by
  apply List.countP_mono_left
  intro q _ hq
  rw [PreAuthRequest.uncharged, Bool.and_eq_true] at hq
  rw [PreAuthRequest.pending, hq.1, hq.2, Bool.or_true]
  rfl

theorem preview_spec (hr : 0 < m.limiter.requestsPerMinute) (key : String) (status : Nat)
    (now : ℚ) :
    let out := m.preview key status now
    out.limiter = m.limiter ∧
      out.buckets = (m.limiter.preview m.buckets key now).1 ∧
      out.requests = m.requests ++
        [⟨key, status, if 1 ≤ m.fill key now then .forwarded else .answered 429⟩] := by
  intro out
  have hout : out = m.preview key status now := rfl
  obtain ⟨_, hallowed, _⟩ := InMemoryRateLimit.preview_spec hr m.buckets key now
  rw [preview, if_neg (not_le.2 hr)] at hout
  simp only [hallowed] at hout
  rw [hout, fill]
  split
  · next h => rw [if_pos (of_decide_eq_true h)]; exact ⟨rfl, rfl, rfl⟩
  · next h => rw [if_neg (fun hf => h (decide_eq_true hf))]; exact ⟨rfl, rfl, rfl⟩

theorem respond_spec (hr : 0 < m.limiter.requestsPerMinute) (id : Nat) (q : PreAuthRequest)
    (now : ℚ) :
    ∃ status, (m.respond id q now).limiter = m.limiter ∧
      (m.respond id q now).requests = m.requests.set id { q with point := .answered status } ∧
      (m.respond id q now).buckets =
        if q.status = 401 then (m.limiter.allow m.buckets q.key now).1 else m.buckets := by
  rw [respond, if_neg (not_le.2 hr)]
  split
  · rcases m.limiter.allow m.buckets q.key now with ⟨buckets, charged⟩
    cases hc : charged.allowed with
    | true =>
      simp only [hc, if_true]
      exact ⟨_, rfl, rfl, rfl⟩
    | false =>
      simp only [hc, Bool.false_eq_true, if_false]
      exact ⟨_, rfl, rfl, rfl⟩
  · exact ⟨_, rfl, rfl, rfl⟩

theorem countP_set_add {l : List α} (h : l[i]? = some x) (p : α → Bool) (y : α) :
    (l.set i y).countP p + (p x).toNat = l.countP p + (p y).toNat := by
  obtain ⟨hi, hx⟩ := List.getElem?_eq_some_iff.1 h
  have hle := List.boole_getElem_le_countP (p := p) hi
  have hset := List.countP_set (p := p) (a := y) hi
  rw [hx] at hle hset
  rw [hset]
  cases hpx : p x <;> cases hpy : p y <;> simp_all

/-- At `now` the bucket of every client covers its guesses in flight. -/
structure Covered (m : PreAuthRateLimit) (now : ℚ) : Prop where
  sound : m.limiter.Sound now m.buckets
  covered : ∀ key, (m.inFlight key : ℚ) ≤ m.fill key now

theorem Covered.later (h : m.Covered now) (hle : now ≤ t) : m.Covered t where
  sound key := (h.sound key).later hle
  covered key := (h.covered key).trans
    (Bucket.fillAt_mono (b := m.limiter.bucket) m.limiter.refillPerSecond_nonneg hle)

/-- What a step does to the tokens of a client, to its guesses in flight, and to those of them that
still have to be charged. -/
structure Effect (m m' : PreAuthRateLimit) (a : PreAuthStep) : Prop where
  limiter : m'.limiter = m.limiter
  sound : m'.limiter.Sound a.now m'.buckets
  covered : ∀ key, (m'.inFlight key : ℚ) ≤ m'.fill key a.now
  balance : ∀ key, m'.fill key a.now + (m.uncharged key + evaluates key m a : ℕ) =
    m.fill key a.now + m'.uncharged key

theorem preview_effect (hr : 0 < m.limiter.requestsPerMinute) (h : m.Covered now)
    (hs : m.Spare ⟨.preview key status, now⟩) :
    Effect m (m.preview key status now) ⟨.preview key status, now⟩ := by
  obtain ⟨hlim, hbuckets, hrequests⟩ := preview_spec hr key status now
  have hnoted := (InMemoryRateLimit.preview_spec hr m.buckets key now).1
  have hfill (k : String) : (m.preview key status now).fill k now = m.fill k now := by
    rw [fill, hlim, hbuckets, hnoted]
    split
    · next hk =>
      rw [hk]
      exact Bucket.fillAt_noted (b := m.limiter.bucket) m.limiter.refillPerSecond_nonneg (le_refl now)
    · rfl
  refine ⟨hlim, ?_, fun k => ?_, fun k => ?_⟩
  · rw [hlim, hbuckets]
    exact h.sound.call (c := ⟨.preview, key, now⟩) hr (le_refl now)
  · rw [hfill, inFlight, hrequests, List.countP_append, List.countP_singleton]
    by_cases hnew : PreAuthRequest.pending k
        ⟨key, status, if 1 ≤ m.fill key now then .forwarded else .answered 429⟩
    · rw [if_pos hnew]
      simp only [PreAuthRequest.pending, PreAuthRequest.guesses, Bool.and_eq_true,
        decide_eq_true_eq] at hnew
      obtain ⟨⟨rfl, hstatus⟩, hpoint⟩ := hnew
      have hpass : 1 ≤ m.fill key now := by
        by_contra hn
        rw [if_neg hn] at hpoint
        cases hpoint
      exact_mod_cast hs hstatus hpass
    · rw [if_neg hnew]
      exact h.covered k
  · have hnew : ¬ PreAuthRequest.uncharged k
        ⟨key, status, if 1 ≤ m.fill key now then .forwarded else .answered 429⟩ := by
      rw [PreAuthRequest.uncharged, Bool.and_eq_true, not_and]
      intro _
      split
      · exact Bool.false_ne_true
      · exact Bool.false_ne_true
    rw [hfill, uncharged, uncharged, hrequests, List.countP_append, List.countP_singleton,
      if_neg hnew]
    rfl

theorem evaluate_effect (h : m.Covered now) (hq : m.requests[id]? = some q)
    (hpoint : q.point = .forwarded) :
    Effect m (m.move id q .evaluated) ⟨.evaluate id, now⟩ where
  limiter := rfl
  sound := h.sound
  covered k := by
    have hset := countP_set_add hq (PreAuthRequest.pending k) { q with point := .evaluated }
    have hsame : PreAuthRequest.pending k { q with point := .evaluated } =
        PreAuthRequest.pending k q := by
      rw [PreAuthRequest.pending, PreAuthRequest.pending, hpoint]
      rfl
    rw [hsame] at hset
    have hcount : (m.move id q .evaluated).inFlight k = m.inFlight k := Nat.add_right_cancel hset
    rw [hcount]
    exact h.covered k
  balance k := by
    have hset := countP_set_add hq (PreAuthRequest.uncharged k) { q with point := .evaluated }
    have hold : PreAuthRequest.uncharged k q = false := by
      rw [PreAuthRequest.uncharged, hpoint]
      exact Bool.and_false _
    have hnew : PreAuthRequest.uncharged k { q with point := .evaluated } = q.guesses k :=
      Bool.and_true _
    rw [hold, hnew, Bool.toNat_false, Nat.add_zero] at hset
    have hev : evaluates k m ⟨.evaluate id, now⟩ = (q.guesses k).toNat := by
      simp only [evaluates, hq, Option.any_some]
    have hcount : (m.move id q .evaluated).uncharged k = m.uncharged k + (q.guesses k).toNat := hset
    rw [hev, hcount]
    rfl

theorem respond_fill (hr : 0 < m.limiter.requestsPerMinute) (h : m.Covered now)
    (hq : m.requests[id]? = some q) (hpoint : q.point = .evaluated) (k : String) :
    (m.respond id q now).fill k now + ((q.guesses k).toNat : ℚ) = m.fill k now := by
  obtain ⟨status, hlim, _, hbuckets⟩ := respond_spec hr id q now
  rw [fill, hlim, hbuckets, PreAuthRequest.guesses]
  by_cases hstatus : q.status = 401
  · rw [if_pos hstatus, decide_eq_true hstatus, Bool.and_true,
      (InMemoryRateLimit.allow_spec hr m.buckets q.key now).1]
    by_cases hk : k = q.key
    · subst hk
      have hpending : PreAuthRequest.pending q.key q := by
        simp [PreAuthRequest.pending, PreAuthRequest.guesses, hstatus, hpoint]
      have hone : 1 ≤ m.inFlight q.key := List.countP_pos_iff.2
        ⟨q, List.mem_of_getElem? hq, hpending⟩
      have htoken : 1 ≤ m.fill q.key now := by
        have hcast : (1 : ℚ) ≤ m.inFlight q.key := Nat.one_le_cast.2 hone
        exact hcast.trans (h.covered q.key)
      have htake : (take (m.fill q.key now)).1 = m.fill q.key now - 1 := by
        rw [take, if_pos htoken]
      have hle : m.fill q.key now - 1 ≤ m.limiter.bucket.capacity :=
        (sub_le_self _ zero_le_one).trans (Bucket.fillAt_le_capacity _ _ _)
      rw [if_pos rfl, decide_eq_true rfl]
      rw [fill] at htake hle
      rw [htake, Bucket.fillAt_some_self hle, fill]
      simp
    · rw [if_neg hk, decide_eq_false (Ne.symm hk)]
      simp [fill]
  · rw [if_neg hstatus, decide_eq_false hstatus, Bool.and_false]
    simp [fill]

theorem respond_effect (hr : 0 < m.limiter.requestsPerMinute) (h : m.Covered now)
    (hq : m.requests[id]? = some q) (hpoint : q.point = .evaluated) :
    Effect m (m.respond id q now) ⟨.respond id, now⟩ := by
  obtain ⟨status, hlim, hrequests, hbuckets⟩ := respond_spec hr id q now
  have hpending (k : String) :
      (m.respond id q now).inFlight k + (q.guesses k).toNat = m.inFlight k := by
    have hset := countP_set_add hq (PreAuthRequest.pending k) { q with point := .answered status }
    have hold : PreAuthRequest.pending k q = q.guesses k := by
      rw [PreAuthRequest.pending, hpoint]
      exact Bool.and_true _
    have hnew : PreAuthRequest.pending k { q with point := .answered status } = false :=
      Bool.and_false _
    rw [hold, hnew] at hset
    rw [inFlight, hrequests, hset]
    rfl
  have huncharged (k : String) :
      (m.respond id q now).uncharged k + (q.guesses k).toNat = m.uncharged k := by
    have hset := countP_set_add hq (PreAuthRequest.uncharged k) { q with point := .answered status }
    have hold : PreAuthRequest.uncharged k q = q.guesses k := by
      rw [PreAuthRequest.uncharged, hpoint]
      exact Bool.and_true _
    have hnew : PreAuthRequest.uncharged k { q with point := .answered status } = false :=
      Bool.and_false _
    rw [hold, hnew] at hset
    rw [uncharged, hrequests, hset]
    rfl
  refine ⟨hlim, ?_, fun k => ?_, fun k => ?_⟩
  · rw [hlim, hbuckets]
    split
    · exact h.sound.call (c := ⟨.allow, q.key, now⟩) hr (le_refl now)
    · exact h.sound
  · have hfill := respond_fill hr h hq hpoint k
    have hcount : ((m.respond id q now).inFlight k : ℚ) + ((q.guesses k).toNat : ℚ) =
        m.inFlight k := by exact_mod_cast hpending k
    have hcovered := h.covered k
    linarith
  · have hfill := respond_fill hr h hq hpoint k
    have hcount : ((m.respond id q now).uncharged k : ℚ) + ((q.guesses k).toNat : ℚ) =
        m.uncharged k := by exact_mod_cast huncharged k
    have hnone : evaluates k m ⟨.respond id, now⟩ = 0 := rfl
    rw [hnone, Nat.add_zero]
    linarith

theorem step_effect (hr : 0 < m.limiter.requestsPerMinute) (h : m.Covered a.now)
    (hs : m.Spare a) (hstep : step m a = some m') : Effect m m' a := by
  obtain ⟨action, now⟩ := a
  cases action with
  | preview key status =>
    cases hstep
    exact preview_effect hr h hs
  | evaluate id =>
    simp only [step] at hstep
    cases hq : m.requests[id]? with
    | none => rw [hq] at hstep; cases hstep
    | some q =>
      simp only [hq] at hstep
      split at hstep
      · next hpoint =>
        cases hstep
        exact evaluate_effect h hq hpoint
      · cases hstep
  | respond id =>
    simp only [step] at hstep
    cases hq : m.requests[id]? with
    | none => rw [hq] at hstep; cases hstep
    | some q =>
      simp only [hq] at hstep
      split at hstep
      · next hpoint =>
        cases hstep
        exact respond_effect hr h hq hpoint
      · cases hstep

theorem Effect.next (h : Effect m m' a) : m'.Covered a.now := ⟨h.sound, h.covered⟩

variable {u : PreAuthRateLimit} {steps : List PreAuthStep} {lo hi : ℚ}

theorem evaluatesIn_le (key : String) (lo hi : ℚ) (m : PreAuthRateLimit) (a : PreAuthStep) :
    evaluatesIn key lo hi m a ≤ evaluates key m a := by
  rw [evaluatesIn]
  split
  · exact le_refl _
  · exact Nat.zero_le _

theorem along_late (m : PreAuthRateLimit) (h : ∀ a ∈ steps, hi < PreAuthStep.now a) :
    evaluatedIn key lo hi m steps = 0 := by
  induction steps generalizing m with
  | nil => rfl
  | cons a as ih =>
    have hlate : ¬ (lo ≤ a.now ∧ a.now ≤ hi) := fun hc => (h a List.mem_cons_self).not_ge hc.2
    rw [evaluatedIn, along, evaluatesIn, if_neg hlate, Nat.zero_add]
    cases step m a with
    | none => rfl
    | some m' => exact ih m' fun b hb => h b (List.mem_cons_of_mem _ hb)

theorem along_cons_late (m : PreAuthRateLimit) (ha : ∀ b ∈ steps, a.now ≤ b.now)
    (hlate : hi < a.now) : evaluatedIn key lo hi m (a :: steps) = 0 := by
  apply along_late
  intro b hb
  rcases List.mem_cons.1 hb with rfl | hb
  · exact hlate
  · exact hlate.trans_le (ha b hb)

theorem evaluatedIn_cons (hm' : step m a = some m') :
    evaluatedIn key lo hi m (a :: steps) =
      evaluatesIn key lo hi m a + evaluatedIn key lo hi m' steps := by
  rw [evaluatedIn, along, hm', Option.elim_some, evaluatedIn]

/-- Inside the window, the guesses still to be evaluated are paid for by the tokens there are, less
those owed already. -/
theorem evaluated_le_fill (hr : 0 < m.limiter.requestsPerMinute) (h : m.Covered now)
    (hrun : run step m steps = some u) (hs : Always step Spare m steps)
    (hsteps : steps.Pairwise fun a b => a.now ≤ b.now) (hnow : ∀ a ∈ steps, now ≤ a.now)
    (hhi : now ≤ hi) :
    (evaluatedIn key lo hi m steps : ℚ) ≤
      m.fill key now - m.uncharged key + m.limiter.refillPerSecond * (hi - now) := by
  have howed : 0 ≤ m.fill key now - (m.uncharged key : ℚ) := by
    have hle : (m.uncharged key : ℚ) ≤ m.inFlight key := Nat.cast_le.2 (m.uncharged_le_inFlight key)
    exact sub_nonneg.2 (hle.trans (h.covered key))
  have hflow : 0 ≤ m.limiter.refillPerSecond * (hi - now) :=
    mul_nonneg m.limiter.refillPerSecond_nonneg (sub_nonneg.2 hhi)
  induction steps generalizing m now with
  | nil =>
    rw [evaluatedIn, along, Nat.cast_zero]
    exact add_nonneg howed hflow
  | cons a as ih =>
    obtain ⟨ha, has⟩ := List.pairwise_cons.1 hsteps
    rcases lt_or_ge hi a.now with hlate | hin
    · rw [along_cons_late m ha hlate, Nat.cast_zero]
      exact add_nonneg howed hflow
    · obtain ⟨m', hm', hrest⟩ := run_cons.1 hrun
      have hpast := hnow a List.mem_cons_self
      have heff := step_effect hr (h.later hpast) hs.1 hm'
      have hle : (m'.uncharged key : ℚ) ≤ m'.inFlight key :=
        Nat.cast_le.2 (m'.uncharged_le_inFlight key)
      have htail := ih (heff.limiter ▸ hr) heff.next hrest (hs.2 m' hm') has ha hin
        (sub_nonneg.2 (hle.trans (heff.covered key)))
        (mul_nonneg m'.limiter.refillPerSecond_nonneg (sub_nonneg.2 hin))
      have hgrow : m.fill key a.now ≤
          m.fill key now + m.limiter.refillPerSecond * (a.now - now) :=
        Bucket.fillAt_le_add (b := m.limiter.bucket) m.limiter.refillPerSecond_nonneg
          (h.sound key) hpast
      have hbalance := heff.balance key
      have hcount : (evaluatesIn key lo hi m a : ℚ) ≤ evaluates key m a :=
        Nat.cast_le.2 (evaluatesIn_le key lo hi m a)
      rw [heff.limiter] at htail
      rw [evaluatedIn_cons hm', Nat.cast_add]
      push_cast at hbalance
      linarith

/-- From any time before the window on, a full bucket and what flows in pay for the guesses. -/
theorem evaluated_le (hr : 0 < m.limiter.requestsPerMinute) (h : m.Covered now)
    (hrun : run step m steps = some u) (hs : Always step Spare m steps)
    (hsteps : steps.Pairwise fun a b => a.now ≤ b.now) (hnow : ∀ a ∈ steps, now ≤ a.now)
    (hle : lo ≤ hi) : (evaluatedIn key lo hi m steps : ℚ) ≤
      m.limiter.capacity + m.limiter.refillPerSecond * (hi - lo) := by
  have hbound : 0 ≤ m.limiter.capacity + m.limiter.refillPerSecond * (hi - lo) :=
    add_nonneg m.limiter.capacity_nonneg
      (mul_nonneg m.limiter.refillPerSecond_nonneg (sub_nonneg.2 hle))
  induction steps generalizing m now with
  | nil =>
    rw [evaluatedIn, along, Nat.cast_zero]
    exact hbound
  | cons a as ih =>
    obtain ⟨ha, has⟩ := List.pairwise_cons.1 hsteps
    have hpast := h.later (hnow a List.mem_cons_self)
    rcases lt_or_ge a.now lo with hearly | hlo
    · obtain ⟨m', hm', hrest⟩ := run_cons.1 hrun
      have heff := step_effect hr hpast hs.1 hm'
      have hout : ¬ (lo ≤ a.now ∧ a.now ≤ hi) := fun hc => hearly.not_ge hc.1
      have htail := ih (heff.limiter ▸ hr) heff.next hrest (hs.2 m' hm') has ha
        (heff.limiter.symm ▸ hbound)
      rw [heff.limiter] at htail
      rw [evaluatedIn_cons hm', evaluatesIn, if_neg hout, Nat.zero_add]
      exact htail
    · rcases lt_or_ge hi a.now with hlate | hin
      · rw [along_cons_late m ha hlate, Nat.cast_zero]
        exact hbound
      · have hfirst : ∀ b ∈ a :: as, a.now ≤ b.now := by
          intro b hb
          rcases List.mem_cons.1 hb with rfl | hb
          · exact le_refl _
          · exact ha b hb
        have hfill : (evaluatedIn key lo hi m (a :: as) : ℚ) ≤ _ :=
          evaluated_le_fill hr hpast hrun hs hsteps hfirst hin
        have hfull : m.fill key a.now ≤ m.limiter.capacity :=
          Bucket.fillAt_le_capacity m.limiter.bucket _ _
        have hwindow := mul_le_mul_of_nonneg_left (sub_le_sub_left hlo hi)
          m.limiter.refillPerSecond_nonneg
        have howed : (0 : ℚ) ≤ m.uncharged key := Nat.cast_nonneg _
        linarith

def start (limiter : InMemoryRateLimit) : PreAuthRateLimit := { limiter := limiter }

theorem Covered.start (limiter : InMemoryRateLimit) (now : ℚ) :
    (PreAuthRateLimit.start limiter).Covered now where
  sound := .empty limiter now
  covered _ := Nat.cast_zero.trans_le limiter.capacity_nonneg

/-- Two guesses pass the preview before either is charged, and both are evaluated. -/
theorem evaluated_by_two_at_once :
    let limiter : InMemoryRateLimit := ⟨1⟩
    let steps : List PreAuthStep := [⟨.preview "ip" 401, 0⟩, ⟨.preview "ip" 401, 0⟩,
      ⟨.evaluate 0, 0⟩, ⟨.evaluate 1, 0⟩, ⟨.respond 0, 0⟩, ⟨.respond 1, 0⟩]
    (run step (start limiter) steps).isSome ∧
      limiter.capacity + limiter.refillPerSecond * (0 - 0) <
        (evaluatedIn "ip" 0 0 (start limiter) steps : ℚ) := by
  decide +kernel

/-- While guesses pass the preview only against tokens that none in flight will take, no window
sees more of them evaluated than a full bucket and what flows in meanwhile. -/
theorem evaluated_le_of_spare {limiter : InMemoryRateLimit}
    (hr : 1 ≤ limiter.requestsPerMinute) (hrun : run step (start limiter) steps = some u)
    (hsteps : steps.Pairwise fun a b => a.now ≤ b.now)
    (hs : Always step Spare (start limiter) steps) (key : String) (hle : lo ≤ hi) :
    (evaluatedIn key lo hi (start limiter) steps : ℚ) ≤
      limiter.capacity + limiter.refillPerSecond * (hi - lo) := by
  have hfirst : ∃ now, ∀ a ∈ steps, now ≤ a.now := by
    cases steps with
    | nil => exact ⟨0, nofun⟩
    | cons a as =>
      refine ⟨a.now, fun b hb => ?_⟩
      rcases List.mem_cons.1 hb with rfl | hb
      · exact le_refl _
      · exact (List.pairwise_cons.1 hsteps).1 b hb
  obtain ⟨now, hnow⟩ := hfirst
  exact evaluated_le hr (.start limiter now) hrun hs hsteps hnow hle

theorem evaluated_le_of_spare_in_turn :
    let limiter : InMemoryRateLimit := ⟨2⟩
    let steps : List PreAuthStep := [⟨.preview "ip" 401, 0⟩, ⟨.preview "ip" 401, 0⟩,
      ⟨.evaluate 0, 0⟩, ⟨.evaluate 1, 1⟩, ⟨.respond 1, 2⟩, ⟨.respond 0, 3⟩, ⟨.preview "ip" 401, 4⟩]
    (evaluatedIn "ip" 0 1 (start limiter) steps : ℚ) ≤
      limiter.capacity + limiter.refillPerSecond * (1 - 0) := by
  intro limiter steps
  have hrun : (run step (start limiter) steps).isSome := by decide +kernel
  obtain ⟨u, hu⟩ := Option.isSome_iff_exists.1 hrun
  exact evaluated_le_of_spare (by decide) hu (by decide +kernel) (by decide +kernel) "ip"
    (by norm_num)

end PreAuthRateLimit
end AiServing
