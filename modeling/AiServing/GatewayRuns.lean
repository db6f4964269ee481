import AiServing.Gateway
import AiServing.PreAuthRateLimit

namespace AiServing
open Transitions
set_option autoImplicit true

namespace Gateway

variable (app : GatewayApp)

def limiterCall (s : Gateway app.settings) (a : GatewayStep app.settings) : Option AppCall :=
  match a.action with
  | .arrive incoming =>
    if 1 ≤ app.limits.preAuthRpmPerIp then
      some ⟨.preAuthRateLimiter, ⟨.preview, incoming.clientIp, a.now⟩⟩
    else none
  | .move id move => s.requests[id]?.bind fun q => q.limiterCall app move a.now
  | .commit _ => none

def limiterCalls (s : Gateway app.settings) : List (GatewayStep app.settings) → List AppCall
  | [] => []
  | a :: as =>
    (s.limiterCall app a).toList ++ (s.step app a).elim [] fun t => t.limiterCalls as

/-- The requests that have taken from a limiter under a key, between two readings. -/
def granted (s : Gateway settings) (name : LimiterName) (key : String) (lo hi : ℚ) : Nat :=
  s.requests.countP fun q => (q.grant name).any fun g => g.1 = key && lo ≤ g.2 && g.2 ≤ hi

/-- The calls of providers by requests under a hash that were admitted between two readings. -/
def providerCalls (s : Gateway settings) (key : String) (lo hi : ℚ) : Nat :=
  (s.requests.map fun q =>
    if (q.grant .rateLimiter).any fun g => g.1 = key && lo ≤ g.2 && g.2 ≤ hi then q.calls.length
    else 0).sum

/-- The requests of a client that are told 401 between two readings. -/
def unauthorized (s : Gateway settings) (ip : String) (lo hi : ℚ) : Nat :=
  s.requests.countP fun q =>
    match q.point with
    | .answered status t => status = 401 && q.incoming.clientIp = ip && lo ≤ t && t ≤ hi
    | _ => false

/-- What a step does to the request with one number. -/
inductive StepAt (s t : Gateway app.settings) (a : GatewayStep app.settings) (id : Nat) : Prop
  | same (hsame : t.requests[id]? = s.requests[id]?) (hother : ∀ move, a.action ≠ .move id move)
  | arrived (incoming : IncomingRequest app.settings) (point : GatewayPoint app.settings)
      (hpoint : point = .forwarded ∨ point = .answered 429 a.now)
      (hs : s.requests[id]? = none)
      (ht : t.requests[id]? = some { incoming := incoming, point := point })
      (hother : ∀ move, a.action ≠ .move id move)
  | moved (move : GatewayMove) (q q' : GatewayRequest app.settings) (ha : a.action = .move id move)
      (hs : s.requests[id]? = some q)
      (hadvance : q.advance app s.shared a.now move = some (t.shared, q'))
      (ht : t.requests[id]? = some q')

variable {app : GatewayApp} {s t u : Gateway app.settings} {a : GatewayStep app.settings}
  {steps : List (GatewayStep app.settings)} {q q' : GatewayRequest app.settings} {id : Nat}

theorem arrive_cases {incoming : IncomingRequest app.settings} {shared shared' : SharedState}
    (h : shared.arrive app incoming now = (shared', q)) :
    (∃ point, (point = .forwarded ∨ point = .answered 429 now) ∧
      q = { incoming := incoming, point := point }) ∧
    shared'.limits = (if 1 ≤ app.limits.preAuthRpmPerIp then
      some (AppCall.mk .preAuthRateLimiter ⟨.preview, incoming.clientIp, now⟩) else none).elim
        shared.limits fun c => (app.limiters.call shared.limits c).1 := by
  rw [SharedState.arrive] at h
  split at h
  · next hoff =>
    cases h
    exact ⟨⟨_, .inl rfl, rfl⟩, by rw [if_neg (by omega)]; rfl⟩
  · next hon =>
    rw [if_pos (by omega), Option.elim_some]
    cases hcall : app.limiters.call shared.limits
        ⟨.preAuthRateLimiter, ⟨.preview, incoming.clientIp, now⟩⟩ with
    | mk limits preview =>
      rw [hcall] at h
      dsimp only at h
      split at h
      · cases h
        exact ⟨⟨_, .inl rfl, rfl⟩, rfl⟩
      · cases h
        exact ⟨⟨_, .inr rfl, rfl⟩, rfl⟩

theorem step_move {move : GatewayMove} {now : ℚ} (h : s.step app ⟨.move id move, now⟩ = some t) :
    ∃ q q', s.requests[id]? = some q ∧ q.advance app s.shared now move = some (t.shared, q') ∧
      t.requests = s.requests.set id q' := by
  obtain ⟨q, hq, hmap⟩ := Option.bind_eq_some_iff.1 h
  obtain ⟨⟨shared, q'⟩, hadvance, heq⟩ := Option.map_eq_some_iff.1 hmap
  cases heq
  exact ⟨q, q', hq, hadvance, rfl⟩

theorem step_at (h : s.step app a = some t) (id : Nat) : StepAt app s t a id := by
  obtain ⟨action, now⟩ := a
  cases action with
  | commit db =>
    cases h
    exact .same rfl fun _ => nofun
  | arrive incoming =>
    cases harrive : s.shared.arrive app incoming now with
    | mk shared q =>
      rw [step] at h
      simp only [harrive] at h
      cases h
      obtain ⟨⟨point, hpoint, rfl⟩, _⟩ := arrive_cases harrive
      rcases Nat.lt_trichotomy id s.requests.length with hlt | heq | hgt
      · exact .same (List.getElem?_append_left hlt) fun _ => nofun
      · refine .arrived incoming point hpoint ?_ ?_ fun _ => nofun
        · rw [heq, List.getElem?_eq_none (Nat.le_refl _)]
        · rw [heq, List.getElem?_append_right (Nat.le_refl _), Nat.sub_self]
          rfl
      · refine .same ?_ fun _ => nofun
        rw [List.getElem?_eq_none (Nat.le_of_lt hgt), List.getElem?_eq_none]
        rw [List.length_append]
        exact hgt
  | move id' move =>
    obtain ⟨q, q', hq, hadvance, hset⟩ := step_move h
    by_cases hid : id' = id
    · subst hid
      refine .moved move q q' rfl hq hadvance ?_
      rw [hset, List.getElem?_set_self (List.getElem?_eq_some_iff.1 hq).1]
    · refine .same ?_ ?_
      · rw [hset, List.getElem?_set_ne hid]
      · intro move' heq
        cases heq
        exact hid rfl

theorem granted_fresh {point : GatewayPoint settings} {incoming : IncomingRequest settings}
    (hpoint : point = .forwarded ∨ point = .answered 429 now) (name : LimiterName) :
    GatewayRequest.grant { incoming := incoming, point := point } name = none := by
  cases name with
  | rateLimiter => rfl
  | preAuthRateLimiter =>
    rcases hpoint with rfl | rfl
    · rfl
    · rfl

theorem step_granted (h : s.step app a = some t) {name : LimiterName}
    (hon : 1 ≤ app.limits.rpm name) (key : String) (lo hi : ℚ) :
    t.shared.limits = app.limiters.after s.shared.limits (s.limiterCall app a).toList ∧
      t.granted name key lo hi ≤ s.granted name key lo hi +
        app.limiters.grantedIn name key lo hi s.shared.limits (s.limiterCall app a).toList := by
  obtain ⟨action, now⟩ := a
  cases action with
  | commit db =>
    cases h
    exact ⟨rfl, Nat.le_add_right _ _⟩
  | arrive incoming =>
    cases harrive : s.shared.arrive app incoming now with
    | mk shared q =>
      rw [step] at h
      simp only [harrive] at h
      cases h
      obtain ⟨⟨point, hpoint, rfl⟩, hlimits⟩ := arrive_cases harrive
      constructor
      · rw [hlimits, limiterCall]
        dsimp only
        split
        · rfl
        · rfl
      · rw [granted, List.countP_append, List.countP_singleton, granted_fresh hpoint name]
        exact Nat.le_add_right _ _
  | move id move =>
    obtain ⟨q, q', hq, hadvance, hset⟩ := step_move h
    have heffect := advance_effect hadvance
    have hcall : s.limiterCall app ⟨.move id move, now⟩ = q.limiterCall app move now := by
      rw [limiterCall]
      dsimp only
      rw [hq, Option.bind_some]
    rw [hcall]
    constructor
    · rw [heffect.limits]
      cases q.limiterCall app move now with
      | none => rfl
      | some c => rfl
    · have hcount := PreAuthRateLimit.countP_set_add hq
        (fun q => (q.grant name).any fun g => g.1 = key && lo ≤ g.2 && g.2 ≤ hi) q'
      rw [granted, hset]
      rcases heffect.grant name hon with hsame | hnone | ⟨c, hc, hname, hmethod, hallowed, hgrant⟩
      · rw [hsame] at hcount
        have heq : (s.requests.set id q').countP (fun q => (q.grant name).any fun g =>
            g.1 = key && lo ≤ g.2 && g.2 ≤ hi) = s.granted name key lo hi :=
          Nat.add_right_cancel hcount
        rw [heq]
        exact Nat.le_add_right _ _
      · rw [hnone, Option.any_none, Bool.toNat_false] at hcount
        exact (Nat.le_add_right _ _).trans (hcount.le.trans (Nat.le_add_right _ _))
      · rw [Option.mem_def] at hc
        rw [hc, Option.toList_some, AppLimiters.grantedIn, AppLimiters.grantedIn, hname, hmethod,
          hallowed, decide_eq_true rfl, decide_eq_true rfl, Bool.true_and, Bool.and_true]
        rw [hgrant, Option.any_some] at hcount
        exact (Nat.le_add_right _ _).trans hcount.le

theorem run_granted (hrun : run (step app) s steps = some u) {name : LimiterName}
    (hon : 1 ≤ app.limits.rpm name) (key : String) (lo hi : ℚ) :
    u.granted name key lo hi ≤ s.granted name key lo hi +
      app.limiters.grantedIn name key lo hi s.shared.limits (s.limiterCalls app steps) := by
  induction steps generalizing s with
  | nil =>
    obtain rfl := Option.some.inj hrun
    exact Nat.le_add_right _ _
  | cons a as ih =>
    obtain ⟨t, ht, hrest⟩ := run_cons.1 hrun
    obtain ⟨hlimits, hgranted⟩ := step_granted ht hon key lo hi
    have htail := ih hrest
    rw [hlimits] at htail
    rw [limiterCalls, ht, Option.elim_some, AppLimiters.grantedIn_append]
    omega

theorem limiterCall_now {c : AppCall} (h : s.limiterCall app a = some c) : c.call.now = a.now := by
  obtain ⟨action, now⟩ := a
  cases action with
  | commit db => cases h
  | arrive incoming =>
    obtain ⟨_, heq⟩ := Option.ite_none_right_eq_some.1 h
    cases heq
    rfl
  | move id move =>
    obtain ⟨q, _, hq⟩ := Option.bind_eq_some_iff.1 h
    unfold GatewayRequest.limiterCall at hq
    split at hq
    · cases hq
      rfl
    · split at hq
      · cases hq
        rfl
      · cases hq
    · cases hq

theorem limiterCalls_now {c : AppCall} (h : c ∈ s.limiterCalls app steps) :
    ∃ a ∈ steps, c.call.now = a.now := by
  induction steps generalizing s with
  | nil => cases h
  | cons a as ih =>
    rw [limiterCalls, List.mem_append, Option.mem_toList] at h
    rcases h with h | h
    · exact ⟨a, List.mem_cons_self, limiterCall_now h⟩
    · cases ht : s.step app a with
      | none =>
        rw [ht] at h
        cases h
      | some t =>
        rw [ht] at h
        obtain ⟨b, hb, hnow⟩ := ih h
        exact ⟨b, List.mem_cons_of_mem a hb, hnow⟩

theorem limiterCalls_inOrder (hsteps : steps.Pairwise fun a b => a.now ≤ b.now) :
    (s.limiterCalls app steps).Pairwise fun c d => c.call.now ≤ d.call.now := by
  induction steps generalizing s with
  | nil => exact .nil
  | cons a as ih =>
    obtain ⟨ha, has⟩ := List.pairwise_cons.1 hsteps
    rw [limiterCalls, List.pairwise_append]
    refine ⟨?_, ?_, ?_⟩
    · cases s.limiterCall app a with
      | none => exact .nil
      | some c => exact List.pairwise_singleton _ c
    · cases s.step app a with
      | none => exact .nil
      | some t => exact ih has
    · intro c hc d hd
      cases ht : s.step app a with
      | none =>
        rw [ht] at hd
        cases hd
      | some t =>
        rw [ht] at hd
        obtain ⟨b, hb, hnow⟩ := limiterCalls_now hd
        rw [limiterCall_now (Option.mem_toList.1 hc), hnow]
        exact ha b hb

/-- From its start on, a gateway takes no more from a limiter than a full bucket and what flows in. -/
theorem granted_le {db : Database} {streams : StreamLimiter} (name : LimiterName)
    (hrun : run (step app) (start app db streams) steps = some u)
    (hsteps : steps.Pairwise fun a b => a.now ≤ b.now) (hon : 1 ≤ app.limits.rpm name)
    (key : String) {lo hi : ℚ} (hle : lo ≤ hi) :
    (u.granted name key lo hi : ℚ) ≤
      app.limits.rpm name + app.limits.rpm name / 60 * (hi - lo) := by
  have htaken := run_granted hrun hon key lo hi
  have hgrants := AppLimiters.grantedIn_le app.built hon
    (limiterCalls_inOrder (s := start app db streams) hsteps) key hle
  have hstart : (start app db streams).granted name key lo hi = 0 := rfl
  rw [hstart, Nat.zero_add] at htaken
  exact (Nat.cast_le.2 htaken).trans hgrants

/-- What a request needs before it may call a provider. -/
structure Entitled (q : GatewayRequest app.settings) (p : ApiKeyPrincipal) (requestId : Text)
    (payload : ChatCompletionRequest app.settings) : Prop where
  route : ∃ auth, q.incoming.route = .chat auth requestId (.ok payload)
  principal : q.principal = some p
  admission : ∃ t, q.admission = some (p, t)
  scope : chatScope ∈ p.scopes

/-- The calls of an entitled request: its own messages, masked, to the provider of its model. -/
def Served (q : GatewayRequest app.settings) : Prop :=
  ∃ p requestId payload, Entitled q p requestId payload ∧
    ∃ provider ∈ app.settings.providerForModel payload.model,
      q.calls = [(provider, { payload.toNormalized with
        messages := app.settings.payload payload.messages })]

/-- What has happened to a request by the point where it stands. -/
def Lawful (q : GatewayRequest app.settings) : Prop :=
  match q.point with
  | .forwarded | .selected _ => q.principal = none ∧ q.admission = none ∧ q.calls = []
  | .authenticated p => q.principal = some p ∧ q.admission = none ∧ q.calls = []
  | .admitted p => q.principal = some p ∧ (∃ t, q.admission = some (p, t)) ∧ q.calls = []
  | .ready p requestId payload => Entitled q p requestId payload ∧ q.calls = []
  | _ => q.calls = [] ∨ Served q

theorem chatRun_calls (chat : ProviderName → NormalizedChatRequest →
      Except RequestFailure NormalizedChatResponse) (requestId : Text) (p : ApiKeyPrincipal)
    (payload : ChatCompletionRequest app.settings) (streams : StreamLimiter) :
    (chatRun app.compile chat app.settings requestId p payload streams).calls = [] ∨
      ∃ provider ∈ app.settings.providerForModel payload.model,
        (chatRun app.compile chat app.settings requestId p payload streams).calls =
          [(provider, { payload.toNormalized with
            messages := app.settings.payload payload.messages })] := by
  unfold chatRun createChatCompletion
  dsimp only
  split
  · exact .inl rfl
  · next state _ =>
    rw [callProvider_calls, maskPayload_fst]
    split
    · cases hprovider : app.settings.providerForModel payload.model with
      | none =>
        left
        have hmodel : app.settings.providerForModel payload.toNormalized.model = none := hprovider
        rw [hmodel]
        rfl
      | some provider =>
        right
        have hmodel : app.settings.providerForModel payload.toNormalized.model = some provider :=
          hprovider
        rw [hmodel]
        exact ⟨provider, rfl, rfl⟩
    · exact .inl rfl

theorem Entitled.congr (h : Entitled q p requestId payload) (hincoming : q'.incoming = q.incoming)
    (hprincipal : q'.principal = q.principal) (hadmission : q'.admission = q.admission) :
    Entitled q' p requestId payload where
  route := by
    rw [hincoming]
    exact h.route
  principal := hprincipal.trans h.principal
  admission := by
    rw [hadmission]
    exact h.admission
  scope := h.scope

theorem Served.congr (h : Served q) (hincoming : q'.incoming = q.incoming)
    (hprincipal : q'.principal = q.principal) (hadmission : q'.admission = q.admission)
    (hcalls : q'.calls = q.calls) : Served q' := by
  obtain ⟨p, requestId, payload, hentitled, provider, hprovider, heq⟩ := h
  exact ⟨p, requestId, payload, hentitled.congr hincoming hprincipal hadmission, provider, hprovider,
    hcalls.trans heq⟩

theorem lawful_fresh {incoming : IncomingRequest app.settings} {point : GatewayPoint app.settings}
    (hpoint : point = .forwarded ∨ point = .answered 429 now) :
    Lawful { incoming := incoming, point := point } := by
  rcases hpoint with rfl | rfl
  · exact ⟨rfl, rfl, rfl⟩
  · exact .inl rfl

theorem Lawful.closed (h : Lawful q) : Lawful { q with closed := true } := by
  have hserved (hlate : q.calls = [] ∨ Served q) :
      q.calls = [] ∨ Served { q with closed := true } :=
    hlate.imp_right fun h => h.congr rfl rfl rfl rfl
  obtain ⟨incoming, point, principal, admission, calls, lease, closed⟩ := q
  cases point with
  | forwarded => exact h
  | selected keys => exact h
  | authenticated p => exact h
  | admitted p => exact h
  | ready p requestId payload => exact ⟨h.1.congr rfl rfl rfl, h.2⟩
  | opening lease => exact hserved h
  | responding status => exact hserved h
  | answered status now => exact hserved h

theorem Lawful.served (h : Lawful q) : q.calls = [] ∨ Served q := by
  unfold Lawful at h
  split at h
  · exact .inl h.2.2
  · exact .inl h.2.2
  · exact .inl h.2.2
  · exact .inl h.2.2
  · exact .inl h.2
  · exact h

/-- Behind the dependencies and the handler. -/
def Late (point : GatewayPoint settings) : Prop :=
  match point with
  | .opening _ | .responding _ | .answered _ _ => True
  | _ => False

/-- Past the call that opens the stream. -/
def Settled (point : GatewayPoint settings) : Prop :=
  match point with
  | .responding _ | .answered _ _ => True
  | _ => False

theorem settled_responding : Settled (.responding status : GatewayPoint settings) := trivial

theorem settled_answered : Settled (.answered status now : GatewayPoint settings) := trivial

theorem Settled.late {point : GatewayPoint settings} (h : Settled point) : Late point := by
  cases point with
  | responding => trivial
  | answered => trivial
  | _ => exact h.elim

theorem Lawful.of_late (hpoint : Late q.point) (h : q.calls = [] ∨ Served q) : Lawful q := by
  unfold Lawful
  unfold Late at hpoint
  split
  · next heq =>
    rw [heq] at hpoint
    exact hpoint.elim
  · next heq =>
    rw [heq] at hpoint
    exact hpoint.elim
  · next heq =>
    rw [heq] at hpoint
    exact hpoint.elim
  · next heq =>
    rw [heq] at hpoint
    exact hpoint.elim
  · next heq =>
    rw [heq] at hpoint
    exact hpoint.elim
  · exact h

/-- The request with this number is this one, and is let in as the principal. -/
def LetIn (id : Nat) (incoming : IncomingRequest settings) (p : ApiKeyPrincipal)
    (s : Gateway settings) : Prop :=
  ∃ q, s.requests[id]? = some q ∧ q.incoming = incoming ∧ q.principal = some p

/-- The request with this number is this one, and has read these keys. -/
def HasRead (id : Nat) (incoming : IncomingRequest settings) (keys : ApiKeys)
    (s : Gateway settings) : Prop :=
  ∃ q, s.requests[id]? = some q ∧ q.incoming = incoming ∧ q.point = .selected keys

/-- The steps in which a request reads these keys. -/
def LooksUp (app : GatewayApp) (id : Nat) (keys : ApiKeys) (s : Gateway app.settings)
    (a : GatewayStep app.settings) : Prop :=
  a.action = .move id .lookup ∧ s.shared.db.keys = keys

/-- The steps in which a request that has read these keys is authenticated as this principal. -/
def Authenticates (app : GatewayApp) (id : Nat) (incoming : IncomingRequest app.settings)
    (p : ApiKeyPrincipal) (keys : ApiKeys) (s : Gateway app.settings) (a : GatewayStep app.settings) :
    Prop :=
  a.action = .move id .authenticate ∧ ∃ auth, incoming.route.auth? = some auth ∧
    (requireApiKey app.sha256 app.server auth s.shared.db keys).2 = .ok p

/-- The steps in which a request is given a token of its principal at that time. -/
def Admits (app : GatewayApp) (id : Nat) (p : ApiKeyPrincipal) (now : ℚ) (s : Gateway app.settings)
    (a : GatewayStep app.settings) : Prop :=
  a.action = .move id .enforce ∧ a.now = now ∧
    (app.limiters.call s.shared.limits
      ⟨.rateLimiter, ⟨.allow, String.ofList p.apiKeyHash, now⟩⟩).2.allowed

/-- What a move changes of a request. -/
inductive Advance (app : GatewayApp) (s : SharedState) (now : ℚ) (move : GatewayMove)
    (q q' : GatewayRequest app.settings) : Prop
  | selected (hmove : move = .lookup) (hpoint : q.point = .forwarded)
      (hq' : q' = { q with point := .selected s.db.keys })
  | authenticated (p : ApiKeyPrincipal) (keys : ApiKeys) (auth : AuthRequest)
      (hmove : move = .authenticate) (hpoint : q.point = .selected keys)
      (hauth : q.incoming.route.auth? = some auth)
      (hp : (requireApiKey app.sha256 app.server auth s.db keys).2 = .ok p)
      (hq' : q' = { q with point := .authenticated p, principal := some p })
  | admitted (p : ApiKeyPrincipal) (hmove : move = .enforce) (hpoint : q.point = .authenticated p)
      (hallowed : (app.limiters.call s.limits
        ⟨.rateLimiter, ⟨.allow, String.ofList p.apiKeyHash, now⟩⟩).2.allowed)
      (hq' : q' = { q with point := .admitted p, admission := some (p, now) })
  | ready (p : ApiKeyPrincipal) (requestId : Text) (payload : ChatCompletionRequest app.settings)
      (hpoint : q.point = .admitted p) (hscope : chatScope ∈ p.scopes)
      (hroute : ∃ auth, q.incoming.route = .chat auth requestId (.ok payload))
      (hq' : q' = { q with point := .ready p requestId payload })
  | called (p : ApiKeyPrincipal) (requestId : Text) (payload : ChatCompletionRequest app.settings)
      (hpoint : q.point = .ready p requestId payload) (point : GatewayPoint app.settings)
      (hlate : Late point) (calls : List (ProviderName × NormalizedChatRequest))
      (hcalls : calls = [] ∨ ∃ provider ∈ app.settings.providerForModel payload.model,
        calls = [(provider, { payload.toNormalized with
          messages := app.settings.payload payload.messages })])
      (hq' : q' = { q with point := point, calls := calls })
  | moved (point : GatewayPoint app.settings) (hsettled : Settled point) (lease : Option Nat)
      (hq' : q' = { q with point := point, lease := lease })
  | closed (hq' : q' = { q with closed := true })

theorem lookup_cases (hpoint : q.point = .forwarded) {s : SharedState} :
    Advance app s now .lookup q (q.lookup app s) := by
  rw [GatewayRequest.lookup]
  split
  · exact .moved _ settled_responding q.lease rfl
  · exact .selected rfl hpoint rfl
  · exact .selected rfl hpoint rfl

theorem authenticate_cases {keys : ApiKeys} (hpoint : q.point = .selected keys) {s s' : SharedState}
    (h : q.authenticate app s keys = (s', q')) : Advance app s now .authenticate q q' := by
  rw [GatewayRequest.authenticate] at h
  split at h
  · cases h
    exact .moved _ settled_responding q.lease rfl
  all_goals
    next hroute =>
    have hauth := congrArg Route.auth? hroute
    split at h
    · next hp =>
      cases h
      exact .authenticated _ _ _ rfl hpoint hauth (congrArg Prod.snd hp) rfl
    · cases h
      exact .moved _ settled_responding q.lease rfl

theorem enforce_cases (hpoint : q.point = .authenticated p) {s s' : SharedState}
    (h : q.enforce app s now p = (s', q')) : Advance app s now .enforce q q' := by
  rw [GatewayRequest.enforce] at h
  cases hcall : app.limiters.call s.limits
      ⟨.rateLimiter, ⟨.allow, String.ofList p.apiKeyHash, now⟩⟩ with
  | mk limits result =>
    rw [hcall] at h
    dsimp only at h
    split at h
    · next hallowed =>
      cases h
      exact .admitted p rfl hpoint (by rw [hcall]; exact hallowed) rfl
    · cases h
      exact .moved _ settled_responding q.lease rfl

theorem dependencies_cases (hpoint : q.point = .admitted p) {s : SharedState} {move : GatewayMove} :
    Advance app s now move q (q.dependencies app p) := by
  rw [GatewayRequest.dependencies]
  split
  · next hroute =>
    split
    · exact .moved _ settled_responding q.lease rfl
    · next hscope =>
      split
      · exact .moved _ settled_responding q.lease rfl
      · exact .ready p _ _ hpoint (not_not.1 hscope) ⟨_, hroute⟩ rfl
  · exact .moved _ settled_responding q.lease rfl
  · exact .moved _ settled_responding q.lease rfl

theorem handle_cases {chat : ProviderName → NormalizedChatRequest →
      Except RequestFailure NormalizedChatResponse} (hpoint : q.point = .ready p requestId payload)
    {s s' : SharedState} {move : GatewayMove}
    (h : q.handle app s chat p requestId payload = (s', q')) : Advance app s now move q q' := by
  have hq' := (congrArg Prod.snd h).symm
  refine .called p requestId payload hpoint _ ?_ _ (chatRun_calls chat requestId p payload s.streams)
    hq'
  split
  · trivial
  · trivial
  · trivial

theorem respond_cases {s s' : SharedState} {move : GatewayMove}
    (h : q.respond app s now status = (s', q')) : Advance app s now move q q' := by
  rw [GatewayRequest.respond] at h
  split at h
  · cases h
    exact .moved _ settled_answered q.lease rfl
  · split at h
    · cases hcall : app.limiters.call s.limits
          ⟨.preAuthRateLimiter, ⟨.allow, q.incoming.clientIp, now⟩⟩ with
      | mk limits charged =>
        rw [hcall] at h
        dsimp only at h
        split at h
        · cases h
          exact .moved _ settled_answered q.lease rfl
        · cases h
          exact .moved _ settled_answered q.lease rfl
    · cases h
      exact .moved _ settled_answered q.lease rfl

theorem advance_cases {s s' : SharedState} {move : GatewayMove}
    (h : q.advance app s now move = some (s', q')) : Advance app s now move q q' := by
  unfold GatewayRequest.advance at h
  split at h
  · next hpoint =>
    cases h
    exact lookup_cases hpoint
  · next hpoint => exact authenticate_cases hpoint (Option.some.inj h)
  · next hpoint => exact enforce_cases hpoint (Option.some.inj h)
  · next hpoint =>
    cases h
    exact dependencies_cases hpoint
  · next hpoint => exact handle_cases hpoint (Option.some.inj h)
  · cases h
    exact .moved _ settled_responding _ rfl
  · obtain ⟨lease, _, heq⟩ := Option.map_eq_some_iff.1 h
    cases heq
    exact .closed rfl
  · exact respond_cases (Option.some.inj h)
  · cases h

theorem Advance.lawful {s : SharedState} {move : GatewayMove} (h : Advance app s now move q q')
    (hq : Lawful q) : Lawful q' := by
  cases h with
  | selected hmove hpoint hq' =>
    rw [Lawful, hpoint] at hq
    rw [hq']
    exact hq
  | authenticated p keys auth hmove hpoint hauth hp hq' =>
    rw [Lawful, hpoint] at hq
    rw [hq']
    exact ⟨rfl, hq.2.1, hq.2.2⟩
  | admitted p hmove hpoint hallowed hq' =>
    rw [Lawful, hpoint] at hq
    rw [hq']
    exact ⟨hq.1, ⟨now, rfl⟩, hq.2.2⟩
  | ready p requestId payload hpoint hscope hroute hq' =>
    rw [Lawful, hpoint] at hq
    rw [hq']
    exact ⟨⟨hroute, hq.1, hq.2.1, hscope⟩, hq.2.2⟩
  | called p requestId payload hpoint point hlate calls hcalls hq' =>
    rw [Lawful, hpoint] at hq
    rw [hq']
    refine .of_late hlate ?_
    rcases hcalls with hnil | ⟨provider, hprovider, heq⟩
    · exact .inl hnil
    · exact .inr ⟨p, requestId, payload, hq.1.congr rfl rfl rfl, provider, hprovider, heq⟩
  | moved point hsettled lease hq' =>
    rw [hq']
    refine .of_late hsettled.late ?_
    rcases hq.served with hnil | hserved
    · exact .inl hnil
    · exact .inr (hserved.congr rfl rfl rfl rfl)
  | closed hq' =>
    rw [hq']
    exact hq.closed

/-- Every request has come lawfully to where it stands. -/
def AllLawful (s : Gateway app.settings) : Prop :=
  ∀ (id : Nat) (q : GatewayRequest app.settings), s.requests[id]? = some q → Lawful q

theorem AllLawful.step (hs : AllLawful s) (h : s.step app a = some t) : AllLawful t := by
  intro id q hq
  cases step_at h id with
  | same hsame =>
    rw [hsame] at hq
    exact hs id q hq
  | arrived incoming point hpoint _ ht =>
    rw [ht] at hq
    cases hq
    exact lawful_fresh hpoint
  | moved move q₀ q' _ hq₀ hadvance ht =>
    rw [ht] at hq
    cases hq
    exact (advance_cases hadvance).lawful (hs id q₀ hq₀)

theorem AllLawful.start (db : Database) (streams : StreamLimiter) :
    AllLawful (start app db streams) := by
  intro id q hq
  cases hq

theorem selected_origin (h : s.step app a = some t) {incoming : IncomingRequest app.settings}
    {keys : ApiKeys} (ht : HasRead id incoming keys t) :
    HasRead id incoming keys s ∨ LooksUp app id keys s a := by
  obtain ⟨q, hq, hincoming, hpoint⟩ := ht
  cases step_at h id with
  | same hsame =>
    rw [hsame] at hq
    exact .inl ⟨q, hq, hincoming, hpoint⟩
  | arrived incoming' point hfresh _ hnew =>
    rw [hnew] at hq
    cases hq
    rcases hfresh with rfl | rfl
    · cases hpoint
    · cases hpoint
  | moved move q₀ q' ha hq₀ hadvance hmoved =>
    rw [hmoved] at hq
    cases hq
    cases advance_cases hadvance with
    | selected hmove _ hq' =>
      subst hmove hq'
      cases hpoint
      exact .inr ⟨ha, rfl⟩
    | authenticated _ _ _ _ _ _ _ hq' =>
      subst hq'
      cases hpoint
    | admitted _ _ _ _ hq' =>
      subst hq'
      cases hpoint
    | ready _ _ _ _ _ _ hq' =>
      subst hq'
      cases hpoint
    | called _ _ _ _ _ hlate _ _ hq' =>
      subst hq'
      cases hpoint
      exact hlate.elim
    | moved _ hsettled _ hq' =>
      subst hq'
      cases hpoint
      exact hsettled.elim
    | closed hq' =>
      subst hq'
      exact .inl ⟨_, hq₀, hincoming, hpoint⟩

theorem principal_origin (h : s.step app a = some t) {incoming : IncomingRequest app.settings}
    {p : ApiKeyPrincipal} (ht : LetIn id incoming p t) : LetIn id incoming p s ∨
      ∃ keys, HasRead id incoming keys s ∧ Authenticates app id incoming p keys s a := by
  obtain ⟨q, hq, hincoming, hp⟩ := ht
  cases step_at h id with
  | same hsame =>
    rw [hsame] at hq
    exact .inl ⟨q, hq, hincoming, hp⟩
  | arrived incoming' point _ _ hnew =>
    rw [hnew] at hq
    cases hq
    cases hp
  | moved move q₀ q' ha hq₀ hadvance hmoved =>
    rw [hmoved] at hq
    cases hq
    cases advance_cases hadvance with
    | selected _ _ hq' =>
      subst hq'
      exact .inl ⟨q₀, hq₀, hincoming, hp⟩
    | authenticated p' keys auth hmove hpoint hauth haccepted hq' =>
      subst hmove hq'
      cases hp
      exact .inr ⟨keys, ⟨q₀, hq₀, hincoming, hpoint⟩, ha, auth, hincoming ▸ hauth, haccepted⟩
    | admitted _ _ _ _ hq' =>
      subst hq'
      exact .inl ⟨q₀, hq₀, hincoming, hp⟩
    | ready _ _ _ _ _ _ hq' =>
      subst hq'
      exact .inl ⟨q₀, hq₀, hincoming, hp⟩
    | called _ _ _ _ _ _ _ _ hq' =>
      subst hq'
      exact .inl ⟨q₀, hq₀, hincoming, hp⟩
    | moved _ _ _ hq' =>
      subst hq'
      exact .inl ⟨q₀, hq₀, hincoming, hp⟩
    | closed hq' =>
      subst hq'
      exact .inl ⟨_, hq₀, hincoming, hp⟩

theorem admission_origin (h : s.step app a = some t) {p : ApiKeyPrincipal} {now : ℚ}
    (ht : ∃ q, t.requests[id]? = some q ∧ q.admission = some (p, now)) :
    (∃ q, s.requests[id]? = some q ∧ q.admission = some (p, now)) ∨ Admits app id p now s a := by
  obtain ⟨q, hq, hadmission⟩ := ht
  cases step_at h id with
  | same hsame =>
    rw [hsame] at hq
    exact .inl ⟨q, hq, hadmission⟩
  | arrived incoming' point _ _ hnew =>
    rw [hnew] at hq
    cases hq
    cases hadmission
  | moved move q₀ q' ha hq₀ hadvance hmoved =>
    rw [hmoved] at hq
    cases hq
    cases advance_cases hadvance with
    | selected _ _ hq' =>
      subst hq'
      exact .inl ⟨q₀, hq₀, hadmission⟩
    | authenticated _ _ _ _ _ _ _ hq' =>
      subst hq'
      exact .inl ⟨q₀, hq₀, hadmission⟩
    | admitted p' hmove _ hallowed hq' =>
      subst hmove hq'
      cases hadmission
      exact .inr ⟨ha, rfl, hallowed⟩
    | ready _ _ _ _ _ _ hq' =>
      subst hq'
      exact .inl ⟨q₀, hq₀, hadmission⟩
    | called _ _ _ _ _ _ _ _ hq' =>
      subst hq'
      exact .inl ⟨q₀, hq₀, hadmission⟩
    | moved _ _ _ hq' =>
      subst hq'
      exact .inl ⟨q₀, hq₀, hadmission⟩
    | closed hq' =>
      subst hq'
      exact .inl ⟨_, hq₀, hadmission⟩

/-- A request has called the provider of its model once, with its own masked messages, and in the
run its credentials were accepted, with the keys that it had read before, for a principal with the
scope, which was given a token. -/
def Earned (app : GatewayApp) (s : Gateway app.settings) (steps : List (GatewayStep app.settings))
    (id : Nat) (q : GatewayRequest app.settings) : Prop :=
  ∃ p now auth requestId payload, q.incoming.route = .chat auth requestId (.ok payload) ∧
    chatScope ∈ p.scopes ∧
    (∃ provider ∈ app.settings.providerForModel payload.model,
      q.calls = [(provider, { payload.toNormalized with
        messages := app.settings.payload payload.messages })]) ∧
    (∃ keys, Followed (step app) (LooksUp app id keys) (Authenticates app id q.incoming p keys)
      s steps) ∧
    Sometime (step app) (Admits app id p now) s steps

/-- However the requests interleave, and whatever else is committed meanwhile, no provider is called
but by a request that has earned it. -/
theorem provider_calls_earned {db : Database} {streams : StreamLimiter}
    (hrun : run (step app) (start app db streams) steps = some u)
    (hq : u.requests[id]? = some q) (hcalls : q.calls ≠ []) :
    Earned app (start app db streams) steps id q := by
  have hlawful := run_invariant (I := AllLawful) (fun _ _ _ hs h => hs.step h)
    (AllLawful.start db streams) hrun
  obtain ⟨p, requestId, payload, hentitled, hserved⟩ := (hlawful id q hq).served.resolve_left hcalls
  obtain ⟨auth, hroute⟩ := hentitled.route
  obtain ⟨now, hadmission⟩ := hentitled.admission
  have hauthenticated : ∃ keys, Followed (step app) (LooksUp app id keys)
      (Authenticates app id q.incoming p keys) (start app db streams) steps := by
    apply followed_of_run (P := LetIn id q.incoming p) (Q := HasRead id q.incoming)
      (fun _ _ _ h ht => principal_origin h ht) (fun _ _ _ _ h ht => selected_origin h ht) _ _ hrun
      ⟨q, hq, rfl, hentitled.principal⟩
    · rintro ⟨q, hq, _⟩
      cases hq
    · rintro keys ⟨q, hq, _⟩
      cases hq
  have hadmitted := sometime_of_run (I := fun _ => True) (fun _ _ _ _ _ => trivial)
    (fun _ _ _ _ h ht => admission_origin h ht) trivial hrun ⟨q, hq, hadmission⟩
  refine ⟨p, now, auth, requestId, payload, hroute, hentitled.scope, hserved, hauthenticated,
    hadmitted.resolve_left ?_⟩
  rintro ⟨q, hq, _⟩
  cases hq

/-- An app with an environment key, one request a minute for each key and each address, and no
masking. -/
def sampleApp : GatewayApp where
  sha256 := sampleSha256
  server :=
    { settings := { authMode := ["api_key".toList] }
      resolver := ⟨envKeyHashes sampleSha256 [['e']], 60⟩
      validator := none }
  limits := { rateLimitRpm := 1, preAuthRpmPerIp := 1 }
  connects := fun _ => true
  limiters := ⟨.memory ⟨1⟩, .memory ⟨1⟩⟩
  built := rfl
  settings := { piiMaskingEnabled := false }
  compile := fun _ => .error

def samplePayload : ChatCompletionRequest sampleApp.settings where
  model := "gpt-4o-mini"
  messages := [⟨"user", ['h', 'i']⟩]
  temperature := some 1
  maxTokens := some 16
  model_ne := by decide
  model_le := by decide
  messages_ne := by decide
  messages_le := by decide
  role_supported := by decide
  content_le := by decide
  temperature_range := by
    intro t ht
    cases ht
    exact ⟨zero_le_one, one_le_two⟩
  maxTokens_range := by
    intro n hn
    cases hn
    decide

def sampleChat (credentials : Option (Text × Text)) : IncomingRequest sampleApp.settings :=
  ⟨"ip", .chat { credentials := credentials, context := sampleCall } ['r'] (.ok samplePayload)⟩

def sampleAnswer (_ : ProviderName) (request : NormalizedChatRequest) :
    Except RequestFailure NormalizedChatResponse :=
  .ok { id := "id", model := request.model, message := ⟨"assistant", ['h', 'o']⟩ }

/-- Two requests with the key, of which one gets a token, and one without. -/
def sampleSteps : List (GatewayStep sampleApp.settings) :=
  [⟨.arrive (sampleChat (some ("Bearer".toList, ['e']))), 0⟩,
    ⟨.arrive (sampleChat (some ("Bearer".toList, ['e']))), 1⟩, ⟨.arrive (sampleChat none), 2⟩,
    ⟨.move 0 .lookup, 3⟩, ⟨.move 1 .lookup, 3⟩, ⟨.move 2 .lookup, 3⟩,
    ⟨.move 0 .authenticate, 3⟩, ⟨.move 1 .authenticate, 3⟩, ⟨.move 2 .authenticate, 3⟩,
    ⟨.move 1 .enforce, 4⟩, ⟨.move 0 .enforce, 5⟩, ⟨.move 1 .dependencies, 6⟩,
    ⟨.move 1 (.handle sampleAnswer), 7⟩, ⟨.move 2 .respond, 8⟩, ⟨.move 1 .respond, 9⟩,
    ⟨.move 0 .respond, 9⟩]

def sampleStart : Gateway sampleApp.settings :=
  start sampleApp sampleDatabase (.new 1 (by decide))

theorem sampleSteps_run : ∃ u q, run (step sampleApp) sampleStart sampleSteps = some u ∧
    u.requests[1]? = some q ∧ q.calls ≠ [] := by
  have hrun : (run (step sampleApp) sampleStart sampleSteps).any
      (fun u => u.requests[1]?.any fun q => !q.calls.isEmpty) := by
    decide +kernel
  obtain ⟨u, hu, hany⟩ := (Option.any_eq_true _ _).1 hrun
  obtain ⟨q, hq, hcalls⟩ := (Option.any_eq_true _ _).1 hany
  refine ⟨u, q, hu, hq, ?_⟩
  intro hnil
  rw [hnil] at hcalls
  cases hcalls

theorem provider_calls_earned_once : ∃ u q, run (step sampleApp) sampleStart sampleSteps = some u ∧
    u.requests[1]? = some q ∧ Earned sampleApp sampleStart sampleSteps 1 q := by
  obtain ⟨u, q, hu, hq, hcalls⟩ := sampleSteps_run
  exact ⟨u, q, hu, hq, provider_calls_earned hu hq hcalls⟩

theorem calls_le_admissions {q : GatewayRequest app.settings} (hq : Lawful q) (key : String)
    (lo hi : ℚ) :
    (if (q.grant .rateLimiter).any fun g => g.1 = key && lo ≤ g.2 && g.2 ≤ hi then q.calls.length
      else 0) ≤ ((q.grant .rateLimiter).any fun g => g.1 = key && lo ≤ g.2 && g.2 ≤ hi).toNat := by
  split
  · next hany =>
    rw [hany, Bool.toNat_true]
    rcases hq.served with hnil | ⟨_, _, _, _, provider, _, hone⟩
    · rw [hnil]
      exact Nat.zero_le 1
    · rw [hone]
      exact le_refl 1
  · exact Nat.zero_le _

/-- However the requests interleave, the providers see no more calls of one principal admitted in a
window than the limit of a minute and what flows in meanwhile. -/
theorem provider_calls_le {db : Database} {streams : StreamLimiter}
    (hrun : run (step app) (start app db streams) steps = some u)
    (hsteps : steps.Pairwise fun a b => a.now ≤ b.now) (hon : 1 ≤ app.limits.rateLimitRpm)
    (key : String) {lo hi : ℚ} (hle : lo ≤ hi) :
    (u.providerCalls key lo hi : ℚ) ≤
      app.limits.rateLimitRpm + app.limits.rateLimitRpm / 60 * (hi - lo) := by
  have hlawful := run_invariant (I := AllLawful) (fun _ _ _ hs h => hs.step h)
    (AllLawful.start db streams) hrun
  have hcalls : u.providerCalls key lo hi ≤ u.granted .rateLimiter key lo hi := by
    rw [providerCalls, granted]
    have hmem : ∀ q ∈ u.requests, Lawful q := by
      intro q hq
      obtain ⟨id, hid⟩ := List.getElem?_of_mem hq
      exact hlawful id q hid
    generalize u.requests = requests at hmem
    induction requests with
    | nil => exact le_refl 0
    | cons q requests ih =>
      rw [List.map_cons, List.sum_cons, List.countP_cons, Nat.add_comm]
      have hfirst := calls_le_admissions (hmem q List.mem_cons_self) key lo hi
      have hrest := ih fun r hr => hmem r (List.mem_cons_of_mem q hr)
      have htoNat : ∀ b : Bool, b.toNat = if b then 1 else 0 := by decide
      exact Nat.add_le_add hrest (hfirst.trans (htoNat _).le)
  have hgranted := granted_le .rateLimiter hrun hsteps hon key hle
  exact (Nat.cast_le.2 hcalls).trans hgranted

theorem provider_calls_le_once : ∃ u, run (step sampleApp) sampleStart sampleSteps = some u ∧
    (u.providerCalls "-e" 0 60 : ℚ) ≤ (1 : Int) + (1 : Int) / 60 * (60 - 0) := by
  obtain ⟨u, _, hu, _⟩ := sampleSteps_run
  exact ⟨u, hu, provider_calls_le hu (by decide +kernel) (by decide) "-e" (by norm_num)⟩

/-- However the requests interleave, a client is told 401 in a window no more often than the limit of
a minute and what flows in meanwhile. -/
theorem unauthorized_le {db : Database} {streams : StreamLimiter}
    (hrun : run (step app) (start app db streams) steps = some u)
    (hsteps : steps.Pairwise fun a b => a.now ≤ b.now) (hon : 1 ≤ app.limits.preAuthRpmPerIp)
    (ip : String) {lo hi : ℚ} (hle : lo ≤ hi) :
    (u.unauthorized ip lo hi : ℚ) ≤
      app.limits.preAuthRpmPerIp + app.limits.preAuthRpmPerIp / 60 * (hi - lo) := by
  have hcount : u.unauthorized ip lo hi = u.granted .preAuthRateLimiter ip lo hi := by
    rw [unauthorized, granted]
    apply List.countP_congr
    intro q _
    rw [GatewayRequest.grant]
    cases q.point with
    | answered status t =>
      dsimp only
      by_cases hstatus : status = 401
      · rw [if_pos hstatus, decide_eq_true hstatus, Option.any_some, Bool.true_and]
      · rw [if_neg hstatus, decide_eq_false hstatus, Option.any_none, Bool.false_and,
          Bool.false_and, Bool.false_and]
    | _ => exact Iff.rfl
  rw [hcount]
  exact granted_le .preAuthRateLimiter hrun hsteps hon ip hle

theorem unauthorized_le_once : ∃ u, run (step sampleApp) sampleStart sampleSteps = some u ∧
    (u.unauthorized "ip" 0 60 : ℚ) ≤ (1 : Int) + (1 : Int) / 60 * (60 - 0) := by
  obtain ⟨u, _, hu, _⟩ := sampleSteps_run
  exact ⟨u, hu, unauthorized_le hu (by decide +kernel) (by decide) "ip" (by norm_num)⟩

end Gateway
end AiServing
