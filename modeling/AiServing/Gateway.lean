import AiServing.AppLimiters
import AiServing.ChatPolicy
import AiServing.JwtIdentity
import AiServing.Transitions

namespace AiServing
open Transitions
set_option autoImplicit true

/-- The status that the handlers give an exception. Reading a body raises no other HTTP error than
413. -/
def RequestFailure.status : RequestFailure → Nat
  | validation => 422
  | http => 413
  | e => e.apiError.elim 500 APIError.statusCode

def AuthFailure.status : AuthFailure → Nat
  | authentication _ => 401
  | raised => 500

/-- Where a request goes. The body of a chat request stands for what
`parse_chat_completion_request` makes of it, and any other route for its status. -/
inductive Route (settings : ChatSettings)
  | chat (auth : AuthRequest) (requestId : Text)
    (body : Except RequestFailure (ChatCompletionRequest settings))
  | models (auth : AuthRequest)
  | other (status : Nat)

/-- The credentials with which a request comes to a route behind `require_api_key`. -/
def Route.auth? : Route settings → Option AuthRequest
  | chat auth _ _ => some auth
  | models auth => some auth
  | other _ => none

/-- A request, from the address that `client_ip` finds. -/
structure IncomingRequest (settings : ChatSettings) where
  clientIp : String
  route : Route settings

/-- Where a request stands: in `call_next`, behind the SELECT of its key, behind the dependencies that
it has met so far, in the call that opens its stream, or on its way back. -/
inductive GatewayPoint (settings : ChatSettings)
  | forwarded
  | selected (keys : ApiKeys)
  | authenticated (p : ApiKeyPrincipal)
  | admitted (p : ApiKeyPrincipal)
  | ready (p : ApiKeyPrincipal) (requestId : Text) (payload : ChatCompletionRequest settings)
  | opening (lease : Nat)
  | responding (status : Nat)
  | answered (status : Nat) (time : ℚ)

/-- A request, with its principal and what has become of its calls; `closed` tells whether it has given
its lease back. -/
structure GatewayRequest (settings : ChatSettings) where
  incoming : IncomingRequest settings
  point : GatewayPoint settings
  principal : Option ApiKeyPrincipal := none
  admission : Option (ApiKeyPrincipal × ℚ) := none
  calls : List (ProviderName × NormalizedChatRequest) := []
  lease : Option Nat := none
  closed : Bool := false

/-- What `create_app` builds; `connects` tells which limiters reach a Redis server. -/
structure GatewayApp where
  sha256 : Text → Text
  server : AuthServer
  limits : LimiterSettings
  connects : LimiterName → Bool
  limiters : AppLimiters
  built : createLimiters limits connects = .ok limiters
  settings : ChatSettings
  compile : Text → ReCompile

/-- What all requests share. -/
structure SharedState where
  db : Database
  limits : LimiterState := {}
  streams : StreamLimiter

/-- What a request does next. The providers answer as they do at that time. -/
inductive GatewayMove
  | lookup
  | authenticate
  | enforce
  | dependencies
  | handle (chat : ProviderName → NormalizedChatRequest →
      Except RequestFailure NormalizedChatResponse)
  | opened (status : Nat)
  | closeStream
  | respond

section Moves

variable (app : GatewayApp)

/-- `PreAuthRateLimitMiddleware.dispatch`, up to the call of `call_next`. -/
def SharedState.arrive (s : SharedState) (incoming : IncomingRequest app.settings) (now : ℚ) :
    SharedState × GatewayRequest app.settings :=
  if app.limits.preAuthRpmPerIp ≤ 0 then (s, { incoming := incoming, point := .forwarded })
  else
    let (limits, preview) :=
      app.limiters.call s.limits ⟨.preAuthRateLimiter, ⟨.preview, incoming.clientIp, now⟩⟩
    if preview.allowed then
      ({ s with limits := limits }, { incoming := incoming, point := .forwarded })
    else ({ s with limits := limits }, { incoming := incoming, point := .answered 429 now })

variable (s : SharedState) (now : ℚ) (q : GatewayRequest app.settings)

/-- `require_api_key` up to its SELECT, or all of another route. -/
def GatewayRequest.lookup : GatewayRequest app.settings :=
  match q.incoming.route with
  | .other status => { q with point := .responding status }
  | .chat _ _ _ | .models _ => { q with point := .selected s.db.keys }

/-- `require_api_key`, from what its SELECT has read. -/
def GatewayRequest.authenticate (keys : ApiKeys) : SharedState × GatewayRequest app.settings :=
  match q.incoming.route with
  | .other status => (s, { q with point := .responding status })
  | .chat auth _ _ | .models auth =>
    match requireApiKey app.sha256 app.server auth s.db keys with
    | (db, .ok p) =>
      ({ s with db := db }, { q with point := .authenticated p, principal := some p })
    | (db, .error e) => ({ s with db := db }, { q with point := .responding e.status })

/-- `enforce_rate_limit` -/
def GatewayRequest.enforce (p : ApiKeyPrincipal) : SharedState × GatewayRequest app.settings :=
  let (limits, result) :=
    app.limiters.call s.limits ⟨.rateLimiter, ⟨.allow, String.ofList p.apiKeyHash, now⟩⟩
  if result.allowed then
    ({ s with limits := limits }, { q with point := .admitted p, admission := some (p, now) })
  else ({ s with limits := limits }, { q with point := .responding 429 })

/-- `require_scope("chat")` and the body of a chat request; `list_models` has neither. -/
def GatewayRequest.dependencies (p : ApiKeyPrincipal) : GatewayRequest app.settings :=
  match q.incoming.route with
  | .chat _ requestId body =>
    if chatScope ∉ p.scopes then { q with point := .responding 401 }
    else match body with
      | .error e => { q with point := .responding e.status }
      | .ok payload => { q with point := .ready p requestId payload }
  | .models _ => { q with point := .responding 200 }
  | .other status => { q with point := .responding status }

/-- `create_chat_completion` -/
def GatewayRequest.handle
    (chat : ProviderName → NormalizedChatRequest → Except RequestFailure NormalizedChatResponse)
    (p : ApiKeyPrincipal) (requestId : Text) (payload : ChatCompletionRequest app.settings) :
    SharedState × GatewayRequest app.settings :=
  let run := chatRun app.compile chat app.settings requestId p payload s.streams
  let point := match run.reply with
    | .completed _ => .responding 200
    | .streaming stream => .opening stream.lease
    | .raised e => .responding e.status
  ({ s with streams := run.limiter }, { q with point := point, calls := run.calls })

/-- `dispatch`, from the return of `call_next`. -/
def GatewayRequest.respond (status : Nat) : SharedState × GatewayRequest app.settings :=
  if app.limits.preAuthRpmPerIp ≤ 0 then (s, { q with point := .answered status now })
  else if status = 401 then
    let (limits, charged) :=
      app.limiters.call s.limits ⟨.preAuthRateLimiter, ⟨.allow, q.incoming.clientIp, now⟩⟩
    if charged.allowed then ({ s with limits := limits }, { q with point := .answered status now })
    else ({ s with limits := limits }, { q with point := .answered 429 now })
  else (s, { q with point := .answered status now })

/-- A move of a request, where it is at that point. A lease may be given back at any later time. -/
def GatewayRequest.advance (move : GatewayMove) : Option (SharedState × GatewayRequest app.settings) :=
  match move, q.point with
  | .lookup, .forwarded => some (s, q.lookup app s)
  | .authenticate, .selected keys => some (q.authenticate app s keys)
  | .enforce, .authenticated p => some (q.enforce app s now p)
  | .dependencies, .admitted p => some (s, q.dependencies app p)
  | .handle chat, .ready p requestId payload => some (q.handle app s chat p requestId payload)
  | .opened status, .opening lease =>
    some (s, { q with point := .responding status, lease := some lease })
  | .closeStream, _ =>
    q.lease.map fun lease => ({ s with streams := s.streams.release lease }, { q with closed := true })
  | .respond, .responding status => some (q.respond app s now status)
  | _, _ => none

end Moves

/-- The requests stand in the order in which they came in. -/
structure Gateway (settings : ChatSettings) where
  shared : SharedState
  requests : List (GatewayRequest settings) := []

/-- `commit` stands for everything else that writes to the database. -/
inductive GatewayAction (settings : ChatSettings)
  | arrive (incoming : IncomingRequest settings)
  | move (id : Nat) (move : GatewayMove)
  | commit (db : Database)

/-- A step; all steps read one clock. -/
structure GatewayStep (settings : ChatSettings) where
  action : GatewayAction settings
  now : ℚ

namespace Gateway

variable (app : GatewayApp)

def step (s : Gateway app.settings) (a : GatewayStep app.settings) :
    Option (Gateway app.settings) :=
  match a.action with
  | .arrive incoming =>
    let (shared, q) := s.shared.arrive app incoming a.now
    some ⟨shared, s.requests ++ [q]⟩
  | .move id move =>
    s.requests[id]?.bind fun q => (q.advance app s.shared a.now move).map fun (shared, q) =>
      ⟨shared, s.requests.set id q⟩
  | .commit db => some { s with shared := { s.shared with db := db } }

def start (db : Database) (streams : StreamLimiter) : Gateway app.settings :=
  { shared := { db := db, streams := streams } }

end Gateway

/-- What a request has taken from one of the limiters: its admission, or its being told 401. -/
def GatewayRequest.grant (q : GatewayRequest settings) : LimiterName → Option (String × ℚ)
  | .rateLimiter => q.admission.map fun (p, t) => (String.ofList p.apiKeyHash, t)
  | .preAuthRateLimiter =>
    match q.point with
    | .answered status t => if status = 401 then some (q.incoming.clientIp, t) else none
    | _ => none

/-- The call of a limiter that the next move of a request makes. -/
def GatewayRequest.limiterCall (app : GatewayApp) (q : GatewayRequest settings)
    (move : GatewayMove) (now : ℚ) : Option AppCall :=
  match move, q.point with
  | .enforce, .authenticated p =>
    some ⟨.rateLimiter, ⟨.allow, String.ofList p.apiKeyHash, now⟩⟩
  | .respond, .responding status =>
    if 1 ≤ app.limits.preAuthRpmPerIp ∧ status = 401 then
      some ⟨.preAuthRateLimiter, ⟨.allow, q.incoming.clientIp, now⟩⟩
    else none
  | _, _ => none

/-- A move calls a limiter at most once, and takes only what that call grants. -/
structure MoveEffect (app : GatewayApp) (s s' : SharedState) (q q' : GatewayRequest app.settings)
    (call : Option AppCall) : Prop where
  limits : s'.limits = call.elim s.limits fun c => (app.limiters.call s.limits c).1
  grant : ∀ name, 1 ≤ app.limits.rpm name → q'.grant name = q.grant name ∨ q'.grant name = none ∨
    ∃ c ∈ call, c.limiter = name ∧ c.call.method = .allow ∧
      (app.limiters.call s.limits c).2.allowed ∧ q'.grant name = some (c.call.key, c.call.now)

variable {app : GatewayApp} {s s' : SharedState} {q q' : GatewayRequest app.settings} {now : ℚ}

theorem MoveEffect.quiet (hlimits : s'.limits = s.limits) (hadmission : q'.admission = q.admission)
    (hpoint : ∀ status t, q'.point ≠ .answered status t) : MoveEffect app s s' q q' none where
  limits := hlimits
  grant name _ := by
    cases name with
    | rateLimiter => exact .inl (by rw [GatewayRequest.grant, hadmission]; rfl)
    | preAuthRateLimiter =>
      right
      left
      rw [GatewayRequest.grant]
      split
      · next heq => exact absurd heq (hpoint _ _)
      · rfl

theorem lookup_effect : MoveEffect app s s q (q.lookup app s) none := by
  rw [GatewayRequest.lookup]
  split
  · exact .quiet rfl rfl fun _ _ => nofun
  · exact .quiet rfl rfl fun _ _ => nofun
  · exact .quiet rfl rfl fun _ _ => nofun

theorem authenticate_effect {keys : ApiKeys} (h : q.authenticate app s keys = (s', q')) :
    MoveEffect app s s' q q' none := by
  rw [GatewayRequest.authenticate] at h
  split at h
  · cases h
    exact .quiet rfl rfl fun _ _ => nofun
  all_goals
    split at h
    · cases h
      exact .quiet rfl rfl fun _ _ => nofun
    · cases h
      exact .quiet rfl rfl fun _ _ => nofun

theorem enforce_effect (h : q.enforce app s now p = (s', q')) :
    MoveEffect app s s' q q'
      (some ⟨.rateLimiter, ⟨.allow, String.ofList p.apiKeyHash, now⟩⟩) := by
  rw [GatewayRequest.enforce] at h
  cases hcall : app.limiters.call s.limits
      ⟨.rateLimiter, ⟨.allow, String.ofList p.apiKeyHash, now⟩⟩ with
  | mk limits result =>
    rw [hcall] at h
    dsimp only at h
    split at h
    · next hallowed =>
      cases h
      refine ⟨by rw [Option.elim_some, hcall], fun name _ => ?_⟩
      cases name with
      | rateLimiter => exact .inr (.inr ⟨_, rfl, rfl, rfl, by rw [hcall]; exact hallowed, rfl⟩)
      | preAuthRateLimiter => exact .inr (.inl rfl)
    · cases h
      refine ⟨by rw [Option.elim_some, hcall], fun name _ => ?_⟩
      cases name with
      | rateLimiter => exact .inl rfl
      | preAuthRateLimiter => exact .inr (.inl rfl)

theorem dependencies_effect : MoveEffect app s s q (q.dependencies app p) none := by
  rw [GatewayRequest.dependencies]
  split
  · split
    · exact .quiet rfl rfl fun _ _ => nofun
    · split
      · exact .quiet rfl rfl fun _ _ => nofun
      · exact .quiet rfl rfl fun _ _ => nofun
  · exact .quiet rfl rfl fun _ _ => nofun
  · exact .quiet rfl rfl fun _ _ => nofun

theorem handle_effect (h : q.handle app s chat p requestId payload = (s', q')) :
    MoveEffect app s s' q q' none := by
  cases h
  refine .quiet rfl rfl fun status t => ?_
  dsimp only [GatewayRequest.handle]
  split
  · exact nofun
  · exact nofun
  · exact nofun

theorem respond_effect (h : q.respond app s now status = (s', q')) :
    MoveEffect app s s' q q'
      (if 1 ≤ app.limits.preAuthRpmPerIp ∧ status = 401 then
        some ⟨.preAuthRateLimiter, ⟨.allow, q.incoming.clientIp, now⟩⟩ else none) := by
  rw [GatewayRequest.respond] at h
  split at h
  · next hoff =>
    cases h
    rw [if_neg (by omega)]
    refine ⟨rfl, fun name hon => ?_⟩
    cases name with
    | rateLimiter => exact .inl rfl
    | preAuthRateLimiter =>
      rw [LimiterSettings.rpm] at hon
      omega
  · next hon =>
    split at h
    · next hstatus =>
      rw [if_pos ⟨by omega, hstatus⟩]
      cases hcall : app.limiters.call s.limits
          ⟨.preAuthRateLimiter, ⟨.allow, q.incoming.clientIp, now⟩⟩ with
      | mk limits charged =>
        rw [hcall] at h
        dsimp only at h
        split at h
        · next hallowed =>
          cases h
          refine ⟨by rw [Option.elim_some, hcall], fun name _ => ?_⟩
          cases name with
          | rateLimiter => exact .inl rfl
          | preAuthRateLimiter =>
            exact .inr (.inr ⟨_, rfl, rfl, rfl, by rw [hcall]; exact hallowed, if_pos hstatus⟩)
        · cases h
          refine ⟨by rw [Option.elim_some, hcall], fun name _ => ?_⟩
          cases name with
          | rateLimiter => exact .inl rfl
          | preAuthRateLimiter => exact .inr (.inl rfl)
    · next hstatus =>
      cases h
      rw [if_neg fun hboth => hstatus hboth.2]
      refine ⟨rfl, fun name _ => ?_⟩
      cases name with
      | rateLimiter => exact .inl rfl
      | preAuthRateLimiter => exact .inr (.inl (if_neg hstatus))

theorem advance_effect (h : q.advance app s now move = some (s', q')) :
    MoveEffect app s s' q q' (q.limiterCall app move now) := by
  unfold GatewayRequest.advance at h
  unfold GatewayRequest.limiterCall
  split at h
  · cases h
    exact lookup_effect
  · next hpoint => exact authenticate_effect (Option.some.inj h)
  · next p hpoint =>
    rw [hpoint]
    exact enforce_effect (Option.some.inj h)
  · next p hpoint =>
    cases h
    exact dependencies_effect
  · next hpoint => exact handle_effect (Option.some.inj h)
  · next hpoint =>
    cases h
    exact .quiet rfl rfl fun _ _ => nofun
  · obtain ⟨lease, _, heq⟩ := Option.map_eq_some_iff.1 h
    cases heq
    exact ⟨rfl, fun _ _ => .inl rfl⟩
  · next status hpoint =>
    rw [hpoint]
    exact respond_effect (Option.some.inj h)
  · cases h

end AiServing
