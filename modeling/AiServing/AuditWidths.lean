import AiServing.PolicyRows
import AiServing.StreamErrors
import AiServing.JwtIdentity

namespace AiServing
open Dictionary Transitions
set_option autoImplicit true

/-- The lengths of the `String` columns of `audit_log`. -/
structure RequestFields.Fits (f : RequestFields) : Prop where
  requestId : f.requestId.length ≤ 64
  principalHash : ∀ t ∈ f.principalHash, t.length ≤ 64
  orgId : ∀ t ∈ f.orgId, t.length ≤ 36
  apiKeyId : ∀ t ∈ f.apiKeyId, t.length ≤ 36
  provider : ∀ t ∈ f.provider, t.length ≤ 64
  model : ∀ t ∈ f.outcome.model, t.length ≤ 128
  errorType : ∀ t ∈ f.outcome.errorType, t.length ≤ 64

/-- The lengths of the `String` columns of `policy_event`. -/
structure PolicyEvent.Fits (e : PolicyEvent) : Prop where
  requestId : e.requestId.length ≤ 64
  principalHash : ∀ t ∈ e.principalHash, t.length ≤ 64
  orgId : ∀ t ∈ e.orgId, t.length ≤ 36
  apiKeyId : ∀ t ∈ e.apiKeyId, t.length ≤ 36
  eventType : e.eventType.length ≤ 32
  action : e.action.length ≤ 16
  ruleId : e.ruleId.length ≤ 128
  severity : e.severity.length ≤ 16

/-- The lengths of the `String` columns of `audit_message`. -/
structure AuditMessage.Fits (m : AuditMessage) : Prop where
  requestId : m.requestId.length ≤ 64
  role : m.role.length ≤ 32

/-- A database that enforces the lengths takes the transaction. -/
structure AuditTransaction.Fits (tx : AuditTransaction) : Prop where
  fields : tx.fields.Fits
  policyEvents : ∀ e ∈ tx.policyEvents, e.Fits
  auditMessages : ∀ m ∈ tx.auditMessages, m.Fits

/-- The id columns of the stored organizations and keys. -/
structure Database.IdsFit (db : Database) : Prop where
  org : ∀ org ∈ db.orgs.rows, org.id.length ≤ 36
  key : ∀ key ∈ db.keys.rows, key.id.length ≤ 36 ∧ key.orgId.length ≤ 36

structure ApiKeyPrincipal.Fits (p : ApiKeyPrincipal) : Prop where
  apiKeyHash : p.apiKeyHash.length ≤ 64
  apiKeyId : ∀ t ∈ p.apiKeyId, t.length ≤ 36
  orgId : ∀ t ∈ p.orgId, t.length ≤ 36

section Principals

variable {sha256 : Text → Text} {server : AuthServer} {request : AuthRequest} {db : Database}
  {p : ApiKeyPrincipal}

theorem keyPrincipal_fits (hsha : ∀ t, (sha256 t).length = 64) (hdb : db.IdsFit)
    (h : (keyPrincipal sha256 server request token db).2 = some p) : p.Fits := by
  have hhash : p.apiKeyHash.length ≤ 64 := by
    rw [keyPrincipal_hash h, hsha]
  rw [keyPrincipal] at h
  split at h
  · rcases (resolve_cases (Prod.eta _).symm).2 p h with ⟨key, hkey, _, _, rfl⟩ | henv
    · obtain ⟨hid, horg⟩ := hdb.key key hkey
      refine ⟨hhash, ?_, ?_⟩
      · intro t ht
        cases ht
        exact hid
      · intro t ht
        cases ht
        exact horg
    · rw [envValidate] at henv
      obtain ⟨hash, _, rfl⟩ := Option.map_eq_some_iff.1 henv
      refine ⟨hhash, ?_, ?_⟩
      · intro t ht
        cases ht
      · intro t ht
        cases ht
  · cases h

/-- Whoever is let in has a hash, and ids that come out of the tables. -/
theorem requireApiKey_fits (hsha : ∀ t, (sha256 t).length = 64) (hdb : db.IdsFit)
    (h : (requireApiKey sha256 server request db).2 = .ok p) : p.Fits := by
  rw [requireApiKey] at h
  split at h
  · cases h
  · next scheme token _ =>
    split at h
    · cases h
    · split at h
      · next hkey =>
        cases h
        exact keyPrincipal_fits hsha hdb (congrArg Prod.snd hkey)
      · next db' hkey =>
        obtain ⟨claims, _, hbuild⟩ := requireJwt_claims h
        obtain ⟨hhash, hid, org, horg, hp⟩ := buildJwtPrincipal_cases hbuild
        have horgs : db'.orgs = db.orgs := by
          rw [keyPrincipal] at hkey
          split at hkey
          · rcases (resolve_cases hkey).1 with rfl | ⟨keyId, rfl⟩
            · rfl
            · rfl
          · cases hkey
            rfl
        rw [horgs] at horg
        refine ⟨?_, ?_, ?_⟩
        · rw [hhash, hsha]
        · rw [hid]
          intro t ht
          cases ht
        · rw [hp]
          intro t ht
          cases ht
          exact hdb.org org horg

end Principals

/-- The answer of an exception handler, as far as it goes into `request.state`. -/
def RequestFailure.noted (e : RequestFailure) (state : ChatState) : ChatState :=
  match e.errorType with
  | none => state
  | some t => { state with errorType := some t }

/-- `request_id_middleware`: the header, or a fresh UUID where it is missing or empty. -/
def requestIdOf (header : Option Text) (uuid : Text) : Text :=
  match header with
  | none => uuid
  | some t => if t = [] then uuid else t

/-- How far a request gets: it has no principal, it has one, or it reaches the handler. -/
inductive Course (settings : ChatSettings)
  | refused
  | stopped (principal : ApiKeyPrincipal)
  | handled (principal : ApiKeyPrincipal) (payload : ChatCompletionRequest settings)

def Course.principal : Course settings → Option ApiKeyPrincipal
  | refused => none
  | stopped principal => some principal
  | handled principal _ => some principal

def Course.payload : Course settings → Option (ChatCompletionRequest settings)
  | handled _ payload => some payload
  | _ => none

/-- A step of a stream whose errors, if any, are of the classes in `errors.py`. -/
def ChatStream.Action.FromProvider (a : ChatStream.Action) : Prop :=
  ∀ e, a.apiError? = some e → ∃ failure : RequestFailure, failure.apiError = some e

section Finalizing

variable (compile : Text → ReCompile)
  (chat : ProviderName → NormalizedChatRequest → Except RequestFailure NormalizedChatResponse)
  (settings : ChatSettings) (requestId : Text)

/-- The states in which `_finalize_request` may find a request. -/
inductive Finalizes : Course settings → ChatState → Prop
  | refused (e : RequestFailure) : Finalizes .refused (e.noted { requestId := some requestId })
  | stopped (principal : ApiKeyPrincipal) (stream : Option Bool) (e : RequestFailure) :
    Finalizes (.stopped principal)
      (e.noted { ChatState.entering requestId principal false with stream := stream })
  | completed (limiter : StreamLimiter)
      (h : (chatRun compile chat settings requestId principal payload limiter).reply =
        .completed response) :
    Finalizes (.handled principal payload)
      (chatRun compile chat settings requestId principal payload limiter).state
  | raised (limiter : StreamLimiter) (e : RequestFailure)
      (h : (chatRun compile chat settings requestId principal payload limiter).reply = .raised e) :
    Finalizes (.handled principal payload)
      (e.noted (chatRun compile chat settings requestId principal payload limiter).state)
  | streamed (limiter : StreamLimiter) (actions : List ChatStream.Action)
      (h : (chatRun compile chat settings requestId principal payload limiter).reply =
        .streaming stream)
      (hrun : run ChatStream.step stream actions = some stream')
      (hprovider : ∀ a ∈ actions, a.FromProvider) :
    Finalizes (.handled principal payload)
      { (chatRun compile chat settings requestId principal payload limiter).state with
        toRequestState := stream'.finalRequest }

end Finalizing

/-- All that a row takes from the state fits, but for the request id, the model and the rules. -/
structure ChatState.Bounded (state : ChatState) : Prop where
  principalHash : ∀ t ∈ state.principalHash, t.length ≤ 64
  orgId : ∀ t ∈ state.orgId, t.length ≤ 36
  apiKeyId : ∀ t ∈ state.apiKeyId, t.length ≤ 36
  provider : ∀ t ∈ state.provider, t.length ≤ 64
  errorType : ∀ t ∈ state.errorType, t.length ≤ 64
  events : ∀ event ∈ state.policyEvents.getD [], event.eventType.length ≤ 32 ∧
    event.action.length ≤ 16 ∧ event.severity.length ≤ 16
  roles : ∀ m ∈ state.storedMessages.getD [], m.role.length ≤ 32

variable {compile : Text → ReCompile} {settings : ChatSettings} {rules : List CompiledRule}
  {chat : ProviderName → NormalizedChatRequest → Except RequestFailure NormalizedChatResponse}
  {messages : List NormalizedMessage} {state : ChatState} {requestId : Text}

/-- The error types of the source. -/
def errorTypes : List String :=
  ["invalid_request_error", "rate_limit_error", "content_policy_violation", "server_error",
    "provider_error", "http_error", "stream_timeout"]

theorem errorTypes_fit : ∀ t ∈ errorTypes, t.length ≤ 64 := by decide

theorem providerApiError_errorType (upstreamStatus : Option Int) :
    (providerApiError upstreamStatus).errorType ∈ errorTypes := by
  unfold providerApiError
  cases upstreamStatus with
  | none => decide
  | some status =>
    dsimp only
    split
    · simp [errorTypes]
    · split
      · simp [errorTypes]
      · split
        · split
          · simp [errorTypes]
          · simp [errorTypes]
        · simp [errorTypes]

theorem RequestFailure.apiError_errorType {failure : RequestFailure} {e : APIError}
    (h : failure.apiError = some e) : e.errorType ∈ errorTypes := by
  cases failure with
  | providerApi upstreamStatus =>
    cases h
    exact providerApiError_errorType upstreamStatus
  | validation => cases h
  | http => cases h
  | unhandled => cases h
  | _ =>
    cases h
    simp [errorTypes]

theorem RequestFailure.errorType_mem (e : RequestFailure) : ∀ t ∈ e.errorType, t ∈ errorTypes := by
  have hapi : ∀ t ∈ e.apiError.map APIError.errorType, t ∈ errorTypes := by
    intro t ht
    obtain ⟨a, ha, rfl⟩ := Option.map_eq_some_iff.1 ht
    exact RequestFailure.apiError_errorType ha
  cases e with
  | validation =>
    intro t ht
    cases ht
    decide
  | http =>
    intro t ht
    cases ht
    decide
  | unhandled =>
    intro t ht
    cases ht
  | _ => exact hapi

theorem ChatState.Bounded.writes (h : state.Bounded) {request : RequestState}
    (hrequest : ∀ t ∈ request.errorType, t.length ≤ 64) :
    ({ state with toRequestState := request } : ChatState).Bounded :=
  ⟨h.principalHash, h.orgId, h.apiKeyId, h.provider, hrequest, h.events, h.roles⟩

theorem RequestFailure.noted_eq (e : RequestFailure) {state : ChatState}
    (h : ∀ t ∈ state.errorType, t.length ≤ 64) : ∃ request,
    e.noted state = { state with toRequestState := request } ∧
      ∀ t ∈ request.errorType, t.length ≤ 64 := by
  rw [RequestFailure.noted]
  cases htype : e.errorType with
  | none => exact ⟨state.toRequestState, rfl, h⟩
  | some t =>
    refine ⟨{ state.toRequestState with errorType := some t }, rfl, ?_⟩
    intro x hx
    cases hx
    exact errorTypes_fit t (e.errorType_mem t htype)

theorem ChatState.Bounded.noted (h : state.Bounded) (e : RequestFailure) :
    (e.noted state).Bounded := by
  obtain ⟨request, heq, hrequest⟩ := e.noted_eq h.errorType
  rw [heq]
  exact h.writes hrequest

theorem payload_roles (settings : ChatSettings) (messages : List NormalizedMessage) :
    (settings.payload messages).map NormalizedMessage.role = messages.map NormalizedMessage.role := by
  rw [ChatSettings.payload]
  split
  · rw [maskMessages_eq, (MaskState.Records.init.maskAll messages).1, List.map_map]
    rfl
  · rfl

theorem supportedRoles_fit : ∀ role ∈ supportedRoles, role.length ≤ 32 := by decide

theorem notedEvents_fit : ∀ event ∈ settings.notedEvents rules messages,
    event.eventType.length ≤ 32 ∧ event.action.length ≤ 16 ∧ event.severity.length ≤ 16 := by
  intro event hevent
  obtain ⟨_, id, _, rfl⟩ := mem_notedEvents.1 hevent
  dsimp only
  refine ⟨by decide, ?_, by decide⟩
  split
  · decide
  · decide

/-- What the handler takes over from the principal and the body. -/
structure ChatState.Carries (requestId : Text) (principal : ApiKeyPrincipal) (model : Option String)
    (state : ChatState) : Prop where
  requestId : state.requestId = some requestId
  principalHash : state.principalHash = some principal.apiKeyHash
  orgId : state.orgId = principal.orgId
  apiKeyId : state.apiKeyId = principal.apiKeyId
  model : state.model = model

variable (chat) in
theorem createChatCompletion_carries (hrules : settings.Compiles compile rules)
    (requestId : Text) (principal : ApiKeyPrincipal) (payload : ChatCompletionRequest settings)
    (limiter : StreamLimiter) :
    let run := chatRun compile chat settings requestId principal payload limiter
    run.state.Carries requestId principal (some payload.model) ∧
      (∀ t ∈ run.state.provider, t.length ≤ 64) ∧ (∀ t ∈ run.state.errorType, t.length ≤ 64) ∧
      ∀ stream, run.reply = .streaming stream →
        ∃ limiter lease, stream = { limiter := limiter, lease := lease } := by
  intro run
  by_cases hb : Blocked settings rules payload.messages
  · have hrun : run = _ := createChatCompletion_blocked hrules principal payload _ limiter hb
    rw [hrun]
    refine ⟨⟨rfl, rfl, rfl, rfl, rfl⟩, ?_, ?_, ?_⟩
    · intro t ht
      cases ht
    · intro t ht
      cases ht
      decide
    · intro stream hstream
      cases hstream
  · obtain ⟨policyEvents, _, hpassed⟩ := createChatCompletion_passed hrules principal payload
      (.entering requestId principal payload.stream) limiter hb
    have hrun : run = _ := hpassed
    obtain ⟨provider, tokenUsage, hprovider, hstate⟩ :=
      callProvider_state (String.ofList principal.apiKeyHash)
        (maskPayload settings payload.toNormalized _).1
        (maskPayload settings payload.toNormalized _).2 limiter
    rw [hrun, hstate, maskPayload_snd]
    refine ⟨⟨rfl, rfl, rfl, rfl, rfl⟩, ?_, ?_, ?_⟩
    · intro t ht
      rcases hprovider with hprovider | ⟨name, hprovider⟩
      · rw [hprovider, maskPayload_snd] at ht
        cases ht
      · rw [hprovider] at ht
        cases ht
        cases name with
        | openai => decide
        | anthropic => decide
    · intro t ht
      cases ht
    · intro stream hstream
      exact callProvider_streaming hstream

theorem ChatState.Carries.writes {principal : ApiKeyPrincipal} {model : Option String}
    (h : state.Carries requestId principal model) (request : RequestState) :
    ({ state with toRequestState := request } : ChatState).Carries requestId principal model :=
  ⟨h.requestId, h.principalHash, h.orgId, h.apiKeyId, h.model⟩

theorem createChatCompletion_bounded (hrules : settings.Compiles compile rules)
    (requestId : Text) {principal : ApiKeyPrincipal} (hprincipal : principal.Fits)
    (payload : ChatCompletionRequest settings) (limiter : StreamLimiter) :
    (chatRun compile chat settings requestId principal payload limiter).state.Bounded := by
  obtain ⟨hcarries, hprovider, herror, _⟩ :=
    createChatCompletion_carries chat hrules requestId principal payload limiter
  obtain ⟨hnoted, _⟩ :=
    createChatCompletion_noted chat hrules requestId principal payload limiter
  refine ⟨?_, ?_, ?_, hprovider, herror, ?_, ?_⟩
  · rw [hcarries.principalHash]
    intro t ht
    cases ht
    exact hprincipal.apiKeyHash
  · rw [hcarries.orgId]
    exact hprincipal.orgId
  · rw [hcarries.apiKeyId]
    exact hprincipal.apiKeyId
  · rw [hnoted.policyEvents]
    exact notedEvents_fit
  · intro m hm
    have hroles : ∀ m' ∈ settings.payload payload.messages, m'.role.length ≤ 32 := by
      intro m' hm'
      apply supportedRoles_fit
      have hrole := List.mem_map_of_mem (f := NormalizedMessage.role) hm'
      rw [payload_roles] at hrole
      obtain ⟨m, hm, heq⟩ := List.mem_map.1 hrole
      rw [← heq]
      exact payload.role_supported m hm
    by_cases hb : Blocked settings rules payload.messages
    · rw [(hnoted.blocked hb).2] at hm
      cases hm
    · rw [(hnoted.passed hb).2] at hm
      split at hm
      · rw [Option.getD_some, List.mem_mapIdx] at hm
        obtain ⟨i, hi, rfl⟩ := hm
        exact hroles _ (List.getElem_mem hi)
      · cases hm

/-- What the state of a finalised request has from its course. -/
structure Finalized (requestId : Text) (rules : List CompiledRule) (course : Course settings)
    (state : ChatState) : Prop where
  bounded : state.Bounded
  requestId : state.requestId = some requestId
  model : state.model = course.payload.map ChatCompletionRequest.model
  policyEvents : state.policyEvents.getD [] =
    course.payload.elim [] fun payload => settings.notedEvents rules payload.messages

theorem Finalized.writes {course : Course settings} (h : Finalized requestId rules course state)
    {request : RequestState} (hrequest : ∀ t ∈ request.errorType, t.length ≤ 64) :
    Finalized requestId rules course { state with toRequestState := request } :=
  ⟨h.bounded.writes hrequest, h.requestId, h.model, h.policyEvents⟩

theorem Finalized.noted {course : Course settings} (h : Finalized requestId rules course state)
    (e : RequestFailure) : Finalized requestId rules course (e.noted state) := by
  obtain ⟨request, heq, hrequest⟩ := e.noted_eq h.bounded.errorType
  rw [heq]
  exact h.writes hrequest

theorem Finalized.handler (hrules : settings.Compiles compile rules)
    (requestId : Text) {principal : ApiKeyPrincipal} (hprincipal : principal.Fits)
    (payload : ChatCompletionRequest settings) (limiter : StreamLimiter) :
    Finalized requestId rules (.handled principal payload)
      (chatRun compile chat settings requestId principal payload limiter).state := by
  obtain ⟨hcarries, _⟩ :=
    createChatCompletion_carries chat hrules requestId principal payload limiter
  obtain ⟨hnoted, _⟩ :=
    createChatCompletion_noted chat hrules requestId principal payload limiter
  exact ⟨createChatCompletion_bounded hrules requestId hprincipal payload limiter,
    hcarries.requestId, hcarries.model, hnoted.policyEvents⟩

theorem Finalized.stopped (requestId : Text) (rules : List CompiledRule) {principal : ApiKeyPrincipal}
    (hprincipal : principal.Fits) (stream : Option Bool) :
    Finalized requestId rules (.stopped principal : Course settings)
      { ChatState.entering requestId principal false with stream := stream } := by
  refine ⟨⟨?_, hprincipal.orgId, hprincipal.apiKeyId, ?_, ?_, ?_, ?_⟩, rfl, rfl, rfl⟩
  · intro t ht
    cases ht
    exact hprincipal.apiKeyHash
  · intro t ht
    cases ht
  · intro t ht
    cases ht
  · intro event hevent
    cases hevent
  · intro m hm
    cases hm

theorem Finalized.refused (requestId : Text) (rules : List CompiledRule) :
    Finalized requestId rules (.refused : Course settings) { requestId := some requestId } := by
  refine ⟨⟨?_, ?_, ?_, ?_, ?_, ?_, ?_⟩, rfl, rfl, rfl⟩
  all_goals rintro _ ⟨⟩

theorem Finalizes.finalized (hrules : settings.Compiles compile rules)
    {course : Course settings} (hprincipal : ∀ p ∈ course.principal, p.Fits)
    (h : Finalizes compile chat settings requestId course state) :
    Finalized requestId rules course state := by
  cases h with
  | refused e => exact (Finalized.refused requestId rules).noted e
  | stopped principal stream e =>
    exact (Finalized.stopped requestId rules (hprincipal principal rfl) stream).noted e
  | completed limiter _ => exact .handler hrules requestId (hprincipal _ rfl) _ limiter
  | raised limiter e _ =>
    exact (Finalized.handler hrules requestId (hprincipal _ rfl) _ limiter).noted e
  | streamed limiter actions hreply hrun hprovider =>
    apply (Finalized.handler hrules requestId (hprincipal _ rfl) _ limiter).writes
    obtain ⟨_, _, _, hfresh⟩ := createChatCompletion_carries chat hrules requestId _ _ limiter
    obtain ⟨_, _, rfl⟩ := hfresh _ hreply
    have htypes : ChatStream.ErrorTypes (· ∈ errorTypes) _ :=
      ChatStream.ErrorTypes.run (by decide) (by decide)
        (fun a ha e he => by
          obtain ⟨failure, hfailure⟩ := hprovider a ha e he
          exact RequestFailure.apiError_errorType hfailure)
        ⟨by rintro x ⟨⟩, by rintro e ⟨⟩⟩ hrun
    intro t ht
    exact errorTypes_fit t (htypes.final t ht)

theorem RequestFields.Fits.policyEvent {f : RequestFields} (h : f.Fits)
    (htype : eventType.length ≤ 32) (haction : action.length ≤ 16) (hrule : ruleId.length ≤ 128)
    (hseverity : severity.length ≤ 16) (count : Nat) :
    (f.policyEvent eventType action ruleId count severity).Fits :=
  ⟨h.requestId, h.principalHash, h.orgId, h.apiKeyId, htype, haction, hrule, hseverity⟩

theorem PiiType.name_fits (t : PiiType) : t.name.toList.length ≤ 128 := by
  cases t <;> decide

/-- With the rest bounded, the request id, the model and the rules decide. -/
theorem ChatState.Bounded.fits_iff (h : state.Bounded) (hid : state.requestId = some requestId)
    (htx : finalizeAuditRows settings state urlPath sessionmaker freshId statusCode latencyMs =
      some tx) :
    (tx.fields.Fits ↔ requestId.length ≤ 64 ∧ ∀ t ∈ state.model, t.length ≤ 128) ∧
      (tx.Fits ↔ tx.fields.Fits ∧
        ∀ event ∈ state.policyEvents.getD [], event.ruleId.length ≤ 128) := by
  have heq := finalizeAuditRows_eq htx
  have hrequest : tx.fields.requestId = requestId := by
    rw [heq, requestFields, hid]
    rfl
  have hmodel : tx.fields.outcome.model = state.model := by rw [heq]; rfl
  have hevents : tx.policyEvents = policyEventRows state tx.fields := by rw [heq]
  have hmessages : tx.auditMessages = auditMessageRows settings state tx.fields := by rw [heq]
  constructor
  · constructor
    · intro hfits
      rw [← hrequest, ← hmodel]
      exact ⟨hfits.requestId, hfits.model⟩
    · rintro ⟨hlength, hmodels⟩
      rw [← hrequest] at hlength
      rw [← hmodel] at hmodels
      rw [heq] at hlength hmodels ⊢
      exact ⟨hlength, h.principalHash, h.orgId, h.apiKeyId, h.provider, hmodels, h.errorType⟩
  · constructor
    · intro hfits
      refine ⟨hfits.fields, ?_⟩
      intro event hevent
      have hrow := hfits.policyEvents
      rw [hevents] at hrow
      exact (hrow _ (mem_policyEventRows.2 (.inl ⟨event, hevent, rfl⟩))).ruleId
    · rintro ⟨hfields, hrules⟩
      refine ⟨hfields, ?_, ?_⟩
      · rw [hevents]
        intro e he
        rcases mem_policyEventRows.1 he with ⟨event, hevent, rfl⟩ | ⟨t, n, _, rfl⟩
        · obtain ⟨htype, haction, hseverity⟩ := h.events event hevent
          apply hfields.policyEvent htype haction (hrules event hevent)
          split
          · decide
          · exact hseverity
        · exact hfields.policyEvent (by decide) (by decide) t.name_fits (by decide) n
      · rw [hmessages, auditMessageRows]
        intro m hm
        split at hm
        · obtain ⟨stored, hstored, rfl⟩ := List.mem_map.1 hm
          exact ⟨hfields.requestId, h.roles stored hstored⟩
        · cases hm

theorem requestIdOf_fits (huuid : uuid.length = 36) (header : Option Text) :
    (requestIdOf header uuid).length ≤ 64 ↔ ∀ t ∈ header, t.length ≤ 64 := by
  have huuid : uuid.length ≤ 64 := by omega
  cases header with
  | none =>
    apply iff_of_true huuid
    intro t ht
    cases ht
  | some t =>
    simp only [Option.mem_some_iff, forall_eq']
    rw [requestIdOf]
    by_cases ht : t = []
    · rw [ht]
      exact iff_of_true huuid (Nat.zero_le _)
    · simp only [if_neg ht]

theorem audit_rows_fit_iff (sha256 : Text → Text) (hsha : ∀ t, (sha256 t).length = 64)
    (compile : Text → ReCompile)
    (chat : ProviderName → NormalizedChatRequest → Except RequestFailure NormalizedChatResponse)
    (settings : ChatSettings) (rules : List CompiledRule)
    (hrules : settings.Compiles compile rules)
    (header : Option Text) (uuid : Text) (huuid : uuid.length = 36) (course : Course settings)
    (hissued : ∀ p ∈ course.principal, ∃ server request db,
      db.IdsFit ∧ (requireApiKey sha256 server request db).2 = .ok p)
    (state : ChatState)
    (hfinalizes : Finalizes compile chat settings (requestIdOf header uuid) course state)
    (urlPath : String) (sessionmaker : Bool) (freshId : Text) (statusCode : Nat) (latencyMs : Int)
    (tx : AuditTransaction)
    (htx : finalizeAuditRows settings state urlPath sessionmaker freshId statusCode latencyMs =
      some tx) :
    (tx.Fits ↔ (∀ t ∈ header, t.length ≤ 64) ∧ ∀ payload ∈ course.payload,
      payload.model.length ≤ 128 ∧ (settings.policyMode ≠ .disabled →
        ∀ id, RuleMatches payload.messages rules id → id.length ≤ 128)) ∧
    (tx.fields.Fits ↔ (∀ t ∈ header, t.length ≤ 64) ∧
      ∀ payload ∈ course.payload, payload.model.length ≤ 128) := by
  have hprincipal : ∀ p ∈ course.principal, p.Fits := by
    intro p hp
    obtain ⟨server, request, db, hdb, haccepted⟩ := hissued p hp
    exact requireApiKey_fits hsha hdb haccepted
  have hfinal := hfinalizes.finalized hrules hprincipal
  obtain ⟨hfields, hfits⟩ := hfinal.bounded.fits_iff hfinal.requestId htx
  have hmodel : (∀ t ∈ state.model, t.length ≤ 128) ↔
      ∀ payload ∈ course.payload, payload.model.length ≤ 128 := by
    rw [hfinal.model]
    cases course.payload with
    | none =>
      constructor
      · intro _ payload hpayload
        cases hpayload
      · intro _ t ht
        cases ht
    | some payload => simp
  have hrule : (∀ event ∈ state.policyEvents.getD [], event.ruleId.length ≤ 128) ↔
      ∀ payload ∈ course.payload, settings.policyMode ≠ .disabled →
        ∀ id, RuleMatches payload.messages rules id → id.length ≤ 128 := by
    rw [hfinal.policyEvents]
    cases course.payload with
    | none =>
      constructor
      · intro _ payload hpayload
        cases hpayload
      · intro _ event hevent
        cases hevent
    | some payload =>
      simp only [Option.elim_some, Option.mem_some_iff, forall_eq', mem_notedEvents]
      constructor
      · intro h hmode id hid
        exact h _ ⟨hmode, id, hid, rfl⟩
      · rintro h event ⟨hmode, id, hid, rfl⟩
        exact h hmode id hid
  rw [hmodel, requestIdOf_fits huuid] at hfields
  refine ⟨?_, hfields⟩
  rw [hfits, hfields, hrule]
  constructor
  · rintro ⟨⟨hheader, hmodels⟩, hids⟩
    exact ⟨hheader, fun payload hp => ⟨hmodels payload hp, hids payload hp⟩⟩
  · rintro ⟨hheader, h⟩
    exact ⟨⟨hheader, fun payload hp => (h payload hp).1⟩, fun payload hp => (h payload hp).2⟩

/-- SHA-256 of the one letter k. -/
def digestK : Text := "8254c329a92850f6d539dd376f4816ee2764517da5e0235514af433164480d7a".toList

def principalK : ApiKeyPrincipal :=
  { apiKeyHash := digestK, scopes := {chatScope, adminScope, superAdminScope} }

theorem audit_rows_fit_blocked : ∃ state tx,
    finalizeAuditRows blockX state AUDIT_PATH true [] 403 3 = some tx ∧ tx.Fits := by
  have hrules : blockX.Compiles compileX [⟨['a'], List.countP (· ∈ ['x', 'X'])⟩] := fun _ => rfl
  have hblocked : Blocked blockX [⟨['a'], List.countP (· ∈ ['x', 'X'])⟩] requestX.messages :=
    ⟨rfl, ['a'], _, List.mem_cons_self, rfl, _, List.mem_cons_self, by decide⟩
  have hissued : ∃ server request db, Database.IdsFit db ∧
      (requireApiKey (fun _ => digestK) server request db).2 = .ok principalK :=
    ⟨⟨⟨["api_key".toList], "org_id".toList, "groups".toList, []⟩, ⟨[digestK], 60⟩, none⟩,
      ⟨some ("Bearer".toList, ['k']), { now := ⟨0, some 0⟩ }, false⟩, ⟨.empty, .empty, []⟩,
      ⟨by rintro org ⟨⟩, by rintro key ⟨⟩⟩, rfl⟩
  have hfinalizes : Finalizes compileX
      (fun _ _ => .error (.providerConfiguration "OpenAI provider is not configured")) blockX
      (requestIdOf (some ['1']) (List.replicate 36 '0')) (.handled principalK requestX)
      _ :=
    .raised (.new 4 (by decide)) .policyViolation
      (congrArg ChatRun.reply (createChatCompletion_blocked hrules _ _ _ _ hblocked))
  refine ⟨_, _, rfl, ((audit_rows_fit_iff (fun _ => digestK) (fun _ => rfl) compileX _ blockX _ hrules
    (some ['1']) (List.replicate 36 '0') rfl _ ?_ _ hfinalizes AUDIT_PATH true [] 403 3 _ rfl).1).2 ?_⟩
  · intro p hp
    cases hp
    exact hissued
  · refine ⟨?_, ?_⟩
    · intro t ht
      cases ht
      decide
    · intro payload hpayload
      cases hpayload
      refine ⟨by decide, ?_⟩
      rintro _ id ⟨rule, hrule, rfl, _⟩
      obtain rfl := List.mem_singleton.1 hrule
      decide

/-- An unauthenticated request with an id of 65 characters. -/
theorem long_request_id_does_not_fit : ∃ state tx,
    Finalizes compileX (fun _ _ => .error .unhandled) {}
        (requestIdOf (some (List.replicate 65 'a')) (List.replicate 36 '0')) .refused state ∧
      finalizeAuditRows {} state AUDIT_PATH true [] 401 3 = some tx ∧
      ¬ tx.Fits ∧ ¬ tx.fields.Fits := by
  refine ⟨_, _, .refused (.authentication "Missing bearer token"), rfl, ?_, ?_⟩
  · intro h
    have hlength := h.fields.requestId
    revert hlength
    decide
  · intro h
    have hlength := h.requestId
    revert hlength
    decide

end AiServing
