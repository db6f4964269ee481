import AiServing.PolicyFilter
import AiServing.RequestAudit
import AiServing.AdminStore

namespace AiServing
open Dictionary
set_option autoImplicit true

/-- `POLICY_MODE`, as its validator lets it through. -/
inductive PolicyMode
  | block | logOnly | disabled
  deriving DecidableEq, Repr

/-- The settings that a chat request meets. -/
structure ChatSettings where
  maxMessages : Nat := 200
  maxMessageChars : Nat := 100000
  maxModelNameChars : Nat := 128
  maxOutputTokens : Int := 4096
  policyMode : PolicyMode := .logOnly
  forbiddenPatterns : List Text := []
  piiMaskingEnabled : Bool := true
  piiTypes : List String := ["rrn", "card", "phone", "email"]
  openaiModels : List String := ["gpt-4o", "gpt-4o-mini"]
  anthropicModels : List String := ["claude-sonnet-4-6", "claude-3-5-haiku-latest"]
  auditEnabled : Bool := true
  auditStoreMessages : Bool := false

structure NormalizedChatRequest where
  model : String
  messages : List NormalizedMessage
  stream : Bool := false
  temperature : Option ℚ := none
  maxTokens : Option Int := none

structure NormalizedChatResponse where
  id : String
  model : String
  message : NormalizedMessage
  finishReason : Option String := none
  usage : NormalizedUsage := {}

/-- `SupportedRole` -/
def supportedRoles : List String := ["system", "user", "assistant"]

/-- A body that `model_validate` lets through. -/
structure ChatCompletionRequest (settings : ChatSettings) where
  model : String
  messages : List NormalizedMessage
  stream : Bool := false
  temperature : Option ℚ := none
  maxTokens : Option Int := none
  model_ne : 1 ≤ model.length
  model_le : model.length ≤ settings.maxModelNameChars
  messages_ne : 1 ≤ messages.length
  messages_le : messages.length ≤ settings.maxMessages
  role_supported : ∀ m ∈ messages, m.role ∈ supportedRoles
  content_le : ∀ m ∈ messages, m.content.length ≤ settings.maxMessageChars
  temperature_range : ∀ t ∈ temperature, 0 ≤ t ∧ t ≤ 2
  maxTokens_range : ∀ n ∈ maxTokens, 1 ≤ n ∧ n ≤ settings.maxOutputTokens

def ChatCompletionRequest.toNormalized (payload : ChatCompletionRequest settings) :
    NormalizedChatRequest where
  model := payload.model
  messages := payload.messages
  stream := payload.stream
  temperature := payload.temperature
  maxTokens := payload.maxTokens

inductive ProviderName
  | openai | anthropic
  deriving DecidableEq, Repr

def ProviderName.name : ProviderName → String
  | openai => "openai"
  | anthropic => "anthropic"

/-- `_model_providers`, where a model of both lists goes to the second provider. -/
def ChatSettings.modelProviders (settings : ChatSettings) : Dict String ProviderName :=
  settings.anthropicModels.foldl (fun d model => d.set model .anthropic)
    (settings.openaiModels.foldl (fun d model => d.set model .openai) .empty)

/-- `provider_for_model`, `none` where it raises `UnsupportedModelError`. -/
def ChatSettings.providerForModel (settings : ChatSettings) (model : String) :
    Option ProviderName :=
  settings.modelProviders.get? model

/-- What ends a request with an exception. -/
inductive RequestFailure
  | authentication (message : String)
  | rateLimit (message : String)
  | policyViolation
  | unsupportedModel (model : String)
  | providerConfiguration (message : String)
  | providerApi (upstreamStatus : Option Int)
  | validation
  | http
  | unhandled
  deriving DecidableEq, Repr

def providerApiError (upstreamStatus : Option Int) : APIError :=
  let upstream : APIError := ⟨"Upstream provider error", 502, "provider_error", some "provider_error"⟩
  match upstreamStatus with
  | none => upstream
  | some status =>
    if status = 429 then
      ⟨"Upstream provider rate limit exceeded", 429, "rate_limit_error", some "rate_limit_exceeded"⟩
    else if status = 401 ∨ status = 403 then upstream
    else if 400 ≤ status ∧ status < 500 then
      if status = 400 ∨ status = 404 then
        ⟨"Upstream provider rejected the requested model", 400, "invalid_request_error",
          some "model_not_found"⟩
      else
        ⟨"Upstream provider rejected the request", 400, "invalid_request_error",
          some "invalid_request"⟩
    else upstream

def RequestFailure.apiError : RequestFailure → Option APIError
  | authentication message => some ⟨message, 401, "invalid_request_error", some "invalid_api_key"⟩
  | rateLimit message => some ⟨message, 429, "rate_limit_error", some "rate_limit_exceeded"⟩
  | policyViolation =>
    some ⟨"Request blocked by content policy.", 403, "content_policy_violation",
      some "content_policy_violation"⟩
  | unsupportedModel model =>
    some ⟨"Model not found: " ++ model, 400, "invalid_request_error", some "model_not_found"⟩
  | providerConfiguration message =>
    some ⟨message, 503, "server_error", some "provider_not_configured"⟩
  | providerApi upstreamStatus => some (providerApiError upstreamStatus)
  | _ => none

/-- What the exception handlers note as the error type. The last of them runs only after the request
has been finalised. -/
def RequestFailure.errorType : RequestFailure → Option String
  | validation => some "invalid_request_error"
  | http => some "http_error"
  | unhandled => none
  | e => e.apiError.map APIError.errorType

structure StoredMessage where
  seq : Nat
  role : String
  content : Text

/-- An item of `request.state.policy_events`. -/
structure NotedEvent where
  eventType : String
  action : String
  ruleId : Text
  count : Nat
  severity : String

/-- `request.state` of a chat request. An attribute that is not set is `none`. -/
structure ChatState extends RequestState where
  requestId : Option Text := none
  principalHash : Option Text := none
  orgId : Option Text := none
  apiKeyId : Option Text := none
  model : Option String := none
  stream : Option Bool := none
  provider : Option String := none
  policyEvents : Option (List NotedEvent) := none
  piiMasked : Option (Dict PiiType Nat) := none
  storedMessages : Option (List StoredMessage) := none

/-- How the handler leaves a request: `completed` is answered with the response of the provider,
`streaming` with the stream that owns the lease. -/
inductive ChatReply
  | completed (response : NormalizedChatResponse)
  | streaming (stream : ChatStream)
  | raised (e : RequestFailure)

/-- What a run of the handler leaves behind, and the calls of a provider that it makes. -/
structure ChatRun where
  state : ChatState
  limiter : StreamLimiter
  calls : List (ProviderName × NormalizedChatRequest)
  reply : ChatReply

section Handler

variable (compile : Text → ReCompile)
  (chat : ProviderName → NormalizedChatRequest → Except RequestFailure NormalizedChatResponse)
  (settings : ChatSettings)

def forbiddenContent (action : String) (found : PolicyMatch) : NotedEvent where
  eventType := "forbidden_content"
  action := action
  ruleId := found.ruleId
  count := found.count
  severity := found.severity

/-- The scan of the handler, with the exception that leaves it. -/
def policyGate (normalized : NormalizedChatRequest) (state : ChatState) :
    ChatState × Option RequestFailure :=
  if settings.policyMode = .disabled ∨ settings.forbiddenPatterns = [] then (state, none)
  else match compileRules compile settings.forbiddenPatterns with
    | none => (state, some .unhandled)
    | some rules =>
      let found := scanMessages normalized.messages rules
      if found = [] then (state, none)
      else
        let action := if settings.policyMode = .block then "block" else "log"
        let events := found.map (forbiddenContent action)
        let state := { state with policyEvents := some (state.policyEvents.getD [] ++ events) }
        if settings.policyMode = .block then
          ({ state with errorType := some "content_policy_violation" }, some .policyViolation)
        else (state, none)

/-- The masking of the handler. -/
def maskPayload (normalized : NormalizedChatRequest) (state : ChatState) :
    NormalizedChatRequest × ChatState :=
  if settings.piiMaskingEnabled then
    let (maskedMessages, piiSummary) := maskMessages normalized.messages settings.piiTypes
    ({ normalized with messages := maskedMessages },
      { state with
        storedMessages := some (maskedMessages.mapIdx fun i m => ⟨i, m.role, m.content⟩)
        piiMasked := some piiSummary })
  else (normalized, state)

/-- The handler from `provider_for_model` on. A stream goes on as a `ChatStream`, whose first step
is what becomes of the call. -/
def callProvider (apiKeyHash : String) (normalized : NormalizedChatRequest) (state : ChatState)
    (limiter : StreamLimiter) : ChatRun :=
  match settings.providerForModel normalized.model with
  | none => ⟨state, limiter, [], .raised (.unsupportedModel normalized.model)⟩
  | some provider =>
    let state := { state with provider := some provider.name }
    if normalized.stream then
      match limiter.acquire apiKeyHash with
      | (limiter, none) => ⟨state, limiter, [], .raised (.rateLimit "Too many concurrent streams")⟩
      | (limiter, some lease) =>
        ⟨state, limiter, [(provider, normalized)], .streaming { limiter := limiter, lease := lease }⟩
    else match chat provider normalized with
      | .error e => ⟨state, limiter, [(provider, normalized)], .raised e⟩
      | .ok response =>
        ⟨{ state with tokenUsage := some response.usage }, limiter, [(provider, normalized)],
          .completed response⟩

def createChatCompletion (principal : ApiKeyPrincipal) (payload : ChatCompletionRequest settings)
    (state : ChatState) (limiter : StreamLimiter) : ChatRun :=
  let normalized := payload.toNormalized
  let state := { state with model := some normalized.model, stream := some normalized.stream }
  match policyGate compile settings normalized state with
  | (state, some e) => ⟨state, limiter, [], .raised e⟩
  | (state, none) =>
    let (normalized, state) := maskPayload settings normalized state
    callProvider chat settings (String.ofList principal.apiKeyHash) normalized state limiter

end Handler

/-- The state in which a request of this principal reaches the handler. -/
def ChatState.entering (requestId : Text) (principal : ApiKeyPrincipal) (stream : Bool) :
    ChatState where
  requestId := some requestId
  principalHash := some principal.apiKeyHash
  orgId := principal.orgId
  apiKeyId := principal.apiKeyId
  stream := some stream

def chatRun (compile : Text → ReCompile)
    (chat : ProviderName → NormalizedChatRequest → Except RequestFailure NormalizedChatResponse)
    (settings : ChatSettings) (requestId : Text) (principal : ApiKeyPrincipal)
    (payload : ChatCompletionRequest settings) (limiter : StreamLimiter) : ChatRun :=
  createChatCompletion compile chat settings principal payload
    (.entering requestId principal payload.stream) limiter

/-- The patterns compile to these rules, where the mode asks for any. -/
def ChatSettings.Compiles (settings : ChatSettings) (compile : Text → ReCompile)
    (rules : List CompiledRule) : Prop :=
  settings.policyMode ≠ .disabled → compileRules compile settings.forbiddenPatterns = some rules

/-- In block mode some rule matches some message. -/
def Blocked (settings : ChatSettings) (rules : List CompiledRule)
    (messages : List NormalizedMessage) : Prop :=
  settings.policyMode = .block ∧ ∃ id, RuleMatches messages rules id

/-- A stream needs a free slot of its key. -/
def slotFree (limiter : StreamLimiter) (apiKeyHash : String) (stream : Bool) : Bool :=
  !stream || (limiter.acquire apiKeyHash).2.isSome

/-- The messages that a provider sees. -/
def ChatSettings.payload (settings : ChatSettings) (messages : List NormalizedMessage) :
    List NormalizedMessage :=
  if settings.piiMaskingEnabled then (maskMessages messages settings.piiTypes).1 else messages

/-- What the scan of the handler notes. -/
def ChatSettings.notedEvents (settings : ChatSettings) (rules : List CompiledRule)
    (messages : List NormalizedMessage) : List NotedEvent :=
  if settings.policyMode = .disabled then []
  else (scanMessages messages rules).map
    (forbiddenContent (if settings.policyMode = .block then "block" else "log"))

variable {compile : Text → ReCompile} {settings : ChatSettings} {rules : List CompiledRule}
  {chat : ProviderName → NormalizedChatRequest → Except RequestFailure NormalizedChatResponse}
  {normalized : NormalizedChatRequest} {messages : List NormalizedMessage} {state : ChatState}
  {limiter : StreamLimiter}

theorem notedEvents_eq_nil : settings.notedEvents rules messages = [] ↔
    settings.policyMode = .disabled ∨ ∀ id, ¬ RuleMatches messages rules id := by
  rw [ChatSettings.notedEvents]
  split
  · rename_i hmode
    exact iff_of_true rfl (.inl hmode)
  · rename_i hmode
    rw [List.map_eq_nil_iff, scanMessages_eq_nil, or_iff_right hmode]

theorem policyGate_eq (hrules : settings.Compiles compile rules)
    (normalized : NormalizedChatRequest) (state : ChatState) :
    policyGate compile settings normalized state =
      if (settings.notedEvents rules normalized.messages).isEmpty then (state, none)
      else if settings.policyMode = .block then
        ({ state with
            policyEvents := some (state.policyEvents.getD [] ++
              settings.notedEvents rules normalized.messages)
            errorType := some "content_policy_violation" }, some .policyViolation)
      else
        ({ state with
            policyEvents := some (state.policyEvents.getD [] ++
              settings.notedEvents rules normalized.messages) }, none) := by
  rw [policyGate]
  by_cases hmode : settings.policyMode = .disabled
  · have hevents : settings.notedEvents rules normalized.messages = [] :=
      notedEvents_eq_nil.2 (.inl hmode)
    rw [if_pos (.inl hmode), hevents]
    rfl
  · have hcompiled := hrules hmode
    have hnoted : settings.notedEvents rules normalized.messages =
        (scanMessages normalized.messages rules).map
          (forbiddenContent (if settings.policyMode = .block then "block" else "log")) :=
      if_neg hmode
    by_cases hpatterns : settings.forbiddenPatterns = []
    · have hnone : rules = [] := by
        rw [hpatterns] at hcompiled
        exact (Option.some.inj hcompiled).symm
      have hevents : settings.notedEvents rules normalized.messages = [] := by
        rw [notedEvents_eq_nil, hnone]
        right
        rintro id ⟨rule, hrule, _⟩
        cases hrule
      rw [if_pos (.inr hpatterns), hevents]
      rfl
    · rw [if_neg (not_or.2 ⟨hmode, hpatterns⟩), hcompiled, hnoted]
      simp only [List.isEmpty_map, List.isEmpty_iff]

theorem createChatCompletion_blocked (hrules : settings.Compiles compile rules)
    (principal : ApiKeyPrincipal) (payload : ChatCompletionRequest settings) (state : ChatState)
    (limiter : StreamLimiter) (hblocked : Blocked settings rules payload.messages) :
    createChatCompletion compile chat settings principal payload state limiter =
      ⟨{ state with
          model := some payload.model
          stream := some payload.stream
          policyEvents := some (state.policyEvents.getD [] ++
            settings.notedEvents rules payload.messages)
          errorType := some "content_policy_violation" }, limiter, [], .raised .policyViolation⟩ := by
  obtain ⟨hmode, id, hmatches⟩ := hblocked
  have hevents : settings.notedEvents rules payload.messages ≠ [] := by
    intro hnil
    rcases notedEvents_eq_nil.1 hnil with hdisabled | hnone
    · rw [hmode] at hdisabled
      cases hdisabled
    · exact hnone id hmatches
  rw [createChatCompletion, policyGate_eq hrules]
  simp only [ChatCompletionRequest.toNormalized, if_neg (mt List.isEmpty_iff.1 hevents), if_pos hmode]

theorem createChatCompletion_passed (hrules : settings.Compiles compile rules)
    (principal : ApiKeyPrincipal) (payload : ChatCompletionRequest settings) (state : ChatState)
    (limiter : StreamLimiter) (hpassed : ¬ Blocked settings rules payload.messages) :
    ∃ policyEvents, policyEvents.getD [] = state.policyEvents.getD [] ++
        settings.notedEvents rules payload.messages ∧
      createChatCompletion compile chat settings principal payload state limiter =
        callProvider chat settings (String.ofList principal.apiKeyHash)
          (maskPayload settings payload.toNormalized { state with
            model := some payload.model
            stream := some payload.stream
            policyEvents := policyEvents }).1
          (maskPayload settings payload.toNormalized { state with
            model := some payload.model
            stream := some payload.stream
            policyEvents := policyEvents }).2 limiter := by
  by_cases hevents : settings.notedEvents rules payload.messages = []
  · refine ⟨state.policyEvents, ?_, ?_⟩
    · rw [hevents, List.append_nil]
    · rw [createChatCompletion, policyGate_eq hrules]
      simp only [ChatCompletionRequest.toNormalized, hevents, List.isEmpty_nil, if_true]
  · have hmode : settings.policyMode ≠ .block := by
      intro hblock
      apply hevents
      rw [notedEvents_eq_nil]
      right
      intro id hmatches
      exact hpassed ⟨hblock, id, hmatches⟩
    refine ⟨some (state.policyEvents.getD [] ++ settings.notedEvents rules payload.messages), rfl, ?_⟩
    rw [createChatCompletion, policyGate_eq hrules]
    simp only [ChatCompletionRequest.toNormalized, if_neg (mt List.isEmpty_iff.1 hevents),
      if_neg hmode]

theorem maskPayload_fst (settings : ChatSettings) (normalized : NormalizedChatRequest)
    (state : ChatState) : (maskPayload settings normalized state).1 =
      { normalized with messages := settings.payload normalized.messages } := by
  rw [maskPayload, ChatSettings.payload]
  split <;> rfl

theorem maskPayload_snd (settings : ChatSettings) (normalized : NormalizedChatRequest)
    (state : ChatState) : (maskPayload settings normalized state).2 =
      { state with
        storedMessages := if settings.piiMaskingEnabled then
          some ((settings.payload normalized.messages).mapIdx fun i m => ⟨i, m.role, m.content⟩)
          else state.storedMessages
        piiMasked := if settings.piiMaskingEnabled then
          some (maskMessages normalized.messages settings.piiTypes).2 else state.piiMasked } := by
  rw [maskPayload, ChatSettings.payload]
  split <;> rfl

theorem callProvider_state (apiKeyHash : String) (normalized : NormalizedChatRequest)
    (state : ChatState) (limiter : StreamLimiter) : ∃ provider tokenUsage,
    (provider = state.provider ∨ ∃ name : ProviderName, provider = some name.name) ∧
    (callProvider chat settings apiKeyHash normalized state limiter).state =
      { state with provider := provider, tokenUsage := tokenUsage } := by
  rw [callProvider]
  cases settings.providerForModel normalized.model with
  | none => exact ⟨_, _, .inl rfl, rfl⟩
  | some provider =>
    refine ⟨some provider.name, ?_⟩
    cases hstream : normalized.stream with
    | true =>
      rcases limiter.acquire apiKeyHash with ⟨limiter', _ | lease⟩
      · exact ⟨_, .inr ⟨provider, rfl⟩, rfl⟩
      · exact ⟨_, .inr ⟨provider, rfl⟩, rfl⟩
    | false =>
      cases hchat : chat provider normalized with
      | error e => exact ⟨_, .inr ⟨provider, rfl⟩, by simp only [hchat]; rfl⟩
      | ok response => exact ⟨_, .inr ⟨provider, rfl⟩, by simp only [hchat]; rfl⟩

theorem callProvider_streaming {apiKeyHash : String} {stream : ChatStream}
    (h : (callProvider chat settings apiKeyHash normalized state limiter).reply = .streaming stream) :
    ∃ limiter lease, stream = { limiter := limiter, lease := lease } := by
  rw [callProvider] at h
  cases hprovider : settings.providerForModel normalized.model with
  | none =>
    rw [hprovider] at h
    cases h
  | some provider =>
    rw [hprovider] at h
    cases hstream : normalized.stream with
    | true =>
      simp only [hstream, if_true] at h
      rcases hlease : limiter.acquire apiKeyHash with ⟨limiter', _ | lease⟩
      · rw [hlease] at h
        cases h
      · rw [hlease] at h
        cases h
        exact ⟨_, _, rfl⟩
    | false =>
      simp only [hstream, Bool.false_eq_true, if_false] at h
      cases hchat : chat provider normalized with
      | error e =>
        rw [hchat] at h
        cases h
      | ok response =>
        rw [hchat] at h
        cases h

theorem callProvider_calls (apiKeyHash : String) (normalized : NormalizedChatRequest)
    (state : ChatState) (limiter : StreamLimiter) :
    (callProvider chat settings apiKeyHash normalized state limiter).calls =
      if slotFree limiter apiKeyHash normalized.stream then
        (settings.providerForModel normalized.model).toList.map fun provider =>
          (provider, normalized)
      else [] := by
  rw [callProvider]
  cases settings.providerForModel normalized.model with
  | none => exact (ite_self _).symm
  | some provider =>
    cases hstream : normalized.stream with
    | true =>
      rw [slotFree]
      rcases limiter.acquire apiKeyHash with ⟨limiter', _ | lease⟩
      · rfl
      · rfl
    | false =>
      cases hchat : chat provider normalized with
      | error e => simp only [hchat]; rfl
      | ok response => simp only [hchat]; rfl

end AiServing
