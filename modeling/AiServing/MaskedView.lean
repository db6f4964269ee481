import AiServing.GatewayRuns
import AiServing.PiiTwoRuns
import AiServing.PolicyRows

namespace AiServing
open Transitions
set_option autoImplicit true

/-- The answer of a request, and its time. -/
def GatewayPoint.answer : GatewayPoint settings → Option (Nat × ℚ)
  | .answered status t => some (status, t)
  | _ => none

/-- The same run, with these events of the scan. -/
def ChatRun.noting (run : ChatRun) (events : Option (List NotedEvent)) : ChatRun :=
  { run with state := { run.state with policyEvents := events } }

namespace Gateway

/-- Two bodies that differ at most in what the masking hides, and that the scan lets through alike. -/
structure SameView (app : GatewayApp) (payload payload' : ChatCompletionRequest app.settings) :
    Prop where
  model : payload'.model = payload.model
  stream : payload'.stream = payload.stream
  temperature : payload'.temperature = payload.temperature
  maxTokens : payload'.maxTokens = payload.maxTokens
  masked : app.settings.payload payload'.messages = app.settings.payload payload.messages
  summary : app.settings.piiMaskingEnabled = true →
    (maskMessages payload'.messages app.settings.piiTypes).2 =
      (maskMessages payload.messages app.settings.piiTypes).2
  gate : ∀ state, (policyGate app.compile app.settings payload'.toNormalized state).2 =
    (policyGate app.compile app.settings payload.toNormalized state).2

inductive SameRoute (app : GatewayApp) : Route app.settings → Route app.settings → Prop
  | same (route : Route app.settings) : SameRoute app route route
  | chat (auth : AuthRequest) (requestId : Text) {payload payload' : ChatCompletionRequest app.settings}
      (h : SameView app payload payload') :
      SameRoute app (.chat auth requestId (.ok payload)) (.chat auth requestId (.ok payload'))

inductive SamePoint (app : GatewayApp) : GatewayPoint app.settings → GatewayPoint app.settings → Prop
  | same (point : GatewayPoint app.settings) : SamePoint app point point
  | ready (p : ApiKeyPrincipal) (requestId : Text) {payload payload' : ChatCompletionRequest app.settings}
      (h : SameView app payload payload') :
      SamePoint app (.ready p requestId payload) (.ready p requestId payload')

structure SameIncoming (app : GatewayApp) (incoming incoming' : IncomingRequest app.settings) :
    Prop where
  clientIp : incoming'.clientIp = incoming.clientIp
  route : SameRoute app incoming.route incoming'.route

/-- Two requests that differ in their bodies only. -/
structure SameRequest (app : GatewayApp) (q q' : GatewayRequest app.settings) : Prop where
  incoming : SameIncoming app q.incoming q'.incoming
  point : SamePoint app q.point q'.point
  principal : q'.principal = q.principal
  admission : q'.admission = q.admission
  calls : q'.calls = q.calls
  lease : q'.lease = q.lease
  closed : q'.closed = q.closed

structure SameGateway (app : GatewayApp) (s s' : Gateway app.settings) : Prop where
  shared : s'.shared = s.shared
  requests : List.Forall₂ (SameRequest app) s.requests s'.requests

inductive SameAction (app : GatewayApp) :
    GatewayAction app.settings → GatewayAction app.settings → Prop
  | same (action : GatewayAction app.settings) : SameAction app action action
  | arrive {incoming incoming' : IncomingRequest app.settings} (h : SameIncoming app incoming incoming') :
      SameAction app (.arrive incoming) (.arrive incoming')

structure SameStep (app : GatewayApp) (a a' : GatewayStep app.settings) : Prop where
  action : SameAction app a.action a'.action
  now : a'.now = a.now

/-- What can be seen of a request from outside. -/
structure Observation where
  answer : Option (Nat × ℚ)
  principal : Option ApiKeyPrincipal
  admission : Option (ApiKeyPrincipal × ℚ)
  calls : List (ProviderName × NormalizedChatRequest)
  lease : Option Nat

def observe (q : GatewayRequest settings) : Observation where
  answer := q.point.answer
  principal := q.principal
  admission := q.admission
  calls := q.calls
  lease := q.lease

variable {app : GatewayApp} {s s' t u : Gateway app.settings} {a a' : GatewayStep app.settings}
  {steps steps' : List (GatewayStep app.settings)} {q q' : GatewayRequest app.settings}
  {payload payload' : ChatCompletionRequest app.settings}

theorem SameView.refl : SameView app payload payload :=
  ⟨rfl, rfl, rfl, rfl, rfl, fun _ => rfl, fun _ => rfl⟩

theorem SameIncoming.refl (incoming : IncomingRequest app.settings) :
    SameIncoming app incoming incoming := ⟨rfl, .same _⟩

theorem SameRequest.refl (q : GatewayRequest app.settings) : SameRequest app q q :=
  ⟨.refl _, .same _, rfl, rfl, rfl, rfl, rfl⟩

theorem SamePoint.answer {point point' : GatewayPoint app.settings} (h : SamePoint app point point') :
    point'.answer = point.answer := by
  cases h with
  | same => rfl
  | ready => rfl

theorem SameRequest.observed (h : SameRequest app q q') : observe q' = observe q := by
  rw [observe, observe, h.point.answer, h.principal, h.admission, h.calls, h.lease]

theorem callProvider_policyEvents
    (chat : ProviderName → NormalizedChatRequest → Except RequestFailure NormalizedChatResponse)
    (settings : ChatSettings) (apiKeyHash : String) (normalized : NormalizedChatRequest)
    (state : ChatState) (events : Option (List NotedEvent)) (limiter : StreamLimiter) :
    callProvider chat settings apiKeyHash normalized { state with policyEvents := events } limiter =
      (callProvider chat settings apiKeyHash normalized state limiter).noting events := by
  rw [callProvider, callProvider]
  cases settings.providerForModel normalized.model with
  | none => rfl
  | some provider =>
    cases hstream : normalized.stream with
    | true =>
      rcases limiter.acquire apiKeyHash with ⟨limiter', _ | lease⟩
      · rfl
      · rfl
    | false =>
      cases hchat : chat provider normalized with
      | error e =>
        simp only [hchat, Bool.false_eq_true, if_false]
        rfl
      | ok response =>
        simp only [hchat, Bool.false_eq_true, if_false]
        rfl

/-- These events are findings of the scan. -/
def FromScan (events : Option (List NotedEvent)) : Prop :=
  ∀ e ∈ events.getD [], e.eventType = "forbidden_content"

theorem policyGate_state (compile : Text → ReCompile) (settings : ChatSettings)
    (normalized : NormalizedChatRequest) {state : ChatState} (hstate : FromScan state.policyEvents) :
    ∃ events, FromScan events ∧ (policyGate compile settings normalized state).1 = { state with
      policyEvents := events
      errorType :=
        if (policyGate compile settings normalized state).2 = some .policyViolation then
          some "content_policy_violation"
        else state.errorType } := by
  rw [policyGate]
  split
  · exact ⟨_, hstate, rfl⟩
  · split
    · exact ⟨_, hstate, rfl⟩
    · dsimp only
      have hfound (action : String) (found : List PolicyMatch) :
          FromScan (some (state.policyEvents.getD [] ++ found.map (forbiddenContent action))) := by
        intro e he
        rcases List.mem_append.1 he with hold | hnew
        · exact hstate e hold
        · obtain ⟨_, _, rfl⟩ := List.mem_map.1 hnew
          rfl
      split
      · exact ⟨_, hstate, rfl⟩
      · split
        · exact ⟨_, hfound _ _, rfl⟩
        · exact ⟨_, hfound _ _, rfl⟩

theorem SameView.maskPayload (h : SameView app payload payload') (state : ChatState)
    (events : Option (List NotedEvent)) :
    maskPayload app.settings payload'.toNormalized { state with policyEvents := events } =
      ((maskPayload app.settings payload.toNormalized state).1,
        { (maskPayload app.settings payload.toNormalized state).2 with policyEvents := events }) := by
  apply Prod.ext
  · rw [maskPayload_fst, maskPayload_fst]
    simp only [ChatCompletionRequest.toNormalized, h.model, h.stream, h.temperature, h.maxTokens,
      h.masked]
  · rw [maskPayload_snd, maskPayload_snd]
    by_cases hmasking : app.settings.piiMaskingEnabled = true
    · simp only [ChatCompletionRequest.toNormalized, hmasking, if_true, h.masked, h.summary hmasking]
    · simp only [ChatCompletionRequest.toNormalized, hmasking, if_false, Bool.false_eq_true]

theorem createChatCompletion_eq {compile : Text → ReCompile}
    (chat : ProviderName → NormalizedChatRequest → Except RequestFailure NormalizedChatResponse)
    (settings : ChatSettings) (p : ApiKeyPrincipal) (payload : ChatCompletionRequest settings)
    (state : ChatState) (limiter : StreamLimiter) :
    createChatCompletion compile chat settings p payload state limiter =
      match policyGate compile settings payload.toNormalized
        { state with model := some payload.model, stream := some payload.stream } with
      | (state, some e) => ⟨state, limiter, [], .raised e⟩
      | (state, none) =>
        callProvider chat settings (String.ofList p.apiKeyHash)
          (AiServing.maskPayload settings payload.toNormalized state).1
          (AiServing.maskPayload settings payload.toNormalized state).2 limiter := rfl

/-- The handler does the same for two bodies of the same view, and notes the same but for its scan. -/
theorem SameView.chatRun (h : SameView app payload payload')
    (chat : ProviderName → NormalizedChatRequest → Except RequestFailure NormalizedChatResponse)
    (requestId : Text) (p : ApiKeyPrincipal) (streams : StreamLimiter) : ∃ events, FromScan events ∧
    chatRun app.compile chat app.settings requestId p payload' streams =
      (chatRun app.compile chat app.settings requestId p payload streams).noting events := by
  have hstart : ({ ChatState.entering requestId p payload'.stream with
        model := some payload'.model, stream := some payload'.stream } : ChatState) =
      { ChatState.entering requestId p payload.stream with
        model := some payload.model, stream := some payload.stream } := by
    rw [h.model, h.stream]
  rw [AiServing.chatRun, AiServing.chatRun, createChatCompletion_eq, createChatCompletion_eq, hstart]
  have hnone : FromScan ({ ChatState.entering requestId p payload.stream with
      model := some payload.model, stream := some payload.stream } : ChatState).policyEvents :=
    fun e he => nomatch he
  generalize ({ ChatState.entering requestId p payload.stream with
    model := some payload.model, stream := some payload.stream } : ChatState) = state at hnone
  obtain ⟨events, _, hstate⟩ :=
    policyGate_state app.compile app.settings payload.toNormalized hnone
  obtain ⟨events', hscan, hstate'⟩ :=
    policyGate_state app.compile app.settings payload'.toNormalized hnone
  have hgate := h.gate state
  refine ⟨events', hscan, ?_⟩
  generalize policyGate app.compile app.settings payload.toNormalized state = first,
    policyGate app.compile app.settings payload'.toNormalized state = second at *
  obtain ⟨state₁, failure⟩ := first
  obtain ⟨state₂, failure'⟩ := second
  obtain rfl : failure' = failure := hgate
  have hnoted : state₂ = { state₁ with policyEvents := events' } := by
    rw [show state₁ = _ from hstate]
    exact hstate'
  rw [hnoted]
  cases failure' with
  | some e => rfl
  | none =>
    dsimp only
    rw [h.maskPayload state₁ events']
    exact callProvider_policyEvents chat app.settings _ _ _ events' streams

theorem policyGate_of_not_block {compile : Text → ReCompile} {settings : ChatSettings}
    (hmode : settings.policyMode ≠ .block) (normalized normalized' : NormalizedChatRequest)
    (state : ChatState) : (policyGate compile settings normalized' state).2 =
      (policyGate compile settings normalized state).2 := by
  rw [policyGate, policyGate]
  split
  · rfl
  · split
    · rfl
    · dsimp only
      split
      · split
        · rfl
        · rfl
      · split
        · rfl
        · rfl

/-- Where nothing is blocked, it is enough that the redacted values alone differ, and repeat alike. -/
theorem SameView.of_outside (hmode : app.settings.policyMode ≠ .block)
    (hmasking : app.settings.piiMaskingEnabled = true) (hmodel : payload'.model = payload.model)
    (hstream : payload'.stream = payload.stream)
    (htemperature : payload'.temperature = payload.temperature)
    (hmaxTokens : payload'.maxTokens = payload.maxTokens)
    (hmessages : List.Forall₂ (SameOutside (enabledOf app.settings.piiTypes)) payload.messages
      payload'.messages)
    (hrepetition : SameRepetition
      {x | x ∈ (occurrences (enabledOf app.settings.piiTypes) payload.messages).zip
        (occurrences (enabledOf app.settings.piiTypes) payload'.messages)}) :
    SameView app payload payload' where
  model := hmodel
  stream := hstream
  temperature := htemperature
  maxTokens := hmaxTokens
  masked := by
    have hmasked := Linked.init.maskAll hmessages (fun _ hx => hx.elim)
      (by rw [Set.empty_union]; exact hrepetition)
    rw [ChatSettings.payload, ChatSettings.payload, if_pos hmasking, if_pos hmasking,
      maskMessages_eq, maskMessages_eq]
    exact hmasked.1.symm
  summary _ := by
    have hmasked := Linked.init.maskAll hmessages (fun _ hx => hx.elim)
      (by rw [Set.empty_union]; exact hrepetition)
    rw [maskMessages_eq, maskMessages_eq]
    exact hmasked.2.symm
  gate := policyGate_of_not_block hmode payload.toNormalized payload'.toNormalized

/-- The rows of a request without the findings of the scan. -/
def withoutScan (tx : AuditTransaction) : AuditTransaction :=
  { tx with policyEvents := tx.policyEvents.filter fun e => e.eventType ≠ "forbidden_content" }

theorem policyEventRows_withoutScan {state : ChatState} (hscan : FromScan state.policyEvents)
    (fields : RequestFields) :
    (policyEventRows state fields).filter (fun e => e.eventType ≠ "forbidden_content") =
      policyEventRows { state with policyEvents := none } fields := by
  rw [policyEventRows, policyEventRows, List.filter_append]
  have hfound : ((state.policyEvents.getD []).map fun event =>
      fields.policyEvent event.eventType event.action event.ruleId event.count
        (if event.severity = "" then "medium" else event.severity)).filter
          (fun e => e.eventType ≠ "forbidden_content") = [] := by
    apply List.filter_eq_nil_iff.2
    intro e he
    obtain ⟨event, hevent, rfl⟩ := List.mem_map.1 he
    rw [decide_eq_true_eq, not_not]
    exact hscan event hevent
  rw [hfound]
  apply congrArg (([] : List PolicyEvent) ++ ·)
  apply List.filter_eq_self.2
  intro e he
  obtain ⟨⟨piiType, count⟩, _, rfl⟩ := List.mem_map.1 he
  exact decide_eq_true (by decide : "pii_mask" ≠ "forbidden_content")

theorem finalizeAuditRows_withoutScan {settings : ChatSettings} {state : ChatState}
    (hscan : FromScan state.policyEvents) (urlPath : String) (sessionmaker : Bool) (freshId : Text)
    (statusCode : Nat) (latencyMs : Int) :
    (finalizeAuditRows settings state urlPath sessionmaker freshId statusCode latencyMs).map
        withoutScan =
      finalizeAuditRows settings { state with policyEvents := none } urlPath sessionmaker freshId
        statusCode latencyMs := by
  rw [finalizeAuditRows, finalizeAuditRows, scheduleAuditRows, scheduleAuditRows]
  split
  · rfl
  · split
    · rfl
    · dsimp only
      rw [Option.map_some, withoutScan]
      dsimp only
      rw [policyEventRows_withoutScan hscan]
      rfl

/-- The provider, the client, the limiter and the rows of the audit see nothing of the values that the
masking hides; only the findings of the scan, which reads the messages as they came in, may tell. -/
theorem audit_hides_values (h : SameView app payload payload')
    (chat : ProviderName → NormalizedChatRequest → Except RequestFailure NormalizedChatResponse)
    (requestId : Text) (p : ApiKeyPrincipal) (streams : StreamLimiter) :
    let run := AiServing.chatRun app.compile chat app.settings requestId p payload streams
    let run' := AiServing.chatRun app.compile chat app.settings requestId p payload' streams
    run'.calls = run.calls ∧ run'.reply = run.reply ∧ run'.limiter = run.limiter ∧
      ∀ (written : RequestState) (urlPath : String) (sessionmaker : Bool) (freshId : Text)
        (statusCode : Nat) (latencyMs : Int),
        (finalizeAuditRows app.settings { run'.state with toRequestState := written } urlPath
            sessionmaker freshId statusCode latencyMs).map withoutScan =
          (finalizeAuditRows app.settings { run.state with toRequestState := written } urlPath
            sessionmaker freshId statusCode latencyMs).map withoutScan := by
  intro run run'
  have hrefl : SameView app payload payload := .refl
  obtain ⟨events, hscan, hrun⟩ := hrefl.chatRun chat requestId p streams
  obtain ⟨events', hscan', hrun'⟩ := h.chatRun chat requestId p streams
  have hself : run.state.policyEvents = events := congrArg (fun run => run.state.policyEvents) hrun
  have hother : run' = run.noting events' := hrun'
  rw [hother]
  refine ⟨rfl, rfl, rfl, ?_⟩
  intro written urlPath sessionmaker freshId statusCode latencyMs
  rw [finalizeAuditRows_withoutScan, finalizeAuditRows_withoutScan]
  · rfl
  · exact hself.symm ▸ hscan
  · exact hscan'

def maskingApp : GatewayApp where
  sha256 := sampleSha256
  server := sampleApp.server
  limits := { rateLimitRpm := 0, preAuthRpmPerIp := 0 }
  connects := fun _ => true
  limiters := ⟨.memory ⟨0⟩, .memory ⟨0⟩⟩
  built := rfl
  settings := {}
  compile := fun _ => .error

def mailBody (content : Text) (h : content.length ≤ 100000) :
    ChatCompletionRequest maskingApp.settings where
  model := "claude-sonnet-4-6"
  messages := [⟨"user", content⟩]
  temperature := some 0
  maxTokens := some 64
  model_ne := by decide
  model_le := by decide
  messages_ne := Nat.one_pos
  messages_le := Nat.le_add_left 1 199
  role_supported m hm := by
    rw [List.mem_singleton.1 hm]
    show "user" ∈ supportedRoles
    decide
  content_le m hm := by
    rw [List.mem_singleton.1 hm]
    exact h
  temperature_range := by
    intro t ht
    cases ht
    exact ⟨le_rfl, zero_le_two⟩
  maxTokens_range := by
    intro n hn
    cases hn
    decide

theorem mails_same_view : SameView maskingApp (mailBody "to a@b.co".toList (by decide))
    (mailBody "to xy@z.org".toList (by decide)) := by
  refine .of_outside (by decide) rfl rfl rfl rfl rfl
    (.cons ⟨rfl, by decide +kernel, by decide +kernel⟩ .nil) ?_
  show ∀ x ∈ (occurrences _ _).zip (occurrences _ _), ∀ y ∈ (occurrences _ _).zip
    (occurrences _ _), x.1.1 = y.1.1 → (x.1.2 = y.1.2 ↔ x.2.2 = y.2.2)
  decide +kernel

/-- What a chat leaves of a body, under the sample app. -/
def sampleTrace (body : ChatCompletionRequest maskingApp.settings) : ChatRun :=
  chatRun maskingApp.compile sampleAnswer maskingApp.settings ['r'] { apiKeyHash := ['h'] } body
    (.new 1 Nat.one_pos)

theorem audit_hides_values_mails :
    (sampleTrace (mailBody "to xy@z.org".toList (by decide))).calls =
        (sampleTrace (mailBody "to a@b.co".toList (by decide))).calls ∧
      (finalizeAuditRows maskingApp.settings
          { (sampleTrace (mailBody "to xy@z.org".toList (by decide))).state with toRequestState := {} }
          AUDIT_PATH true ['f'] 200 7).map withoutScan =
        (finalizeAuditRows maskingApp.settings
          { (sampleTrace (mailBody "to a@b.co".toList (by decide))).state with toRequestState := {} }
          AUDIT_PATH true ['f'] 200 7).map withoutScan := by
  have hsame := audit_hides_values mails_same_view sampleAnswer ['r'] { apiKeyHash := ['h'] }
    (.new 1 Nat.one_pos)
  exact ⟨hsame.1, hsame.2.2.2 {} AUDIT_PATH true ['f'] 200 7⟩

def SameResult (app : GatewayApp) (x x' : SharedState × GatewayRequest app.settings) : Prop :=
  x'.1 = x.1 ∧ SameRequest app x.2 x'.2

theorem SameRequest.moved (h : SameRequest app q q') {point point' : GatewayPoint app.settings}
    (hpoint : SamePoint app point point') :
    SameRequest app { q with point := point } { q' with point := point' } :=
  ⟨h.incoming, hpoint, h.principal, h.admission, h.calls, h.lease, h.closed⟩

theorem SameRequest.lookup (h : SameRequest app q q') (shared : SharedState) :
    SameRequest app (q.lookup app shared) (q'.lookup app shared) := by
  have hroute := h.incoming.route
  rw [GatewayRequest.lookup, GatewayRequest.lookup]
  generalize q.incoming.route = route, q'.incoming.route = route' at hroute
  cases hroute with
  | same =>
    cases route with
    | other status => exact h.moved (.same _)
    | models auth => exact h.moved (.same _)
    | chat auth requestId body => exact h.moved (.same _)
  | chat auth requestId _ => exact h.moved (.same _)

theorem SameRequest.authenticate (h : SameRequest app q q') (shared : SharedState)
    (keys : ApiKeys) :
    SameResult app (q.authenticate app shared keys) (q'.authenticate app shared keys) := by
  have haccepted (db : Database) (p : ApiKeyPrincipal) : SameResult app
      ({ shared with db := db }, { q with point := .authenticated p, principal := some p })
      ({ shared with db := db }, { q' with point := .authenticated p, principal := some p }) :=
    ⟨rfl, h.incoming, .same _, rfl, h.admission, h.calls, h.lease, h.closed⟩
  have hrefused (db : Database) (e : AuthFailure) : SameResult app
      ({ shared with db := db }, { q with point := .responding e.status })
      ({ shared with db := db }, { q' with point := .responding e.status }) :=
    ⟨rfl, h.moved (.same _)⟩
  have hroute := h.incoming.route
  rw [GatewayRequest.authenticate, GatewayRequest.authenticate]
  generalize q.incoming.route = route, q'.incoming.route = route' at hroute
  cases hroute with
  | same =>
    cases route with
    | other status => exact ⟨rfl, h.moved (.same _)⟩
    | models auth =>
      dsimp only
      split
      · exact haccepted _ _
      · exact hrefused _ _
    | chat auth requestId body =>
      dsimp only
      split
      · exact haccepted _ _
      · exact hrefused _ _
  | chat auth requestId _ =>
    dsimp only
    split
    · exact haccepted _ _
    · exact hrefused _ _

theorem SameRequest.enforce (h : SameRequest app q q') (shared : SharedState) (now : ℚ)
    (p : ApiKeyPrincipal) :
    SameResult app (q.enforce app shared now p) (q'.enforce app shared now p) := by
  rw [GatewayRequest.enforce, GatewayRequest.enforce]
  dsimp only
  split
  · exact ⟨rfl, h.incoming, .same _, h.principal, rfl, h.calls, h.lease, h.closed⟩
  · exact ⟨rfl, h.moved (.same _)⟩

theorem SameRequest.dependencies (h : SameRequest app q q') (p : ApiKeyPrincipal) :
    SameRequest app (q.dependencies app p) (q'.dependencies app p) := by
  have hroute := h.incoming.route
  rw [GatewayRequest.dependencies, GatewayRequest.dependencies]
  generalize q.incoming.route = route, q'.incoming.route = route' at hroute
  cases hroute with
  | same =>
    cases route with
    | other status => exact h.moved (.same _)
    | models auth => exact h.moved (.same _)
    | chat auth requestId body =>
      dsimp only
      split
      · exact h.moved (.same _)
      · split
        · exact h.moved (.same _)
        · exact h.moved (.same _)
  | chat auth requestId hview =>
    dsimp only
    split
    · exact h.moved (.same _)
    · exact h.moved (.ready p requestId hview)

theorem SameRequest.handle (h : SameRequest app q q') (hview : SameView app payload payload')
    (shared : SharedState)
    (chat : ProviderName → NormalizedChatRequest → Except RequestFailure NormalizedChatResponse)
    (p : ApiKeyPrincipal) (requestId : Text) :
    SameResult app (q.handle app shared chat p requestId payload)
      (q'.handle app shared chat p requestId payload') := by
  obtain ⟨events, _, hrun⟩ := hview.chatRun chat requestId p shared.streams
  rw [GatewayRequest.handle, GatewayRequest.handle, hrun]
  exact ⟨rfl, h.incoming, .same _, h.principal, h.admission, rfl, h.lease, h.closed⟩

theorem SameRequest.respond (h : SameRequest app q q') (shared : SharedState) (now : ℚ)
    (status : Nat) :
    SameResult app (q.respond app shared now status) (q'.respond app shared now status) := by
  rw [GatewayRequest.respond, GatewayRequest.respond, h.incoming.clientIp]
  split
  · exact ⟨rfl, h.moved (.same _)⟩
  · split
    · dsimp only
      split
      · exact ⟨rfl, h.moved (.same _)⟩
      · exact ⟨rfl, h.moved (.same _)⟩
    · exact ⟨rfl, h.moved (.same _)⟩

theorem SameRequest.advance (h : SameRequest app q q') (shared : SharedState) (now : ℚ)
    (move : GatewayMove) {x : SharedState × GatewayRequest app.settings}
    (hx : q.advance app shared now move = some x) :
    ∃ x', q'.advance app shared now move = some x' ∧ SameResult app x x' := by
  have hpoint := h.point
  unfold GatewayRequest.advance at hx ⊢
  generalize q'.point = point' at hpoint
  split at hx
  · next heq =>
    rw [heq] at hpoint
    cases hx
    cases hpoint
    exact ⟨_, rfl, rfl, h.lookup shared⟩
  · next keys heq =>
    rw [heq] at hpoint
    cases hx
    cases hpoint
    exact ⟨_, rfl, h.authenticate shared keys⟩
  · next p heq =>
    rw [heq] at hpoint
    cases hx
    cases hpoint
    exact ⟨_, rfl, h.enforce shared now p⟩
  · next p heq =>
    rw [heq] at hpoint
    cases hx
    cases hpoint
    exact ⟨_, rfl, rfl, h.dependencies p⟩
  · next chat p requestId payload heq =>
    rw [heq] at hpoint
    cases hx
    cases hpoint with
    | same => exact ⟨_, rfl, h.handle .refl shared chat p requestId⟩
    | ready _ _ hview => exact ⟨_, rfl, h.handle hview shared chat p requestId⟩
  · next lease heq =>
    rw [heq] at hpoint
    cases hx
    cases hpoint
    exact ⟨_, rfl, rfl, h.incoming, .same _, h.principal, h.admission, h.calls, rfl, h.closed⟩
  · obtain ⟨lease, hlease, heq⟩ := Option.map_eq_some_iff.1 hx
    cases heq
    rw [h.lease, hlease]
    exact ⟨_, rfl, rfl, h.incoming, hpoint, h.principal, h.admission, h.calls, rfl, rfl⟩
  · next status heq =>
    rw [heq] at hpoint
    cases hx
    cases hpoint
    exact ⟨_, rfl, h.respond shared now status⟩
  · cases hx

theorem forall₂_getElem? {R : α → β → Prop} {l : List α} {m : List β} {i : Nat}
    (h : List.Forall₂ R l m) (hx : l[i]? = some x) : ∃ y, m[i]? = some y ∧ R x y := by
  induction h generalizing i with
  | nil => cases hx
  | cons hR _ ih =>
    cases i with
    | zero =>
      cases hx
      exact ⟨_, rfl, hR⟩
    | succ i => exact ih hx

theorem forall₂_set {R : α → β → Prop} {l : List α} {m : List β} (h : List.Forall₂ R l m)
    (hR : R x y) (i : Nat) : List.Forall₂ R (l.set i x) (m.set i y) := by
  induction h generalizing i with
  | nil => exact .nil
  | cons hhead htail ih =>
    cases i with
    | zero => exact .cons hR htail
    | succ i => exact .cons hhead (ih i)

theorem SameGateway.step (h : SameGateway app s s') (ha : SameStep app a a')
    (ht : s.step app a = some t) : ∃ t', s'.step app a' = some t' ∧ SameGateway app t t' := by
  obtain ⟨action, now⟩ := a
  obtain ⟨action', now'⟩ := a'
  obtain ⟨haction, rfl⟩ := ha
  have harrive {incoming incoming' : IncomingRequest app.settings}
      (hincoming : SameIncoming app incoming incoming') :
      SameResult app (s.shared.arrive app incoming now') (s.shared.arrive app incoming' now') := by
    have hnew (point : GatewayPoint app.settings) :
        SameRequest app { incoming := incoming, point := point }
          { incoming := incoming', point := point } :=
      ⟨hincoming, .same _, rfl, rfl, rfl, rfl, rfl⟩
    rw [SharedState.arrive, SharedState.arrive, hincoming.clientIp]
    dsimp only
    split
    · exact ⟨rfl, hnew _⟩
    · split
      · exact ⟨rfl, hnew _⟩
      · exact ⟨rfl, hnew _⟩
  cases action with
  | arrive incoming =>
    have hsame : ∃ incoming', action' = .arrive incoming' ∧ SameIncoming app incoming incoming' := by
      cases haction with
      | same => exact ⟨_, rfl, .refl _⟩
      | arrive hincoming => exact ⟨_, rfl, hincoming⟩
    obtain ⟨incoming', rfl, hincoming⟩ := hsame
    obtain ⟨hshared, hrequest⟩ := harrive hincoming
    rw [Gateway.step] at ht ⊢
    cases ht
    dsimp only
    rw [h.shared]
    exact ⟨_, rfl, hshared, List.rel_append h.requests (.cons hrequest .nil)⟩
  | commit db =>
    cases haction
    cases ht
    exact ⟨_, rfl, by rw [h.shared], h.requests⟩
  | move id move =>
    cases haction
    obtain ⟨q, q₁, hq, hadvance, hset⟩ := step_move ht
    obtain ⟨q', hq', hsame⟩ := forall₂_getElem? h.requests hq
    obtain ⟨⟨shared, q₁'⟩, hadvance', hshared, hrequest⟩ := hsame.advance s.shared now' move hadvance
    obtain rfl : shared = t.shared := hshared
    refine ⟨⟨t.shared, s'.requests.set id q₁'⟩, ?_, rfl, ?_⟩
    · rw [Gateway.step]
      dsimp only
      rw [hq', Option.bind_some, h.shared, hadvance']
      rfl
    · rw [hset]
      exact forall₂_set h.requests hrequest id

theorem SameGateway.run (h : SameGateway app s s') (hsteps : List.Forall₂ (SameStep app) steps steps')
    (hrun : run (Gateway.step app) s steps = some u) :
    ∃ u', Transitions.run (Gateway.step app) s' steps' = some u' ∧ SameGateway app u u' := by
  induction hsteps generalizing s s' with
  | nil =>
    obtain rfl := Option.some.inj hrun
    exact ⟨s', rfl, h⟩
  | cons ha _ ih =>
    obtain ⟨t, ht, hrest⟩ := run_cons.1 hrun
    obtain ⟨t', ht', hsame⟩ := h.step ha ht
    obtain ⟨u', hu', hend⟩ := ih hsame hrest
    exact ⟨u', run_cons.2 ⟨t', ht', hu'⟩, hend⟩

def mailSteps (body : ChatCompletionRequest maskingApp.settings) :
    List (GatewayStep maskingApp.settings) :=
  [⟨.arrive ⟨"ip", .chat { credentials := some ("Bearer".toList, ['e']), context := sampleCall } ['r']
      (.ok body)⟩, 0⟩,
    ⟨.move 0 .lookup, 0⟩, ⟨.move 0 .authenticate, 0⟩, ⟨.move 0 .enforce, 0⟩,
    ⟨.move 0 .dependencies, 0⟩,
    ⟨.move 0 (.handle sampleAnswer), 0⟩]

end Gateway
end AiServing
