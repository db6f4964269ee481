import AiServing.ChatPolicy
import AiServing.AuditOnce
import AiServing.PiiPlaceholders

namespace AiServing
open Dictionary
set_option autoImplicit true

def AUDIT_PATH : String := "/v1/chat/completions"

/-- The dictionary `fields` of `_schedule_audit_log`. -/
structure RequestFields where
  requestId : Text
  principalHash : Option Text
  orgId : Option Text
  apiKeyId : Option Text
  provider : Option String
  outcome : AuditedOutcome
  latencyMs : Int
  stream : Bool
  deriving DecidableEq

/-- A row of `policy_event`, without its id and time. -/
structure PolicyEvent where
  requestId : Text
  principalHash : Option Text
  orgId : Option Text
  apiKeyId : Option Text
  stream : Bool
  eventType : String
  action : String
  ruleId : Text
  count : Nat
  severity : String
  deriving DecidableEq

/-- A row of `audit_message`, without its id and time. -/
structure AuditMessage where
  requestId : Text
  seq : Nat
  role : String
  content : Text
  deriving DecidableEq

/-- What one call of `_insert_audit_log` adds. -/
structure AuditTransaction where
  fields : RequestFields
  policyEvents : List PolicyEvent
  auditMessages : List AuditMessage
  deriving DecidableEq

/-- `policy_event_base`, with the values of one event. -/
def RequestFields.policyEvent (f : RequestFields) (eventType action : String) (ruleId : Text)
    (count : Nat) (severity : String) : PolicyEvent where
  requestId := f.requestId
  principalHash := f.principalHash
  orgId := f.orgId
  apiKeyId := f.apiKeyId
  stream := f.stream
  eventType := eventType
  action := action
  ruleId := ruleId
  count := count
  severity := severity

section Assembly

variable (settings : ChatSettings) (state : ChatState)

def requestFields (freshId : Text) (statusCode : Nat) (latencyMs : Int) : RequestFields where
  requestId := state.requestId.getD freshId
  principalHash := state.principalHash
  orgId := state.orgId
  apiKeyId := state.apiKeyId
  provider := state.provider
  outcome := scheduleAuditLog state.model state.toRequestState statusCode
  latencyMs := latencyMs
  stream := state.stream.getD false

def policyEventRows (fields : RequestFields) : List PolicyEvent :=
  (state.policyEvents.getD []).map (fun event =>
    fields.policyEvent event.eventType event.action event.ruleId event.count
      (if event.severity = "" then "medium" else event.severity)) ++
  (state.piiMasked.elim [] Dict.entries).map fun (piiType, count) =>
    fields.policyEvent "pii_mask" "mask" piiType.name.toList count "info"

def auditMessageRows (fields : RequestFields) : List AuditMessage :=
  if settings.auditStoreMessages then
    (state.storedMessages.getD []).map fun message =>
      ⟨fields.requestId, message.seq, message.role, message.content⟩
  else []

/-- What `_schedule_audit_log` hands to the insert. -/
def scheduleAuditRows (urlPath : String) (sessionmaker : Bool) (freshId : Text) (statusCode : Nat)
    (latencyMs : Int) : Option AuditTransaction :=
  if !settings.auditEnabled || urlPath ≠ AUDIT_PATH then none
  else if !sessionmaker then none
  else
    let fields := requestFields state freshId statusCode latencyMs
    some ⟨fields, policyEventRows state fields, auditMessageRows settings state fields⟩

/-- `_finalize_request`, whose status code gives way to that of the handler. -/
def finalizeAuditRows (urlPath : String) (sessionmaker : Bool) (freshId : Text) (statusCode : Nat)
    (latencyMs : Int) : Option AuditTransaction :=
  scheduleAuditRows settings state urlPath sessionmaker freshId
    (state.auditStatusCode.getD statusCode) latencyMs

end Assembly

/-- The three tables, and the lines of the fallback file. -/
structure AuditTables where
  auditLog : List RequestFields := []
  policyEvents : List PolicyEvent := []
  auditMessages : List AuditMessage := []
  lines : List RequestFields := []

namespace AuditTables

def commit (w : AuditTables) (tx : AuditTransaction) : AuditTables :=
  { w with
    auditLog := w.auditLog ++ [tx.fields]
    policyEvents := w.policyEvents ++ tx.policyEvents
    auditMessages := w.auditMessages ++ tx.auditMessages }

/-- `_insert_audit_log`, with the whole transaction. -/
def insertAuditLog (w : AuditTables) (tx : AuditTransaction) (fate : InsertFate) : AuditTables :=
  let w := if fate.commits then w.commit tx else w
  if fate.fallsBack then { w with lines := w.lines ++ [tx.fields] } else w

variable {w : AuditTables} {tx : AuditTransaction} {fate : InsertFate}

theorem insertAuditLog_commits (h : fate.commits = true) (w : AuditTables)
    (tx : AuditTransaction) :
    (w.insertAuditLog tx fate).policyEvents = w.policyEvents ++ tx.policyEvents ∧
      (w.insertAuditLog tx fate).auditMessages = w.auditMessages ++ tx.auditMessages := by
  rw [insertAuditLog, h]
  cases fate.fallsBack with
  | false => exact ⟨rfl, rfl⟩
  | true => exact ⟨rfl, rfl⟩

end AuditTables

variable {compile : Text → ReCompile} {settings : ChatSettings} {rules : List CompiledRule}
  {chat : ProviderName → NormalizedChatRequest → Except RequestFailure NormalizedChatResponse}
  {messages : List NormalizedMessage} {state : ChatState} {fields : RequestFields}
  {requestId : Text} {request : RequestState}

theorem finalizeAuditRows_isSome :
    (∃ tx, finalizeAuditRows settings state urlPath sessionmaker freshId statusCode latencyMs =
      some tx) ↔
      settings.auditEnabled = true ∧ urlPath = AUDIT_PATH ∧ sessionmaker = true := by
  rw [← Option.isSome_iff_exists, finalizeAuditRows, scheduleAuditRows]
  cases settings.auditEnabled <;> cases sessionmaker <;> by_cases urlPath = AUDIT_PATH <;>
    simp_all

theorem finalizeAuditRows_eq
    (h : finalizeAuditRows settings state urlPath sessionmaker freshId statusCode latencyMs = some tx) :
    tx = ⟨requestFields state freshId (state.auditStatusCode.getD statusCode) latencyMs,
      policyEventRows state
        (requestFields state freshId (state.auditStatusCode.getD statusCode) latencyMs),
      auditMessageRows settings state
        (requestFields state freshId (state.auditStatusCode.getD statusCode) latencyMs)⟩ := by
  rw [finalizeAuditRows, scheduleAuditRows] at h
  split at h
  · cases h
  · split at h
    · cases h
    · exact (Option.some.inj h).symm

/-- What the handler leaves in the attributes that the policy rows are made of. -/
structure ChatState.Noted (settings : ChatSettings) (rules : List CompiledRule)
    (messages : List NormalizedMessage) (state : ChatState) : Prop where
  policyEvents : state.policyEvents.getD [] = settings.notedEvents rules messages
  blocked : Blocked settings rules messages → state.piiMasked = none ∧ state.storedMessages = none
  passed : ¬ Blocked settings rules messages →
    state.piiMasked = (if settings.piiMaskingEnabled then
      some (maskMessages messages settings.piiTypes).2 else none) ∧
    state.storedMessages = if settings.piiMaskingEnabled then
      some ((settings.payload messages).mapIdx fun i m => ⟨i, m.role, m.content⟩) else none

variable (chat) in
theorem createChatCompletion_noted (hrules : settings.Compiles compile rules)
    (requestId : Text) (principal : ApiKeyPrincipal) (payload : ChatCompletionRequest settings)
    (limiter : StreamLimiter) :
    let run := chatRun compile chat settings requestId principal payload limiter
    run.state.Noted settings rules payload.messages ∧ run.state.requestId = some requestId := by
  intro run
  by_cases hb : Blocked settings rules payload.messages
  · have hrun : run = _ := createChatCompletion_blocked hrules principal payload _ limiter hb
    rw [hrun]
    refine ⟨⟨rfl, ?_, ?_⟩, rfl⟩
    · intro _
      exact ⟨rfl, rfl⟩
    · intro hpassed
      exact absurd hb hpassed
  · obtain ⟨policyEvents, hevents, hpassed⟩ :=
      createChatCompletion_passed hrules principal payload (.entering requestId principal payload.stream)
        limiter hb
    have hrun : run = _ := hpassed
    obtain ⟨provider, tokenUsage, _, hstate⟩ := callProvider_state (String.ofList principal.apiKeyHash)
      (maskPayload settings payload.toNormalized _).1 (maskPayload settings payload.toNormalized _).2
      limiter
    rw [hrun, hstate, maskPayload_snd]
    refine ⟨⟨hevents, ?_, ?_⟩, rfl⟩
    · intro hblocked
      exact absurd hblocked hb
    · intro _
      exact ⟨rfl, rfl⟩

theorem mem_notedEvents : event ∈ settings.notedEvents rules messages ↔
    settings.policyMode ≠ .disabled ∧ ∃ id, RuleMatches messages rules id ∧
      event = ⟨"forbidden_content", if settings.policyMode = .block then "block" else "log", id,
        ruleTotal messages rules id, "medium"⟩ := by
  rw [ChatSettings.notedEvents]
  split
  · rename_i hmode
    exact iff_of_false List.not_mem_nil fun h => h.1 hmode
  · rename_i hmode
    rw [List.mem_map]
    constructor
    · rintro ⟨found, hfound, rfl⟩
      obtain ⟨hid, hfound⟩ := mem_scanMessages.1 hfound
      rw [hfound]
      exact ⟨hmode, found.ruleId, hid, rfl⟩
    · rintro ⟨_, id, hid, rfl⟩
      exact ⟨⟨id, ruleTotal messages rules id, "medium"⟩, mem_scanMessages.2 ⟨hid, rfl⟩, rfl⟩

theorem mem_policyEventRows {e : PolicyEvent} : e ∈ policyEventRows state fields ↔
    (∃ event ∈ state.policyEvents.getD [], e = fields.policyEvent event.eventType event.action
      event.ruleId event.count (if event.severity = "" then "medium" else event.severity)) ∨
    ∃ t n, state.piiMasked.elim none (fun d => d.get? t) = some n ∧
      e = fields.policyEvent "pii_mask" "mask" t.name.toList n "info" := by
  have hentries (t : PiiType) (n : Nat) : (t, n) ∈ state.piiMasked.elim [] Dict.entries ↔
      state.piiMasked.elim none (fun d => d.get? t) = some n := by
    cases state.piiMasked with
    | none =>
      apply iff_of_false List.not_mem_nil
      intro h
      cases h
    | some d => exact Dict.mem_entries
  simp only [policyEventRows, List.mem_append, List.mem_map, Prod.exists, hentries, eq_comm]

theorem PiiType.name_injective : Function.Injective PiiType.name := by
  intro t τ h
  cases t <;> cases τ <;> first | rfl | (revert h; decide)

theorem policyEventRows_nodup (h : state.Noted settings rules messages) :
    ((policyEventRows state fields).map fun e => (e.eventType, e.ruleId)).Nodup := by
  have hforbidden : ((settings.notedEvents rules messages).map fun event =>
      (event.eventType, event.ruleId)) = ((settings.notedEvents rules messages).map
        fun event => event.ruleId).map fun id => ("forbidden_content", id) := by
    rw [List.map_map]
    apply List.map_congr_left
    intro event hevent
    obtain ⟨_, id, _, rfl⟩ := mem_notedEvents.1 hevent
    rfl
  have hids : ((settings.notedEvents rules messages).map fun event => event.ruleId).Nodup := by
    rw [ChatSettings.notedEvents]
    split
    · exact List.nodup_nil
    · rw [List.map_map]
      exact (scanMessages_ruleIds messages rules).1
  have hmasked (d : Dict PiiType Nat) :
      (d.entries.map fun e => ("pii_mask", e.1.name.toList)).Nodup := by
    have hkeys : (d.entries.map fun e => ("pii_mask", e.1.name.toList)) =
        d.keys.map fun t => ("pii_mask", t.name.toList) := by
      rw [Dict.keys, List.map_map]
      rfl
    rw [hkeys]
    apply List.Nodup.map _ d.nodup
    intro t τ hname
    exact PiiType.name_injective (String.toList_inj.1 (Prod.mk.inj hname).2)
  have hsplit : ((policyEventRows state fields).map fun e => (e.eventType, e.ruleId)) =
      (((settings.notedEvents rules messages).map fun event => event.ruleId).map fun id =>
        ("forbidden_content", id)) ++
      (state.piiMasked.elim [] Dict.entries).map fun e => ("pii_mask", e.1.name.toList) := by
    rw [policyEventRows, h.policyEvents, List.map_append, List.map_map, List.map_map, ← hforbidden]
    rfl
  rw [hsplit]
  apply List.Nodup.append
  · exact hids.map fun id id' hid => (Prod.mk.inj hid).2
  · cases state.piiMasked with
    | none => exact List.nodup_nil
    | some d => exact hmasked d
  · intro k hk hk'
    obtain ⟨id, _, rfl⟩ := List.mem_map.1 hk
    obtain ⟨e, _, he⟩ := List.mem_map.1 hk'
    have htype := (Prod.mk.inj he).1
    revert htype
    decide

theorem ChatState.Noted.writes (h : state.Noted settings rules messages) (request : RequestState) :
    ({ state with toRequestState := request } : ChatState).Noted settings rules messages :=
  ⟨h.policyEvents, h.blocked, h.passed⟩

theorem ChatState.Noted.rows (h : state.Noted settings rules messages)
    (hrequest : state.requestId = some requestId)
    (htx : finalizeAuditRows settings state urlPath sessionmaker freshId statusCode latencyMs =
      some tx) :
    ((settings.piiMaskingEnabled ∧ settings.auditStoreMessages ∧ ¬ Blocked settings rules messages →
        tx.auditMessages = (settings.payload messages).mapIdx fun i m =>
          ⟨requestId, i, m.role, m.content⟩) ∧
      (¬ (settings.piiMaskingEnabled ∧ settings.auditStoreMessages ∧
        ¬ Blocked settings rules messages) → tx.auditMessages = [])) ∧
    (tx.policyEvents.map fun e => (e.eventType, e.ruleId)).Nodup ∧
    ∀ e, e ∈ tx.policyEvents ↔
      (settings.policyMode ≠ .disabled ∧ ∃ id, RuleMatches messages rules id ∧
        e = tx.fields.policyEvent "forbidden_content"
          (if settings.policyMode = .block then "block" else "log") id
          (ruleTotal messages rules id) "medium") ∨
      (settings.piiMaskingEnabled ∧ ¬ Blocked settings rules messages ∧
        ∃ t n, (maskMessages messages settings.piiTypes).2.get? t = some n ∧
          e = tx.fields.policyEvent "pii_mask" "mask" t.name.toList n "info") := by
  have heq := finalizeAuditRows_eq htx
  have hevents : tx.policyEvents = policyEventRows state tx.fields := by rw [heq]
  have hmessages : tx.auditMessages = auditMessageRows settings state tx.fields := by rw [heq]
  have hid : tx.fields.requestId = requestId := by
    rw [heq, requestFields, hrequest]
    rfl
  refine ⟨⟨?_, ?_⟩, ?_, ?_⟩
  · rintro ⟨hmasking, hstore, hpassed⟩
    rw [hmessages, auditMessageRows, if_pos hstore, hid, (h.passed hpassed).2, if_pos hmasking]
    rw [Option.getD_some, List.mapIdx_eq_zipIdx_map, List.mapIdx_eq_zipIdx_map, List.map_map]
    rfl
  · intro hnot
    rw [hmessages, auditMessageRows]
    split
    · rename_i hstore
      have hnone : state.storedMessages = none := by
        by_cases hb : Blocked settings rules messages
        · exact (h.blocked hb).2
        · rw [(h.passed hb).2, if_neg fun hmasking => hnot ⟨hmasking, hstore, hb⟩]
      rw [hnone]
      rfl
    · rfl
  · rw [hevents]
    exact policyEventRows_nodup h
  · intro e
    rw [hevents, mem_policyEventRows, h.policyEvents]
    apply or_congr
    · constructor
      · rintro ⟨event, hevent, rfl⟩
        obtain ⟨hmode, id, hmatches, rfl⟩ := mem_notedEvents.1 hevent
        exact ⟨hmode, id, hmatches, rfl⟩
      · rintro ⟨hmode, id, hmatches, rfl⟩
        exact ⟨_, mem_notedEvents.2 ⟨hmode, id, hmatches, rfl⟩, rfl⟩
    · by_cases hb : Blocked settings rules messages
      · rw [(h.blocked hb).1]
        constructor
        · rintro ⟨t, n, hn, _⟩
          cases hn
        · rintro ⟨_, hpassed, _⟩
          exact absurd hb hpassed
      · rw [(h.passed hb).1]
        by_cases hmasking : settings.piiMaskingEnabled
        · rw [if_pos hmasking]
          constructor
          · rintro ⟨t, n, hn, rfl⟩
            exact ⟨hmasking, hb, t, n, hn, rfl⟩
          · rintro ⟨_, _, t, n, hn, rfl⟩
            exact ⟨t, n, hn, rfl⟩
        · rw [if_neg hmasking]
          constructor
          · rintro ⟨t, n, hn, _⟩
            cases hn
          · rintro ⟨hmasked, _⟩
            exact absurd hmasked hmasking

/-- Nothing gets past a block, and whatever gets on is the same payload in every mode; the rows of
the audit say which it was. -/
theorem policy_gate_and_payload (compile : Text → ReCompile)
    (chat : ProviderName → NormalizedChatRequest → Except RequestFailure NormalizedChatResponse)
    (settings : ChatSettings) (rules : List CompiledRule)
    (hrules : settings.Compiles compile rules)
    (requestId : Text) (principal : ApiKeyPrincipal) (payload : ChatCompletionRequest settings)
    (limiter : StreamLimiter) :
    let run := chatRun compile chat settings requestId principal payload limiter
    let messages := settings.payload payload.messages
    let blocked := Blocked settings rules payload.messages
    (blocked → run.reply = .raised .policyViolation ∧ run.calls = [] ∧ run.limiter = limiter ∧
      run.state.storedMessages = none ∧ run.state.piiMasked = none) ∧
    (¬ blocked → run.calls =
      if slotFree limiter (String.ofList principal.apiKeyHash) payload.stream then
        (settings.providerForModel payload.model).toList.map fun provider =>
          (provider, { payload.toNormalized with messages := messages })
      else []) ∧
    (∀ request urlPath sessionmaker freshId statusCode latencyMs,
      (∃ tx, finalizeAuditRows settings { run.state with toRequestState := request } urlPath
        sessionmaker freshId statusCode latencyMs = some tx) ↔
        settings.auditEnabled = true ∧ urlPath = AUDIT_PATH ∧ sessionmaker = true) ∧
    ∀ request urlPath sessionmaker freshId statusCode latencyMs tx w fate,
      finalizeAuditRows settings { run.state with toRequestState := request } urlPath sessionmaker
        freshId statusCode latencyMs = some tx →
      LineFate.commits fate = true →
      ((settings.piiMaskingEnabled ∧ settings.auditStoreMessages ∧ ¬ blocked →
          (AuditTables.insertAuditLog w tx fate).auditMessages = w.auditMessages ++
            messages.mapIdx fun i m => ⟨requestId, i, m.role, m.content⟩) ∧
        (¬ (settings.piiMaskingEnabled ∧ settings.auditStoreMessages ∧ ¬ blocked) →
          (AuditTables.insertAuditLog w tx fate).auditMessages = w.auditMessages)) ∧
      ∃ events, (AuditTables.insertAuditLog w tx fate).policyEvents = w.policyEvents ++ events ∧
        (events.map fun e => (e.eventType, e.ruleId)).Nodup ∧
        ∀ e, e ∈ events ↔
          (settings.policyMode ≠ .disabled ∧ ∃ id, RuleMatches payload.messages rules id ∧
            e = tx.fields.policyEvent "forbidden_content"
              (if settings.policyMode = .block then "block" else "log") id
              (ruleTotal payload.messages rules id) "medium") ∨
          (settings.piiMaskingEnabled ∧ ¬ blocked ∧
            ∃ t n, (maskMessages payload.messages settings.piiTypes).2.get? t = some n ∧
              e = tx.fields.policyEvent "pii_mask" "mask" t.name.toList n "info") := by
  intro run messages blocked
  refine ⟨?_, ?_, fun _ _ _ _ _ _ => finalizeAuditRows_isSome, ?_⟩
  · intro hb
    have hrun : run = _ := createChatCompletion_blocked hrules principal payload _ limiter hb
    rw [hrun]
    exact ⟨rfl, rfl, rfl, rfl, rfl⟩
  · intro hb
    obtain ⟨policyEvents, _, hpassed⟩ := createChatCompletion_passed hrules principal payload
      (.entering requestId principal payload.stream) limiter hb
    have hrun : run = _ := hpassed
    rw [hrun, callProvider_calls, maskPayload_fst]
    rfl
  · intro request urlPath sessionmaker freshId statusCode latencyMs tx w fate htx hcommits
    obtain ⟨hnoted, hid⟩ := createChatCompletion_noted chat hrules requestId principal payload limiter
    obtain ⟨hmessages, hnodup, hmem⟩ := (hnoted.writes request).rows hid htx
    obtain ⟨hpolicy, haudit⟩ := AuditTables.insertAuditLog_commits hcommits w tx
    refine ⟨⟨?_, ?_⟩, tx.policyEvents, hpolicy, hnodup, hmem⟩
    · intro h
      rw [haudit, hmessages.1 h]
    · intro h
      rw [haudit, hmessages.2 h, List.append_nil]

/-- `re.compile` of the one letter x, which also matches as a capital. -/
def compileX : Text → ReCompile := fun _ => .compiled (List.countP (· ∈ ['x', 'X']))

def blockX : ChatSettings where
  policyMode := .block
  forbiddenPatterns := ["a=x".toList]
  auditStoreMessages := true

def logX : ChatSettings := { blockX with policyMode := .logOnly }

def requestX : ChatCompletionRequest blockX where
  model := "gpt-4o"
  messages := [⟨"user", ['X']⟩]
  model_ne := by decide
  model_le := by decide
  messages_ne := by decide
  messages_le := by decide
  role_supported := by decide
  content_le := by decide
  temperature_range := by decide
  maxTokens_range := by decide

def mailRequestX : ChatCompletionRequest logX where
  model := "gpt-4o"
  messages := [⟨"user", "X me@a.io".toList⟩]
  model_ne := by decide
  model_le := by decide
  messages_ne := by decide
  messages_le := by decide
  role_supported := by decide
  content_le := by decide
  temperature_range := by decide
  maxTokens_range := by decide

theorem policy_gate_and_payload_x :
    let run (settings : ChatSettings) (payload : ChatCompletionRequest settings) :=
      chatRun compileX
        (fun _ _ => .error (.providerConfiguration "OpenAI provider is not configured")) settings
        ['1'] ⟨['k'], none, none, {chatScope}⟩ payload (.new 4 (by decide))
    let stopped := run blockX requestX
    let logged := run logX mailRequestX
    stopped.reply = .raised .policyViolation ∧ stopped.calls = [] ∧
    ∃ tx, finalizeAuditRows logX logged.state AUDIT_PATH true [] 200 3 = some tx ∧
      (AuditTables.insertAuditLog {} tx .completes).auditMessages =
        [⟨['1'], 0, "user", "X [REDACTED:EMAIL:1]".toList⟩] ∧
      tx.fields.policyEvent "forbidden_content" "log" ['a'] 1 "medium" ∈
        (AuditTables.insertAuditLog {} tx .completes).policyEvents ∧
      tx.fields.policyEvent "pii_mask" "mask" "email".toList 1 "info" ∈
        (AuditTables.insertAuditLog {} tx .completes).policyEvents := by
  have hcompiles (settings : ChatSettings) (hpatterns : settings.forbiddenPatterns = ["a=x".toList]) :
      settings.Compiles compileX [⟨['a'], List.countP (· ∈ ['x', 'X'])⟩] := by
    intro _
    rw [hpatterns]
    rfl
  have hmatches (content : Text) (h : 0 < List.countP (· ∈ ['x', 'X']) content) :
      RuleMatches [⟨"user", content⟩] [⟨['a'], List.countP (· ∈ ['x', 'X'])⟩] ['a'] :=
    ⟨_, List.mem_cons_self, rfl, _, List.mem_cons_self, h⟩
  intro run stopped logged
  have hstopped := (policy_gate_and_payload compileX
    (fun _ _ => .error (.providerConfiguration "OpenAI provider is not configured")) blockX _
    (hcompiles blockX rfl) ['1'] ⟨['k'], none, none, {chatScope}⟩
    requestX (.new 4 (by decide))).1
    ⟨rfl, _, hmatches _ (by decide)⟩
  obtain ⟨_, _, hassembled, hrows⟩ := policy_gate_and_payload compileX
    (fun _ _ => .error (.providerConfiguration "OpenAI provider is not configured")) logX _
    (hcompiles logX rfl) ['1'] ⟨['k'], none, none, {chatScope}⟩
    mailRequestX (.new 4 (by decide))
  have hpassed : ¬ Blocked logX [⟨['a'], List.countP (· ∈ ['x', 'X'])⟩] mailRequestX.messages := by
    rintro ⟨hmode, _⟩
    cases hmode
  obtain ⟨tx, htx⟩ := (hassembled logged.state.toRequestState AUDIT_PATH true [] 200 3).2
    ⟨rfl, rfl, rfl⟩
  obtain ⟨⟨hmessages, _⟩, events, hevents, _, hmem⟩ := hrows logged.state.toRequestState AUDIT_PATH
    true [] 200 3 tx {} .completes htx rfl
  refine ⟨hstopped.1, hstopped.2.1, tx, htx, ?_, ?_, ?_⟩
  · rw [hmessages ⟨rfl, rfl, hpassed⟩]
    decide +kernel
  · rw [hevents]
    exact (hmem _).2 (.inl ⟨by decide, ['a'], hmatches _ (by decide), rfl⟩)
  · rw [hevents]
    exact (hmem _).2 (.inr ⟨rfl, hpassed, .email, 1, by decide +kernel, rfl⟩)

end AiServing
