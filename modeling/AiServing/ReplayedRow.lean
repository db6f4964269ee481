import AiServing.FallbackRoundTrip
import AiServing.AdminReports

namespace AiServing
set_option autoImplicit true

section Columns

variable (values : List (Text × AuditValue DateTime))

/-- The value given for a column. For `None` the flush takes the default as well. -/
def givenColumn (name : String) : Option (AuditValue DateTime) :=
  ((values.find? fun item => item.1 = name.toList).map Prod.snd).filter fun
    | .json .null => false
    | _ => true

def textColumn (name : String) (default : Option Text) : Option (Option Text) :=
  match givenColumn values name with
  | none => some default
  | some (.json (.str t)) => some (some t)
  | some _ => none

def intColumn (name : String) (default : Option Int) : Option Int :=
  match givenColumn values name with
  | none => default
  | some (.json (.int n)) => some n
  | some _ => none

def boolColumn (name : String) (default : Bool) : Option Bool :=
  match givenColumn values name with
  | none => some default
  | some (.json (.bool b)) => some b
  | some _ => none

def tsColumn (default : DateTime) : Option DateTime :=
  match givenColumn values "ts" with
  | none => some default
  | some (.datetime t) => some t
  | some _ => none

def costColumn (numeric : Decimal → ℚ) : Option ℚ :=
  match givenColumn values "cost_usd" with
  | none => some (numeric ⟨false, 0, 0⟩)
  | some (.decimal d) => some (numeric d)
  | some _ => none

/-- The row that a flush at `now` makes of `AuditLog(**values)`, `none` where the database refuses
it. `numeric` is what a `Numeric(12, 6)` column keeps of a decimal. -/
def AuditLog.ofColumns (numeric : Decimal → ℚ) (now : DateTime) (freshId : Text) :
    Option AuditLog := do
  let id ← (← textColumn values "id" (some freshId))
  let requestId ← (← textColumn values "request_id" none)
  return {
    id := id
    requestId := requestId
    ts := ← tsColumn values now
    principalHash := ← textColumn values "principal_hash" none
    orgId := ← textColumn values "org_id" none
    apiKeyId := ← textColumn values "api_key_id" none
    provider := ← textColumn values "provider" none
    model := ← textColumn values "model" none
    statusCode := ← intColumn values "status_code" none
    errorType := ← textColumn values "error_type" none
    promptTokens := ← intColumn values "prompt_tokens" (some 0)
    completionTokens := ← intColumn values "completion_tokens" (some 0)
    totalTokens := ← intColumn values "total_tokens" (some 0)
    costUsd := ← costColumn values numeric
    latencyMs := ← intColumn values "latency_ms" (some 0)
    stream := ← boolColumn values "stream" false }

end Columns

/-- A request whose insert fails: when it is finalised and when its line is replayed, with the ids
that either insert draws. -/
structure FailedInsert where
  fields : AuditFields
  finalizedAt : DateTime
  replayedAt : DateTime
  freshId : Text
  replayId : Text

/-- The row that the direct insert would have committed. -/
def FailedInsert.directRow (numeric : Decimal → ℚ) (q : FailedInsert) : Option AuditLog :=
  AuditLog.ofColumns (q.fields.items DateTime) numeric q.finalizedAt q.freshId

/-- Equal in every column except the id. -/
def SameButId (row row' : AuditLog) : Prop := { row with id := row'.id } = row'

/-- The columns that the replay inserts make the row of the direct insert. -/
def FailedInsert.Agrees (numeric : Decimal → ℚ) (q : FailedInsert)
    (columns : List (Text × AuditValue DateTime)) : Prop :=
  ∃ row row', q.directRow numeric = some row ∧
    AuditLog.ofColumns columns numeric q.replayedAt q.replayId = some row' ∧ SameButId row' row

/-- The lines of the requests are all replayed, each into the row of the direct insert. -/
def ReplayAgrees (fromisoformat : Text → Option DateTime) (loads : Text → Option Json)
    (numeric : Decimal → ℚ) (qs : List FailedInsert) (quarantine : Text)
    (rows : List (List (Text × AuditValue DateTime))) : Prop :=
  let out := replayAuditFallback (auditLogOfLine fromisoformat loads) true true {}
    ((qs.map FailedInsert.fields).foldl writeAuditFallback ⟨none, none, quarantine, rows⟩)
  out.2 = .returned qs.length 0 ∧ out.1.quarantine = quarantine ∧
    ∃ replayed, out.1.rows = rows ++ replayed ∧ List.Forall₂ (FailedInsert.Agrees numeric) qs replayed

/-- The row that the fields make, at whatever time they are inserted. -/
def AuditFields.row (numeric : Decimal → ℚ) (now : DateTime) (freshId : Text) (f : AuditFields) :
    AuditLog where
  id := freshId
  requestId := f.requestId
  ts := now
  principalHash := f.principalHash
  orgId := f.orgId
  apiKeyId := f.apiKeyId
  provider := f.provider
  model := f.model
  statusCode := f.statusCode
  errorType := f.errorType
  promptTokens := f.promptTokens
  completionTokens := f.completionTokens
  totalTokens := f.totalTokens
  costUsd := numeric f.costUsd
  latencyMs := f.latencyMs
  stream := f.stream

variable {numeric : Decimal → ℚ} {q : FailedInsert} {qs : List FailedInsert}

theorem textColumn_option {values : List (Text × AuditValue DateTime)}
    (h : (values.find? fun item => item.1 = name.toList).map Prod.snd =
      some (.json (.ofOption t))) :
    textColumn values name none = some t := by
  rw [textColumn, givenColumn, h]
  cases t with
  | none => rfl
  | some t => rfl

theorem ofColumns_items (numeric : Decimal → ℚ) (now : DateTime) (freshId : Text) (f : AuditFields) :
    AuditLog.ofColumns (f.items DateTime) numeric now freshId = some (f.row numeric now freshId) := by
  have hid : textColumn (f.items DateTime) "id" (some freshId) = some (some freshId) := rfl
  have hrequest : textColumn (f.items DateTime) "request_id" none = some (some f.requestId) := rfl
  have hts : tsColumn (f.items DateTime) now = some now := rfl
  have hprincipal : textColumn (f.items DateTime) "principal_hash" none = some f.principalHash :=
    textColumn_option rfl
  have horg : textColumn (f.items DateTime) "org_id" none = some f.orgId :=
    textColumn_option rfl
  have hkey : textColumn (f.items DateTime) "api_key_id" none = some f.apiKeyId :=
    textColumn_option rfl
  have hprovider : textColumn (f.items DateTime) "provider" none = some f.provider :=
    textColumn_option rfl
  have hmodel : textColumn (f.items DateTime) "model" none = some f.model :=
    textColumn_option rfl
  have hstatus : intColumn (f.items DateTime) "status_code" none = some f.statusCode := rfl
  have herror : textColumn (f.items DateTime) "error_type" none = some f.errorType :=
    textColumn_option rfl
  have hprompt : intColumn (f.items DateTime) "prompt_tokens" (some 0) =
    some (f.promptTokens : Int) := rfl
  have hcompletion : intColumn (f.items DateTime) "completion_tokens" (some 0) =
    some (f.completionTokens : Int) := rfl
  have htotal : intColumn (f.items DateTime) "total_tokens" (some 0) =
    some (f.totalTokens : Int) := rfl
  have hcost : costColumn (f.items DateTime) numeric = some (numeric f.costUsd) := rfl
  have hlatency : intColumn (f.items DateTime) "latency_ms" (some 0) = some f.latencyMs := rfl
  have hstream : boolColumn (f.items DateTime) "stream" false = some f.stream := rfl
  rw [AuditLog.ofColumns, hid, hrequest, hts, hprincipal, horg, hkey, hprovider, hmodel, hstatus,
    herror, hprompt, hcompletion, htotal, hcost, hlatency, hstream]
  rfl

theorem agrees_iff : q.Agrees numeric (q.fields.items DateTime) ↔ q.replayedAt = q.finalizedAt := by
  rw [FailedInsert.Agrees, FailedInsert.directRow, ofColumns_items, ofColumns_items]
  constructor
  · rintro ⟨_, _, hrow, hrow', hsame⟩
    rw [← Option.some.inj hrow, ← Option.some.inj hrow'] at hsame
    exact congrArg AuditLog.ts hsame
  · intro h
    refine ⟨_, _, rfl, rfl, ?_⟩
    rw [h]
    rfl

theorem forall₂_agrees_items : List.Forall₂ (FailedInsert.Agrees numeric) qs
      ((qs.map FailedInsert.fields).map fun f => f.items DateTime) ↔
    ∀ q ∈ qs, q.replayedAt = q.finalizedAt := by
  rw [List.map_map, List.forall₂_map_right_iff, List.forall₂_same]
  exact forall₂_congr fun q _ => agrees_iff

theorem replayAgrees_iff_exposed {fromisoformat : Text → Option DateTime} {loads : Text → Option Json}
    (hloads : ∀ q ∈ qs, loads (dumps q.fields.toJson) = some q.fields.toJson) (quarantine : Text)
    (rows : List (List (Text × AuditValue DateTime))) :
    ReplayAgrees fromisoformat loads numeric qs quarantine rows ↔
      ∀ q ∈ qs, q.replayedAt = q.finalizedAt ∧ q.fields.exposed = false := by
  have hloads' : ∀ f ∈ qs.map FailedInsert.fields, loads (dumps f.toJson) = some f.toJson := by
    intro f hf
    obtain ⟨q, hq, rfl⟩ := List.mem_map.1 hf
    exact hloads q hq
  constructor
  · rintro ⟨hreturned, _, replayed, hrows, hagree⟩
    rw [← List.length_map FailedInsert.fields] at hreturned
    have hexposed := exposed_of_returned hreturned
    have htrip : RoundTrips fromisoformat loads (qs.map FailedInsert.fields) quarantine rows :=
      .of_exposed hloads' hexposed
    have hreplayed := List.append_cancel_left (hrows.symm.trans htrip.2.2)
    rw [hreplayed] at hagree
    intro q hq
    exact ⟨forall₂_agrees_items.1 hagree q hq, hexposed _ (List.mem_map_of_mem hq)⟩
  · intro h
    have hexposed : ∀ f ∈ qs.map FailedInsert.fields, f.exposed = false := by
      intro f hf
      obtain ⟨q, hq, rfl⟩ := List.mem_map.1 hf
      exact (h q hq).2
    have htrip : RoundTrips fromisoformat loads (qs.map FailedInsert.fields) quarantine rows :=
      .of_exposed hloads' hexposed
    obtain ⟨hreturned, hquarantine, hrows⟩ := htrip
    rw [List.length_map] at hreturned
    exact ⟨hreturned, hquarantine, _, hrows, forall₂_agrees_items.2 fun q hq => (h q hq).1⟩

/-- A window that starts at the later of the two times tells the rows apart. -/
theorem selected_all_iff (f : AuditFields) (t r : DateTime) (id id' : Text) :
    (∀ scope since until', (f.row numeric r id').selected scope since until' =
      (f.row numeric t id).selected scope since until') ↔ r.instant = t.instant := by
  constructor
  · intro h
    have hr := h none (some r) none
    have ht := h none (some t) none
    simp only [AuditLog.selected, AuditFields.row, Option.all_none, Option.all_some, Bool.true_and,
      Bool.and_true, le_refl, decide_true] at hr ht
    exact le_antisymm (of_decide_eq_true hr.symm) (of_decide_eq_true ht)
  · intro h scope since until'
    simp only [AuditLog.selected, AuditFields.row, h]
    rfl

/-- A request that is replayed a second after it was finalised. -/
def lateReplay : FailedInsert where
  fields := fieldsOfRequest "a".toList
  finalizedAt := ⟨0, some 0⟩
  replayedAt := ⟨1000000, some 0⟩
  freshId := ['1']
  replayId := ['2']

theorem lateReplay_loads : ∀ q ∈ [lateReplay],
    loadsOf [lateReplay.fields] (dumps q.fields.toJson) = some q.fields.toJson := by
  intro q hq
  rw [List.mem_singleton.1 hq]
  exact loadsOf_head _ _

theorem replayed_row_differs :
    (∀ q ∈ [lateReplay],
      loadsOf [lateReplay.fields] (dumps q.fields.toJson) = some q.fields.toJson) ∧
      ¬ ReplayAgrees (fun _ => none) (loadsOf [lateReplay.fields]) (fun _ => 0) [lateReplay] [] [] := by
  refine ⟨lateReplay_loads, ?_⟩
  rw [replayAgrees_iff_exposed lateReplay_loads]
  intro h
  have htimes := (h lateReplay List.mem_cons_self).1
  revert htimes
  decide

theorem replay_agrees_iff (fromisoformat : Text → Option DateTime) (loads : Text → Option Json)
    (numeric : Decimal → ℚ) (qs : List FailedInsert)
    (hloads : ∀ q ∈ qs, loads (dumps q.fields.toJson) = some q.fields.toJson) (quarantine : Text)
    (rows : List (List (Text × AuditValue DateTime))) :
    (ReplayAgrees fromisoformat loads numeric qs quarantine rows ↔
      ∀ q ∈ qs, q.replayedAt = q.finalizedAt ∧
        ∀ t ∈ q.fields.texts, ∀ c ∈ t, isExposedBreak c = false) ∧
    ∀ q ∈ qs, ∀ row row', q.directRow numeric = some row →
      AuditLog.ofColumns (q.fields.items DateTime) numeric q.replayedAt q.replayId = some row' →
      ((∀ scope since until', row'.selected scope since until' = row.selected scope since until') ↔
        q.replayedAt.instant = q.finalizedAt.instant) := by
  constructor
  · simp only [replayAgrees_iff_exposed hloads, AuditFields.exposed_eq_false]
  · intro q _ row row' hrow hrow'
    rw [FailedInsert.directRow, ofColumns_items] at hrow
    rw [ofColumns_items] at hrow'
    rw [← Option.some.inj hrow, ← Option.some.inj hrow']
    exact selected_all_iff q.fields q.finalizedAt q.replayedAt q.freshId q.replayId

theorem replay_agrees_at_once :
    ReplayAgrees (fun _ => none) (loadsOf [lateReplay.fields]) (fun _ => 0)
      [{ lateReplay with replayedAt := ⟨0, some 0⟩ }] [] [] := by
  have hloads : ∀ q ∈ [{ lateReplay with replayedAt := ⟨0, some 0⟩ }],
      loadsOf [lateReplay.fields] (dumps q.fields.toJson) = some q.fields.toJson := by
    intro q hq
    rw [List.mem_singleton.1 hq]
    exact loadsOf_head _ _
  apply (replay_agrees_iff _ _ _ _ hloads _ _).1.2
  intro q hq
  rw [List.mem_singleton.1 hq]
  exact ⟨rfl, AuditFields.exposed_eq_false.1 rfl⟩

end AiServing
