import AiServing.AuditReplay
import AiServing.JsonText

namespace AiServing
set_option autoImplicit true

/-- A value of an audit field or column; `DateTime` is Python's `datetime`. -/
inductive AuditValue (DateTime : Type) where
  | json (j : Json)
  | decimal (d : Decimal)
  | datetime (t : DateTime)

/-- The `fields` of `_schedule_audit_log`. -/
structure AuditFields where
  requestId : Text
  principalHash : Option Text
  orgId : Option Text
  apiKeyId : Option Text
  provider : Option Text
  model : Option Text
  statusCode : Int
  errorType : Option Text
  promptTokens : Nat
  completionTokens : Nat
  totalTokens : Nat
  costUsd : Decimal
  latencyMs : Int
  stream : Bool

def Json.ofOption (t : Option Text) : Json := t.elim .null .str

/-- The dictionary, in the order of its keys. -/
def AuditFields.items (DateTime : Type) (f : AuditFields) : List (Text × AuditValue DateTime) :=
  [("request_id".toList, .json (.str f.requestId)),
    ("principal_hash".toList, .json (.ofOption f.principalHash)),
    ("org_id".toList, .json (.ofOption f.orgId)),
    ("api_key_id".toList, .json (.ofOption f.apiKeyId)),
    ("provider".toList, .json (.ofOption f.provider)),
    ("model".toList, .json (.ofOption f.model)),
    ("status_code".toList, .json (.int f.statusCode)),
    ("error_type".toList, .json (.ofOption f.errorType)),
    ("prompt_tokens".toList, .json (.int f.promptTokens)),
    ("completion_tokens".toList, .json (.int f.completionTokens)),
    ("total_tokens".toList, .json (.int f.totalTokens)),
    ("cost_usd".toList, .decimal f.costUsd),
    ("latency_ms".toList, .json (.int f.latencyMs)),
    ("stream".toList, .json (.bool f.stream))]

/-- What `default=str` leaves to the encoder. -/
def AuditValue.encode : AuditValue Empty → Json
  | .json j => j
  | .decimal d => .str d.str

def AuditFields.toJson (f : AuditFields) : Json :=
  .obj <| (f.items Empty).map fun item => (item.1, item.2.encode)

def fallbackLine (f : AuditFields) : Text := dumps f.toJson ++ ['\n']

def writeAuditFallback (w : AuditStore Row) (f : AuditFields) : AuditStore Row :=
  { w with live := some (w.live.getD .empty ++ encodeUtf8 (fallbackLine f)) }

/-- The columns of `AuditLog`. -/
def auditColumns : List Text :=
  ["id", "request_id", "ts", "principal_hash", "org_id", "api_key_id", "provider", "model",
    "status_code", "error_type", "prompt_tokens", "completion_tokens", "total_tokens", "cost_usd",
    "latency_ms", "stream"].map String.toList

/-- `Decimal(str(j))` of a number or a text; the texts of the other values are no numerals. -/
def decimalOf : Json → Option Decimal
  | .int n => Decimal.ofText (intText n)
  | .float x => Decimal.ofText x.text
  | .str t => Decimal.ofText t
  | _ => none

section Reading

variable {DateTime : Type} (fromisoformat : Text → Option DateTime)

def auditField (item : Text × Json) : Option (Text × AuditValue DateTime) :=
  if item.1 = "cost_usd".toList then (decimalOf item.2).map fun d => (item.1, .decimal d)
  else
    match item.2 with
    | .str t =>
      if item.1 = "ts".toList then
        (fromisoformat (t.flatMap fun c => if c = 'Z' then "+00:00".toList else [c])).map fun ts =>
          (item.1, .datetime ts)
      else some (item.1, .json (.str t))
    | j => some (item.1, .json j)

def auditFieldsFromJson : Json → Option (List (Text × AuditValue DateTime))
  | .obj items => (items.filter fun item => auditColumns.contains item.1).mapM
      (auditField fromisoformat)
  | _ => none

-- A row is kept as the columns it is given.
variable (loads : Text → Option Json)

def auditLogOfLine (line : Text) : Option (List (Text × AuditValue DateTime)) :=
  (loads line).bind (auditFieldsFromJson fromisoformat)

end Reading

end AiServing
