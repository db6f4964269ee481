import AiServing.ChatStream
import Mathlib.Data.Int.Log
import Mathlib.Data.Rat.Floor

namespace AiServing
set_option autoImplicit true

def roundHalfEven (q : ℚ) : ℤ :=
  let f := ⌊q⌋
  if q - f < 1 / 2 then f
  else if 1 / 2 < q - f then f + 1
  else if f % 2 = 0 then f else f + 1

/-- The result of a `Decimal` operation, which keeps 28 significant digits. -/
def decimalContext (q : ℚ) : ℚ :=
  let unit := (10 : ℚ) ^ (Int.log 10 |q| - 27)
  roundHalfEven (q / unit) * unit

def modelPricingUsdPer1M : List (String × ℚ × ℚ) :=
  [("gpt-4o", 5 / 2, 10), ("gpt-4o-mini", 15 / 100, 6 / 10), ("claude-sonnet-4-6", 3, 15),
    ("claude-3-5-haiku-latest", 8 / 10, 4)]

def calculateCost (model : Option String) (promptTokens completionTokens : Int) : ℚ :=
  match model.bind fun m => modelPricingUsdPer1M.lookup m with
  | none => 0
  | some (inputPrice, outputPrice) =>
    decimalContext (decimalContext (decimalContext (promptTokens * inputPrice) +
      decimalContext (completionTokens * outputPrice)) / 1000000)

/-- `_usage_int`, of the dictionary that `model_dump` made. -/
def usageInt (tokenUsage : Option NormalizedUsage) (key : NormalizedUsage → Int) : Int :=
  tokenUsage.elim 0 key

/-- The fields of the audit row that depend on what the handler leaves in `request.state`. -/
structure AuditedOutcome where
  model : Option String
  statusCode : Nat
  errorType : Option String
  promptTokens : Int
  completionTokens : Int
  totalTokens : Int
  costUsd : ℚ
  deriving DecidableEq

/-- The row of `_schedule_audit_log`. -/
def scheduleAuditLog (model : Option String) (request : RequestState) (statusCode : Nat) :
    AuditedOutcome :=
  let promptTokens := usageInt request.tokenUsage (·.promptTokens)
  let completionTokens := usageInt request.tokenUsage (·.completionTokens)
  let totalTokens := usageInt request.tokenUsage (·.totalTokens)
  { model := model
    statusCode := statusCode
    errorType := request.errorType
    promptTokens := promptTokens
    completionTokens := completionTokens
    totalTokens := if totalTokens = 0 then promptTokens + completionTokens else totalTokens
    costUsd := calculateCost model promptTokens completionTokens }

/-- `_finalize_request`, which takes the status of the response unless the handler set another. -/
def finalizeRequest (model : Option String) (request : RequestState) (statusCode : Nat) :
    AuditedOutcome :=
  scheduleAuditLog model request (request.auditStatusCode.getD statusCode)

end AiServing
