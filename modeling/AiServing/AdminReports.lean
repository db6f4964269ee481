import AiServing.ApiKeys
import AiServing.DecimalText
import AiServing.RequestAudit
import Mathlib.Data.Finset.Sort

namespace AiServing
set_option autoImplicit true

inductive GroupBy where
  | key
  | model
  | org
  deriving DecidableEq, Repr

structure UsageGroup where
  groupKey : Text
  totalTokens : Int
  totalPromptTokens : Int
  totalCompletionTokens : Int
  costUsd : Text
  requestCount : Nat
  errorCount : Nat
  deriving DecidableEq, Repr

structure UsageWindow where
  since : DateTime
  until' : DateTime
  groupBy : GroupBy
  deriving DecidableEq, Repr

structure UsageResponse where
  groups : List UsageGroup
  window : UsageWindow
  deriving DecidableEq, Repr

structure AuditLogItem where
  id : Text
  requestId : Text
  ts : DateTime
  orgId : Option Text
  apiKeyId : Option Text
  principalHash : Option Text
  provider : Option Text
  model : Option Text
  statusCode : Int
  errorType : Option Text
  promptTokens : Int
  completionTokens : Int
  totalTokens : Int
  costUsd : Text
  latencyMs : Int
  stream : Bool
  deriving DecidableEq, Repr

structure AuditResponse where
  items : List AuditLogItem
  nextOffset : Option Nat
  deriving DecidableEq, Repr

/-- The query parameters of `list_audit_logs`. -/
structure AuditQuery where
  limit : Int := 50
  offset : Int := 0
  since : Option DateTime := none
  until' : Option DateTime := none
  model : Option Text := none
  apiKeyId : Option Text := none
  deriving DecidableEq, Repr

structure OrganizationResponse where
  id : Text
  name : Text
  createdAt : DateTime
  deriving DecidableEq, Repr

/-- `_format_cost`. Quantizing keeps 28 digits at most, and `CostString` has no sign. -/
def formatCost (value : ℚ) : Option Text :=
  let units := roundHalfEven (value * 1000000)
  if value < 0 ∨ 10 ^ 28 ≤ units then none
  else
    let digits := digitsOf (units.toNat % 1000000)
    some (digitsOf (units.toNat / 1000000) ++ '.' :: List.replicate (6 - digits.length) '0' ++ digits)

/-- The organization whose rows the principal may read; `none` stands for all. -/
def readScope (p : ApiKeyPrincipal) : Except AdminError (Option Text) :=
  if isSuperAdmin p then .ok none else (principalOrgId p).map some

/-- The `WHERE` clauses on the organization and on the time of an audit row. -/
def AuditLog.selected (scope : Option Text) (since until' : Option DateTime) (row : AuditLog) : Bool :=
  scope.all (fun orgId => row.orgId = some orgId) &&
    since.all (fun t => t.instant ≤ row.ts.instant) && until'.all fun t => row.ts.instant ≤ t.instant

/-- `group_expr` -/
def usageGroupKey (groupBy : GroupBy) (row : AuditLog) : Text :=
  match groupBy with
  | .key => row.apiKeyId.getD (row.principalHash.getD "unknown".toList)
  | .model => row.model.getD "unknown".toList
  | .org => row.orgId.getD "unknown".toList

/-- What an integer column of the database can hold. -/
def FitsInt64 (n : Int) : Prop := -2 ^ 63 ≤ n ∧ n < 2 ^ 63

instance (n : Int) : Decidable (FitsInt64 n) := inferInstanceAs (Decidable (_ ∧ _))

/-- `func.sum` over an integer column, which raises on an overflow; SQLite also looks at the partial
sums, in the order of its scan. -/
def sumColumn (column : AuditLog → Int) (rows : List AuditLog) : Except AdminError Int :=
  if FitsInt64 (rows.map column).sum then .ok (rows.map column).sum else .error .raised

def usageGroup (groupBy : GroupBy) (rows : List AuditLog) (groupKey : Text) :
    Except AdminError UsageGroup := do
  let group := rows.filter fun row => usageGroupKey groupBy row = groupKey
  let totalTokens ← sumColumn AuditLog.totalTokens group
  let totalPromptTokens ← sumColumn AuditLog.promptTokens group
  let totalCompletionTokens ← sumColumn AuditLog.completionTokens group
  let costUsd ← orRaise (formatCost (group.map AuditLog.costUsd).sum)
  return {
    groupKey := groupKey
    totalTokens := totalTokens
    totalPromptTokens := totalPromptTokens
    totalCompletionTokens := totalCompletionTokens
    costUsd := costUsd
    requestCount := group.length
    errorCount := group.countP fun row => 400 ≤ row.statusCode }

/-- `GROUP BY group_expr ORDER BY group_expr`, where the collation of the database orders texts. -/
def usageGroups (collation : LinearOrder Text) (groupBy : GroupBy) (rows : List AuditLog) :
    Except AdminError (List UsageGroup) :=
  ((rows.map (usageGroupKey groupBy)).toFinset.sort collation.le).mapM (usageGroup groupBy rows)

def usageKeys (collation : LinearOrder Text) (groupBy : GroupBy) (rows : List AuditLog) : List Text :=
  (rows.map (usageGroupKey groupBy)).toFinset.sort collation.le

def getUsage (collation : LinearOrder Text) (p : ApiKeyPrincipal) (context : CallContext)
    (since until' : Option DateTime) (groupBy : GroupBy) (db : Database) :
    Except AdminError UsageResponse := do
  requireAdminPrincipal p
  let since ← orRaise (since.elim (context.now.minusSeconds 86400) DateTime.asUtc)
  let until' ← orRaise (until'.elim (some context.now) DateTime.asUtc)
  if until'.instant < since.instant then
    .error (.http 400 "since must be before or equal to until")
  else
    requireSessionmaker context
    let scope ← readScope p
    context.check .read
    let groups ← usageGroups collation groupBy
      (db.auditLogs.filter fun row => row.selected scope since until')
    return { groups := groups, window := { since := since, until' := until', groupBy := groupBy } }

def auditLogItem (row : AuditLog) : Except AdminError AuditLogItem := do
  let ts ← orRaise row.ts.asUtc
  let costUsd ← orRaise (formatCost row.costUsd)
  return {
    id := row.id
    requestId := row.requestId
    ts := ts
    orgId := row.orgId
    apiKeyId := row.apiKeyId
    principalHash := row.principalHash
    provider := row.provider
    model := row.model
    statusCode := row.statusCode
    errorType := row.errorType
    promptTokens := row.promptTokens
    completionTokens := row.completionTokens
    totalTokens := row.totalTokens
    costUsd := costUsd
    latencyMs := row.latencyMs
    stream := row.stream }

/-- A filter by a key of another organization is refused, as by one that does not exist. -/
def checkAuditKey (scope apiKeyId : Option Text) (db : Database) : Except AdminError Unit :=
  match scope, apiKeyId with
  | some orgId, some apiKeyId =>
    match db.keys.get? ApiKey.id apiKeyId with
    | none => .error (.http 404 "API key not found")
    | some key => if key.orgId ≠ orgId then .error (.http 404 "API key not found") else .ok ()
  | _, _ => .ok ()

/-- The page of the rows, and whether more rows follow; an `OFFSET` has 64 bits. -/
def auditPage (limit offset : Nat) (rows : List AuditLog) : Except AdminError AuditResponse := do
  if 2 ^ 63 ≤ offset then .error .raised
  else
    let rows := ((newestFirst AuditLog.ts rows).drop offset).take (limit + 1)
    let items ← (rows.take limit).mapM auditLogItem
    return { items := items, nextOffset := if limit < rows.length then some (offset + limit) else none }

def listAuditLogs (p : ApiKeyPrincipal) (context : CallContext) (query : AuditQuery) (db : Database) :
    Except AdminError AuditResponse := do
  requireAdminPrincipal p
  if query.limit < 1 ∨ 500 < query.limit ∨ query.offset < 0 then .error .invalid
  else
    requireSessionmaker context
    let scope ← readScope p
    let since ← orRaise (query.since.mapM DateTime.asUtc)
    let until' ← orRaise (query.until'.mapM DateTime.asUtc)
    context.check .read
    checkAuditKey scope query.apiKeyId db
    auditPage query.limit.toNat query.offset.toNat <| db.auditLogs.filter fun row =>
      row.selected scope since until' && query.model.all (fun model => row.model = some model) &&
        query.apiKeyId.all fun apiKeyId => row.apiKeyId = some apiKeyId

/-- `OrganizationCreateRequest`: the name that is left of the one in the body. -/
def organizationName (name : Text) : Option Text :=
  if name.length < 1 ∨ 120 < name.length ∨ strip name = [] then none else some (strip name)

/-- `create_organization`, up to the commit. -/
def planOrganization (p : ApiKeyPrincipal) (context : CallContext) (name : Text) :
    Except AdminError Organization := do
  requireAdminPrincipal p
  let name ← (organizationName name).elim (.error .invalid) .ok
  requireSuperAdmin p
  requireSessionmaker context
  return { id := context.freshId, name := name, createdAt := context.now }

def createOrganization (p : ApiKeyPrincipal) (context : CallContext) (name : Text) (db : Database) :
    Database × Except AdminError OrganizationResponse :=
  match planOrganization p context name with
  | .error e => (db, .error e)
  | .ok org =>
    if context.fault = some .commit then (db, .error .raised)
    else
      match db.orgs.insert? org with
      | none => (db, .error (.http 409 "Organization already exists"))
      | some orgs =>
        ({ db with orgs := orgs }, do
          context.check .refresh
          let createdAt ← orRaise org.createdAt.asUtc
          return { id := org.id, name := org.name, createdAt := createdAt })

end AiServing
