import AiServing.ScopeCodec
import AiServing.UniqueTable
import Mathlib.Data.Rat.Defs
import Mathlib.Data.List.Forall2

namespace AiServing
set_option autoImplicit true

/-- A `datetime`: microseconds since the start of year 1 on its wall clock, and `utcoffset`. -/
structure DateTime where
  wall : Nat
  offset : Option Int
  deriving DecidableEq, Repr

namespace DateTime

/-- The end of year 9999. -/
def maxWall : Int := 315537897600000000

def instant (t : DateTime) : Int := t.wall - t.offset.getD 0

/-- `_as_utc`, which raises where UTC leaves the calendar. -/
def asUtc (t : DateTime) : Option DateTime :=
  match t.offset with
  | none => some { t with offset := some 0 }
  | some _ =>
    if 0 ≤ t.instant ∧ t.instant < maxWall then some ⟨t.instant.toNat, some 0⟩ else none

/-- `t - timedelta(seconds=seconds)`, which raises in front of year 1. -/
def minusSeconds (t : DateTime) (seconds : Nat) : Option DateTime :=
  if seconds * 1000000 ≤ t.wall then some { t with wall := t.wall - seconds * 1000000 } else none

end DateTime

structure ApiKeyPrincipal where
  apiKeyHash : Text
  apiKeyId : Option Text := none
  orgId : Option Text := none
  scopes : Finset Text := {chatScope}
  deriving DecidableEq

structure Organization where
  id : Text
  name : Text
  createdAt : DateTime
  deriving DecidableEq

/-- `APIKey`; `scopes` is the comma list. -/
structure ApiKey where
  id : Text
  orgId : Text
  keyPrefix : Text
  keyHash : Text
  name : Text
  scopes : Text
  createdAt : DateTime
  lastUsedAt : Option DateTime := none
  revokedAt : Option DateTime := none
  deriving DecidableEq

structure AuditLog where
  id : Text
  requestId : Text
  ts : DateTime
  principalHash : Option Text
  orgId : Option Text
  apiKeyId : Option Text
  provider : Option Text
  model : Option Text
  statusCode : Int
  errorType : Option Text
  promptTokens : Int
  completionTokens : Int
  totalTokens : Int
  costUsd : ℚ
  latencyMs : Int
  stream : Bool
  deriving DecidableEq

abbrev Organizations := UniqueTable Organization [Organization.id, Organization.name]

abbrev ApiKeys := UniqueTable ApiKey [ApiKey.id, ApiKey.keyHash]

/-- The committed rows, in the order in which a query without `ORDER BY` returns them. -/
structure Database where
  orgs : Organizations
  keys : ApiKeys
  auditLogs : List AuditLog

/-- The database access of a call that raises, if one does; nothing is committed unless it is the
`refresh`. -/
inductive DbFault where
  | read
  | commit
  | refresh
  deriving DecidableEq, Repr

/-- What a call finds outside its arguments. -/
structure CallContext where
  sessionmaker : Bool := true
  now : DateTime
  freshId : Text := []
  random : Text := []
  fault : Option DbFault := none

/-- How a call fails; `raised` is any exception that no handler turns into an answer. -/
inductive AdminError where
  | http (status : Nat) (detail : String)
  | missingScope
  | invalid
  | raised
  deriving DecidableEq, Repr

def isSuperAdmin (p : ApiKeyPrincipal) : Bool := superAdminScope ∈ p.scopes

def requireAdminPrincipal (p : ApiKeyPrincipal) : Except AdminError Unit :=
  if adminScope ∈ p.scopes then .ok () else .error .missingScope

def requireSuperAdmin (p : ApiKeyPrincipal) : Except AdminError Unit :=
  if isSuperAdmin p then .ok () else .error (.http 403 "super_admin scope is required")

def principalOrgId (p : ApiKeyPrincipal) : Except AdminError Text :=
  match p.orgId with
  | some orgId => .ok orgId
  | none => .error (.http 403 "Admin principal is not org-scoped")

def requireSessionmaker (context : CallContext) : Except AdminError Unit :=
  if context.sessionmaker then .ok () else .error (.http 503 "Database is not initialized")

/-- The call runs into the fault `f`. -/
def CallContext.check (context : CallContext) (f : DbFault) : Except AdminError Unit :=
  if context.fault = some f then .error .raised else .ok ()

def orRaise (x : Option α) : Except AdminError α :=
  match x with
  | some a => .ok a
  | none => .error .raised

theorem principalOrgId_eq_ok : principalOrgId p = .ok orgId ↔ p.orgId = some orgId := by
  rw [principalOrgId]
  cases p.orgId with
  | none => exact iff_of_false nofun nofun
  | some org => rw [Except.ok.injEq, Option.some.injEq]

@[simp]
theorem ok_bind (a : α) (f : α → Except ε β) : Except.ok a >>= f = f a := rfl

theorem bind_eq_ok {x : Except ε α} {f : α → Except ε β} :
    x >>= f = .ok b ↔ ∃ a, x = .ok a ∧ f a = .ok b := by
  cases x with
  | error e => exact iff_of_false nofun fun ⟨_, hx, _⟩ => nomatch hx
  | ok a =>
    constructor
    · exact fun h => ⟨a, rfl, h⟩
    · rintro ⟨_, hx, h⟩
      cases hx
      exact h

theorem mapM_eq_ok {f : α → Except ε β} {l : List α} {l' : List β} :
    l.mapM f = .ok l' ↔ List.Forall₂ (fun a b => f a = .ok b) l l' := by
  induction l generalizing l' with
  | nil =>
    rw [List.mapM_nil, List.forall₂_nil_left_iff]
    constructor
    · intro h
      cases h
      rfl
    · rintro rfl
      rfl
  | cons a l ih =>
    rw [List.mapM_cons, bind_eq_ok, List.forall₂_cons_left_iff]
    constructor
    · rintro ⟨b, hb, h⟩
      obtain ⟨bs, hbs, h⟩ := bind_eq_ok.1 h
      cases h
      exact ⟨b, bs, hb, ih.1 hbs, rfl⟩
    · rintro ⟨b, bs, hb, hbs, rfl⟩
      exact ⟨b, hb, bind_eq_ok.2 ⟨bs, ih.2 hbs, rfl⟩⟩

theorem exists_forall₂ {R : α → β → Prop} {l : List α} :
    (∃ l', List.Forall₂ R l l') ↔ ∀ a ∈ l, ∃ b, R a b := by
  induction l with
  | nil => exact iff_of_true ⟨[], .nil⟩ fun a ha => absurd ha List.not_mem_nil
  | cons a l ih =>
    rw [List.forall_mem_cons, ← ih]
    constructor
    · rintro ⟨l', h⟩
      cases h with
      | cons hb hbs => exact ⟨⟨_, hb⟩, ⟨_, hbs⟩⟩
    · rintro ⟨⟨b, hb⟩, ⟨bs, hbs⟩⟩
      exact ⟨b :: bs, .cons hb hbs⟩

end AiServing
