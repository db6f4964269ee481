import AiServing.AdminStore

namespace AiServing
set_option autoImplicit true

/-- The JSON body of a create call. -/
structure ApiKeyCreateBody where
  name : Text
  scopes : List Text
  orgId : Text
  deriving DecidableEq, Repr

/-- `APIKeyCreateRequest`, which only validation makes. -/
structure ApiKeyCreateRequest where
  name : Text
  scopes : List Text
  orgId : Text
  scopes_ne_nil : scopes ≠ []
  scopes_plain : ∀ s ∈ scopes, PlainScope s

/-- The length bounds come first, then `strip_name` and `normalize_scopes`. -/
def ApiKeyCreateBody.validate (body : ApiKeyCreateBody) : Option ApiKeyCreateRequest :=
  if body.name.length < 1 ∨ 120 < body.name.length ∨ body.scopes.length < 1 then none
  else if strip body.name = [] then none
  else
    match h : normalizeScopes body.scopes with
    | none => none
    | some scopes => some
        { name := strip body.name
          scopes := scopes
          orgId := body.orgId
          scopes_ne_nil := (normalizeScopes_plain h).1
          scopes_plain := (normalizeScopes_plain h).2 }

structure ApiKeyCreateResponse where
  id : Text
  keyPrefix : Text
  name : Text
  scopes : List Text
  orgId : Text
  createdAt : DateTime
  apiKey : Text
  deriving DecidableEq

structure ApiKeyRevokeResponse where
  id : Text
  revokedAt : DateTime
  deriving DecidableEq

structure ApiKeyListItem where
  id : Text
  keyPrefix : Text
  name : Text
  scopes : List Text
  orgId : Text
  createdAt : DateTime
  lastUsedAt : Option DateTime
  revokedAt : Option DateTime
  deriving DecidableEq

/-- The organization and the scopes that the principal may give the new key. -/
def grantedScopes (p : ApiKeyPrincipal) (body : ApiKeyCreateRequest) :
    Except AdminError (Text × List Text) :=
  if isSuperAdmin p then .ok (body.orgId, body.scopes)
  else
    match principalOrgId p with
    | .error e => .error e
    | .ok orgId =>
      if body.orgId ≠ orgId then .error (.http 403 "Cannot create API key for another org")
      else
        let scopes := body.scopes.filter fun scope => scope ≠ superAdminScope
        if scopes = [] then .error (.http 400 "At least one non-super_admin scope is required")
        else .ok (orgId, scopes)

/-- `"sk-" + secrets.token_urlsafe(32)` -/
def CallContext.mintToken (context : CallContext) : Text := "sk-".toList ++ context.random

section Keys

-- `_hash_token` and `_sha256_hex`, of the UTF-8 bytes of a token
variable (sha256 : Text → Text)

def newKey (context : CallContext) (body : ApiKeyCreateRequest) (orgId : Text)
    (scopes : List Text) : ApiKey :=
  { id := context.freshId
    orgId := orgId
    keyPrefix := context.mintToken.take 12
    keyHash := sha256 context.mintToken
    name := body.name
    scopes := joinScopes scopes
    createdAt := context.now }

/-- `create_api_key`, up to the commit. -/
def planKey (p : ApiKeyPrincipal) (context : CallContext) (body : ApiKeyCreateBody) (db : Database) :
    Except AdminError (List Text × ApiKey) := do
  requireAdminPrincipal p
  let request ← body.validate.elim (.error .invalid) .ok
  requireSessionmaker context
  let (orgId, scopes) ← grantedScopes p request
  context.check .read
  match db.orgs.get? Organization.id orgId with
  | none => .error (.http 404 "Organization not found")
  | some _ => .ok (scopes, newKey sha256 context request orgId scopes)

/-- The answer of `create_api_key`, behind the commit. -/
def createdKey (context : CallContext) (scopes : List Text) (key : ApiKey) :
    Except AdminError ApiKeyCreateResponse := do
  context.check .refresh
  let createdAt ← orRaise key.createdAt.asUtc
  return {
    id := key.id
    keyPrefix := key.keyPrefix
    name := key.name
    scopes := scopes
    orgId := key.orgId
    createdAt := createdAt
    apiKey := context.mintToken }

def createApiKey (p : ApiKeyPrincipal) (context : CallContext) (body : ApiKeyCreateBody)
    (db : Database) : Database × Except AdminError ApiKeyCreateResponse :=
  match planKey sha256 p context body db with
  | .error e => (db, .error e)
  | .ok (scopes, key) =>
    if context.fault = some .commit then (db, .error .raised)
    else
      match db.keys.insert? key with
      | none => (db, .error (.http 409 "API key already exists"))
      | some keys => ({ db with keys := keys }, createdKey context scopes key)

def Database.revoke (db : Database) (keyId : Text) (now : DateTime) : Database :=
  { db with
    keys := db.keys.update (fun key => key.id = keyId) (fun key => { key with revokedAt := some now })
      (by simp) }

/-- `revoke_api_key`, up to the commit. -/
def keyToRevoke (p : ApiKeyPrincipal) (context : CallContext) (keyId : Text) (db : Database) :
    Except AdminError ApiKey := do
  requireAdminPrincipal p
  requireSessionmaker context
  context.check .read
  match db.keys.get? ApiKey.id keyId with
  | none => .error (.http 404 "API key not found")
  | some key =>
    if isSuperAdmin p then .ok key
    else
      match principalOrgId p with
      | .error e => .error e
      | .ok orgId => if key.orgId ≠ orgId then .error (.http 404 "API key not found") else .ok key

def revokeApiKey (p : ApiKeyPrincipal) (context : CallContext) (keyId : Text) (db : Database) :
    Database × Except AdminError ApiKeyRevokeResponse :=
  match keyToRevoke p context keyId db with
  | .error e => (db, .error e)
  | .ok _ =>
    if context.fault = some .commit then (db, .error .raised)
    else
      (db.revoke keyId context.now, do
        context.check .refresh
        let revokedAt ← orRaise context.now.asUtc
        return { id := keyId, revokedAt := revokedAt })

def keyItem (key : ApiKey) : Except AdminError ApiKeyListItem := do
  let createdAt ← orRaise key.createdAt.asUtc
  let lastUsedAt ← orRaise (key.lastUsedAt.mapM DateTime.asUtc)
  let revokedAt ← orRaise (key.revokedAt.mapM DateTime.asUtc)
  return {
    id := key.id
    keyPrefix := key.keyPrefix
    name := key.name
    scopes := splitScopes key.scopes
    orgId := key.orgId
    createdAt := createdAt
    lastUsedAt := lastUsedAt
    revokedAt := revokedAt }

/-- `ORDER BY ... DESC`; equal times keep the order of the rows. -/
def newestFirst (time : α → DateTime) (rows : List α) : List α :=
  rows.mergeSort fun a b => (time b).instant ≤ (time a).instant

def listApiKeys (p : ApiKeyPrincipal) (context : CallContext) (orgId : Option Text)
    (includeRevoked : Bool) (db : Database) : Except AdminError (List ApiKeyListItem) := do
  requireAdminPrincipal p
  requireSessionmaker context
  let effectiveOrgId ← if isSuperAdmin p then .ok orgId else (principalOrgId p).map some
  context.check .read
  let rows := db.keys.rows.filter fun key =>
    effectiveOrgId.all (fun orgId => key.orgId = orgId) && (includeRevoked || key.revokedAt.isNone)
  (newestFirst ApiKey.createdAt rows).mapM keyItem

/-- `EnvAPIKeyStore.from_plaintext`; the store keeps hashes only. -/
def envKeyHashes (apiKeys : List Text) : List Text :=
  (apiKeys.filter fun key => key ≠ []).map sha256

/-- `EnvAPIKeyStore.validate`, where the last match counts. -/
def envValidate (keyHashes : List Text) (token : Text) : Option ApiKeyPrincipal :=
  let matchedHash := keyHashes.foldl
    (fun matched stored => if sha256 token = stored then some stored else matched) none
  matchedHash.map fun hash =>
    { apiKeyHash := hash, scopes := {chatScope, adminScope, superAdminScope} }

structure ApiKeyResolver where
  keyHashes : List Text
  lastUsedMinIntervalSeconds : Nat

/-- `_should_update_last_used`, where the subtraction may raise. -/
def shouldUpdateLastUsed (interval : Nat) (lastUsedAt : Option DateTime) (now : DateTime) :
    Option Bool :=
  if interval = 0 then some true
  else
    match lastUsedAt with
    | none => some true
    | some lastUsedAt => (now.minusSeconds interval).map fun t => lastUsedAt.instant ≤ t.instant

def Database.touch (db : Database) (keyId : Text) (now : DateTime) : Database :=
  { db with
    keys := db.keys.update (fun key => key.id = keyId) (fun key => { key with lastUsedAt := some now })
      (by simp) }

/-- The `try` block of `resolve`: what it returns, `none` if it raises or finds no key. Its SELECT
has read `keys`; others may have written to the database since. -/
def resolveKey (r : ApiKeyResolver) (context : CallContext) (token : Text) (db : Database)
    (keys : ApiKeys := db.keys) : Database × Option ApiKeyPrincipal :=
  if context.fault = some .read then (db, none)
  else
    match keys.rows.filter fun key => key.keyHash = sha256 token && key.revokedAt.isNone with
    | [key] =>
      let principal : ApiKeyPrincipal :=
        { apiKeyHash := sha256 token, apiKeyId := some key.id, orgId := some key.orgId,
          scopes := parseScopes key.scopes }
      match shouldUpdateLastUsed r.lastUsedMinIntervalSeconds key.lastUsedAt context.now with
      | none => (db, none)
      | some false => (db, some principal)
      | some true =>
        if context.fault = some .commit then (db, none)
        else if context.fault = some .refresh then (db.touch key.id context.now, none)
        else (db.touch key.id context.now, some principal)
    | _ => (db, none)

/-- `APIKeyResolver.resolve`: whatever goes wrong, the environment keys are tried. -/
def ApiKeyResolver.resolve (r : ApiKeyResolver) (context : CallContext) (token : Text)
    (db : Database) (keys : ApiKeys := db.keys) : Database × Option ApiKeyPrincipal :=
  if context.sessionmaker then
    match resolveKey sha256 r context token db keys with
    | (db, some principal) => (db, some principal)
    | (db, none) => (db, envValidate sha256 r.keyHashes token)
  else (db, envValidate sha256 r.keyHashes token)

end Keys

end AiServing
