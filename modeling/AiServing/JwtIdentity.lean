import AiServing.KeyLifecycle
import AiServing.Dictionary

namespace AiServing
open Dictionary
set_option autoImplicit true

/-- A value of a claim set. What is no text comes with its truth value or items and with what `str`
makes of it. -/
inductive ClaimValue
  | null
  | str (t : Text)
  | list (items : List ClaimValue) (shown : Text)
  | other (truthy : Bool) (shown : Text)

def ClaimValue.truthy : ClaimValue → Bool
  | .null => false
  | .str t => t ≠ []
  | .list items _ => !items.isEmpty
  | .other truthy _ => truthy

/-- `str(value)` -/
def ClaimValue.shown : ClaimValue → Text
  | .null => "None".toList
  | .str t => t
  | .list _ shown => shown
  | .other _ shown => shown

def ClaimValue.text? : ClaimValue → Option Text
  | .str t => some t
  | _ => none

abbrev Claims := Dict Text ClaimValue

/-- `claims.get(name)` -/
def Claims.value (claims : Claims) (name : Text) : ClaimValue := (claims.get? name).getD .null

/-- `JWTValidator`; `validate` is `jwt.decode` under its settings, `none` where that raises. -/
structure JwtValidator where
  issuer : Option Text
  validate : Text → Option Claims
  issuer_checked : ∀ {token claims i}, validate token = some claims → issuer = some i →
    Claims.value claims "iss".toList = .str i

structure AuthSettings where
  authMode : List Text
  jwtOrgClaim : Text := "org_id".toList
  jwtScopeClaim : Text := "groups".toList
  jwtGroupScopeMap : List Text := []

/-- One entry of the loop in `parse_jwt_group_scope_map`. -/
def noteGroup (mapping : Dict Text Text) (entry : Text) : Dict Text Text :=
  if '=' ∉ entry then mapping
  else
    let group := strip (entry.takeWhile (· ≠ '='))
    let scope := strip (entry.dropWhile (· ≠ '=')).tail
    if group ≠ [] ∧ scope ≠ [] then mapping.set group scope else mapping

def parseJwtGroupScopeMap (entries : List Text) : Dict Text Text := entries.foldl noteGroup .empty

/-- `value.split()` -/
def splitBlanks (value : Text) : List Text := (value.splitOnP isSpace).filter (· ≠ [])

def groupsFromClaim (value : ClaimValue) (splitString : Bool) : List Text :=
  match value with
  | .str t => if splitString then splitBlanks t else [t]
  | .list items _ => items.filterMap ClaimValue.text?
  | _ => []

def mapGroupsToScopes (groups : List Text) (groupScopeMap : Dict Text Text) : Finset Text :=
  (groups.filterMap groupScopeMap.get?).toFinset

inductive AuthFailure
  | authentication (message : String)
  | raised
  deriving DecidableEq, Repr

/-- `f"jwt:{iss}:{sub}"` -/
def jwtText (iss sub : Text) : Text := "jwt:".toList ++ iss ++ ':' :: sub

/-- The bearer of a request, and what its two queries run into. -/
structure AuthRequest where
  credentials : Option (Text × Text)
  context : CallContext
  orgReadFails : Bool := false

/-- `app.state`, as far as `require_api_key` uses it. -/
structure AuthServer where
  settings : AuthSettings
  resolver : ApiKeyResolver
  validator : Option JwtValidator

section Authentication

variable (sha256 : Text → Text)

def buildJwtPrincipal (settings : AuthSettings) (request : AuthRequest) (claims : Claims)
    (db : Database) : Except AuthFailure ApiKeyPrincipal :=
  let iss := claims.value "iss".toList
  let sub := claims.value "sub".toList
  if !iss.truthy || !sub.truthy then .error (.authentication "Invalid credentials")
  else match claims.value settings.jwtOrgClaim with
    | .null => .error (.authentication "Invalid credentials")
    | orgValue =>
      if !request.context.sessionmaker then .error (.authentication "Invalid credentials")
      else if request.orgReadFails then .error .raised
      else match db.orgs.get? Organization.id orgValue.shown with
        | none => .error (.authentication "Invalid credentials")
        | some org =>
          let groups := groupsFromClaim (claims.value settings.jwtScopeClaim)
            (["scope".toList, "scp".toList].contains settings.jwtScopeClaim)
          let scopes := mapGroupsToScopes groups (parseJwtGroupScopeMap settings.jwtGroupScopeMap)
          if scopes = ∅ then .error (.authentication "Invalid credentials")
          else .ok
            { apiKeyHash := sha256 (jwtText iss.shown sub.shown), orgId := some org.id,
              scopes := scopes }

/-- The part of `require_api_key` behind the API keys. -/
def requireJwt (server : AuthServer) (request : AuthRequest) (token : Text) (db : Database) :
    Except AuthFailure ApiKeyPrincipal :=
  if !server.settings.authMode.contains "jwt".toList then .error (.authentication "Invalid credentials")
  else match server.validator.bind fun validator => validator.validate token with
    | none => .error (.authentication "Invalid credentials")
    | some claims => buildJwtPrincipal sha256 server.settings request claims db

/-- The API key of the request, if that is what authenticates it. -/
def keyPrincipal (server : AuthServer) (request : AuthRequest) (token : Text) (db : Database)
    (keys : ApiKeys := db.keys) : Database × Option ApiKeyPrincipal :=
  if server.settings.authMode.contains "api_key".toList then
    server.resolver.resolve sha256 request.context token db keys
  else (db, none)

def requireApiKey (server : AuthServer) (request : AuthRequest) (db : Database)
    (keys : ApiKeys := db.keys) : Database × Except AuthFailure ApiKeyPrincipal :=
  match request.credentials with
  | none => (db, .error (.authentication "Missing bearer token"))
  | some (scheme, token) =>
    if scheme.map Char.toLower ≠ "bearer".toList then
      (db, .error (.authentication "Missing bearer token"))
    else match keyPrincipal sha256 server request token db keys with
      | (db, some principal) => (db, .ok principal)
      | (db, none) => (db, requireJwt sha256 server request token db)

end Authentication

/-- Whom the credentials of a request denote. -/
inductive Identity
  | apiKey (token : Text)
  | jwt (iss sub : Text)
  deriving DecidableEq

section Identities

variable (sha256 : Text → Text)

/-- The credential that `require_api_key` rests on, for claims whose issuer and subject are texts. -/
def identityOf (server : AuthServer) (request : AuthRequest) (db : Database) : Option Identity :=
  request.credentials.bind fun (_, token) =>
    if (keyPrincipal sha256 server request token db).2.isSome then some (.apiKey token)
    else (server.validator.bind fun validator => validator.validate token).bind fun claims =>
      match claims.value "iss".toList, claims.value "sub".toList with
      | .str iss, .str sub => some (.jwt iss sub)
      | _, _ => none

/-- The request is authenticated as `p`, on credentials that denote `identity`. -/
structure Authenticated (server : AuthServer) (request : AuthRequest) (db : Database)
    (identity : Identity) (p : ApiKeyPrincipal) : Prop where
  accepted : (requireApiKey sha256 server request db).2 = .ok p
  denotes : identityOf sha256 server request db = some identity

def Identity.text : Identity → Text
  | .apiKey token => token
  | .jwt iss sub => jwtText iss sub

end Identities

variable {sha256 : Text → Text} {server server' : AuthServer} {request request' : AuthRequest}
  {db db' : Database} {identity identity' : Identity} {p p' : ApiKeyPrincipal}

theorem envValidate_hash {keyHashes : List Text} (h : envValidate sha256 keyHashes token = some p) :
    p.apiKeyHash = sha256 token := by
  have hmatched : ∀ hash, keyHashes.foldl
      (fun matched stored => if sha256 token = stored then some stored else matched) none =
        some hash → hash = sha256 token := by
    apply List.foldlRecOn (motive := fun matched => ∀ hash, matched = some hash → hash = sha256 token)
    · intro hash hhash
      cases hhash
    · intro matched hprevious stored _ hash hhash
      split at hhash
      · next heq =>
        rw [heq]
        exact (Option.some.inj hhash).symm
      · exact hprevious hash hhash
  rw [envValidate] at h
  obtain ⟨hash, hhash, rfl⟩ := Option.map_eq_some_iff.1 h
  exact hmatched hash hhash

theorem resolve_hash {r : ApiKeyResolver} {context : CallContext}
    (h : (r.resolve sha256 context token db).2 = some p) : p.apiKeyHash = sha256 token := by
  rcases (resolve_cases (Prod.eta _).symm).2 p h with ⟨key, _, hhash, _, rfl⟩ | henv
  · exact hhash
  · exact envValidate_hash henv

theorem keyPrincipal_hash (h : (keyPrincipal sha256 server request token db).2 = some p) :
    p.apiKeyHash = sha256 token := by
  rw [keyPrincipal] at h
  split at h
  · exact resolve_hash h
  · cases h

theorem buildJwtPrincipal_cases {claims : Claims} {settings : AuthSettings}
    (h : buildJwtPrincipal sha256 settings request claims db = .ok p) :
    p.apiKeyHash = sha256 (jwtText (claims.value "iss".toList).shown
      (claims.value "sub".toList).shown) ∧
    p.apiKeyId = none ∧ ∃ org ∈ db.orgs.rows, p.orgId = some org.id := by
  simp only [buildJwtPrincipal] at h
  split at h
  · cases h
  · split at h
    · cases h
    · split at h
      · cases h
      · split at h
        · cases h
        · split at h
          · cases h
          · next org horg =>
            split at h
            · cases h
            · cases h
              exact ⟨rfl, rfl, org, (UniqueTable.mem_of_get? horg).1, rfl⟩

theorem requireJwt_claims (h : requireJwt sha256 server request token db = .ok p) :
    ∃ claims, (server.validator.bind fun validator => validator.validate token) = some claims ∧
      buildJwtPrincipal sha256 server.settings request claims db = .ok p := by
  rw [requireJwt] at h
  split at h
  · cases h
  · split at h
    · cases h
    · next claims hclaims => exact ⟨claims, hclaims, h⟩

theorem Authenticated.hash (h : Authenticated sha256 server request db identity p) :
    p.apiKeyHash = sha256 identity.text := by
  have haccepted := h.accepted
  have hdenotes := h.denotes
  rw [requireApiKey] at haccepted
  rw [identityOf] at hdenotes
  cases hcredentials : request.credentials with
  | none =>
    rw [hcredentials] at hdenotes
    cases hdenotes
  | some credentials =>
    obtain ⟨scheme, token⟩ := credentials
    rw [hcredentials] at haccepted hdenotes
    dsimp only [Option.bind] at haccepted hdenotes
    split at haccepted
    · cases haccepted
    · split at haccepted
      · next principal hkey =>
        cases haccepted
        rw [hkey] at hdenotes
        cases hdenotes
        exact keyPrincipal_hash (congrArg Prod.snd hkey)
      · next hkey =>
        obtain ⟨claims, hclaims, hbuild⟩ := requireJwt_claims haccepted
        rw [hkey] at hdenotes
        dsimp only [Option.bind] at hclaims
        rw [hclaims] at hdenotes
        have htexts : ∃ iss sub, claims.value "iss".toList = .str iss ∧
            claims.value "sub".toList = .str sub ∧ identity = .jwt iss sub := by
          simp only [Option.isSome_none, Bool.false_eq_true, if_false] at hdenotes
          split at hdenotes
          · next iss sub hiss hsub => exact ⟨iss, sub, hiss, hsub, (Option.some.inj hdenotes).symm⟩
          · cases hdenotes
        obtain ⟨iss, sub, hiss, hsub, rfl⟩ := htexts
        rw [(buildJwtPrincipal_cases hbuild).1, hiss, hsub]
        rfl

theorem append_cons_eq_iff {a a' b b' : List α} {c : α} : a ++ c :: b = a' ++ c :: b' ↔
    (a = a' ∧ b = b') ∨ (∃ w, a' = a ++ c :: w ∧ b = w ++ c :: b') ∨
      ∃ w, a = a' ++ c :: w ∧ b' = w ++ c :: b := by
  constructor
  · intro h
    rcases List.append_eq_append_iff.1 h with ⟨w, ha, hb⟩ | ⟨w, ha, hb⟩
    · cases w with
      | nil => exact .inl ⟨by simpa using ha.symm, by simpa using hb⟩
      | cons d w =>
        obtain ⟨rfl, hrest⟩ := List.cons.inj hb
        exact .inr (.inl ⟨w, ha, hrest⟩)
    · cases w with
      | nil => exact .inl ⟨by simpa using ha, by simpa using hb.symm⟩
      | cons d w =>
        obtain ⟨rfl, hrest⟩ := List.cons.inj hb
        exact .inr (.inr ⟨w, ha, hrest⟩)
  · rintro (⟨rfl, rfl⟩ | ⟨w, rfl, rfl⟩ | ⟨w, rfl, rfl⟩)
    · rfl
    · simp
    · simp

/-- One issuer goes on, behind a colon, with what the other's subject starts with; or an API key
is the text that stands for the claims. -/
def Confusable : Identity → Identity → Prop
  | .apiKey _, .apiKey _ => False
  | .apiKey token, .jwt iss sub => token = jwtText iss sub
  | .jwt iss sub, .apiKey token => token = jwtText iss sub
  | .jwt iss sub, .jwt iss' sub' =>
    (∃ w, iss' = iss ++ ':' :: w ∧ sub = w ++ ':' :: sub') ∨
      ∃ w, iss = iss' ++ ':' :: w ∧ sub' = w ++ ':' :: sub

theorem jwtText_eq_iff : jwtText iss sub = jwtText iss' sub' ↔
    (iss = iss' ∧ sub = sub') ∨ Confusable (.jwt iss sub) (.jwt iss' sub') := by
  rw [jwtText, jwtText, List.append_assoc, List.append_assoc, List.append_cancel_left_eq,
    append_cons_eq_iff, Confusable]

theorem text_eq_iff (hne : identity ≠ identity') :
    identity.text = identity'.text ↔ Confusable identity identity' := by
  cases identity with
  | apiKey token =>
    cases identity' with
    | apiKey token' => exact iff_of_false (fun h => hne (congrArg _ h)) id
    | jwt iss sub => exact Iff.rfl
  | jwt iss sub =>
    cases identity' with
    | apiKey token => exact eq_comm
    | jwt iss' sub' =>
      have hpair : ¬ (iss = iss' ∧ sub = sub') := by
        rintro ⟨rfl, rfl⟩
        exact hne rfl
      exact jwtText_eq_iff.trans (or_iff_right hpair)

theorem identityOf_jwt (h : identityOf sha256 server request db = some (.jwt iss sub)) :
    ∃ token claims, (server.validator.bind fun validator => validator.validate token) = some claims ∧
      claims.value "iss".toList = .str iss ∧ claims.value "sub".toList = .str sub := by
  obtain ⟨⟨_, token⟩, _, hidentity⟩ := Option.bind_eq_some_iff.1 h
  dsimp only at hidentity
  split at hidentity
  · cases hidentity
  · obtain ⟨claims, hclaims, htexts⟩ := Option.bind_eq_some_iff.1 hidentity
    refine ⟨token, claims, hclaims, ?_⟩
    split at htexts
    · next hiss hsub =>
      cases htexts
      exact ⟨hiss, hsub⟩
    · cases htexts

theorem issuer_of_jwt (hvalidator : server.validator = some validator)
    (hissuer : validator.issuer = some i)
    (h : Authenticated sha256 server request db (.jwt iss sub) p) : iss = i := by
  obtain ⟨token, claims, hclaims, hiss, _⟩ := identityOf_jwt h.denotes
  rw [hvalidator] at hclaims
  have hchecked := validator.issuer_checked hclaims hissuer
  rw [hiss] at hchecked
  exact ClaimValue.str.inj hchecked

/-- A validator that expects an issuer lets no two confusable pairs through. -/
theorem jwt_hash_ne_of_issuer (hsha256 : Function.Injective sha256)
    (hvalidator : server.validator = some validator) (hissuer : validator.issuer = some i)
    (h : Authenticated sha256 server request db (.jwt iss sub) p)
    (h' : Authenticated sha256 server request' db' (.jwt iss' sub') p') (hne : sub ≠ sub') :
    p.apiKeyHash ≠ p'.apiKeyHash := by
  obtain rfl := issuer_of_jwt hvalidator hissuer h
  obtain rfl := issuer_of_jwt hvalidator hissuer h'
  rw [h.hash, h'.hash, ne_eq, hsha256.eq_iff, text_eq_iff fun heq => hne (Identity.jwt.inj heq).2]
  rintro (⟨w, hw, _⟩ | ⟨w, hw, _⟩) <;> simp at hw

def sampleClaims (iss sub : Text) : Claims :=
  (((Dict.empty.set "iss".toList (.str iss)).set "sub".toList (.str sub)).set
    "org_id".toList (.str ['o'])).set "groups".toList (.list [.str ['g']] "['g']".toList)

/-- A server that expects no issuer, with three users. -/
def sampleServer : AuthServer where
  settings := { authMode := ["jwt".toList], jwtGroupScopeMap := ["g=chat".toList] }
  resolver := ⟨[], 60⟩
  validator := some
    { issuer := none
      validate := fun token =>
        if token = ['x'] then some (sampleClaims "a:b".toList ['c'])
        else if token = ['y'] then some (sampleClaims ['a'] "b:c".toList)
        else if token = ['z'] then some (sampleClaims ['a'] ['c'])
        else none
      issuer_checked := fun _ hissuer => by cases hissuer }

def sampleBearer (token : Text) : AuthRequest :=
  { credentials := some ("Bearer".toList, token), context := sampleCall }

def sampleUser (iss sub : Text) : ApiKeyPrincipal :=
  { apiKeyHash := sampleSha256 (jwtText iss sub), orgId := some ['o'] }

theorem sampleUser_authenticated (h : (token, iss, sub) ∈
      [(['x'], "a:b".toList, ['c']), (['y'], ['a'], "b:c".toList), (['z'], ['a'], ['c'])]) :
    Authenticated sampleSha256 sampleServer (sampleBearer token) sampleDatabase (.jwt iss sub)
      (sampleUser iss sub) := by
  simp only [List.mem_cons, Prod.mk.injEq, List.not_mem_nil, or_false] at h
  rcases h with ⟨rfl, rfl, rfl⟩ | ⟨rfl, rfl, rfl⟩ | ⟨rfl, rfl, rfl⟩ <;> exact ⟨rfl, rfl⟩

/-- Two users whose issuer and subject run together in the same text. -/
theorem jwt_identities_collide :
    ¬ ∀ (sha256 : Text → Text) (server : AuthServer) (request request' : AuthRequest)
      (db db' : Database) (identity identity' : Identity) (p p' : ApiKeyPrincipal),
      Function.Injective sha256 → Authenticated sha256 server request db identity p →
      Authenticated sha256 server request' db' identity' p' → identity ≠ identity' →
      p.apiKeyHash ≠ p'.apiKeyHash := by
  intro h
  exact h sampleSha256 sampleServer (sampleBearer ['x']) (sampleBearer ['y']) sampleDatabase
    sampleDatabase (.jwt "a:b".toList ['c']) (.jwt ['a'] "b:c".toList) _ _ sampleSha256_injective
    (sampleUser_authenticated (by decide)) (sampleUser_authenticated (by decide)) (by decide) rfl

/-- The principals of two identities differ unless the texts under the hash can be confused. -/
theorem principal_hash_ne_iff (hsha256 : Function.Injective sha256)
    (h : Authenticated sha256 server request db identity p)
    (h' : Authenticated sha256 server' request' db' identity' p') (hne : identity ≠ identity') :
    p.apiKeyHash ≠ p'.apiKeyHash ↔ ¬ Confusable identity identity' := by
  rw [h.hash, h'.hash, ne_eq, hsha256.eq_iff, text_eq_iff hne]

theorem principal_hash_ne_users : (sampleUser ['a'] "b:c".toList).apiKeyHash ≠
    (sampleUser ['a'] ['c']).apiKeyHash := by
  have hy : Authenticated sampleSha256 sampleServer (sampleBearer ['y']) sampleDatabase
      (.jwt ['a'] "b:c".toList) (sampleUser ['a'] "b:c".toList) :=
    sampleUser_authenticated (by decide)
  have hz : Authenticated sampleSha256 sampleServer (sampleBearer ['z']) sampleDatabase
      (.jwt ['a'] ['c']) (sampleUser ['a'] ['c']) := sampleUser_authenticated (by decide)
  apply (principal_hash_ne_iff sampleSha256_injective hy hz (by decide)).2
  rintro (⟨w, hw, _⟩ | ⟨w, hw, _⟩) <;> simp at hw

end AiServing
