import AiServing.ApiKeyEffects

namespace AiServing
set_option autoImplicit true

/-- Who makes an admin call: a principal from elsewhere, or the bearer of a token. -/
inductive Caller where
  | principal (p : ApiKeyPrincipal)
  | bearer (context : CallContext) (token : Text)

inductive KeyAction where
  | create (caller : Caller) (context : CallContext) (body : ApiKeyCreateBody)
  | revoke (caller : Caller) (context : CallContext) (keyId : Text)
  | resolve (context : CallContext) (token : Text)

inductive KeyAnswer where
  | unauthorized
  | created (answer : Except AdminError ApiKeyCreateResponse)
  | revoked (answer : Except AdminError ApiKeyRevokeResponse)
  | resolved (p : Option ApiKeyPrincipal)
  deriving DecidableEq

section Calls

variable (sha256 : Text → Text) (r : ApiKeyResolver)

def Caller.authenticate (caller : Caller) (db : Database) : Database × Option ApiKeyPrincipal :=
  match caller with
  | .principal p => (db, some p)
  | .bearer context token => r.resolve sha256 context token db

def KeyAction.perform (a : KeyAction) (db : Database) : Database × KeyAnswer :=
  match a with
  | .create caller context body =>
    match caller.authenticate sha256 r db with
    | (db, none) => (db, .unauthorized)
    | (db, some p) => (createApiKey sha256 p context body db).map id .created
  | .revoke caller context keyId =>
    match caller.authenticate sha256 r db with
    | (db, none) => (db, .unauthorized)
    | (db, some p) => (revokeApiKey p context keyId db).map id .revoked
  | .resolve context token => (r.resolve sha256 context token db).map id .resolved

def keyStep (db : Database) (a : KeyAction) : Option Database := some (a.perform sha256 r db).1

/-- The call revokes the key, and its commit goes through. -/
def KeyAction.CommitsRevoke (keyId : Text) (db : Database) : KeyAction → Prop
  | .revoke caller context id => id = keyId ∧ ∃ mid p,
      caller.authenticate sha256 r db = (mid, some p) ∧
        (∃ key, keyToRevoke p context id mid = .ok key) ∧ context.fault ≠ some .commit
  | _ => False

end Calls

variable {sha256 : Text → Text} {r : ApiKeyResolver} {db db' : Database}

/-- What a lookup may do to the database: note when a key was used. -/
inductive Touched (db : Database) : Database → Prop
  | unused : Touched db db
  | used (keyId : Text) (now : DateTime) : Touched db (db.touch keyId now)

theorem resolve_touched {keys : ApiKeys} (h : r.resolve sha256 context token db keys = (db', answer)) :
    Touched db db' := by
  rcases (resolve_cases h).1 with rfl | ⟨keyId, rfl⟩
  · exact .unused
  · exact .used keyId context.now

theorem authenticate_touched {caller : Caller}
    (h : caller.authenticate sha256 r db = (db', answer)) : Touched db db' := by
  cases caller with
  | principal p =>
    cases h
    exact .unused
  | bearer context token => exact resolve_touched h

/-- What a call may do to the keys: leave them, but for their times of use, revoke one, or add one. -/
inductive CallEffect (sha256 : Text → Text) (r : ApiKeyResolver) (a : KeyAction)
    (db db' : Database) (answer : KeyAnswer) : Prop
  | kept (hdb : Touched db db') (hcreated : ∀ response, answer ≠ .created (.ok response))
      (hrevoke : ∀ keyId, ¬ a.CommitsRevoke sha256 r keyId db)
  | revoked (mid : Database) (keyId : Text) (now : DateTime) (hmid : Touched db mid)
      (hcreated : ∀ response, answer ≠ .created (.ok response))
      (hrevoke : ∀ id, a.CommitsRevoke sha256 r id db ↔ keyId = id)
      (hdb : db' = mid.revoke keyId now)
  | added (caller : Caller) (context : CallContext) (body : ApiKeyCreateBody) (p : ApiKeyPrincipal)
      (mid : Database) (request : ApiKeyCreateRequest) (orgId : Text) (scopes : List Text)
      (keys : ApiKeys) (ha : a = .create caller context body)
      (hcaller : caller.authenticate sha256 r db = (mid, some p))
      (hscopes : grantedScopes p request = .ok (orgId, scopes))
      (hinsert : mid.keys.insert? (newKey sha256 context request orgId scopes) = some keys)
      (hdb : db' = { mid with keys := keys })
      (hanswer : answer = .created (createdKey context scopes
        (newKey sha256 context request orgId scopes)))

theorem perform_create {caller : Caller} {context : CallContext} {body : ApiKeyCreateBody}
    (h : (KeyAction.create caller context body).perform sha256 r db = (db', answer)) :
    CallEffect sha256 r (.create caller context body) db db' answer := by
  rw [KeyAction.perform] at h
  cases hauth : caller.authenticate sha256 r db with
  | mk mid found =>
    have hmid := authenticate_touched hauth
    rw [hauth] at h
    cases found with
    | none =>
      cases h
      exact .kept hmid nofun fun _ => id
    | some p =>
      cases hcreate : createApiKey sha256 p context body mid with
      | mk last created =>
        have hlast : (last, KeyAnswer.created created) = (db', answer) := by
          rw [← h]
          exact congrArg (Prod.map id KeyAnswer.created) hcreate.symm
        cases hlast
        cases createApiKey_cases hcreate with
        | refused hdb e he =>
          subst hdb he
          exact .kept hmid nofun fun _ => id
        | added request orgId scopes keys hscopes hinsert hdb hanswer =>
          exact .added caller context body p mid request orgId scopes keys rfl hauth hscopes hinsert
            hdb (congrArg _ hanswer)

theorem perform_revoke {caller : Caller} {context : CallContext} {keyId : Text}
    (h : (KeyAction.revoke caller context keyId).perform sha256 r db = (db', answer)) :
    CallEffect sha256 r (.revoke caller context keyId) db db' answer := by
  rw [KeyAction.perform] at h
  cases hauth : caller.authenticate sha256 r db with
  | mk mid found =>
    have hmid := authenticate_touched hauth
    -- the database and the principal of a revoke are those that authenticating gave
    have hcommits {id : Text}
        (hrevoke : (KeyAction.revoke caller context keyId).CommitsRevoke sha256 r id db) :
        ∃ p, found = some p ∧ (∃ key, keyToRevoke p context keyId mid = .ok key) ∧
          context.fault ≠ some .commit := by
      obtain ⟨_, mid', p, heq, hcommits⟩ := hrevoke
      rw [hauth] at heq
      cases heq
      exact ⟨p, rfl, hcommits⟩
    rw [hauth] at h
    cases found with
    | none =>
      cases h
      refine .kept hmid nofun fun id hrevoke => ?_
      obtain ⟨_, hp, _⟩ := hcommits hrevoke
      cases hp
    | some p =>
      cases hrevoke : revokeApiKey p context keyId mid with
      | mk last revoked =>
        have hlast : (last, KeyAnswer.revoked revoked) = (db', answer) := by
          rw [← h]
          exact congrArg (Prod.map id KeyAnswer.revoked) hrevoke.symm
        cases hlast
        cases revokeApiKey_cases hrevoke with
        | refused hdb e he hnot =>
          subst hdb
          refine .kept hmid nofun fun id hrevoke => ?_
          obtain ⟨_, hp, hcommits⟩ := hcommits hrevoke
          cases hp
          exact hnot hcommits
        | revoked key hkey hcommit hdb =>
          refine .revoked mid keyId context.now hmid nofun (fun id => ?_) hdb
          exact ⟨And.left, fun hid => ⟨hid, mid, p, hauth, ⟨key, hkey⟩, hcommit⟩⟩

theorem perform_cases {a : KeyAction} (h : a.perform sha256 r db = (db', answer)) :
    CallEffect sha256 r a db db' answer := by
  cases a with
  | create caller context body => exact perform_create h
  | revoke caller context keyId => exact perform_revoke h
  | resolve context token =>
    rw [KeyAction.perform] at h
    cases hresolve : r.resolve sha256 context token db with
    | mk last found =>
      rw [hresolve] at h
      cases h
      exact .kept (resolve_touched hresolve) nofun fun _ => id

/-- The key that a response to its creation describes. -/
structure Announced (sha256 : Text → Text) (response : ApiKeyCreateResponse) (key : ApiKey) :
    Prop where
  id : key.id = response.id
  orgId : key.orgId = response.orgId
  keyHash : key.keyHash = sha256 response.apiKey
  scopes : key.scopes = joinScopes response.scopes
  live : key.revokedAt = none

theorem perform_created {a : KeyAction} {response : ApiKeyCreateResponse}
    (h : a.perform sha256 r db = (db', .created (.ok response))) :
    ∃ caller context body p mid request, a = .create caller context body ∧
      caller.authenticate sha256 r db = (mid, some p) ∧
      grantedScopes p request = .ok (response.orgId, response.scopes) ∧
      ∃ key ∈ db'.keys.rows, Announced sha256 response key := by
  cases perform_cases h with
  | kept _ hcreated => exact absurd rfl (hcreated response)
  | revoked _ _ _ _ hcreated => exact absurd rfl (hcreated response)
  | added caller context body p mid request orgId scopes keys ha hcaller hscopes hinsert hdb hanswer =>
    obtain ⟨hid, horg, hsame, htoken⟩ := createdKey_spec (KeyAnswer.created.inj hanswer).symm
    have hgranted : grantedScopes p request = .ok (response.orgId, response.scopes) := by
      rw [hscopes, horg, hsame]
      rfl
    refine ⟨caller, context, body, p, mid, request, ha, hcaller, hgranted,
      newKey sha256 context request orgId scopes, ?_, ?_⟩
    · rw [hdb, (UniqueTable.rows_insert? hinsert).1]
      exact List.mem_append_right _ List.mem_cons_self
    · exact {
        id := hid.symm
        orgId := horg.symm
        keyHash := by rw [htoken]; rfl
        scopes := by rw [hsame]; rfl
        live := rfl }

/-- SHA-256 where the examples need it, and another injective function elsewhere. -/
def sampleSha256 (t : Text) : Text :=
  if t = "sk-".toList ++ List.replicate 43 'A' then
    "d40a82f736e89291055c8dcbddec74ad06f26425073957cce3a31c553758e683".toList
  else '-' :: t

end AiServing
