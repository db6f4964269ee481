import AiServing.JwtIdentity
import AiServing.TenantIsolation

namespace AiServing
open Transitions
set_option autoImplicit true

/-- What reaches the database and the fallback file: a whole request, from its authentication to the
commit of the admin call that stands behind it if there is one, and whatever the audit tasks write. Any
worker may get a request. -/
inductive StoreEvent where
  | request (server : AuthServer) (auth : AuthRequest) (call : Option (AdminCall × CallContext))
  | audit (rows : List AuditLog) (live : Option ByteArray)

section Api

variable (collation : LinearOrder Text) (sha256 : Text → Text) (auditLog : Text → Option AuditLog)

def AdminState.after (s : AdminState) : StoreEvent → AdminState
  | .request server auth call =>
    match requireApiKey sha256 server auth s.db, call with
    | (db, .ok p), some (call, context) =>
      (call.serve collation sha256 auditLog p context { s with db := db }).1
    | (db, _), _ => { s with db := db }
  | .audit rows live => { s with db := { s.db with auditLogs := rows }, live := live }

def AdminState.step (s : AdminState) (e : StoreEvent) : Option AdminState :=
  some (s.after collation sha256 auditLog e)

/-- The request of this step is authenticated as `p`, which leaves the database `mid`, and makes the
call. -/
def StoreEvent.Acts (e : StoreEvent) (db mid : Database) (p : ApiKeyPrincipal) (call : AdminCall)
    (context : CallContext) : Prop :=
  ∃ server auth, e = .request server auth (some (call, context)) ∧
    requireApiKey sha256 server auth db = (mid, .ok p)

end Api

/-- What a call of an authenticated principal does to the organizations and the keys. -/
inductive ServeEffect (sha256 : Text → Text) (p : ApiKeyPrincipal) (context : CallContext)
    (call : AdminCall) (db db' : Database) : Prop
  | kept (horgs : db'.orgs = db.orgs) (hkeys : db'.keys = db.keys)
  | organization (name : Text) (hcall : call = .createOrganization name) (org : Organization)
      (hplan : planOrganization p context name = .ok org)
      (horgs : db.orgs.insert? org = some db'.orgs) (hkeys : db'.keys = db.keys)
  | added (body : ApiKeyCreateBody) (hcall : call = .createApiKey body) (scopes : List Text)
      (key : ApiKey) (hplan : planKey sha256 p context body db = .ok (scopes, key))
      (horgs : db'.orgs = db.orgs) (hkeys : db.keys.insert? key = some db'.keys)
  | revoked (keyId : Text) (hcall : call = .revokeApiKey keyId) (key : ApiKey)
      (hkey : keyToRevoke p context keyId db = .ok key) (hdb : db' = db.revoke keyId context.now)

/-- What a step does to the organizations and the keys. -/
inductive StoreEffect (sha256 : Text → Text) (e : StoreEvent) (db db' : Database) : Prop
  | kept (mid : Database) (hmid : Touched db mid) (horgs : db'.orgs = mid.orgs)
      (hkeys : db'.keys = mid.keys)
  | served (mid : Database) (hmid : Touched db mid) (p : ApiKeyPrincipal) (call : AdminCall)
      (context : CallContext) (hacts : e.Acts sha256 db mid p call context)
      (hserve : ServeEffect sha256 p context call mid db')

variable {collation : LinearOrder Text} {sha256 : Text → Text} {auditLog : Text → Option AuditLog}
variable {db db' mid : Database} {p : ApiKeyPrincipal} {context : CallContext} {e : StoreEvent}
variable {server : AuthServer} {request : AuthRequest}

theorem requireApiKey_touched {keys : ApiKeys}
    (h : requireApiKey sha256 server request db keys = (db', answer)) : Touched db db' := by
  rw [requireApiKey] at h
  split at h
  · cases h
    exact .unused
  · split at h
    · cases h
      exact .unused
    · next scheme token _ _ =>
      have htouched : Touched db (keyPrincipal sha256 server request token db keys).1 := by
        rw [keyPrincipal]
        split
        · exact resolve_touched (Prod.eta _).symm
        · exact .unused
      split at h
      · next hkey =>
        cases h
        rw [hkey] at htouched
        exact htouched
      · next hkey =>
        cases h
        rw [hkey] at htouched
        exact htouched

theorem Touched.orgs_eq (h : Touched db db') : db'.orgs = db.orgs := by
  cases h with
  | unused => rfl
  | used keyId now => rfl

theorem createOrganization_cases {name : Text}
    (h : createOrganization p context name db = (db', answer)) :
    db' = db ∨ ∃ org, planOrganization p context name = .ok org ∧
      db.orgs.insert? org = some db'.orgs ∧ db'.keys = db.keys := by
  rw [createOrganization] at h
  split at h
  · cases h
    exact .inl rfl
  · next org hplan =>
    split at h
    · cases h
      exact .inl rfl
    · split at h
      · cases h
        exact .inl rfl
      · next orgs hinsert =>
        cases h
        exact .inr ⟨org, hplan, hinsert, rfl⟩

theorem createApiKey_plan {body : ApiKeyCreateBody}
    (h : createApiKey sha256 p context body db = (db', answer)) :
    db' = db ∨ ∃ scopes key, planKey sha256 p context body db = .ok (scopes, key) ∧
      db'.orgs = db.orgs ∧ db.keys.insert? key = some db'.keys := by
  rw [createApiKey] at h
  split at h
  · cases h
    exact .inl rfl
  · next scopes key hplan =>
    split at h
    · cases h
      exact .inl rfl
    · split at h
      · cases h
        exact .inl rfl
      · next keys hinsert =>
        cases h
        exact .inr ⟨scopes, key, hplan, rfl, hinsert⟩

theorem serve_effect {call : AdminCall} {s t : AdminState}
    (h : call.serve collation sha256 auditLog p context s = (t, answer)) :
    ServeEffect sha256 p context call s.db t.db := by
  cases call with
  | getUsage since until' groupBy =>
    cases h
    exact .kept rfl rfl
  | listAuditLogs query =>
    cases h
    exact .kept rfl rfl
  | listApiKeys orgId includeRevoked =>
    cases h
    exact .kept rfl rfl
  | createOrganization name =>
    cases h
    rcases createOrganization_cases (Prod.eta (createOrganization p context name s.db)).symm with
      hdb | ⟨org, hplan, horgs, hkeys⟩
    · exact .kept (congrArg Database.orgs hdb) (congrArg Database.keys hdb)
    · exact .organization name rfl org hplan horgs hkeys
  | createApiKey body =>
    cases h
    rcases createApiKey_plan (Prod.eta (createApiKey sha256 p context body s.db)).symm with
      hdb | ⟨scopes, key, hplan, horgs, hkeys⟩
    · exact .kept (congrArg Database.orgs hdb) (congrArg Database.keys hdb)
    · exact .added body rfl scopes key hplan horgs hkeys
  | revokeApiKey keyId =>
    cases h
    cases revokeApiKey_cases (Prod.eta (revokeApiKey p context keyId s.db)).symm with
    | refused hdb => exact .kept (congrArg Database.orgs hdb) (congrArg Database.keys hdb)
    | revoked key hkey _ hdb => exact .revoked keyId rfl key hkey hdb
  | replayAuditFallback faults =>
    rw [AdminCall.serve, AdminState.replay] at h
    split at h
    · cases h
      exact .kept rfl rfl
    · cases h
      exact .kept rfl rfl

theorem after_effect (collation : LinearOrder Text) (sha256 : Text → Text)
    (auditLog : Text → Option AuditLog) (s : AdminState) (e : StoreEvent) :
    StoreEffect sha256 e s.db (s.after collation sha256 auditLog e).db := by
  cases e with
  | audit rows live => exact .kept s.db .unused rfl rfl
  | request server auth call =>
    cases hauth : requireApiKey sha256 server auth s.db with
    | mk mid answer =>
      have hmid := requireApiKey_touched hauth
      unfold AdminState.after
      dsimp only
      rw [hauth]
      cases answer with
      | error failure => exact .kept mid hmid rfl rfl
      | ok p =>
        cases call with
        | none => exact .kept mid hmid rfl rfl
        | some call =>
          exact .served mid hmid p call.1 call.2 ⟨server, auth, rfl, hauth⟩
            (serve_effect (s := { s with db := mid }) (Prod.eta _).symm)

theorem requireAdminPrincipal_ok (h : requireAdminPrincipal p = .ok u) : adminScope ∈ p.scopes := by
  rw [requireAdminPrincipal] at h
  split at h
  · next hadmin => exact hadmin
  · cases h

theorem planOrganization_spec {name : Text} {org : Organization}
    (h : planOrganization p context name = .ok org) :
    adminScope ∈ p.scopes ∧ isSuperAdmin p ∧ organizationName name = some org.name := by
  obtain ⟨_, hadmin, h⟩ := bind_eq_ok.1 h
  obtain ⟨title, htitle, h⟩ := bind_eq_ok.1 h
  obtain ⟨_, hsuper, h⟩ := bind_eq_ok.1 h
  obtain ⟨_, _, h⟩ := bind_eq_ok.1 h
  cases h
  refine ⟨requireAdminPrincipal_ok hadmin, ?_, ?_⟩
  · rw [requireSuperAdmin] at hsuper
    split at hsuper
    · next hyes => exact hyes
    · cases hsuper
  · cases hname : organizationName name with
    | none =>
      rw [hname] at htitle
      cases htitle
    | some title' =>
      rw [hname] at htitle
      cases htitle
      rfl

theorem planKey_row {body : ApiKeyCreateBody} {scopes : List Text} {key : ApiKey}
    (h : planKey sha256 p context body db = .ok (scopes, key)) :
    adminScope ∈ p.scopes ∧ ∃ request orgId, body.validate = some request ∧
      grantedScopes p request = .ok (orgId, scopes) ∧ (∃ org ∈ db.orgs.rows, org.id = orgId) ∧
      key = newKey sha256 context request orgId scopes := by
  obtain ⟨_, hadmin, h⟩ := bind_eq_ok.1 h
  obtain ⟨request, hrequest, h⟩ := bind_eq_ok.1 h
  obtain ⟨_, _, h⟩ := bind_eq_ok.1 h
  obtain ⟨⟨orgId, scopes'⟩, hscopes, h⟩ := bind_eq_ok.1 h
  obtain ⟨_, _, h⟩ := bind_eq_ok.1 h
  have hvalid : body.validate = some request := by
    cases hbody : body.validate with
    | none =>
      rw [hbody] at hrequest
      cases hrequest
    | some request' =>
      rw [hbody] at hrequest
      cases hrequest
      rfl
  refine ⟨requireAdminPrincipal_ok hadmin, request, orgId, hvalid, ?_⟩
  split at h
  · cases h
  · next org horg =>
    cases h
    exact ⟨hscopes, ⟨org, UniqueTable.mem_of_get? horg⟩, rfl⟩

theorem keyToRevoke_admin {keyId : Text} {key : ApiKey}
    (h : keyToRevoke p context keyId db = .ok key) : adminScope ∈ p.scopes := by
  obtain ⟨_, hadmin, _⟩ := bind_eq_ok.1 h
  exact requireAdminPrincipal_ok hadmin

end AiServing
