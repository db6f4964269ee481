import AiServing.ApiKeys
namespace AiServing
set_option autoImplicit true

variable {sha256 : Text → Text} {p : ApiKeyPrincipal} {context : CallContext} {db db' : Database}

theorem grantedScopes_spec (h : grantedScopes p body = .ok (orgId, scopes)) :
    scopes ≠ [] ∧ (∀ s ∈ scopes, PlainScope s) ∧
      (isSuperAdmin p = false → p.orgId = some orgId ∧ superAdminScope ∉ scopes) := by
  rw [grantedScopes] at h
  split at h
  · next hsuper =>
    cases h
    exact ⟨body.scopes_ne_nil, body.scopes_plain, fun hs => by rw [hs] at hsuper; cases hsuper⟩
  · split at h
    · cases h
    · next org horg =>
      split at h
      · cases h
      · dsimp only at h
        split at h
        · cases h
        · next hne =>
          cases h
          refine ⟨hne, fun s hs => body.scopes_plain s (List.mem_filter.1 hs).1, fun _ => ⟨?_, ?_⟩⟩
          · exact principalOrgId_eq_ok.1 horg
          · intro hmem
            exact absurd rfl (of_decide_eq_true (List.mem_filter.1 hmem).2)

theorem createdKey_spec (h : createdKey context scopes key = .ok response) :
    response.id = key.id ∧ response.orgId = key.orgId ∧ response.scopes = scopes ∧
      response.apiKey = context.mintToken := by
  obtain ⟨_, _, h⟩ := bind_eq_ok.1 h
  obtain ⟨createdAt, _, h⟩ := bind_eq_ok.1 h
  cases h
  exact ⟨rfl, rfl, rfl, rfl⟩

/-- A create call that changes the table or answers with a key has added that key. -/
inductive CreateEffect (sha256 : Text → Text) (p : ApiKeyPrincipal) (context : CallContext)
    (db db' : Database) (answer : Except AdminError ApiKeyCreateResponse) : Prop
  | refused (hdb : db' = db) (e : AdminError) (he : answer = .error e)
  | added (request : ApiKeyCreateRequest) (orgId : Text) (scopes : List Text) (keys : ApiKeys)
      (hscopes : grantedScopes p request = .ok (orgId, scopes))
      (hinsert : db.keys.insert? (newKey sha256 context request orgId scopes) = some keys)
      (hdb : db' = { db with keys := keys })
      (hanswer : answer = createdKey context scopes (newKey sha256 context request orgId scopes))

theorem planKey_spec (h : planKey sha256 p context body db = .ok (scopes, key)) :
    ∃ request orgId, grantedScopes p request = .ok (orgId, scopes) ∧
      key = newKey sha256 context request orgId scopes := by
  obtain ⟨_, _, h⟩ := bind_eq_ok.1 h
  obtain ⟨request, _, h⟩ := bind_eq_ok.1 h
  obtain ⟨_, _, h⟩ := bind_eq_ok.1 h
  obtain ⟨⟨orgId, scopes'⟩, hscopes, h⟩ := bind_eq_ok.1 h
  obtain ⟨_, _, h⟩ := bind_eq_ok.1 h
  refine ⟨request, orgId, ?_⟩
  split at h
  · cases h
  · cases h
    exact ⟨hscopes, rfl⟩

theorem createApiKey_cases (h : createApiKey sha256 p context body db = (db', answer)) :
    CreateEffect sha256 p context db db' answer := by
  rw [createApiKey] at h
  split at h
  · next e _ =>
    cases h
    exact .refused rfl e rfl
  · next scopes key hplan =>
    obtain ⟨request, orgId, hscopes, rfl⟩ := planKey_spec hplan
    split at h
    · cases h
      exact .refused rfl .raised rfl
    · split at h
      · cases h
        exact .refused rfl _ rfl
      · next keys hinsert =>
        cases h
        exact .added request orgId scopes keys hscopes hinsert rfl rfl

/-- A revoke call that commits has found a key that the principal may revoke. -/
inductive RevokeEffect (p : ApiKeyPrincipal) (context : CallContext) (keyId : Text)
    (db db' : Database) (answer : Except AdminError ApiKeyRevokeResponse) : Prop
  | refused (hdb : db' = db) (e : AdminError) (he : answer = .error e)
      (hnot : ¬ ((∃ key, keyToRevoke p context keyId db = .ok key) ∧ context.fault ≠ some .commit))
  | revoked (key : ApiKey) (hkey : keyToRevoke p context keyId db = .ok key)
      (hcommit : context.fault ≠ some .commit) (hdb : db' = db.revoke keyId context.now)

theorem revokeApiKey_cases (h : revokeApiKey p context keyId db = (db', answer)) :
    RevokeEffect p context keyId db db' answer := by
  rw [revokeApiKey] at h
  split at h
  · next e he =>
    cases h
    exact .refused rfl e rfl fun ⟨⟨key, hkey⟩, _⟩ => nomatch he.symm.trans hkey
  · next key hkey =>
    split at h
    · next hcommit =>
      cases h
      exact .refused rfl .raised rfl fun ⟨_, hnot⟩ => hnot hcommit
    · next hcommit =>
      cases h
      exact .revoked key hkey hcommit rfl

theorem keyToRevoke_spec (h : keyToRevoke p context keyId db = .ok key) :
    key ∈ db.keys.rows ∧ key.id = keyId ∧
      (isSuperAdmin p = false → p.orgId = some key.orgId) := by
  obtain ⟨_, _, h⟩ := bind_eq_ok.1 h
  obtain ⟨_, _, h⟩ := bind_eq_ok.1 h
  obtain ⟨_, _, h⟩ := bind_eq_ok.1 h
  split at h
  · cases h
  · next found hfound =>
    have hmem := UniqueTable.mem_of_get? hfound
    split at h
    · next hsuper =>
      cases h
      exact ⟨hmem.1, hmem.2, fun hs => by rw [hs] at hsuper; cases hsuper⟩
    · split at h
      · cases h
      · next org horg =>
        split at h
        · cases h
        · next heq =>
          cases h
          have horg' := principalOrgId_eq_ok.1 horg
          rw [← not_not.1 heq] at horg'
          exact ⟨hmem.1, hmem.2, fun _ => horg'⟩

def ApiKey.principal (key : ApiKey) : ApiKeyPrincipal :=
  { apiKeyHash := key.keyHash, apiKeyId := some key.id, orgId := some key.orgId,
    scopes := parseScopes key.scopes }

theorem resolveKey_of_mem (r : ApiKeyResolver) {key : ApiKey} (hkey : key ∈ db.keys.rows)
    (hhash : key.keyHash = sha256 token) (hread : context.fault ≠ some .read) :
    resolveKey sha256 r context token db =
      if key.revokedAt.isNone then
        match shouldUpdateLastUsed r.lastUsedMinIntervalSeconds key.lastUsedAt context.now with
        | none => (db, none)
        | some false => (db, some key.principal)
        | some true =>
          if context.fault = some .commit then (db, none)
          else if context.fault = some .refresh then (db.touch key.id context.now, none)
          else (db.touch key.id context.now, some key.principal)
      else (db, none) := by
  have hrows := UniqueTable.filter_column (c := ApiKey.keyHash) (fun key => key.revokedAt.isNone)
    (List.mem_cons_of_mem _ List.mem_cons_self) hkey
  rw [resolveKey, if_neg hread, ← hhash, hrows]
  cases key.revokedAt.isNone with
  | true => rfl
  | false => rfl

theorem resolveKey_cases {r : ApiKeyResolver}
    (h : resolveKey sha256 r context token db keys = (db', answer)) :
    (db' = db ∨ ∃ keyId, db' = db.touch keyId context.now) ∧
      ∀ p, answer = some p → ∃ key ∈ keys.rows,
        key.keyHash = sha256 token ∧ key.revokedAt = none ∧ p = key.principal := by
  rw [resolveKey] at h
  split at h
  · cases h
    exact ⟨.inl rfl, nofun⟩
  · split at h
    · next key hrows =>
      have hmem : key ∈ keys.rows ∧ key.keyHash = sha256 token ∧ key.revokedAt = none := by
        have hin : key ∈ [key] := List.mem_cons_self
        rw [← hrows, List.mem_filter, Bool.and_eq_true, decide_eq_true_eq,
          Option.isNone_iff_eq_none] at hin
        exact hin
      have hprincipal : (⟨sha256 token, some key.id, some key.orgId, parseScopes key.scopes⟩ :
          ApiKeyPrincipal) = key.principal := by rw [ApiKey.principal, hmem.2.1]
      have hfound {p} (hp : some key.principal = some p) : ∃ key ∈ keys.rows,
          key.keyHash = sha256 token ∧ key.revokedAt = none ∧ p = key.principal :=
        ⟨key, hmem.1, hmem.2.1, hmem.2.2, (Option.some.inj hp).symm⟩
      dsimp only at h
      rw [hprincipal] at h
      split at h
      · cases h
        exact ⟨.inl rfl, nofun⟩
      · cases h
        exact ⟨.inl rfl, fun p hp => hfound hp⟩
      · split at h
        · cases h
          exact ⟨.inl rfl, nofun⟩
        · split at h
          · cases h
            exact ⟨.inr ⟨key.id, rfl⟩, nofun⟩
          · cases h
            exact ⟨.inr ⟨key.id, rfl⟩, fun p hp => hfound hp⟩
    · cases h
      exact ⟨.inl rfl, nofun⟩

/-- What `resolve` may have written, and whom it recognises: an unrevoked key, or else an
environment key. -/
theorem resolve_cases {r : ApiKeyResolver}
    (h : r.resolve sha256 context token db keys = (db', answer)) :
    (db' = db ∨ ∃ keyId, db' = db.touch keyId context.now) ∧
      ∀ p, answer = some p → (∃ key ∈ keys.rows,
        key.keyHash = sha256 token ∧ key.revokedAt = none ∧ p = key.principal) ∨
          envValidate sha256 r.keyHashes token = some p := by
  rw [ApiKeyResolver.resolve] at h
  split at h
  · split at h
    · next hkey =>
      cases h
      obtain ⟨hdb, hfound⟩ := resolveKey_cases hkey
      exact ⟨hdb, fun p hp => .inl (hfound p hp)⟩
    · next hkey =>
      cases h
      exact ⟨(resolveKey_cases hkey).1, fun p hp => .inr hp⟩
  · cases h
    exact ⟨.inl rfl, fun p hp => .inr hp⟩

theorem envValidate_eq_none (h : sha256 token ∉ keyHashes) :
    envValidate sha256 keyHashes token = none := by
  have hfold : keyHashes.foldl
      (fun matched stored => if sha256 token = stored then some stored else matched) none = none := by
    apply List.foldlRecOn (motive := fun matched => matched = none)
    · rfl
    · intro matched hmatched stored hstored
      rw [if_neg fun heq : sha256 token = stored => h (heq ▸ hstored)]
      exact hmatched
  rw [envValidate, hfold]
  rfl

end AiServing
