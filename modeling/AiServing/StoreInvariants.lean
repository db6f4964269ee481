import AiServing.AdminApi

namespace AiServing
open Transitions
set_option autoImplicit true

/-- A name as the validators leave it. -/
structure Titled (name : Text) : Prop where
  ne_nil : name ≠ []
  stripped : strip name = name
  le : name.length ≤ 120

/-- A key row as `create_api_key` writes it. -/
structure KeptKey (sha256 : Text → Text) (orgs : Organizations) (key : ApiKey) : Prop where
  org : ∃ org ∈ orgs.rows, org.id = key.orgId
  name : Titled key.name
  scopes : ∃ scopes, scopes ≠ [] ∧ (∀ s ∈ scopes, PlainScope s) ∧ scopes.Nodup ∧
    key.scopes = joinScopes scopes
  token : ∃ random, key.keyHash = sha256 ("sk-".toList ++ random) ∧
    key.keyPrefix = ("sk-".toList ++ random).take 12

structure WellKept (sha256 : Text → Text) (db : Database) : Prop where
  orgs : ∀ org ∈ db.orgs.rows, Titled org.name
  keys : ∀ key ∈ db.keys.rows, KeptKey sha256 db.orgs key

def sampleWorker : AuthServer where
  settings := { authMode := ["api_key".toList] }
  resolver := ⟨envKeyHashes sampleSha256 [['e']], 60⟩
  validator := none

def sampleRequest (call : AdminCall) : StoreEvent :=
  .request sampleWorker (sampleBearer ['e']) (some (call, sampleCall))

def sampleState : AdminState := ⟨sampleDatabase, none, none, []⟩

def sampleStep : AdminState → StoreEvent → Option AdminState :=
  AdminState.step inferInstance sampleSha256 fun _ => none

/-- A key is created and used. -/
def sampleEvents : List StoreEvent :=
  [sampleRequest (.createApiKey ⟨['k'], [chatScope], ['o']⟩),
    .request sampleWorker (sampleBearer sampleCall.mintToken) none]

def sampleEnd : AdminState :=
  sampleEvents.foldl (AdminState.after inferInstance sampleSha256 fun _ => none) sampleState

theorem sampleDatabase_wellKept : WellKept sampleSha256 sampleDatabase where
  orgs org horg := by
    obtain rfl := List.mem_singleton.1 horg
    exact ⟨by decide, by decide, by decide⟩
  keys key hkey := by cases hkey

variable {collation : LinearOrder Text} {sha256 : Text → Text} {auditLog : Text → Option AuditLog}
variable {db db' mid : Database} {p : ApiKeyPrincipal} {context : CallContext} {e : StoreEvent}
variable {s t u : AdminState} {events : List StoreEvent} {key : ApiKey}

theorem length_strip_le (t : Text) : (strip t).length ≤ t.length := by
  rw [strip, List.rdropWhile, List.length_reverse]
  apply (List.dropWhile_sublist _).length_le.trans
  rw [List.length_reverse]
  exact (List.dropWhile_sublist _).length_le

theorem titled_strip {name : Text} (hle : name.length ≤ 120) (hne : strip name ≠ []) :
    Titled (strip name) where
  ne_nil := hne
  stripped := strip_strip name
  le := (length_strip_le name).trans hle

theorem organizationName_titled {name : Text} (h : organizationName name = some title) :
    Titled title := by
  rw [organizationName] at h
  split at h
  · cases h
  · next hnot =>
    cases h
    rw [not_or, not_or] at hnot
    exact titled_strip (not_lt.1 hnot.2.1) hnot.2.2

theorem noteScope_nodup {scopes : List Text} (h : scopes.Nodup) (rawScope : Text) :
    (noteScope scopes rawScope).Nodup := by
  rw [noteScope]
  split
  · next hnew =>
    rw [List.nodup_append]
    refine ⟨h, List.nodup_singleton _, ?_⟩
    intro a ha b hb heq
    rw [heq, List.mem_singleton.1 hb] at ha
    exact hnew.2 ha
  · exact h

theorem normalizeScopes_nodup {value scopes : List Text} (h : normalizeScopes value = some scopes) :
    scopes.Nodup := by
  rw [normalizeScopes] at h
  split at h
  · cases h
  · cases h
    apply List.foldlRecOn (motive := List.Nodup)
    · exact List.nodup_nil
    · intro scopes hscopes rawScope _
      exact noteScope_nodup hscopes rawScope

theorem validate_spec {body : ApiKeyCreateBody} (h : body.validate = some request) :
    Titled request.name ∧ request.scopes.Nodup := by
  rw [ApiKeyCreateBody.validate] at h
  split at h
  · cases h
  · next hnot =>
    rw [not_or, not_or] at hnot
    split at h
    · cases h
    · next hne =>
      split at h
      · cases h
      · next hscopes =>
        cases h
        exact ⟨titled_strip (not_lt.1 hnot.2.1) hne, normalizeScopes_nodup hscopes⟩

theorem grantedScopes_nodup {request : ApiKeyCreateRequest}
    (h : grantedScopes p request = .ok (orgId, scopes)) (hnodup : request.scopes.Nodup) :
    scopes.Nodup := by
  rw [grantedScopes] at h
  split at h
  · cases h
    exact hnodup
  · split at h
    · cases h
    · split at h
      · cases h
      · dsimp only at h
        split at h
        · cases h
        · cases h
          exact hnodup.filter _

theorem planKey_kept {body : ApiKeyCreateBody}
    (h : planKey sha256 p context body db = .ok (scopes, key)) : KeptKey sha256 db.orgs key := by
  obtain ⟨_, request, orgId, hvalid, hgranted, horg, rfl⟩ := planKey_row h
  obtain ⟨hname, hnodup⟩ := validate_spec hvalid
  obtain ⟨hne, hplain, _⟩ := grantedScopes_spec hgranted
  exact {
    org := horg
    name := hname
    scopes := ⟨scopes, hne, hplain, grantedScopes_nodup hgranted hnodup, rfl⟩
    token := ⟨context.random, rfl, rfl⟩ }

theorem WellKept.touched (h : WellKept sha256 db) (hdb : Touched db db') : WellKept sha256 db' := by
  cases hdb with
  | unused => exact h
  | used keyId now =>
    refine ⟨h.orgs, fun key hkey => ?_⟩
    obtain ⟨key', hkey', rfl⟩ := List.mem_map.1 hkey
    have hkept := h.keys key' hkey'
    split
    · exact ⟨hkept.org, hkept.name, hkept.scopes, hkept.token⟩
    · exact hkept

theorem WellKept.revoke (h : WellKept sha256 db) (keyId : Text) (now : DateTime) :
    WellKept sha256 (db.revoke keyId now) := by
  refine ⟨h.orgs, fun key hkey => ?_⟩
  obtain ⟨key', hkey', rfl⟩ := List.mem_map.1 hkey
  have hkept := h.keys key' hkey'
  split
  · exact ⟨hkept.org, hkept.name, hkept.scopes, hkept.token⟩
  · exact hkept

theorem KeptKey.mono {orgs orgs' : Organizations} (h : KeptKey sha256 orgs key)
    (hsub : ∀ org ∈ orgs.rows, org ∈ orgs'.rows) : KeptKey sha256 orgs' key where
  org := by
    obtain ⟨org, horg, hid⟩ := h.org
    exact ⟨org, hsub org horg, hid⟩
  name := h.name
  scopes := h.scopes
  token := h.token

theorem WellKept.served {call : AdminCall} (h : WellKept sha256 db)
    (hserve : ServeEffect sha256 p context call db db') : WellKept sha256 db' := by
  obtain ⟨ho, hk⟩ := h
  cases hserve with
  | kept horgs hkeys =>
    constructor
    · rw [horgs]
      exact ho
    · rw [horgs, hkeys]
      exact hk
  | organization name _ org hplan horgs hkeys =>
    have hrows := (UniqueTable.rows_insert? horgs).1
    constructor
    · intro org' horg'
      rw [hrows, List.mem_append, List.mem_singleton] at horg'
      rcases horg' with hold | rfl
      · exact ho org' hold
      · exact organizationName_titled (planOrganization_spec hplan).2.2
    · intro key hkey
      rw [hkeys] at hkey
      apply (hk key hkey).mono
      intro org' horg'
      rw [hrows]
      exact List.mem_append_left _ horg'
  | added body _ scopes key hplan horgs hkeys =>
    constructor
    · rw [horgs]
      exact ho
    · intro key' hkey'
      rw [(UniqueTable.rows_insert? hkeys).1, List.mem_append, List.mem_singleton] at hkey'
      rw [horgs]
      rcases hkey' with hold | rfl
      · exact hk key' hold
      · exact planKey_kept hplan
  | revoked keyId _ key _ hdb =>
    rw [hdb]
    exact WellKept.revoke ⟨ho, hk⟩ keyId context.now

theorem WellKept.effect (h : WellKept sha256 db) (heffect : StoreEffect sha256 e db db') :
    WellKept sha256 db' := by
  cases heffect with
  | kept mid hmid horgs hkeys =>
    obtain ⟨ho, hk⟩ := h.touched hmid
    constructor
    · rw [horgs]
      exact ho
    · rw [horgs, hkeys]
      exact hk
  | served mid hmid p call context _ hserve => exact (h.touched hmid).served hserve

theorem run_wellKept (hs : WellKept sha256 s.db)
    (hrun : run (AdminState.step collation sha256 auditLog) s events = some u) :
    WellKept sha256 u.db := by
  apply run_invariant (I := fun s : AdminState => WellKept sha256 s.db) _ hs hrun
  intro s e t hkept ht
  obtain rfl := Option.some.inj ht
  exact hkept.effect (after_effect collation sha256 auditLog s e)

theorem envValidate_env {keyHashes : List Text} (h : envValidate sha256 keyHashes token = some p) :
    p.orgId = none ∧ p.apiKeyHash ∈ keyHashes := by
  have hhash := envValidate_hash h
  constructor
  · rw [envValidate] at h
    obtain ⟨hash, _, rfl⟩ := Option.map_eq_some_iff.1 h
    rfl
  · rw [hhash]
    by_contra hnot
    rw [envValidate_eq_none hnot] at h
    cases h

theorem WellKept.accepted_org (h : WellKept sha256 db) {server : AuthServer} {auth : AuthRequest}
    (haccepted : (requireApiKey sha256 server auth db).2 = .ok p) :
    (p.orgId = none ∧ p.apiKeyHash ∈ server.resolver.keyHashes) ∨
      ∃ org ∈ db.orgs.rows, p.orgId = some org.id := by
  rw [requireApiKey] at haccepted
  split at haccepted
  · cases haccepted
  · split at haccepted
    · cases haccepted
    · next scheme token _ _ =>
      split at haccepted
      · next hkey =>
        cases haccepted
        rw [keyPrincipal] at hkey
        split at hkey
        · rcases (resolve_cases hkey).2 p rfl with ⟨key, hmem, _, _, rfl⟩ | henv
          · obtain ⟨org, horg, hid⟩ := (h.keys key hmem).org
            exact .inr ⟨org, horg, congrArg some hid.symm⟩
          · exact .inl (envValidate_env henv)
        · cases hkey
      · next db' hkey =>
        have htouched : Touched db db' := by
          rw [keyPrincipal] at hkey
          split at hkey
          · exact resolve_touched hkey
          · cases hkey
            exact .unused
        obtain ⟨claims, _, hbuild⟩ := requireJwt_claims haccepted
        have horg := (buildJwtPrincipal_cases hbuild).2.2
        rw [htouched.orgs_eq] at horg
        exact .inr horg

/-- In whatever order the requests and the audit tasks come, the rows stay as the admin calls may write
them, and whoever is let in has an organization that exists, or an environment key. -/
theorem store_wellKept (hs : WellKept sha256 s.db)
    (hrun : run (AdminState.step collation sha256 auditLog) s events = some u) :
    WellKept sha256 u.db ∧ ∀ server auth p, (requireApiKey sha256 server auth u.db).2 = .ok p →
      (p.orgId = none ∧ p.apiKeyHash ∈ server.resolver.keyHashes) ∨
        ∃ org ∈ u.db.orgs.rows, p.orgId = some org.id := by
  have hkept := run_wellKept hs hrun
  exact ⟨hkept, fun _ _ _ haccepted => hkept.accepted_org haccepted⟩

theorem store_wellKept_created : sampleEnd.db.keys.rows ≠ [] ∧
    WellKept sampleSha256 sampleEnd.db ∧
    ∀ server auth p, (requireApiKey sampleSha256 server auth sampleEnd.db).2 = .ok p →
      (p.orgId = none ∧ p.apiKeyHash ∈ server.resolver.keyHashes) ∨
        ∃ org ∈ sampleEnd.db.orgs.rows, p.orgId = some org.id := by
  have hrun : run sampleStep sampleState sampleEvents = some sampleEnd := rfl
  exact ⟨by decide, store_wellKept sampleDatabase_wellKept hrun⟩

/-- In this step the key is created: by a super admin, or, if it does not have that scope itself, by an
admin of its organization. -/
def CreatesKey (sha256 : Text → Text) (key : ApiKey) (s : AdminState) (e : StoreEvent) : Prop :=
  ∃ mid p body context scopes new, e.Acts sha256 s.db mid p (.createApiKey body) context ∧
    planKey sha256 p context body mid = .ok (scopes, new) ∧ SameKey new key ∧ adminScope ∈ p.scopes ∧
    (isSuperAdmin p = true ∨ p.orgId = some key.orgId ∧ superAdminScope ∉ parseScopes key.scopes)

/-- In this step the key is revoked, by a super admin or by an admin of its organization. -/
def RevokesKey (sha256 : Text → Text) (key : ApiKey) (s : AdminState) (e : StoreEvent) : Prop :=
  ∃ mid p context, e.Acts sha256 s.db mid p (.revokeApiKey key.id) context ∧ adminScope ∈ p.scopes ∧
    (isSuperAdmin p = true ∨ p.orgId = some key.orgId)

/-- In this step a super admin creates the organization. -/
def CreatesOrg (sha256 : Text → Text) (org : Organization) (s : AdminState) (e : StoreEvent) : Prop :=
  ∃ mid p name context, e.Acts sha256 s.db mid p (.createOrganization name) context ∧
    planOrganization p context name = .ok org ∧ adminScope ∈ p.scopes ∧ isSuperAdmin p = true

/-- The key is there, but for its times, and its revocation is as it should be. -/
def HasKey (P : Option DateTime → Prop) (key : ApiKey) (db : Database) : Prop :=
  ∃ key' ∈ db.keys.rows, SameKey key' key ∧ P key'.revokedAt

variable {P : Option DateTime → Prop}

theorem Touched.hasKey (h : Touched db db') (hkey : HasKey P key db') : HasKey P key db := by
  cases h with
  | unused => exact hkey
  | used keyId now =>
    obtain ⟨key', hkey', hsame, hrevoked⟩ := hkey
    obtain ⟨key'', hkey'', rfl⟩ := List.mem_map.1 hkey'
    refine ⟨key'', hkey'', ?_⟩
    by_cases hid : decide (key''.id = keyId) = true
    · rw [if_pos hid] at hsame hrevoked
      exact ⟨⟨hsame.id, hsame.keyHash, hsame.orgId, hsame.scopes⟩, hrevoked⟩
    · rw [if_neg hid] at hsame hrevoked
      exact ⟨hsame, hrevoked⟩

theorem planKey_admin {body : ApiKeyCreateBody}
    (h : planKey sha256 p context body db = .ok (scopes, key)) :
    adminScope ∈ p.scopes ∧ key.revokedAt = none ∧
      (isSuperAdmin p = true ∨ p.orgId = some key.orgId ∧ superAdminScope ∉ parseScopes key.scopes) := by
  obtain ⟨hadmin, request, orgId, _, hgranted, _, rfl⟩ := planKey_row h
  obtain ⟨hne, hplain, hwho⟩ := grantedScopes_spec hgranted
  refine ⟨hadmin, rfl, ?_⟩
  cases hsuper : isSuperAdmin p with
  | true => exact .inl rfl
  | false =>
    obtain ⟨horg, hscope⟩ := hwho hsuper
    refine .inr ⟨horg, ?_⟩
    show superAdminScope ∉ parseScopes (joinScopes scopes)
    rw [parseScopes_joinScopes hne hplain, List.mem_toFinset]
    exact hscope

theorem key_origin (h : StoreEffect sha256 e s.db db') (hkey : HasKey P key db') :
    HasKey P key s.db ∨ (P none ∧ CreatesKey sha256 key s e) ∨
      (HasKey (fun _ => True) key s.db ∧ RevokesKey sha256 key s e) := by
  cases h with
  | kept mid hmid _ hkeys =>
    rw [HasKey, hkeys] at hkey
    exact .inl (hmid.hasKey hkey)
  | served mid hmid p call context hacts hserve =>
  cases hserve with
  | kept _ hkeys =>
    rw [HasKey, hkeys] at hkey
    exact .inl (hmid.hasKey hkey)
  | organization name _ org _ _ hkeys =>
    rw [HasKey, hkeys] at hkey
    exact .inl (hmid.hasKey hkey)
  | added body hcall scopes new hplan _ hkeys =>
    subst hcall
    obtain ⟨key', hkey', hsame, hrevoked⟩ := hkey
    rw [(UniqueTable.rows_insert? hkeys).1, List.mem_append, List.mem_singleton] at hkey'
    rcases hkey' with hold | rfl
    · exact .inl (hmid.hasKey ⟨key', hold, hsame, hrevoked⟩)
    · obtain ⟨hadmin, hnew, hwho⟩ := planKey_admin hplan
      rw [← hsame.orgId, ← hsame.scopes] at hwho
      rw [hnew] at hrevoked
      exact .inr (.inl ⟨hrevoked, mid, p, body, context, scopes, key', hacts, hplan, hsame, hadmin, hwho⟩)
  | revoked keyId hcall found hfound hdb =>
    subst hcall hdb
    obtain ⟨key', hkey', hsame, hrevoked⟩ := hkey
    obtain ⟨key'', hkey'', rfl⟩ := List.mem_map.1 hkey'
    by_cases hid : decide (key''.id = keyId) = true
    · rw [if_pos hid] at hsame
      -- the row that changes is the one that the caller may revoke
      obtain ⟨hmem, hfoundId, hwho⟩ := keyToRevoke_spec hfound
      have heq : found = key'' := by
        apply UniqueTable.eq_of_column List.mem_cons_self hmem hkey''
        rw [hfoundId]
        exact (of_decide_eq_true hid).symm
      have horg : found.orgId = key.orgId := by
        rw [heq]
        exact hsame.orgId.symm
      have hkeyId : keyId = key.id := (of_decide_eq_true hid).symm.trans hsame.id.symm
      rw [hkeyId] at hacts
      have hbefore : HasKey (fun _ => True) key mid :=
        ⟨key'', hkey'', ⟨hsame.id, hsame.keyHash, hsame.orgId, hsame.scopes⟩, trivial⟩
      refine .inr (.inr ⟨hmid.hasKey hbefore, mid, p, context, hacts, keyToRevoke_admin hfound, ?_⟩)
      cases hsuper : isSuperAdmin p with
      | true => exact .inl rfl
      | false => exact .inr ((hwho hsuper).trans (congrArg some horg))
    · rw [if_neg hid] at hsame hrevoked
      exact .inl (hmid.hasKey ⟨key'', hkey'', hsame, hrevoked⟩)

theorem key_created (h : StoreEffect sha256 e s.db db') (hkey : HasKey (fun _ => True) key db') :
    HasKey (fun _ => True) key s.db ∨ CreatesKey sha256 key s e := by
  rcases key_origin h hkey with hbefore | ⟨_, hcreates⟩ | ⟨hbefore, _⟩
  · exact .inl hbefore
  · exact .inr hcreates
  · exact .inl hbefore

theorem key_revoked (h : StoreEffect sha256 e s.db db') (hkey : HasKey (· ≠ none) key db') :
    HasKey (· ≠ none) key s.db ∨ RevokesKey sha256 key s e := by
  rcases key_origin h hkey with hbefore | ⟨hnone, _⟩ | ⟨_, hrevokes⟩
  · exact .inl hbefore
  · exact absurd rfl hnone
  · exact .inr hrevokes

theorem org_origin {org : Organization} (h : StoreEffect sha256 e s.db db')
    (horg : org ∈ db'.orgs.rows) : org ∈ s.db.orgs.rows ∨ CreatesOrg sha256 org s e := by
  cases h with
  | kept mid hmid horgs _ =>
    rw [horgs, hmid.orgs_eq] at horg
    exact .inl horg
  | served mid hmid p call context hacts hserve =>
  cases hserve with
  | kept horgs _ =>
    rw [horgs, hmid.orgs_eq] at horg
    exact .inl horg
  | organization name hcall new hplan horgs _ =>
    subst hcall
    rw [(UniqueTable.rows_insert? horgs).1, hmid.orgs_eq, List.mem_append, List.mem_singleton] at horg
    rcases horg with hold | rfl
    · exact .inl hold
    · obtain ⟨hadmin, hsuper, _⟩ := planOrganization_spec hplan
      exact .inr ⟨mid, p, name, context, hacts, hplan, hadmin, hsuper⟩
  | added body _ scopes key _ horgs _ =>
    rw [horgs, hmid.orgs_eq] at horg
    exact .inl horg
  | revoked keyId _ key _ hdb =>
    rw [hdb, Database.revoke, hmid.orgs_eq] at horg
    exact .inl horg

/-- Nothing is lost from one database to the other, and no revocation undone. -/
structure Database.Keeps (db db' : Database) : Prop where
  orgs : ∀ org ∈ db.orgs.rows, org ∈ db'.orgs.rows
  keys : ∀ key ∈ db.keys.rows, ∃ key' ∈ db'.keys.rows, SameKey key key' ∧
    (key.revokedAt ≠ none → key'.revokedAt ≠ none)

theorem Database.Keeps.of_eq (horgs : db'.orgs = db.orgs) (hkeys : db'.keys = db.keys) : db.Keeps db' where
  orgs := by
    rw [horgs]
    exact fun _ => id
  keys := by
    rw [hkeys]
    exact fun key hkey => ⟨key, hkey, .refl key, id⟩

theorem Database.Keeps.trans (h : db.Keeps mid) (h' : mid.Keeps db') : db.Keeps db' where
  orgs org horg := h'.orgs org (h.orgs org horg)
  keys key hkey := by
    obtain ⟨key', hkey', hsame, hkept⟩ := h.keys key hkey
    obtain ⟨last, hlast, hsame', hkept'⟩ := h'.keys key' hkey'
    exact ⟨last, hlast, hsame.trans hsame', fun h => hkept' (hkept h)⟩

theorem Database.Keeps.touched (h : Touched db db') : db.Keeps db' where
  orgs := by
    rw [h.orgs_eq]
    exact fun _ => id
  keys key hkey := by
    obtain ⟨key', hkey', hsame, hrevoked⟩ := h.keeps hkey
    rw [← hrevoked]
    exact ⟨key', hkey', hsame, id⟩

theorem Database.Keeps.served {call : AdminCall} (h : ServeEffect sha256 p context call db db') :
    db.Keeps db' := by
  cases h with
  | kept horgs hkeys => exact .of_eq horgs hkeys
  | organization name _ org _ horgs hkeys =>
    constructor
    · rw [(UniqueTable.rows_insert? horgs).1]
      exact fun _ => List.mem_append_left _
    · rw [hkeys]
      exact fun key hkey => ⟨key, hkey, .refl key, id⟩
  | added body _ scopes new _ horgs hkeys =>
    constructor
    · rw [horgs]
      exact fun _ => id
    · rw [(UniqueTable.rows_insert? hkeys).1]
      exact fun key hkey => ⟨key, List.mem_append_left _ hkey, .refl key, id⟩
  | revoked keyId _ found _ hdb =>
    subst hdb
    constructor
    · exact fun _ => id
    · intro key hkey
      obtain ⟨last, hlast, hsame, hrevoked⟩ := revoke_key keyId context.now hkey
      exact ⟨last, hlast, hsame, fun h => hrevoked.2 (.inl h)⟩

theorem StoreEffect.keeps (h : StoreEffect sha256 e db db') : db.Keeps db' := by
  cases h with
  | kept mid hmid horgs hkeys => exact (Database.Keeps.touched hmid).trans (.of_eq horgs hkeys)
  | served mid hmid p call context _ hserve => exact (Database.Keeps.touched hmid).trans (.served hserve)

theorem run_keeps (hrun : run (AdminState.step collation sha256 auditLog) s events = some u) :
    s.db.Keeps u.db := by
  apply run_invariant (I := fun t : AdminState => s.db.Keeps t.db) _ (.of_eq rfl rfl) hrun
  intro t e t' hkept ht
  obtain rfl := Option.some.inj ht
  exact hkept.trans (after_effect collation sha256 auditLog t e).keeps

theorem run_origin {C : AdminState → StoreEvent → Prop} {Q : Database → Prop}
    (horigin : ∀ s e db', StoreEffect sha256 e s.db db' → Q db' → Q s.db ∨ C s e)
    (hrun : run (AdminState.step collation sha256 auditLog) s events = some u) (hu : Q u.db) :
    Q s.db ∨ Sometime (AdminState.step collation sha256 auditLog) C s events := by
  apply sometime_of_run (P := fun s => Q s.db) (I := fun _ => True) (fun _ _ _ _ _ => trivial) _
    trivial hrun hu
  intro s e t _ ht hQ
  obtain rfl := Option.some.inj ht
  exact horigin s e _ (after_effect collation sha256 auditLog s e) hQ

/-- In whatever order the requests come, no organization and no key is lost and no revocation is undone.
What is new goes back to the call that created it, and a revocation to the call that revoked the key,
each with the authority for it. -/
theorem store_changes_authorized
    (hrun : run (AdminState.step collation sha256 auditLog) s events = some u) :
    ((∀ org ∈ s.db.orgs.rows, org ∈ u.db.orgs.rows) ∧
      ∀ key ∈ s.db.keys.rows, ∃ key' ∈ u.db.keys.rows, SameKey key key' ∧
        (key.revokedAt ≠ none → key'.revokedAt ≠ none)) ∧
    (∀ key ∈ u.db.keys.rows,
      ((∃ key' ∈ s.db.keys.rows, SameKey key' key) ∨
        Sometime (AdminState.step collation sha256 auditLog) (CreatesKey sha256 key) s events) ∧
      (key.revokedAt ≠ none →
        (∃ key' ∈ s.db.keys.rows, SameKey key' key ∧ key'.revokedAt ≠ none) ∨
          Sometime (AdminState.step collation sha256 auditLog) (RevokesKey sha256 key) s events)) ∧
    ∀ org ∈ u.db.orgs.rows, org ∈ s.db.orgs.rows ∨
      Sometime (AdminState.step collation sha256 auditLog) (CreatesOrg sha256 org) s events := by
  have hkept := run_keeps hrun
  refine ⟨⟨hkept.orgs, hkept.keys⟩, fun key hkey => ⟨?_, fun hrevoked => ?_⟩, fun org horg => ?_⟩
  · apply (run_origin (fun _ _ _ => key_created) hrun ⟨key, hkey, .refl key, trivial⟩).imp_left
    intro ⟨key', hkey', hsame, _⟩
    exact ⟨key', hkey', hsame⟩
  · exact run_origin (fun _ _ _ => key_revoked) hrun ⟨key, hkey, .refl key, hrevoked⟩
  · exact run_origin (fun _ _ _ => org_origin) hrun horg

theorem store_changes_authorized_created : ∃ key ∈ sampleEnd.db.keys.rows,
    (∃ key' ∈ sampleState.db.keys.rows, SameKey key' key) ∨
      Sometime sampleStep (CreatesKey sampleSha256 key) sampleState sampleEvents := by
  have hrun : run sampleStep sampleState sampleEvents = some sampleEnd := rfl
  exact ⟨_, List.mem_cons_self, ((store_changes_authorized hrun).2.1 _ List.mem_cons_self).1⟩

end AiServing
