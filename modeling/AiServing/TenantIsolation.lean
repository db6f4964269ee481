import AiServing.AdminReports
import AiServing.AuditReplay
import AiServing.KeyCalls
import AiServing.StableOrder
import Mathlib.Data.Char
import Mathlib.Data.List.Lex

namespace AiServing
set_option autoImplicit true

/-- The committed rows, and the files of the audit fallback. -/
structure AdminState where
  db : Database
  live : Option ByteArray
  snapshot : Option ByteArray
  quarantine : Text

inductive AdminCall where
  | getUsage (since until' : Option DateTime) (groupBy : GroupBy)
  | listAuditLogs (query : AuditQuery)
  | createOrganization (name : Text)
  | createApiKey (body : ApiKeyCreateBody)
  | revokeApiKey (keyId : Text)
  | listApiKeys (orgId : Option Text) (includeRevoked : Bool)
  | replayAuditFallback (faults : ReplayFaults)

inductive AdminAnswer where
  | usage (answer : Except AdminError UsageResponse)
  | auditLogs (answer : Except AdminError AuditResponse)
  | organization (answer : Except AdminError OrganizationResponse)
  | created (answer : Except AdminError ApiKeyCreateResponse)
  | revoked (answer : Except AdminError ApiKeyRevokeResponse)
  | keys (answer : Except AdminError (List ApiKeyListItem))
  | replayed (answer : Except AdminError ReplayEnd)

def AdminState.withDb (s : AdminState) (answer : Database × α) (f : α → AdminAnswer) :
    AdminState × AdminAnswer :=
  ({ s with db := answer.1 }, f answer.2)

/-- `replay_audit_fallback` behind its dependencies, on the rows of the database. -/
def AdminState.replay (auditLog : Text → Option AuditLog) (p : ApiKeyPrincipal)
    (context : CallContext) (faults : ReplayFaults) (s : AdminState) : AdminState × AdminAnswer :=
  match requireAdminPrincipal p with
  | .error e => (s, .replayed (.error e))
  | .ok _ =>
    let store : AuditStore AuditLog := ⟨s.live, s.snapshot, s.quarantine, s.db.auditLogs⟩
    match replayAuditFallback auditLog (isSuperAdmin p) context.sessionmaker faults store with
    | (store, ending) =>
      (⟨{ s.db with auditLogs := store.rows }, store.live, store.snapshot, store.quarantine⟩,
        .replayed (.ok ending))

section Serve

-- The collation of the database, SHA-256 of a token, and the row that a fallback line becomes.
variable (collation : LinearOrder Text) (sha256 : Text → Text) (auditLog : Text → Option AuditLog)

def AdminCall.serve (call : AdminCall) (p : ApiKeyPrincipal) (context : CallContext)
    (s : AdminState) : AdminState × AdminAnswer :=
  match call with
  | .getUsage since until' groupBy =>
    (s, .usage (AiServing.getUsage collation p context since until' groupBy s.db))
  | .listAuditLogs query => (s, .auditLogs (AiServing.listAuditLogs p context query s.db))
  | .createOrganization name =>
    s.withDb (AiServing.createOrganization p context name s.db) .organization
  | .createApiKey body => s.withDb (AiServing.createApiKey sha256 p context body s.db) .created
  | .revokeApiKey keyId => s.withDb (AiServing.revokeApiKey p context keyId s.db) .revoked
  | .listApiKeys orgId includeRevoked =>
    (s, .keys (AiServing.listApiKeys p context orgId includeRevoked s.db))
  | .replayAuditFallback faults => s.replay auditLog p context faults

end Serve

def Database.keysOf (db : Database) (orgId : Text) : List ApiKey :=
  db.keys.rows.filter fun key => key.orgId = orgId

def Database.auditLogsOf (db : Database) (orgId : Text) : List AuditLog :=
  db.auditLogs.filter fun row => row.orgId = some orgId

/-- The two databases have the same rows of an organization, and those that a listing does not tell
apart by their times in the same order. -/
structure AgreeOn (orgId : Text) (db db' : Database) : Prop where
  org : ∀ org : Organization, org.id = orgId → (org ∈ db.orgs.rows ↔ org ∈ db'.orgs.rows)
  keys : SameTies (fun key => key.createdAt.instant) (db.keysOf orgId) (db'.keysOf orgId)
  auditLogs : SameTies (fun row => row.ts.instant) (db.auditLogsOf orgId) (db'.auditLogsOf orgId)

/-- Every row but the keys of one organization is as it was. -/
structure KeepsOthers (orgId : Text) (db db' : Database) : Prop where
  orgs : db'.orgs = db.orgs
  keys : (db'.keys.rows.filter fun key => key.orgId ≠ orgId) =
    db.keys.rows.filter fun key => key.orgId ≠ orgId
  auditLogs : db'.auditLogs = db.auditLogs

/-- The fresh id and the fresh token of the call are new to the database. -/
def CallContext.Fresh (sha256 : Text → Text) (context : CallContext) (db : Database) : Prop :=
  ∀ key ∈ db.keys.rows, key.id ≠ context.freshId ∧ key.keyHash ≠ sha256 context.mintToken

/-- A call answers alike in both databases, leaves them alike for one organization, and changes
nothing of the others. -/
structure Confined (orgId : Text) (db db' : Database) (after after' : Database × α) : Prop where
  answer : after.2 = after'.2
  agree : AgreeOn orgId after.1 after'.1
  others : KeepsOthers orgId db after.1
  others' : KeepsOthers orgId db' after'.1

variable {p : ApiKeyPrincipal} {orgId : Text} {db db' : Database}

theorem KeepsOthers.refl (orgId : Text) (db : Database) : KeepsOthers orgId db db := ⟨rfl, rfl, rfl⟩

theorem AgreeOn.confined (h : AgreeOn orgId db db') (hanswer : answer = answer') :
    Confined orgId db db' (db, answer) (db', answer') :=
  ⟨hanswer, h, .refl orgId db, .refl orgId db'⟩

theorem AgreeOn.get_org (h : AgreeOn orgId db db') :
    db.orgs.get? Organization.id orgId = db'.orgs.get? Organization.id orgId := by
  apply Option.ext
  intro org
  rw [UniqueTable.get?_eq_some List.mem_cons_self, UniqueTable.get?_eq_some List.mem_cons_self]
  exact and_congr_left (h.org org)

theorem AgreeOn.mem_keys (h : AgreeOn orgId db db') (hkey : key.orgId = orgId) :
    key ∈ db.keys.rows ↔ key ∈ db'.keys.rows := by
  have hmem := h.keys.perm.mem_iff (a := key)
  rw [Database.keysOf, Database.keysOf, List.mem_filter, List.mem_filter, decide_eq_true hkey]
    at hmem
  simpa only [and_true] using hmem

/-- A lookup of a key that takes those of other organizations for missing ends alike. -/
theorem AgreeOn.elim_key (h : AgreeOn orgId db db') (keyId : Text) (missing : β)
    (found : ApiKey → β) :
    (db.keys.get? ApiKey.id keyId).elim missing
        (fun key => if key.orgId ≠ orgId then missing else found key) =
      (db'.keys.get? ApiKey.id keyId).elim missing
        fun key => if key.orgId ≠ orgId then missing else found key := by
  have hfilter (db : Database) : (db.keys.get? ApiKey.id keyId).elim missing
      (fun key => if key.orgId ≠ orgId then missing else found key) =
        ((db.keys.get? ApiKey.id keyId).filter fun key => key.orgId = orgId).elim missing found := by
    cases db.keys.get? ApiKey.id keyId with
    | none => rfl
    | some key =>
      rw [Option.filter_some, Option.elim_some]
      by_cases hkey : key.orgId = orgId
      · rw [if_neg (not_not.2 hkey), if_pos (decide_eq_true hkey), Option.elim_some]
      · rw [if_pos hkey, if_neg (by rwa [decide_eq_true_eq]), Option.elim_none]
  rw [hfilter, hfilter]
  congr 1
  apply Option.ext
  intro key
  rw [Option.filter_eq_some_iff, Option.filter_eq_some_iff,
    UniqueTable.get?_eq_some List.mem_cons_self, UniqueTable.get?_eq_some List.mem_cons_self,
    decide_eq_true_eq]
  exact and_congr_left fun horg => and_congr_left fun _ => h.mem_keys horg

theorem usageGroups_perm (collation : LinearOrder Text) (groupBy : GroupBy)
    {rows rows' : List AuditLog} (h : rows.Perm rows') :
    usageGroups collation groupBy rows = usageGroups collation groupBy rows' := by
  have hgroup : usageGroup groupBy rows = usageGroup groupBy rows' := by
    funext groupKey
    have hrows := h.filter fun row => usageGroupKey groupBy row = groupKey
    rw [usageGroup, usageGroup]
    simp only [sumColumn, (hrows.map AuditLog.costUsd).sum_eq, (hrows.map AuditLog.totalTokens).sum_eq,
      (hrows.map AuditLog.promptTokens).sum_eq, (hrows.map AuditLog.completionTokens).sum_eq,
      hrows.length_eq, hrows.countP_eq]
  rw [usageGroups, usageGroups, hgroup, List.toFinset_eq_of_perm _ _ (h.map (usageGroupKey groupBy))]

theorem AgreeOn.selected (h : AgreeOn orgId db db') (since until' : Option DateTime)
    (q : AuditLog → Bool) : SameTies (fun row => row.ts.instant)
      (db.auditLogs.filter fun row => row.selected (some orgId) since until' && q row)
      (db'.auditLogs.filter fun row => row.selected (some orgId) since until' && q row) := by
  have hsplit (rows : List AuditLog) :
      (rows.filter fun row => row.selected (some orgId) since until' && q row) =
        (rows.filter fun row => row.orgId = some orgId).filter fun row =>
          row.selected none since until' && q row := by
    rw [List.filter_filter]
    apply List.filter_congr
    intro row _
    rw [AuditLog.selected, AuditLog.selected, Option.all_some, Option.all_none, Bool.true_and,
      Bool.and_comm _ (decide _), Bool.and_assoc, Bool.and_assoc, Bool.and_assoc]
  rw [hsplit, hsplit]
  exact h.auditLogs.filter _

theorem checkAuditKey_agree (h : AgreeOn orgId db db') (apiKeyId : Option Text) :
    checkAuditKey (some orgId) apiKeyId db = checkAuditKey (some orgId) apiKeyId db' := by
  cases apiKeyId with
  | none => rfl
  | some keyId =>
    have helim (db : Database) : checkAuditKey (some orgId) (some keyId) db =
        (db.keys.get? ApiKey.id keyId).elim (.error (.http 404 "API key not found")) fun key =>
          if key.orgId ≠ orgId then .error (.http 404 "API key not found") else .ok () := by
      rw [checkAuditKey]
      cases db.keys.get? ApiKey.id keyId with
      | none => rfl
      | some key => rfl
    rw [helim, helim, h.elim_key keyId]

theorem auditPage_sameTies {rows rows' : List AuditLog}
    (h : SameTies (fun row => row.ts.instant) rows rows') (limit offset : Nat) :
    auditPage limit offset rows = auditPage limit offset rows' := by
  have hsort : newestFirst AuditLog.ts rows = newestFirst AuditLog.ts rows' := h.mergeSort_eq
  rw [auditPage, auditPage, hsort]

theorem filter_revoke (db : Database) (keyId : Text) (now : DateTime) {q : ApiKey → Bool}
    (hq : ∀ key : ApiKey, q { key with revokedAt := some now } = q key) :
    (db.revoke keyId now).keys.rows.filter q = (db.keys.rows.filter q).map fun key =>
      if decide (key.id = keyId) then { key with revokedAt := some now } else key :=
  UniqueTable.filter_update (by simp) hq

theorem AgreeOn.revoke (h : AgreeOn orgId db db') (keyId : Text) (now : DateTime) :
    AgreeOn orgId (db.revoke keyId now) (db'.revoke keyId now) where
  org := h.org
  keys := by
    rw [Database.keysOf, Database.keysOf, filter_revoke db keyId now fun _ => rfl,
      filter_revoke db' keyId now fun _ => rfl]
    apply h.keys.map
    intro key
    split
    · rfl
    · rfl
  auditLogs := h.auditLogs

theorem KeepsOthers.revoke (now : DateTime)
    (hown : ∀ key ∈ db.keys.rows, key.id = keyId → key.orgId = orgId) :
    KeepsOthers orgId db (db.revoke keyId now) where
  orgs := rfl
  keys := by
    rw [filter_revoke db keyId now fun _ => rfl]
    have hsame : ∀ key ∈ db.keys.rows.filter fun key => key.orgId ≠ orgId,
        (if decide (key.id = keyId) then { key with revokedAt := some now } else key) = id key := by
      intro key hkey
      obtain ⟨hmem, hother⟩ := List.mem_filter.1 hkey
      exact if_neg fun hid =>
        of_decide_eq_true hother (hown key hmem (of_decide_eq_true hid))
    exact (List.map_congr_left hsame).trans (List.map_id _)
  auditLogs := rfl

theorem CallContext.Fresh.insert (h : context.Fresh sha256 db) (body : ApiKeyCreateRequest)
    (orgId : Text) (scopes : List Text) :
    ∃ keys, db.keys.insert? (newKey sha256 context body orgId scopes) = some keys := by
  cases hinsert : db.keys.insert? (newKey sha256 context body orgId scopes) with
  | some keys => exact ⟨keys, rfl⟩
  | none =>
    obtain ⟨c, hc, hmem⟩ := UniqueTable.insert?_eq_none hinsert
    obtain ⟨key, hkey, hsame⟩ := List.mem_map.1 hmem
    obtain ⟨hid, hhash⟩ := h key hkey
    rcases List.mem_pair.1 hc with rfl | rfl
    · exact absurd hsame hid
    · exact absurd hsame hhash

theorem AgreeOn.insert (h : AgreeOn orgId db db') {t t' : ApiKeys}
    (ht : db.keys.insert? key = some t) (ht' : db'.keys.insert? key = some t') :
    AgreeOn orgId { db with keys := t } { db' with keys := t' } where
  org := h.org
  keys := by
    rw [Database.keysOf, Database.keysOf, (UniqueTable.rows_insert? ht).1,
      (UniqueTable.rows_insert? ht').1, List.filter_append, List.filter_append]
    exact h.keys.append _
  auditLogs := h.auditLogs

theorem KeepsOthers.insert {t : ApiKeys} (ht : db.keys.insert? key = some t)
    (horg : key.orgId = orgId) : KeepsOthers orgId db { db with keys := t } where
  orgs := rfl
  keys := by
    rw [(UniqueTable.rows_insert? ht).1, List.filter_append, List.filter_cons_of_neg _,
      List.filter_nil, List.append_nil]
    rw [decide_eq_true_eq]
    exact not_not.2 horg
  auditLogs := rfl

section Member

-- A principal of the organization that is no super admin.
variable (hp : isSuperAdmin p = false) (horg : p.orgId = some orgId)
include hp

theorem requireSuperAdmin_member :
    requireSuperAdmin p = .error (.http 403 "super_admin scope is required") := by
  rw [requireSuperAdmin, if_neg (Bool.eq_false_iff.1 hp)]

include horg

theorem readScope_member : readScope p = .ok (some orgId) := by
  rw [readScope, if_neg (Bool.eq_false_iff.1 hp), principalOrgId_eq_ok.2 horg]
  rfl

theorem getUsage_agree (h : AgreeOn orgId db db') :
    getUsage collation p context since until' groupBy db =
      getUsage collation p context since until' groupBy db' := by
  rw [getUsage, getUsage, readScope_member hp horg]
  refine bind_congr fun _ => bind_congr fun since => bind_congr fun until' => ?_
  split
  · rfl
  · refine bind_congr fun _ => ?_
    rw [ok_bind, ok_bind]
    refine bind_congr fun _ => ?_
    have hrows := h.selected since until' fun _ => true
    simp only [Bool.and_true] at hrows
    rw [usageGroups_perm collation groupBy hrows.perm]

theorem listAuditLogs_agree (h : AgreeOn orgId db db') :
    listAuditLogs p context query db = listAuditLogs p context query db' := by
  rw [listAuditLogs, listAuditLogs, readScope_member hp horg]
  refine bind_congr fun _ => ?_
  split
  · rfl
  · refine bind_congr fun _ => ?_
    rw [ok_bind, ok_bind, checkAuditKey_agree h]
    refine bind_congr fun since => bind_congr fun until' => bind_congr fun _ => bind_congr fun _ => ?_
    have hrows := h.selected since until' fun row =>
      query.model.all (fun model => row.model = some model) &&
        query.apiKeyId.all fun apiKeyId => row.apiKeyId = some apiKeyId
    simp only [← Bool.and_assoc] at hrows
    exact auditPage_sameTies hrows _ _

theorem listApiKeys_agree (h : AgreeOn orgId db db') :
    listApiKeys p context wanted includeRevoked db =
      listApiKeys p context wanted includeRevoked db' := by
  have hscope : (principalOrgId p).map some = .ok (some orgId) := by
    rw [principalOrgId_eq_ok.2 horg]
    rfl
  have hsort := (h.keys.filter fun key => includeRevoked || key.revokedAt.isNone).mergeSort_eq
  rw [Database.keysOf, Database.keysOf, List.filter_filter, List.filter_filter] at hsort
  rw [listApiKeys, listApiKeys]
  refine bind_congr fun _ => bind_congr fun _ => ?_
  dsimp only
  rw [if_neg (Bool.eq_false_iff.1 hp), if_neg (Bool.eq_false_iff.1 hp), hscope, ok_bind, ok_bind]
  refine bind_congr fun _ => ?_
  simp only [Option.all_some, newestFirst, Bool.and_comm (decide _)]
  rw [hsort]

theorem keyToRevoke_agree (h : AgreeOn orgId db db') (keyId : Text) :
    keyToRevoke p context keyId db = keyToRevoke p context keyId db' := by
  have helim (db : Database) : keyToRevoke p context keyId db = (do
      requireAdminPrincipal p
      requireSessionmaker context
      context.check .read
      (db.keys.get? ApiKey.id keyId).elim (.error (.http 404 "API key not found")) fun key =>
        if key.orgId ≠ orgId then .error (.http 404 "API key not found") else .ok key) := by
    rw [keyToRevoke]
    refine bind_congr fun _ => bind_congr fun _ => bind_congr fun _ => ?_
    cases db.keys.get? ApiKey.id keyId with
    | none => rfl
    | some key =>
      dsimp only
      rw [if_neg (Bool.eq_false_iff.1 hp), principalOrgId_eq_ok.2 horg]
      rfl
  rw [helim, helim]
  refine bind_congr fun _ => bind_congr fun _ => bind_congr fun _ => ?_
  exact h.elim_key keyId _ _

theorem revokeApiKey_confined (h : AgreeOn orgId db db') (context : CallContext) (keyId : Text) :
    Confined orgId db db' (revokeApiKey p context keyId db) (revokeApiKey p context keyId db') := by
  have hown {db : Database} {key : ApiKey} (hkey : keyToRevoke p context keyId db = .ok key) :
      ∀ other ∈ db.keys.rows, other.id = keyId → other.orgId = orgId := by
    obtain ⟨hmem, hid, hmember⟩ := keyToRevoke_spec hkey
    intro other hother hid'
    rw [UniqueTable.eq_of_column List.mem_cons_self hother hmem (hid'.trans hid.symm)]
    exact (Option.some.inj (horg.symm.trans (hmember hp))).symm
  rw [revokeApiKey, revokeApiKey]
  cases hkey : keyToRevoke p context keyId db with
  | error e =>
    rw [← keyToRevoke_agree hp horg h, hkey]
    exact h.confined rfl
  | ok key =>
    have hkey' := hkey
    rw [keyToRevoke_agree hp horg h] at hkey'
    rw [hkey']
    dsimp only
    split
    · exact h.confined rfl
    · exact ⟨rfl, h.revoke keyId context.now, .revoke context.now (hown hkey),
        .revoke context.now (hown hkey')⟩

theorem planKey_agree (h : AgreeOn orgId db db') (body : ApiKeyCreateBody) :
    planKey sha256 p context body db = planKey sha256 p context body db' := by
  rw [planKey, planKey]
  refine bind_congr fun _ => bind_congr fun request => bind_congr fun _ => ?_
  cases hscopes : grantedScopes p request with
  | error e => rfl
  | ok granted =>
    obtain ⟨org, scopes⟩ := granted
    obtain ⟨_, _, hmember⟩ := grantedScopes_spec hscopes
    obtain rfl : orgId = org := Option.some.inj (horg.symm.trans (hmember hp).1)
    rw [ok_bind, ok_bind]
    refine bind_congr fun _ => ?_
    rw [h.get_org]

theorem createApiKey_confined (h : AgreeOn orgId db db') (hfresh : context.Fresh sha256 db)
    (hfresh' : context.Fresh sha256 db') (body : ApiKeyCreateBody) :
    Confined orgId db db' (createApiKey sha256 p context body db)
      (createApiKey sha256 p context body db') := by
  rw [createApiKey, createApiKey, ← planKey_agree hp horg h]
  cases hplan : planKey sha256 p context body db with
  | error e => exact h.confined rfl
  | ok plan =>
    obtain ⟨scopes, key⟩ := plan
    obtain ⟨request, org, hscopes, rfl⟩ := planKey_spec hplan
    obtain ⟨_, _, hmember⟩ := grantedScopes_spec hscopes
    obtain rfl : orgId = org := Option.some.inj (horg.symm.trans (hmember hp).1)
    dsimp only
    split
    · exact h.confined rfl
    · obtain ⟨keys, hkeys⟩ := hfresh.insert request orgId scopes
      obtain ⟨keys', hkeys'⟩ := hfresh'.insert request orgId scopes
      rw [hkeys, hkeys']
      exact ⟨rfl, h.insert hkeys hkeys', .insert hkeys rfl, .insert hkeys' rfl⟩

omit horg in
theorem createOrganization_member (context : CallContext) (name : Text) :
    ∃ e, ∀ db, createOrganization p context name db = (db, .error e) := by
  have hplan : ∃ e, planOrganization p context name = .error e := by
    rw [planOrganization, requireSuperAdmin_member hp]
    cases requireAdminPrincipal p with
    | error e => exact ⟨e, rfl⟩
    | ok _ =>
      cases organizationName name with
      | none => exact ⟨.invalid, rfl⟩
      | some name => exact ⟨_, rfl⟩
  obtain ⟨e, he⟩ := hplan
  refine ⟨e, fun db => ?_⟩
  rw [createOrganization, he]

omit horg in
theorem replay_member (auditLog : Text → Option AuditLog) (context : CallContext)
    (faults : ReplayFaults) :
    ∃ answer, ∀ s : AdminState, s.replay auditLog p context faults = (s, answer) := by
  cases hadmin : requireAdminPrincipal p with
  | error e =>
    refine ⟨.replayed (.error e), fun s => ?_⟩
    rw [AdminState.replay, hadmin]
  | ok _ =>
    refine ⟨.replayed (.ok (.raised (.http 403 "super_admin scope is required"))), fun s => ?_⟩
    rw [AdminState.replay, hadmin, hp]
    rfl

end Member

/-- Whatever a principal without `super_admin` calls, the answer and the rows of its organization
depend on nothing but the rows of its organization, and no other row changes. -/
theorem tenant_isolation (collation : LinearOrder Text) (auditLog : Text → Option AuditLog)
    {s t : AdminState} (hp : isSuperAdmin p = false) (horg : p.orgId = some orgId)
    (hagree : AgreeOn orgId s.db t.db) (hs : context.Fresh sha256 s.db)
    (ht : context.Fresh sha256 t.db) (call : AdminCall) :
    (call.serve collation sha256 auditLog p context s).2 =
        (call.serve collation sha256 auditLog p context t).2 ∧
      AgreeOn orgId (call.serve collation sha256 auditLog p context s).1.db
        (call.serve collation sha256 auditLog p context t).1.db ∧
      KeepsOthers orgId s.db (call.serve collation sha256 auditLog p context s).1.db ∧
      KeepsOthers orgId t.db (call.serve collation sha256 auditLog p context t).1.db := by
  cases call with
  | getUsage since until' groupBy =>
    exact ⟨congrArg AdminAnswer.usage (getUsage_agree hp horg hagree), hagree, .refl _ _, .refl _ _⟩
  | listAuditLogs query =>
    exact ⟨congrArg AdminAnswer.auditLogs (listAuditLogs_agree hp horg hagree), hagree, .refl _ _, .refl _ _⟩
  | createOrganization name =>
    obtain ⟨e, he⟩ := createOrganization_member hp context name
    simp only [AdminCall.serve, AdminState.withDb, he]
    exact ⟨trivial, hagree, .refl _ _, .refl _ _⟩
  | createApiKey body =>
    obtain ⟨hanswer, hagree', hothers, hothers'⟩ := createApiKey_confined hp horg hagree hs ht body
    exact ⟨congrArg AdminAnswer.created hanswer, hagree', hothers, hothers'⟩
  | revokeApiKey keyId =>
    obtain ⟨hanswer, hagree', hothers, hothers'⟩ :=
      revokeApiKey_confined hp horg hagree context keyId
    exact ⟨congrArg AdminAnswer.revoked hanswer, hagree', hothers, hothers'⟩
  | listApiKeys wanted includeRevoked =>
    exact ⟨congrArg AdminAnswer.keys (listApiKeys_agree hp horg hagree), hagree, .refl _ _, .refl _ _⟩
  | replayAuditFallback faults =>
    obtain ⟨answer, hanswer⟩ := replay_member hp auditLog context faults
    simp only [AdminCall.serve, hanswer]
    exact ⟨trivial, hagree, .refl _ _, .refl _ _⟩

theorem tenant_isolation_foreign_key :
    let orgs : Organizations := ⟨[⟨['o'], ['O'], ⟨0, none⟩⟩, ⟨['q'], ['Q'], ⟨0, none⟩⟩], by decide⟩
    let own : ApiKey := ⟨['1'], ['o'], ['s'], ['h'], ['k'], chatScope, ⟨0, none⟩, none, none⟩
    let foreign : ApiKey := ⟨['2'], ['q'], ['s'], ['i'], ['l'], chatScope, ⟨0, none⟩, none, none⟩
    let s : AdminState := ⟨⟨orgs, ⟨[own], by decide⟩, []⟩, none, none, []⟩
    let t : AdminState := ⟨⟨orgs, ⟨[foreign, own], by decide⟩, []⟩, none, none, []⟩
    let p : ApiKeyPrincipal := ⟨['p'], none, some ['o'], {adminScope}⟩
    let context : CallContext :=
      { now := ⟨0, some 0⟩, freshId := ['3'], random := List.replicate 43 'A' }
    ∀ call : AdminCall, (call.serve inferInstance sampleSha256 (fun _ => none) p context s).2 =
      (call.serve inferInstance sampleSha256 (fun _ => none) p context t).2 := by
  intro orgs own foreign s t p context call
  have hagree : AgreeOn ['o'] s.db t.db := ⟨fun _ _ => .rfl, .refl _ _, .refl _ _⟩
  have hs : context.Fresh sampleSha256 s.db := by
    intro key hkey
    obtain rfl := List.mem_singleton.1 hkey
    decide
  have ht : context.Fresh sampleSha256 t.db := by
    intro key hkey
    rcases List.mem_pair.1 hkey with rfl | rfl
    · decide
    · decide
  exact (tenant_isolation inferInstance (fun _ => none) (by decide) rfl hagree hs ht call).1

end AiServing
