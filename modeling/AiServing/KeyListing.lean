import AiServing.StoreInvariants
import AiServing.UsageTotals

namespace AiServing
open Transitions
set_option autoImplicit true

/-- A list call of `p` is about the key. -/
def Asks (p : ApiKeyPrincipal) (orgId : Option Text) (key : ApiKey) : Prop :=
  if isSuperAdmin p then ∀ o ∈ orgId, key.orgId = o else p.orgId = some key.orgId

/-- What an item says about its key. -/
structure Describes (key : ApiKey) (item : ApiKeyListItem) : Prop where
  id : item.id = key.id
  orgId : item.orgId = key.orgId
  name : item.name = key.name
  keyPrefix : item.keyPrefix = key.keyPrefix
  scopes : item.scopes = splitScopes key.scopes
  created : item.createdAt.instant = key.createdAt.instant
  revoked : item.revokedAt = none ↔ key.revokedAt = none

variable {p : ApiKeyPrincipal} {context : CallContext} {db : Database} {key : ApiKey}
variable {items : List ApiKeyListItem} {sha256 : Text → Text}

theorem orRaise_ok {x : Option α} (h : orRaise x = .ok a) : x = some a := by
  cases x with
  | none => cases h
  | some b =>
    cases h
    rfl

theorem keyItem_describes (h : keyItem key = .ok item) : Describes key item := by
  obtain ⟨createdAt, hcreated, h⟩ := bind_eq_ok.1 h
  obtain ⟨lastUsedAt, _, h⟩ := bind_eq_ok.1 h
  obtain ⟨revokedAt, hrevoked, h⟩ := bind_eq_ok.1 h
  cases h
  have hrevoked' := orRaise_ok hrevoked
  refine ⟨rfl, rfl, rfl, rfl, rfl, asUtc_instant (orRaise_ok hcreated), ?_⟩
  dsimp only
  cases hkey : key.revokedAt with
  | none =>
    rw [hkey] at hrevoked'
    cases hrevoked'
    exact iff_of_true rfl rfl
  | some t =>
    rw [hkey] at hrevoked'
    obtain ⟨t', _, rfl⟩ := Option.map_eq_some_iff.1 hrevoked'
    exact iff_of_false (Option.some_ne_none t') (Option.some_ne_none t)

theorem listApiKeys_rows (h : listApiKeys p context orgId includeRevoked db = .ok items) :
    ∃ rows, List.Forall₂ Describes rows items ∧ (rows.map ApiKey.id).Nodup ∧
      (rows.Pairwise fun a b => b.createdAt.instant ≤ a.createdAt.instant) ∧
      ∀ key, key ∈ rows ↔ key ∈ db.keys.rows ∧ Asks p orgId key ∧
        (includeRevoked = true ∨ key.revokedAt = none) := by
  obtain ⟨_, _, h⟩ := bind_eq_ok.1 h
  obtain ⟨_, _, h⟩ := bind_eq_ok.1 h
  have hscope : ∃ effective : Option Text,
      (if isSuperAdmin p then .ok orgId else (principalOrgId p).map some) = Except.ok effective ∧
      (context.check .read >>= fun _ => (newestFirst ApiKey.createdAt <| db.keys.rows.filter fun key =>
        effective.all (fun orgId => key.orgId = orgId) &&
          (includeRevoked || key.revokedAt.isNone)).mapM keyItem) = .ok items := by
    dsimp only at h
    split at h
    · next hsuper => exact ⟨orgId, if_pos hsuper, h⟩
    · next hnot =>
      obtain ⟨effective, heffective, h⟩ := bind_eq_ok.1 h
      exact ⟨effective, (if_neg hnot).trans heffective, h⟩
  obtain ⟨effective, heffective, h⟩ := hscope
  obtain ⟨_, _, h⟩ := bind_eq_ok.1 h
  have hasks : ∀ key : ApiKey,
      effective.all (fun orgId => key.orgId = orgId) = true ↔ Asks p orgId key := by
    intro key
    rw [Asks]
    split at heffective
    · next hsuper =>
      cases heffective
      rw [if_pos hsuper, Option.all_eq_true]
      simp only [decide_eq_true_eq, Option.mem_def]
    · next hnot =>
      rw [if_neg hnot]
      cases horg : principalOrgId p with
      | error e =>
        rw [horg] at heffective
        cases heffective
      | ok own =>
        rw [horg] at heffective
        cases heffective
        rw [principalOrgId_eq_ok.1 horg, Option.all_some, decide_eq_true_eq, Option.some.injEq,
          eq_comm]
  refine ⟨_, (mapM_eq_ok.1 h).imp fun _ _ => keyItem_describes, ?_,
    SameTies.pairwise_mergeSort (fun key : ApiKey => key.createdAt.instant) _, fun key => ?_⟩
  · apply ((List.mergeSort_perm _ _).map ApiKey.id).nodup_iff.2
    exact (db.keys.unique ApiKey.id List.mem_cons_self).sublist (List.filter_sublist.map ApiKey.id)
  · rw [newestFirst, List.mem_mergeSort, List.mem_filter, Bool.and_eq_true, Bool.or_eq_true,
      Option.isNone_iff_eq_none, hasks]

theorem describes_map (f : ApiKey → β) (g : ApiKeyListItem → β)
    (hfg : ∀ key item, Describes key item → g item = f key) {rows : List ApiKey}
    (h : List.Forall₂ Describes rows items) : items.map g = rows.map f := by
  induction h with
  | nil => rfl
  | cons hhead _ ih => rw [List.map_cons, List.map_cons, ih, hfg _ _ hhead]

theorem exists_described {rows : List ApiKey} (h : List.Forall₂ Describes rows items)
    (hitem : item ∈ items) : ∃ key ∈ rows, Describes key item := by
  induction h with
  | nil => cases hitem
  | cons hhead _ ih =>
    rcases List.mem_cons.1 hitem with rfl | hmem
    · exact ⟨_, List.mem_cons_self, hhead⟩
    · obtain ⟨key, hkey, hdescribes⟩ := ih hmem
      exact ⟨key, List.mem_cons_of_mem _ hkey, hdescribes⟩

theorem KeptKey.scopes_agree {orgs : Organizations} (h : KeptKey sha256 orgs key) :
    (splitScopes key.scopes).toFinset = parseScopes key.scopes ∧ (splitScopes key.scopes).Nodup := by
  obtain ⟨scopes, hne, hplain, hnodup, hcolumn⟩ := h.scopes
  rw [hcolumn, parseScopes_joinScopes hne hplain, splitScopes, commaItems_joinScopes hne hplain]
  exact ⟨rfl, hnodup⟩

theorem resolve_isSome {r : ApiKeyResolver} (hkey : key ∈ db.keys.rows)
    (htoken : key.keyHash = sha256 token) (henv : sha256 token ∉ r.keyHashes)
    (hmaker : context.sessionmaker = true) (hfault : context.fault = none)
    (hcan : r.CanDebounce key context.now) :
    ((r.resolve sha256 context token db).2.isSome = true ↔ key.revokedAt = none) ∧
      ∀ q, (r.resolve sha256 context token db).2 = some q → q = key.principal := by
  by_cases hlive : key.revokedAt = none
  · rw [(resolve_live hkey htoken hlive hmaker hfault).1 hcan]
    exact ⟨iff_of_true rfl hlive, fun q hq => (Option.some.inj hq).symm⟩
  · rw [resolve_revoked hkey htoken hlive, envValidate_eq_none henv]
    exact ⟨iff_of_false Bool.false_ne_true hlive, fun q hq => by cases hq⟩

/-- However the store came about, a list of the keys that are not revoked shows each of them once, the
newest first, and shows exactly the keys whose tokens are recognised, with the organization and the
scopes that their bearers get. -/
theorem listing_matches_tokens {collation : LinearOrder Text} {auditLog : Text → Option AuditLog}
    {s u : AdminState} {events : List StoreEvent} (hs : WellKept sha256 s.db)
    (hrun : run (AdminState.step collation sha256 auditLog) s events = some u)
    (hlist : listApiKeys p context orgId false u.db = .ok items) :
    (items.map ApiKeyListItem.id).Nodup ∧
    (items.Pairwise fun a b => b.createdAt.instant ≤ a.createdAt.instant) ∧
    ∀ key ∈ u.db.keys.rows, ∀ (r : ApiKeyResolver) (later : CallContext) (token : Text),
      key.keyHash = sha256 token → sha256 token ∉ r.keyHashes → later.sessionmaker = true →
      later.fault = none → r.CanDebounce key later.now →
      ((∃ item ∈ items, item.id = key.id) ↔
        Asks p orgId key ∧ (r.resolve sha256 later token u.db).2.isSome = true) ∧
      ∀ item ∈ items, item.id = key.id → item.scopes.Nodup ∧
        (r.resolve sha256 later token u.db).2 =
          some ⟨sha256 token, some item.id, some item.orgId, item.scopes.toFinset⟩ := by
  obtain ⟨rows, hrows, hnodup, hsorted, hmem⟩ := listApiKeys_rows hlist
  have hkept := run_wellKept hs hrun
  refine ⟨?_, ?_, fun key hkey r later token htoken henv hmaker hfault hcan => ?_⟩
  · rw [describes_map ApiKey.id ApiKeyListItem.id (fun _ _ h => h.id) hrows]
    exact hnodup
  · have htimes := describes_map (fun key => key.createdAt.instant)
      (fun item => item.createdAt.instant) (fun _ _ h => h.created) hrows
    have hpairs : (rows.map fun key => key.createdAt.instant).Pairwise fun a b => b ≤ a :=
      List.pairwise_map.2 hsorted
    rw [← htimes] at hpairs
    exact List.pairwise_map.1 hpairs
  · obtain ⟨hsome, hprincipal⟩ := resolve_isSome hkey htoken henv hmaker hfault hcan
    -- an item with the id of the key describes the key
    have hitem : ∀ item ∈ items, item.id = key.id → key ∈ rows ∧ Describes key item := by
      intro item hitem hid
      obtain ⟨key', hkey', hdescribes⟩ := exists_described hrows hitem
      have heq : key' = key := by
        apply UniqueTable.eq_of_column List.mem_cons_self ((hmem key').1 hkey').1 hkey
        exact hdescribes.id.symm.trans hid
      rw [heq] at hkey' hdescribes
      exact ⟨hkey', hdescribes⟩
    constructor
    · rw [hsome]
      constructor
      · rintro ⟨item, hin, hid⟩
        obtain ⟨_, hasks, hlive⟩ := (hmem key).1 (hitem item hin hid).1
        exact ⟨hasks, hlive.resolve_left Bool.false_ne_true⟩
      · rintro ⟨hasks, hlive⟩
        have hin := List.mem_map_of_mem (f := ApiKey.id) ((hmem key).2 ⟨hkey, hasks, .inr hlive⟩)
        rw [← describes_map ApiKey.id ApiKeyListItem.id (fun _ _ h => h.id) hrows] at hin
        exact List.mem_map.1 hin
    · intro item hin hid
      obtain ⟨hrow, hdescribes⟩ := hitem item hin hid
      obtain ⟨_, _, hlive⟩ := (hmem key).1 hrow
      obtain ⟨q, hq⟩ := Option.isSome_iff_exists.1 (hsome.2 (hlive.resolve_left Bool.false_ne_true))
      obtain ⟨hagree, hscopes⟩ := (hkept.keys key hkey).scopes_agree
      rw [hdescribes.id, hdescribes.orgId, hdescribes.scopes]
      refine ⟨hscopes, ?_⟩
      rw [hq, hprincipal q hq, ApiKey.principal, htoken, hagree]

def sampleSuperAdmin : ApiKeyPrincipal := ⟨['p'], none, none, {adminScope, superAdminScope}⟩

theorem listing_matches_tokens_created : ∃ key ∈ sampleEnd.db.keys.rows, ∃ items,
    listApiKeys sampleSuperAdmin sampleCall none false sampleEnd.db = .ok items ∧
      ((∃ item ∈ items, item.id = key.id) ↔ Asks sampleSuperAdmin none key ∧
        ((⟨[], 60⟩ : ApiKeyResolver).resolve sampleSha256 sampleCall sampleCall.mintToken
          sampleEnd.db).2.isSome = true) := by
  have hrun : run sampleStep sampleState sampleEvents = some sampleEnd := rfl
  have hok : (listApiKeys sampleSuperAdmin sampleCall none false sampleEnd.db).toOption.isSome := by
    decide +kernel
  cases hlist : listApiKeys sampleSuperAdmin sampleCall none false sampleEnd.db with
  | error e =>
    rw [hlist] at hok
    cases hok
  | ok items =>
    have hall := (listing_matches_tokens sampleDatabase_wellKept hrun hlist).2.2
    refine ⟨_, List.mem_cons_self, items, rfl, (hall _ List.mem_cons_self ⟨[], 60⟩ sampleCall
      sampleCall.mintToken rfl List.not_mem_nil rfl rfl ?_).1⟩
    exact .inr (.inr (by decide))

end AiServing
