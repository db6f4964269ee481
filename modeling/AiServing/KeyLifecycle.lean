import AiServing.KeyCalls
import AiServing.Transitions

namespace AiServing
open Transitions
set_option autoImplicit true

variable {sha256 : Text → Text} {r : ApiKeyResolver} {db db' : Database} {key : ApiKey}
variable {context : CallContext} {token : Text}

/-- What no call changes in a key. -/
structure SameKey (key key' : ApiKey) : Prop where
  id : key'.id = key.id
  keyHash : key'.keyHash = key.keyHash
  orgId : key'.orgId = key.orgId
  scopes : key'.scopes = key.scopes

theorem SameKey.refl (key : ApiKey) : SameKey key key := ⟨rfl, rfl, rfl, rfl⟩

theorem SameKey.trans (h : SameKey key key') (h' : SameKey key' key'') : SameKey key key'' :=
  ⟨h'.id.trans h.id, h'.keyHash.trans h.keyHash, h'.orgId.trans h.orgId, h'.scopes.trans h.scopes⟩

theorem SameKey.principal (h : SameKey key key') : key'.principal = key.principal := by
  rw [ApiKey.principal, ApiKey.principal, h.id, h.keyHash, h.orgId, h.scopes]

theorem Touched.keeps (h : Touched db db') (hkey : key ∈ db.keys.rows) :
    ∃ key' ∈ db'.keys.rows, SameKey key key' ∧ key'.revokedAt = key.revokedAt := by
  cases h with
  | unused => exact ⟨key, hkey, .refl key, rfl⟩
  | used keyId now =>
    refine ⟨_, List.mem_map_of_mem hkey, ?_⟩
    split
    · exact ⟨⟨rfl, rfl, rfl, rfl⟩, rfl⟩
    · exact ⟨.refl key, rfl⟩

theorem revoke_key (keyId : Text) (now : DateTime) (hkey : key ∈ db.keys.rows) :
    ∃ key' ∈ (db.revoke keyId now).keys.rows, SameKey key key' ∧
      (key'.revokedAt ≠ none ↔ key.revokedAt ≠ none ∨ keyId = key.id) := by
  refine ⟨_, List.mem_map_of_mem hkey, ?_⟩
  split
  · next hid =>
    exact ⟨⟨rfl, rfl, rfl, rfl⟩, iff_of_true nofun (.inr (of_decide_eq_true hid).symm)⟩
  · next hid =>
    exact ⟨.refl key, (or_iff_left fun h => hid (decide_eq_true h.symm)).symm⟩

theorem perform_key (sha256 : Text → Text) (r : ApiKeyResolver) (a : KeyAction)
    (hkey : key ∈ db.keys.rows) :
    ∃ key' ∈ (a.perform sha256 r db).1.keys.rows, SameKey key key' ∧
      (key'.revokedAt ≠ none ↔ key.revokedAt ≠ none ∨ a.CommitsRevoke sha256 r key.id db) := by
  have hperform : a.perform sha256 r db = ((a.perform sha256 r db).1, (a.perform sha256 r db).2) :=
    rfl
  cases perform_cases hperform with
  | kept hdb _ hrevoke =>
    obtain ⟨key', hkey', hsame, hrevoked⟩ := hdb.keeps hkey
    rw [← hrevoked]
    exact ⟨key', hkey', hsame, (or_iff_left (hrevoke key.id)).symm⟩
  | revoked mid keyId now hmid _ hrevoke hdb =>
    obtain ⟨key', hkey', hsame, hrevoked⟩ := hmid.keeps hkey
    obtain ⟨last, hlast, hsame', hrevoked'⟩ := revoke_key keyId now hkey'
    rw [hdb, ← hrevoked, hrevoke, ← hsame.id]
    exact ⟨last, hlast, hsame.trans hsame', hrevoked'⟩
  | added caller context body p mid request orgId scopes keys ha hcaller _ hinsert hdb =>
    subst ha
    obtain ⟨key', hkey', hsame, hrevoked⟩ := (authenticate_touched hcaller).keeps hkey
    rw [hdb, ← hrevoked]
    refine ⟨key', ?_, hsame, (or_iff_left id).symm⟩
    rw [(UniqueTable.rows_insert? hinsert).1]
    exact List.mem_append_left _ hkey'

/-- A run keeps a key, and has revoked it exactly if a revoke of it has committed. -/
theorem run_key {trace : List KeyAction} (hkey : key ∈ db.keys.rows)
    (h : run (keyStep sha256 r) db trace = some db') :
    ∃ key' ∈ db'.keys.rows, SameKey key key' ∧ (key'.revokedAt ≠ none ↔ key.revokedAt ≠ none ∨
      Sometime (keyStep sha256 r) (fun db a => a.CommitsRevoke sha256 r key.id db) db trace) := by
  induction trace generalizing db key with
  | nil =>
    obtain rfl := Option.some.inj h
    exact ⟨key, hkey, .refl key, (or_iff_left id).symm⟩
  | cons a trace ih =>
    obtain ⟨mid, hmid, hrest⟩ := run_cons.1 h
    rw [sometime_cons hmid, ← or_assoc]
    obtain rfl := Option.some.inj hmid
    obtain ⟨key', hkey', hsame, hrevoked⟩ := perform_key sha256 r a hkey
    obtain ⟨last, hlast, hsame', hrevoked'⟩ := ih hkey' hrest
    rw [hrevoked, hsame.id] at hrevoked'
    exact ⟨last, hlast, hsame.trans hsame', hrevoked'⟩

/-- The code can tell whether the last use of the key lies an interval back. -/
def ApiKeyResolver.CanDebounce (r : ApiKeyResolver) (key : ApiKey) (now : DateTime) : Prop :=
  r.lastUsedMinIntervalSeconds = 0 ∨ key.lastUsedAt = none ∨
    r.lastUsedMinIntervalSeconds * 1000000 ≤ now.wall

theorem canDebounce_iff (now : DateTime) : r.CanDebounce key now ↔
    shouldUpdateLastUsed r.lastUsedMinIntervalSeconds key.lastUsedAt now ≠ none := by
  rw [ApiKeyResolver.CanDebounce]
  unfold shouldUpdateLastUsed
  split
  · next hzero => exact iff_of_true (.inl hzero) nofun
  · next hpos =>
    rw [or_iff_right hpos]
    split
    · next hnone => exact iff_of_true (.inl hnone) nofun
    · next last hlast =>
      rw [hlast, or_iff_right (Option.some_ne_none last), DateTime.minusSeconds]
      split
      · next hle => exact iff_of_true hle nofun
      · next hlt => exact iff_of_false hlt fun h => h rfl

theorem resolve_revoked (hkey : key ∈ db.keys.rows) (hhash : key.keyHash = sha256 token)
    (hrevoked : key.revokedAt ≠ none) :
    (r.resolve sha256 context token db).2 = envValidate sha256 r.keyHashes token := by
  have hnot : ¬ key.revokedAt.isNone = true := by rwa [Option.isNone_iff_eq_none]
  have hkeys : (resolveKey sha256 r context token db) = (db, none) := by
    by_cases hread : context.fault = some .read
    · rw [resolveKey, if_pos hread]
    · rw [resolveKey_of_mem r hkey hhash hread, if_neg hnot]
  rw [ApiKeyResolver.resolve, hkeys]
  split
  · rfl
  · rfl

theorem resolve_live (hkey : key ∈ db.keys.rows) (hhash : key.keyHash = sha256 token)
    (hlive : key.revokedAt = none) (hmaker : context.sessionmaker = true)
    (hfault : context.fault = none) :
    (r.CanDebounce key context.now → (r.resolve sha256 context token db).2 = some key.principal) ∧
      (¬ r.CanDebounce key context.now →
        (r.resolve sha256 context token db).2 = envValidate sha256 r.keyHashes token) := by
  have hread : context.fault ≠ some .read := by
    rw [hfault]
    nofun
  have hkeys := resolveKey_of_mem r hkey hhash hread
  rw [if_pos (Option.isNone_iff_eq_none.2 hlive), hfault, if_neg nofun, if_neg nofun] at hkeys
  rw [canDebounce_iff, not_not, ApiKeyResolver.resolve, if_pos hmaker, hkeys]
  constructor
  · intro hsome
    cases hshould : shouldUpdateLastUsed r.lastUsedMinIntervalSeconds key.lastUsedAt context.now with
    | none => exact absurd hshould hsome
    | some due =>
      cases due with
      | true => rfl
      | false => rfl
  · intro hnone
    rw [hnone]

theorem envValidate_envKeyHashes {apiKeys : List Text} (hinj : Function.Injective sha256)
    (henv : token ∉ apiKeys) : envValidate sha256 (envKeyHashes sha256 apiKeys) token = none := by
  apply envValidate_eq_none
  intro hmem
  obtain ⟨key, hkey, hsame⟩ := List.mem_map.1 hmem
  rw [hinj hsame] at hkey
  exact henv (List.mem_filter.1 hkey).1

/-- A minted key is recognised as it was announced, at each call that can debounce its uses, until a
revoke of it commits; afterwards its token is never recognised. -/
theorem key_lifecycle {apiKeys : List Text} {mint : KeyAction} {response : ApiKeyCreateResponse}
    {after : List KeyAction} (hinj : Function.Injective sha256)
    (henvKeys : r.keyHashes = envKeyHashes sha256 apiKeys)
    (hmint : mint.perform sha256 r db = (db', .created (.ok response)))
    (henv : response.apiKey ∉ apiKeys) (hafter : run (keyStep sha256 r) db' after = some db'') :
    (¬ Sometime (keyStep sha256 r) (fun db a => a.CommitsRevoke sha256 r response.id db) db' after →
      ∃ key ∈ db''.keys.rows, key.id = response.id ∧
        ∀ context, context.sessionmaker = true → context.fault = none →
          ((r.resolve sha256 context response.apiKey db'').2 =
            some ⟨sha256 response.apiKey, some response.id, some response.orgId,
              response.scopes.toFinset⟩ ↔ r.CanDebounce key context.now)) ∧
      (Sometime (keyStep sha256 r) (fun db a => a.CommitsRevoke sha256 r response.id db) db' after →
        ∀ context, (r.resolve sha256 context response.apiKey db'').2 = none) := by
  obtain ⟨caller, context, body, p, mid, request, rfl, _, hgranted, key, hkey, hannounced⟩ :=
    perform_created hmint
  obtain ⟨last, hlast, hsame, hrevoked⟩ := run_key hkey hafter
  rw [hannounced.id, or_iff_right fun h => h hannounced.live] at hrevoked
  have hhash : last.keyHash = sha256 response.apiKey := hsame.keyHash.trans hannounced.keyHash
  have hnone : envValidate sha256 r.keyHashes response.apiKey = none := by
    rw [henvKeys]
    exact envValidate_envKeyHashes hinj henv
  have hprincipal : last.principal =
      ⟨sha256 response.apiKey, some response.id, some response.orgId, response.scopes.toFinset⟩ := by
    obtain ⟨hne, hplain, _⟩ := grantedScopes_spec hgranted
    rw [hsame.principal, ApiKey.principal, hannounced.id, hannounced.orgId, hannounced.keyHash,
      hannounced.scopes, parseScopes_joinScopes hne hplain]
  constructor
  · intro hbefore
    rw [← hrevoked, not_not] at hbefore
    refine ⟨last, hlast, hsame.id.trans hannounced.id, fun context hmaker hfault => ?_⟩
    obtain ⟨hfound, hraised⟩ := resolve_live (r := r) hlast hhash hbefore hmaker hfault
    rw [hprincipal] at hfound
    refine ⟨fun hsome => ?_, hfound⟩
    by_contra hnot
    rw [hraised hnot, hnone] at hsome
    cases hsome
  · intro hcommitted context
    rw [resolve_revoked hlast hhash (hrevoked.2 hcommitted), hnone]

theorem sampleSha256_injective : Function.Injective sampleSha256 := by
  intro t u h
  rw [sampleSha256, sampleSha256] at h
  split at h
  · next ht =>
    split at h
    · next hu => exact ht.trans hu.symm
    · exact absurd (List.cons.inj h).1 (by decide)
  · split at h
    · exact absurd (List.cons.inj h).1 (by decide)
    · exact (List.cons.inj h).2

def sampleDatabase : Database := ⟨⟨[⟨['o'], ['O'], ⟨0, none⟩⟩], by decide⟩, .empty, []⟩

def sampleAdmin : ApiKeyPrincipal := ⟨['p'], none, some ['o'], {adminScope}⟩

def sampleCall : CallContext :=
  { now := ⟨63902908800000000, some 0⟩, freshId := ['1'], random := List.replicate 43 'A' }

def sampleMint : KeyAction := .create (.principal sampleAdmin) sampleCall ⟨['k'], [chatScope], ['o']⟩

def sampleResponse : ApiKeyCreateResponse :=
  ⟨['1'], sampleCall.mintToken.take 12, ['k'], [chatScope], ['o'], sampleCall.now,
    sampleCall.mintToken⟩

theorem sampleMint_created (r : ApiKeyResolver) : sampleMint.perform sampleSha256 r sampleDatabase =
    ((sampleMint.perform sampleSha256 r sampleDatabase).1, .created (.ok sampleResponse)) :=
  rfl

theorem key_lifecycle_revoked :
    let r : ApiKeyResolver := ⟨envKeyHashes sampleSha256 [['e']], 60⟩
    let minted := (sampleMint.perform sampleSha256 r sampleDatabase).1
    let used := (r.resolve sampleSha256 sampleCall sampleCall.mintToken minted).1
    let revoked := (revokeApiKey sampleAdmin sampleCall ['1'] used).1
    (r.resolve sampleSha256 sampleCall sampleCall.mintToken minted).2.isSome = true ∧
      ∀ context, (r.resolve sampleSha256 context sampleCall.mintToken revoked).2 = none := by
  intro r minted used revoked
  let after : List KeyAction :=
    [.resolve sampleCall sampleCall.mintToken, .revoke (.principal sampleAdmin) sampleCall ['1']]
  have hafter : run (keyStep sampleSha256 r) minted after = some revoked := rfl
  have henv : sampleResponse.apiKey ∉ [['e']] := by decide
  have hlife := key_lifecycle (r := r) sampleSha256_injective rfl (sampleMint_created r) henv hafter
  refine ⟨rfl, hlife.2 ?_⟩
  rw [sometime_cons rfl, sometime_cons rfl]
  refine .inr (.inl ⟨rfl, used, _, rfl, ?_, nofun⟩)
  exact ⟨_, rfl⟩

/-- An interval that leads in front of year 1 makes the second use of a key fail. -/
theorem key_not_recognised_twice :
    let r : ApiKeyResolver := ⟨envKeyHashes sampleSha256 [['e']], 100000000000⟩
    let minted := (sampleMint.perform sampleSha256 r sampleDatabase).1
    let used := (r.resolve sampleSha256 sampleCall sampleCall.mintToken minted).1
    Function.Injective sampleSha256 ∧ sampleCall.sessionmaker = true ∧ sampleCall.fault = none ∧
      sampleResponse.apiKey ∉ [['e']] ∧
      sampleMint.perform sampleSha256 r sampleDatabase = (minted, .created (.ok sampleResponse)) ∧
      (r.resolve sampleSha256 sampleCall sampleResponse.apiKey minted).2 =
        some ⟨sampleSha256 sampleResponse.apiKey, some ['1'], some ['o'], {chatScope}⟩ ∧
      (r.resolve sampleSha256 sampleCall sampleResponse.apiKey used).2 = none := by
  intro r minted used
  exact ⟨sampleSha256_injective, rfl, rfl, by decide, sampleMint_created r, by decide, by decide⟩

end AiServing
