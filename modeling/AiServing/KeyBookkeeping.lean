import AiServing.KeyLifecycle

namespace AiServing
set_option autoImplicit true

variable {sha256 : Text → Text} {r : ApiKeyResolver} {context : CallContext} {db : Database}
  {token : Text} {key : ApiKey} {now : DateTime}

/-- A use of the key at this time is to be noted. -/
def ApiKeyResolver.WriteDue (r : ApiKeyResolver) (key : ApiKey) (now : DateTime) : Prop :=
  r.lastUsedMinIntervalSeconds = 0 ∨ ∀ last ∈ key.lastUsedAt,
    last.instant + r.lastUsedMinIntervalSeconds * 1000000 ≤ now.instant

theorem DateTime.instant_minusSeconds {t cutoff : DateTime} (h : t.minusSeconds n = some cutoff) :
    cutoff.instant + n * 1000000 = t.instant := by
  rw [minusSeconds] at h
  split at h
  · next hle =>
    obtain rfl := Option.some.inj h
    dsimp only [instant]
    omega
  · cases h

theorem shouldUpdateLastUsed_eq (h : r.CanDebounce key now) : ∃ due : Bool,
    shouldUpdateLastUsed r.lastUsedMinIntervalSeconds key.lastUsedAt now = some due ∧
      (due = true ↔ r.WriteDue key now) := by
  obtain ⟨due, hdue⟩ := Option.ne_none_iff_exists'.1 ((canDebounce_iff now).1 h)
  refine ⟨due, hdue, ?_⟩
  rw [shouldUpdateLastUsed.eq_def] at hdue
  rw [ApiKeyResolver.WriteDue]
  split at hdue
  · next hzero =>
    obtain rfl := Option.some.inj hdue
    exact iff_of_true rfl (.inl hzero)
  · next hpos =>
    rw [or_iff_right hpos]
    cases hlast : key.lastUsedAt with
    | none =>
      rw [hlast] at hdue
      obtain rfl := Option.some.inj hdue
      apply iff_of_true rfl
      intro last hmem
      cases hmem
    | some last =>
      rw [hlast] at hdue
      obtain ⟨cutoff, hcutoff, rfl⟩ := Option.map_eq_some_iff.1 hdue
      have hinstant := DateTime.instant_minusSeconds hcutoff
      rw [decide_eq_true_eq]
      constructor
      · intro hle x hx
        obtain rfl := Option.some.inj hx
        rw [← hinstant]
        exact add_le_add_left hle _
      · intro hdue
        have hle := hdue last rfl
        rw [← hinstant] at hle
        exact le_of_add_le_add_right hle

theorem envValidate_apiKeyId (h : envValidate sha256 keyHashes token = some p) :
    p.apiKeyId = none := by
  rw [envValidate] at h
  obtain ⟨hash, _, rfl⟩ := Option.map_eq_some_iff.1 h
  rfl

theorem envValidate_ne_principal (key : ApiKey) :
    envValidate sha256 keyHashes token ≠ some key.principal := by
  intro h
  have hid := envValidate_apiKeyId h
  cases hid

theorem resolve_eq_principal_iff (hmaker : context.sessionmaker = true) :
    (r.resolve sha256 context token db).2 = some key.principal ↔
      (resolveKey sha256 r context token db).2 = some key.principal := by
  rw [ApiKeyResolver.resolve, if_pos hmaker]
  split
  · next hkeys => rw [hkeys]
  · next hkeys =>
    rw [hkeys]
    apply iff_of_false (envValidate_ne_principal key)
    intro hnone
    cases hnone

/-- The row that the lookup has selected is what `resolve` answers with exactly if noting the use of
the key does not get in the way. -/
theorem resolve_bookkeeping_iff (sha256 : Text → Text) (r : ApiKeyResolver) (context : CallContext)
    (token : Text) (db : Database) (key : ApiKey) (hmaker : context.sessionmaker = true)
    (hread : context.fault ≠ some .read) (hkey : key ∈ db.keys.rows)
    (hhash : key.keyHash = sha256 token) (hlive : key.revokedAt = none) :
    (r.resolve sha256 context token db).2 = some key.principal ↔
      r.CanDebounce key context.now ∧ (r.WriteDue key context.now → context.fault = none) := by
  have hkeys := resolveKey_of_mem r hkey hhash hread
  rw [if_pos (Option.isNone_iff_eq_none.2 hlive)] at hkeys
  rw [resolve_eq_principal_iff hmaker, hkeys]
  by_cases hcan : r.CanDebounce key context.now
  · rw [and_iff_right hcan]
    obtain ⟨due, hdue, hwrite⟩ := shouldUpdateLastUsed_eq hcan
    rw [← hwrite, hdue]
    cases due with
    | false => exact iff_of_true rfl nofun
    | true =>
      cases hfault : context.fault with
      | none => exact iff_of_true rfl fun _ => rfl
      | some fault =>
        apply iff_of_false _ fun h => nomatch h rfl
        cases fault with
        | read => exact absurd hfault hread
        | commit => nofun
        | refresh => nofun
  · rw [canDebounce_iff, not_not] at hcan
    rw [hcan]
    apply iff_of_false nofun
    rintro ⟨hsome, _⟩
    exact (canDebounce_iff context.now).1 hsome hcan

theorem resolve_bookkeeping_sample :
    let minted := (createApiKey sampleSha256 sampleAdmin sampleCall ⟨['k'], [chatScope], ['o']⟩
      sampleDatabase).1
    ∃ key ∈ minted.keys.rows, ((⟨[], 60⟩ : ApiKeyResolver).resolve sampleSha256 sampleCall
      sampleCall.mintToken minted).2 = some key.principal := by
  intro minted
  refine ⟨_, List.mem_cons_self, ?_⟩
  apply (resolve_bookkeeping_iff sampleSha256 ⟨[], 60⟩ sampleCall sampleCall.mintToken minted _ rfl
    nofun List.mem_cons_self rfl rfl).2
  exact ⟨.inr (.inl rfl), fun _ => rfl⟩

/-- The database is locked while the first use of a key is noted: the key is refused, and a text that
is an environment key as well gets all scopes. -/
theorem locked_commit_loses_key :
    let minted := (createApiKey sampleSha256 sampleAdmin sampleCall ⟨['k'], [chatScope], ['o']⟩
      sampleDatabase).1
    let locked := { sampleCall with fault := some .commit }
    (∃ key ∈ minted.keys.rows, key.keyHash = sampleSha256 sampleCall.mintToken ∧
      key.revokedAt = none) ∧
      ((⟨[], 60⟩ : ApiKeyResolver).resolve sampleSha256 locked sampleCall.mintToken minted).2 = none ∧
      ((⟨envKeyHashes sampleSha256 [sampleCall.mintToken], 60⟩ : ApiKeyResolver).resolve sampleSha256
        locked sampleCall.mintToken minted).2.map ApiKeyPrincipal.scopes =
          some {chatScope, adminScope, superAdminScope} := by
  intro minted locked
  exact ⟨⟨_, List.mem_cons_self, rfl, rfl⟩, by decide, by decide⟩

end AiServing
