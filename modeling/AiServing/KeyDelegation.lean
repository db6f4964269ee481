import AiServing.KeyCalls
import AiServing.Transitions

namespace AiServing
open Transitions
set_option autoImplicit true

section Calls

variable (sha256 : Text → Text) (r : ApiKeyResolver)

/-- A caller that is no super admin, unless an API key makes it one. -/
def Caller.Unprivileged : Caller → Prop
  | .principal p => isSuperAdmin p = false
  | .bearer _ token => envValidate sha256 r.keyHashes token = none

def KeyAction.Unprivileged : KeyAction → Prop
  | .create caller _ _ => caller.Unprivileged sha256 r
  | .revoke caller _ _ => caller.Unprivileged sha256 r
  | .resolve _ _ => True

end Calls

variable {sha256 : Text → Text} {r : ApiKeyResolver} {db db' db'' : Database} {p : ApiKeyPrincipal}

/-- No key of the database grants `super_admin`. -/
def NoSuperAdmin (db : Database) : Prop :=
  ∀ key ∈ db.keys.rows, superAdminScope ∉ parseScopes key.scopes

/-- The key is one that was there, but for its times. -/
def Inherited (db : Database) (key : ApiKey) : Prop :=
  ∃ old ∈ db.keys.rows, old.id = key.id ∧ old.orgId = key.orgId ∧ old.scopes = key.scopes

/-- Every key is one that was there, but for its times. -/
def Inherits (db db' : Database) : Prop := ∀ key ∈ db'.keys.rows, Inherited db key

theorem Inherits.refl (db : Database) : Inherits db db :=
  fun key hkey => ⟨key, hkey, rfl, rfl, rfl⟩

theorem Inherited.trans (h : Inherits db db') (hkey : Inherited db' key) : Inherited db key := by
  obtain ⟨mid, hmid, hid, horg, hscopes⟩ := hkey
  obtain ⟨old, hold, hid', horg', hscopes'⟩ := h mid hmid
  exact ⟨old, hold, hid'.trans hid, horg'.trans horg, hscopes'.trans hscopes⟩

theorem Inherits.update (db : Database) {q : ApiKey → Bool} {f : ApiKey → ApiKey}
    (hf : ∀ c ∈ [ApiKey.id, ApiKey.keyHash], ∀ key, c (f key) = c key)
    (horg : ∀ key, (f key).orgId = key.orgId) (hscopes : ∀ key, (f key).scopes = key.scopes) :
    Inherits db { db with keys := db.keys.update q f hf } := by
  intro key hkey
  obtain ⟨old, hold, rfl⟩ := List.mem_map.1 hkey
  refine ⟨old, hold, ?_⟩
  split
  · exact ⟨(hf _ List.mem_cons_self old).symm, (horg old).symm, (hscopes old).symm⟩
  · exact ⟨rfl, rfl, rfl⟩

theorem Inherits.touch (db : Database) (keyId : Text) (now : DateTime) :
    Inherits db (db.touch keyId now) :=
  .update db _ (fun _ => rfl) fun _ => rfl

theorem Inherits.revoke (db : Database) (keyId : Text) (now : DateTime) :
    Inherits db (db.revoke keyId now) :=
  .update db _ (fun _ => rfl) fun _ => rfl

theorem Inherits.noSuperAdmin (h : Inherits db db') (hdb : NoSuperAdmin db) : NoSuperAdmin db' := by
  intro key hkey
  obtain ⟨old, hold, _, _, hscopes⟩ := h key hkey
  rw [← hscopes]
  exact hdb old hold

theorem Touched.inherits (h : Touched db db') : Inherits db db' := by
  cases h with
  | unused => exact .refl db
  | used keyId now => exact .touch db keyId now

theorem authenticate_spec {caller : Caller} (hdb : NoSuperAdmin db)
    (hcaller : caller.Unprivileged sha256 r)
    (h : caller.authenticate sha256 r db = (db', some p)) : isSuperAdmin p = false := by
  cases caller with
  | principal q =>
    cases h
    exact hcaller
  | bearer context token =>
    rcases (resolve_cases h).2 p rfl with ⟨key, hkey, _, _, rfl⟩ | henv
    · exact decide_eq_false (hdb key hkey)
    · rw [Caller.Unprivileged] at hcaller
      rw [hcaller] at henv
      cases henv

theorem added_key {caller : Caller} (hdb : NoSuperAdmin db)
    (hcaller : caller.Unprivileged sha256 r)
    (hauth : caller.authenticate sha256 r db = (db', some p))
    (hscopes : grantedScopes p request = .ok (orgId, scopes)) :
    p.orgId = some orgId ∧ commaItems (joinScopes scopes) = scopes ∧
      parseScopes (joinScopes scopes) = scopes.toFinset ∧ superAdminScope ∉ scopes := by
  obtain ⟨hne, hplain, hsuper⟩ := grantedScopes_spec hscopes
  obtain ⟨horg, hnot⟩ := hsuper (authenticate_spec hdb hcaller hauth)
  exact ⟨horg, commaItems_joinScopes hne hplain, parseScopes_joinScopes hne hplain, hnot⟩

theorem perform_noSuperAdmin {a : KeyAction} (hdb : NoSuperAdmin db) (ha : a.Unprivileged sha256 r)
    (h : a.perform sha256 r db = (db', answer)) : NoSuperAdmin db' := by
  cases perform_cases h with
  | kept htouched => exact htouched.inherits.noSuperAdmin hdb
  | revoked mid keyId now hmid _ _ hdb' =>
    subst hdb'
    exact (Inherits.revoke mid keyId now).noSuperAdmin (hmid.inherits.noSuperAdmin hdb)
  | added caller context body p mid request orgId scopes keys heq hcaller hscopes hinsert hdb' =>
    subst heq hdb'
    obtain ⟨_, _, hparse, hnot⟩ := added_key hdb ha hcaller hscopes
    have hmid := (authenticate_touched hcaller).inherits.noSuperAdmin hdb
    intro key hkey
    have hrows := (UniqueTable.rows_insert? hinsert).1
    rw [hrows] at hkey
    rcases List.mem_append.1 hkey with hkey | hkey
    · exact hmid key hkey
    · rw [List.mem_singleton.1 hkey, newKey, hparse, List.mem_toFinset]
      exact hnot

theorem run_noSuperAdmin {trace : List KeyAction} (hdb : NoSuperAdmin db)
    (htrace : ∀ a ∈ trace, a.Unprivileged sha256 r) (h : run (keyStep sha256 r) db trace = some db') :
    NoSuperAdmin db' := by
  induction trace generalizing db with
  | nil =>
    obtain rfl := Option.some.inj h
    exact hdb
  | cons a trace ih =>
    obtain ⟨mid, hmid, hrest⟩ := run_cons.1 h
    obtain rfl := Option.some.inj hmid
    have hnext := perform_noSuperAdmin hdb (htrace a List.mem_cons_self) rfl
    exact ih hnext (fun b hb => htrace b (List.mem_cons_of_mem a hb)) hrest

/-- No chain of unprivileged calls leads to a key with `super_admin`: at each state of a run, a
new key belongs to its creator's organization, what a response announces is what is stored, listed
and granted, and nobody is recognised with more than an API key grants. -/
theorem no_escalation {trace : List KeyAction} {a : KeyAction} (hdb : NoSuperAdmin db)
    (htrace : ∀ a ∈ trace, a.Unprivileged sha256 r) (h : run (keyStep sha256 r) db trace = some db')
    (ha : a.Unprivileged sha256 r) :
    NoSuperAdmin db' ∧
      (∀ key ∈ (a.perform sha256 r db').1.keys.rows, Inherited db' key ∨
        ∃ caller context body p, a = .create caller context body ∧
          (caller.authenticate sha256 r db').2 = some p ∧ p.orgId = some key.orgId) ∧
      (∀ response, (a.perform sha256 r db').2 = .created (.ok response) →
        ∃ key ∈ (a.perform sha256 r db').1.keys.rows, key.id = response.id ∧
          key.orgId = response.orgId ∧ key.keyHash = sha256 response.apiKey ∧
          key.scopes = joinScopes response.scopes ∧ splitScopes key.scopes = response.scopes ∧
          parseScopes key.scopes = response.scopes.toFinset ∧ superAdminScope ∉ response.scopes) ∧
      ∀ context token p, (r.resolve sha256 context token db').2 = some p →
        envValidate sha256 r.keyHashes token = some p ∨
          superAdminScope ∉ p.scopes ∧ ∃ key ∈ db'.keys.rows, key.keyHash = sha256 token ∧
            p.apiKeyId = some key.id ∧ p.orgId = some key.orgId ∧ p.scopes = parseScopes key.scopes := by
  have hdb' := run_noSuperAdmin hdb htrace h
  have hperform : a.perform sha256 r db' = ((a.perform sha256 r db').1, (a.perform sha256 r db').2) :=
    rfl
  have heffect := perform_cases hperform
  refine ⟨hdb', ?_, ?_, ?_⟩
  · intro key hkey
    cases heffect with
    | kept htouched => exact .inl (htouched.inherits key hkey)
    | revoked mid keyId now hmid _ _ hlast =>
      rw [hlast] at hkey
      exact .inl (.trans hmid.inherits (Inherits.revoke mid keyId now key hkey))
    | added caller context body p mid request orgId scopes keys heq hcaller hscopes hinsert hlast =>
      subst heq
      rw [hlast, (UniqueTable.rows_insert? hinsert).1] at hkey
      rcases List.mem_append.1 hkey with hkey | hkey
      · exact .inl ((authenticate_touched hcaller).inherits key hkey)
      · refine .inr ⟨caller, context, body, p, rfl, by rw [hcaller], ?_⟩
        rw [List.mem_singleton.1 hkey]
        exact (added_key hdb' ha hcaller hscopes).1
  · intro response hresponse
    rw [hresponse] at hperform
    obtain ⟨caller, context, body, p, mid, request, rfl, hcaller, hgranted, key, hkey, hannounced⟩ :=
      perform_created hperform
    obtain ⟨_, hitems, hparse, hnot⟩ := added_key hdb' ha hcaller hgranted
    rw [← hannounced.scopes] at hitems hparse
    exact ⟨key, hkey, hannounced.id, hannounced.orgId, hannounced.keyHash, hannounced.scopes, hitems,
      hparse, hnot⟩
  · intro context token p hp
    rcases (resolve_cases rfl).2 p hp with ⟨key, hkey, hhash, _, rfl⟩ | henv
    · exact .inr ⟨hdb' key hkey, key, hkey, hhash, rfl, rfl, rfl⟩
    · exact .inl henv

/-- An admin makes a key, and that key makes another; both ask for `super_admin`. -/
theorem no_escalation_chain :
    let r : ApiKeyResolver := ⟨[], 60⟩
    let context : CallContext :=
      { now := ⟨0, some 0⟩, freshId := ['1'], random := List.replicate 43 'A' }
    let delegated : CallContext :=
      { now := ⟨0, some 0⟩, freshId := ['2'], random := List.replicate 43 'B' }
    let db : Database := ⟨⟨[⟨['o'], ['O'], ⟨0, none⟩⟩], by decide⟩, .empty, []⟩
    let admin : ApiKeyPrincipal := ⟨['p'], none, some ['o'], {adminScope}⟩
    let trace : List KeyAction :=
      [.create (.principal admin) context ⟨['k'], ["admin, super_admin".toList], ['o']⟩]
    let a : KeyAction := .create (.bearer context context.mintToken) delegated
      ⟨['k'], ["chat,super_admin ".toList], ['o']⟩
    ∃ db' response, run (keyStep sampleSha256 r) db trace = some db' ∧ NoSuperAdmin db' ∧
      (a.perform sampleSha256 r db').2 = .created (.ok response) ∧
      response.scopes = ["chat".toList] ∧
      ∃ key ∈ (a.perform sampleSha256 r db').1.keys.rows, key.id = ['2'] ∧ key.orgId = ['o'] ∧
        splitScopes key.scopes = ["chat".toList] ∧ parseScopes key.scopes = {"chat".toList} := by
  intro r context delegated db admin trace a
  have hrun : ∃ db', run (keyStep sampleSha256 r) db trace = some db' ∧
      (a.perform sampleSha256 r db').2 = .created (.ok ⟨['2'], "sk-BBBBBBBBB".toList, ['k'],
        ["chat".toList], ['o'], ⟨0, some 0⟩, delegated.mintToken⟩) := by
    exact ⟨_, rfl, by decide +kernel⟩
  obtain ⟨db', h, hanswer⟩ := hrun
  have hdb : NoSuperAdmin db := fun key hkey => absurd hkey List.not_mem_nil
  have htrace : ∀ b ∈ trace, b.Unprivileged sampleSha256 r := by
    intro b hb
    obtain rfl := List.mem_singleton.1 hb
    exact (by decide : isSuperAdmin admin = false)
  obtain ⟨hnone, _, hresponse, _⟩ := no_escalation (a := a) hdb htrace h rfl
  obtain ⟨key, hkey, hid, horg, _, _, hlisted, hgranted, _⟩ := hresponse _ hanswer
  exact ⟨db', _, h, hnone, hanswer, rfl, key, hkey, hid, horg, hlisted, hgranted⟩

end AiServing
