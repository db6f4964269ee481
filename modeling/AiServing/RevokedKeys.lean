import AiServing.GatewayRuns
import AiServing.KeyBookkeeping
import AiServing.StoreInvariants

namespace AiServing
open Transitions
set_option autoImplicit true

namespace Gateway

section Writes

variable (collation : LinearOrder Text) (auditLog : Text → Option AuditLog) (app : GatewayApp)

/-- One transaction of the admin API or of an audit task: an authentication notes the use of a key, a
call commits for a principal that was authenticated at some time before, and a task writes its rows. -/
inductive StoreWrite (db : Database) : Database → Prop
  | noted (server : AuthServer) (auth : AuthRequest) (keys : ApiKeys) :
      StoreWrite db (requireApiKey app.sha256 server auth db keys).1
  | called (p : ApiKeyPrincipal) (call : AdminCall) (context : CallContext) (w : AdminState)
      (hw : w.db = db) :
      StoreWrite db (call.serve collation app.sha256 auditLog p context w).1.db
  | audited (rows : List AuditLog) : StoreWrite db { db with auditLogs := rows }

/-- What else writes to the database than the requests of the run. -/
def StoreCommits (s : Gateway app.settings) (a : GatewayStep app.settings) : Prop :=
  ∀ db, a.action = .commit db → StoreWrite collation auditLog app s.shared.db db

end Writes

/-- The key with this id is there, and revoked. -/
def Revoked (keyId : Text) (db : Database) : Prop :=
  ∃ key ∈ db.keys.rows, key.id = keyId ∧ key.revokedAt ≠ none

/-- The key with this id is among the keys that were read, and was not revoked then. -/
def ReadLive (keyId : Text) (keys : ApiKeys) : Prop :=
  ∃ key ∈ keys.rows, key.id = keyId ∧ key.revokedAt = none

variable {collation : LinearOrder Text} {auditLog : Text → Option AuditLog} {app : GatewayApp}
  {s t u : Gateway app.settings} {a : GatewayStep app.settings}
  {steps : List (GatewayStep app.settings)} {keyId : Text} {db db' : Database}

theorem Revoked.keeps (h : Revoked keyId db) (hdb : db.Keeps db') : Revoked keyId db' := by
  obtain ⟨key, hkey, hid, hrevoked⟩ := h
  obtain ⟨key', hkey', hsame, hkept⟩ := hdb.keys key hkey
  exact ⟨key', hkey', hsame.id.trans hid, hkept hrevoked⟩

theorem Revoked.not_readLive (h : Revoked keyId db) : ¬ ReadLive keyId db.keys := by
  rintro ⟨key', hkey', hid', hlive⟩
  obtain ⟨key, hkey, hid, hrevoked⟩ := h
  have heq : key' = key := by
    apply UniqueTable.eq_of_column List.mem_cons_self hkey' hkey
    exact hid'.trans hid.symm
  rw [heq] at hlive
  exact hrevoked hlive

theorem StoreWrite.keeps (h : StoreWrite collation auditLog app db db') : db.Keeps db' := by
  cases h with
  | noted server auth keys => exact .touched (requireApiKey_touched (Prod.eta _).symm)
  | called p call context w hw =>
    subst hw
    exact .served (serve_effect (Prod.eta _).symm)
  | audited rows => exact .of_eq rfl rfl

section Moves

variable {q q' : GatewayRequest app.settings} {r r' : SharedState} {now : ℚ}

theorem arrive_db (r : SharedState) (incoming : IncomingRequest app.settings) (now : ℚ) :
    (r.arrive app incoming now).1.db = r.db := by
  rw [SharedState.arrive]
  dsimp only
  split
  · rfl
  · split
    · rfl
    · rfl

theorem authenticate_db {keys : ApiKeys} (h : q.authenticate app r keys = (r', q')) :
    Touched r.db r'.db := by
  rw [GatewayRequest.authenticate] at h
  split at h
  · cases h
    exact .unused
  all_goals
    split at h
    · next hauth =>
      cases h
      exact requireApiKey_touched hauth
    · next hauth =>
      cases h
      exact requireApiKey_touched hauth

theorem enforce_db {p : ApiKeyPrincipal} (h : q.enforce app r now p = (r', q')) : r'.db = r.db := by
  rw [GatewayRequest.enforce] at h
  dsimp only at h
  split at h
  · cases h
    rfl
  · cases h
    rfl

theorem respond_db {status : Nat} (h : q.respond app r now status = (r', q')) : r'.db = r.db := by
  rw [GatewayRequest.respond] at h
  dsimp only at h
  split at h
  · cases h
    rfl
  · split at h
    · split at h
      · cases h
        rfl
      · cases h
        rfl
    · cases h
      rfl

theorem advance_touched (h : q.advance app r now move = some (r', q')) : Touched r.db r'.db := by
  unfold GatewayRequest.advance at h
  split at h
  case h_2 => exact authenticate_db (Option.some.inj h)
  case h_3 =>
    rw [enforce_db (Option.some.inj h)]
    exact .unused
  case h_7 =>
    obtain ⟨lease, _, heq⟩ := Option.map_eq_some_iff.1 h
    cases heq
    exact .unused
  case h_8 =>
    rw [respond_db (Option.some.inj h)]
    exact .unused
  case h_9 => cases h
  -- the other moves leave the database as it is
  all_goals
    cases h
    exact .unused

end Moves

theorem step_keeps (hcommits : StoreCommits collation auditLog app s a)
    (ht : s.step app a = some t) : s.shared.db.Keeps t.shared.db := by
  obtain ⟨action, now⟩ := a
  cases action with
  | commit db =>
    have hwrite := hcommits db rfl
    cases ht
    exact hwrite.keeps
  | arrive incoming =>
    have hdb := arrive_db s.shared incoming now
    cases harrive : s.shared.arrive app incoming now with
    | mk shared q =>
      rw [Gateway.step] at ht
      simp only [harrive] at ht
      cases ht
      rw [harrive] at hdb
      exact .of_eq (congrArg Database.orgs hdb) (congrArg Database.keys hdb)
  | move id move =>
    obtain ⟨q, q', _, hadvance, _⟩ := step_move ht
    exact .touched (advance_touched hadvance)

theorem readLive_of_accepted {server : AuthServer} {auth : AuthRequest} {keys : ApiKeys}
    {p : ApiKeyPrincipal} (haccepted : (requireApiKey sha256 server auth db keys).2 = .ok p)
    (hp : p.apiKeyId = some keyId) : ReadLive keyId keys := by
  rw [requireApiKey] at haccepted
  split at haccepted
  · cases haccepted
  · split at haccepted
    · cases haccepted
    · split at haccepted
      · next hfound =>
        cases haccepted
        rw [keyPrincipal] at hfound
        split at hfound
        · rcases (resolve_cases hfound).2 p rfl with ⟨key, hkey, _, hlive, rfl⟩ | henv
          · exact ⟨key, hkey, Option.some.inj hp, hlive⟩
          · rw [envValidate_apiKeyId henv] at hp
            cases hp
        · cases hfound
      · obtain ⟨claims, _, hbuild⟩ := requireJwt_claims haccepted
        rw [(buildJwtPrincipal_cases hbuild).2.1] at hp
        cases hp

/-- The request is let in as this principal, or has read its key unrevoked and may yet be. -/
def OnItsWay (id : Nat) (incoming : IncomingRequest settings) (p : ApiKeyPrincipal) (keyId : Text)
    (s : Gateway settings) : Prop :=
  LetIn id incoming p s ∨ ∃ keys, HasRead id incoming keys s ∧ ReadLive keyId keys

theorem OnItsWay.before {id : Nat} {incoming : IncomingRequest app.settings} {p : ApiKeyPrincipal}
    (h : OnItsWay id incoming p keyId t) (ht : s.step app a = some t) (hp : p.apiKeyId = some keyId)
    (hrevoked : Revoked keyId s.shared.db) : OnItsWay id incoming p keyId s := by
  rcases h with hin | ⟨keys, hread, hlive⟩
  · rcases principal_origin ht hin with hbefore | ⟨keys, hread, _, auth, _, haccepted⟩
    · exact .inl hbefore
    · exact .inr ⟨keys, hread, readLive_of_accepted haccepted hp⟩
  · rcases selected_origin ht hread with hbefore | ⟨_, hkeys⟩
    · exact .inr ⟨keys, hbefore, hlive⟩
    · rw [← hkeys] at hlive
      exact absurd hlive hrevoked.not_readLive

/-- From the commit of its revocation on, however the requests and the transactions of the admin API
interleave, nobody comes in as a key but a request that was already let in as it, or whose SELECT had
read the key before. -/
theorem revoked_key_admits_none (hrun : run (step app) s steps = some u)
    (hcommits : Always (step app) (StoreCommits collation auditLog app) s steps)
    (hrevoked : Revoked keyId s.shared.db) {id : Nat} {incoming : IncomingRequest app.settings}
    {p : ApiKeyPrincipal} (hp : p.apiKeyId = some keyId) (hin : LetIn id incoming p u) :
    OnItsWay id incoming p keyId s := by
  induction steps generalizing s with
  | nil =>
    obtain rfl := Option.some.inj hrun
    exact .inl hin
  | cons a steps ih =>
    obtain ⟨t, ht, hrest⟩ := run_cons.1 hrun
    have hkept := hrevoked.keeps (step_keeps hcommits.1 ht)
    exact (ih hrest (hcommits.2 t ht) hkept).before ht hp hrevoked

def sampleKey : ApiKey where
  id := ['1']
  orgId := ['o']
  keyPrefix := ['s']
  keyHash := sampleSha256 ['t']
  name := ['k']
  scopes := chatScope
  createdAt := ⟨0, none⟩

def sampleBearerChat : IncomingRequest sampleApp.settings := sampleChat (some ("Bearer".toList, ['t']))

/-- The key is revoked behind the SELECT of a request. -/
def sampleRevoked : Gateway sampleApp.settings where
  shared :=
    { db := { sampleDatabase with keys := ⟨[{ sampleKey with revokedAt := some ⟨1, none⟩ }], by decide⟩ }
      streams := .new 1 Nat.one_pos }
  requests := [{ incoming := sampleBearerChat, point := .selected ⟨[sampleKey], by decide⟩ }]

/-- That request goes on, and another comes in with the key. -/
def sampleLate : List (GatewayStep sampleApp.settings) :=
  [⟨.move 0 .authenticate, 5⟩, ⟨.arrive sampleBearerChat, 6⟩, ⟨.move 1 .lookup, 6⟩,
    ⟨.move 1 .authenticate, 7⟩]

theorem revoked_key_admits_none_late : ∃ u q,
    run (step sampleApp) sampleRevoked sampleLate = some u ∧ u.requests[0]? = some q ∧
      q.principal = some sampleKey.principal ∧
      OnItsWay 0 q.incoming sampleKey.principal ['1'] sampleRevoked ∧
      ∀ incoming, ¬ LetIn 1 incoming sampleKey.principal u := by
  have hrevoked : Revoked ['1'] sampleRevoked.shared.db :=
    ⟨_, List.mem_cons_self, rfl, Option.some_ne_none _⟩
  have hcommits : Always (step sampleApp) (StoreCommits inferInstance (fun _ => none) sampleApp)
      sampleRevoked sampleLate := by
    refine ⟨?_, fun _ _ => ⟨?_, fun _ _ => ⟨?_, fun _ _ => ⟨?_, fun _ _ => trivial⟩⟩⟩⟩
    all_goals
      intro db hcommit
      cases hcommit
  have hany : (run (step sampleApp) sampleRevoked sampleLate).any
      (fun u => u.requests[0]?.any fun q => q.principal = some sampleKey.principal) := by
    decide +kernel
  obtain ⟨u, hu, hany⟩ := (Option.any_eq_true _ _).1 hany
  obtain ⟨q, hq, hp⟩ := (Option.any_eq_true _ _).1 hany
  have hprincipal := of_decide_eq_true hp
  refine ⟨u, q, hu, hq, hprincipal, ?_, fun incoming hother => ?_⟩
  · exact revoked_key_admits_none hu hcommits hrevoked rfl ⟨q, hq, rfl, hprincipal⟩
  · rcases revoked_key_admits_none hu hcommits hrevoked rfl hother with hin | ⟨_, hread, _⟩
    · obtain ⟨_, hnone, _⟩ := hin
      cases hnone
    · obtain ⟨_, hnone, _⟩ := hread
      cases hnone

end Gateway
end AiServing
