import PayCore.Library.Lineages
import PayCore.Proof.GuaranteeRules
import PayCore.Proof.RoleRules

/- What logins, refreshes and logouts commit, and the lines of refresh tokens after it. -/
namespace PayCoreTokenRules
open KeyedTable SessionProgram SessionSystem RelyGuarantee Lineages PayCoreTables PayCoreWrites
open PayCoreSessions PayCoreRepositories PayCoreSupport PayCoreAccounts PayCoreJobs
open PayCorePersistence PayCoreRegularity PayCoreRegistration PayCoreRoleRules PayCoreGuaranteeRules

inductive TokenRequest where
  | login (cfg : Settings) (normalize : String → String) (verifyPassword : String → String → Bool)
      (email password : String) (draws : TokenDraws)
  | refresh (cfg : Settings) (tokenHash : String) (draws : TokenDraws)
  | logout (tokenHash : String)

def TokenRequest.program : TokenRequest → Tx Unit
  | .login cfg normalize verifyPassword email password draws =>
      quietly (PayCoreAccounts.login cfg normalize verifyPassword email password draws)
  | .refresh cfg tokenHash draws => quietly (PayCoreAccounts.refresh cfg tokenHash draws)
  | .logout tokenHash => PayCoreAccounts.logout tokenHash

def TokenRequest.presents : TokenRequest → Option String
  | .refresh _ tokenHash _ => some tokenHash
  | _ => none

def Known (db : Database) (hash : String) : Prop := ∃ t, db.refreshTokens.find? hash = some t

def Live (db : Database) (hash : String) : Prop :=
  ∃ t, db.refreshTokens.find? hash = some t ∧ t.isRevoked = false

def revoked : Write → Option String
  | .account (.revokeRefreshToken hash) => some hash
  | _ => none

def issued : Write → Option String
  | .insertRefreshToken t => some t.tokenHash
  | _ => none

/-- The tokens that a commit takes, each with those that it gives. -/
def handover (ws : List Write) : List (String × String) :=
  (ws.filterMap revoked).flatMap fun old => (ws.filterMap issued).map fun fresh => (old, fresh)

def opens : Write → Prop
  | .insertRefreshToken _ => True
  | .insertAuditLog _ => True
  | _ => False

def ends : Write → Prop
  | .account (.revokeRefreshToken _) => True
  | _ => False

def rotation (old fresh : RefreshToken) : List Write :=
  [.account (.revokeRefreshToken old.tokenHash), .insertRefreshToken fresh]

inductive TokenCommit (ws : List Write) (db : Database) : Prop where
  | opened (all : ∀ w ∈ ws, opens w)
  | ended (all : ∀ w ∈ ws, ends w)
  | rotated (old fresh : RefreshToken) (stored : db.refreshTokens.find? old.tokenHash = some old)
      (unrevoked : old.isRevoked = false) (free : db.refreshTokens.find? fresh.tokenHash = none)
      (both : ws = rotation old fresh)

section Commits
variable {db : Database} {ws : List Write} {hash : String}

theorem handover_opened (all : ∀ w ∈ ws, opens w) : handover ws = [] := by
  have nothing : ws.filterMap revoked = [] := by
    rw [List.filterMap_eq_nil_iff]
    intro w mem
    have kind := all w mem
    cases w with
    | account => exact kind.elim
    | _ => rfl
  simp [handover, nothing]

theorem handover_ended (all : ∀ w ∈ ws, ends w) : handover ws = [] := by
  have nothing : ws.filterMap issued = [] := by
    rw [List.filterMap_eq_nil_iff]
    intro w mem
    have kind := all w mem
    cases w with
    | insertRefreshToken => exact kind.elim
    | _ => rfl
  simp [handover, nothing]

theorem token_write {w : Write} (kind : opens w ∨ ends w) (known : Known db hash) :
    Known (applyWrite w db) hash ∧ (Live (applyWrite w db) hash → Live db hash) := by
  obtain ⟨t, found⟩ := known
  cases w with
  | insertRefreshToken fresh =>
    have kept : (applyWrite (.insertRefreshToken fresh) db).refreshTokens.find? hash = some t :=
      find?_insert_kept found
    refine ⟨⟨t, kept⟩, ?_⟩
    rintro ⟨u, after, live⟩
    rw [kept] at after
    cases after
    exact ⟨t, found, live⟩
  | insertAuditLog => exact ⟨⟨t, found⟩, fun live => live⟩
  | account w =>
    cases w with
    | revokeRefreshToken k =>
      have after : (applyWrite (.account (.revokeRefreshToken k)) db).refreshTokens.find? hash =
          if k = hash then (db.refreshTokens.find? hash).map revokeEdit.on
            else db.refreshTokens.find? hash :=
        find?_update _ _ _ _
      by_cases here : k = hash
      · rw [if_pos here, found] at after
        refine ⟨⟨_, after⟩, ?_⟩
        rintro ⟨u, now, live⟩
        rw [after] at now
        cases now
        cases live
      · rw [if_neg here] at after
        refine ⟨⟨t, after.trans found⟩, ?_⟩
        rintro ⟨u, now, live⟩
        exact ⟨u, after.symm.trans now, live⟩
    | _ => exact (kind.elim id id).elim
  | _ => exact (kind.elim id id).elim

theorem token_writes (all : ∀ w ∈ ws, opens w ∨ ends w) (known : Known db hash) :
    Known (applyAll ws db) hash ∧ (Live (applyAll ws db) hash → Live db hash) := by
  induction ws generalizing db with
  | nil => exact ⟨known, fun live => live⟩
  | cons w ws ih =>
    obtain ⟨there, before⟩ := token_write (all w (by simp)) known
    obtain ⟨later, alive⟩ := ih (fun v mem => all v (List.mem_cons_of_mem w mem)) there
    exact ⟨later, fun live => before (alive live)⟩

theorem rotation_kind {old fresh : RefreshToken} : ∀ w ∈ rotation old fresh, opens w ∨ ends w := by
  intro w mem
  rcases List.mem_cons.mp mem with rfl | last
  · exact .inr trivial
  · rw [List.mem_singleton.mp last]
    exact .inl trivial

theorem free_admits {t : RefreshToken} (free : db.refreshTokens.find? t.tokenHash = none) :
    db.refreshTokens.admits t = true := by
  rw [admits_iff]
  intro a mem
  have other : a.tokenHash ≠ t.tokenHash := find?_none_iff.mp free a mem
  exact beq_eq_false_iff_ne.mpr other

theorem rotated_tokens {old fresh : RefreshToken} (stored : db.refreshTokens.find? old.tokenHash = some old)
    (free : db.refreshTokens.find? fresh.tokenHash = none) :
    (applyAll (rotation old fresh) db).refreshTokens.find? old.tokenHash = some (revokeEdit.on old) ∧
      (applyAll (rotation old fresh) db).refreshTokens.find? fresh.tokenHash = some fresh := by
  have admitted :
      (applyWrite (.account (.revokeRefreshToken old.tokenHash)) db).refreshTokens.admits fresh = true := by
    change (db.refreshTokens.update old.tokenHash revokeEdit).admits fresh = true
    rw [admits_update]
    exact free_admits free
  have gone : (applyWrite (.account (.revokeRefreshToken old.tokenHash)) db).refreshTokens.find?
      old.tokenHash =
      some (revokeEdit.on old) := by
    change (db.refreshTokens.update old.tokenHash revokeEdit).find? old.tokenHash = _
    rw [find?_update, if_pos rfl, stored]
    rfl
  constructor
  · exact find?_insert_kept gone
  · exact (find?_insert admitted fresh.tokenHash).trans (if_pos rfl)

/-- Every commit keeps the lines of tokens in order. -/
theorem lineage_commit {log : List (String × String)} (h : Lineage log (Known db) (Live db))
    (commit : TokenCommit ws db) :
    Lineage (log ++ handover ws) (Known (applyAll ws db)) (Live (applyAll ws db)) := by
  cases commit with
  | opened all =>
    rw [handover_opened all, List.append_nil]
    have kind : ∀ w ∈ ws, opens w ∨ ends w := fun w mem => .inl (all w mem)
    exact lineage_keeps h (fun _ known => (token_writes kind known).1)
      (fun _ known => (token_writes kind known).2)
  | ended all =>
    rw [handover_ended all, List.append_nil]
    have kind : ∀ w ∈ ws, opens w ∨ ends w := fun w mem => .inr (all w mem)
    exact lineage_keeps h (fun _ known => (token_writes kind known).1)
      (fun _ known => (token_writes kind known).2)
  | rotated old fresh stored unrevoked free both =>
    subst both
    obtain ⟨gone, given⟩ := rotated_tokens stored free
    apply lineage_exchange h ⟨old, stored⟩ ⟨old, stored, unrevoked⟩
    · rintro ⟨t, now, live⟩
      rw [gone] at now
      cases now
      cases live
    · exact ⟨fresh, given⟩
    · exact fun _ known => (token_writes rotation_kind known).1
    · exact fun _ known => (token_writes rotation_kind known).2

end Commits

/-- The condition on a revocation that takes effect in `s`: the token is not revoked yet. -/
def unspent (s : Database) : Write → Bool
  | .account (.revokeRefreshToken hash) => (s.refreshTokens.find? hash).any (!·.isRevoked)
  | _ => true

def FirstUse (request : TokenRequest) (s : Database) (_ : IdentityMap) (_ : List Row)
    (adds : List Write) : Prop :=
  request.presents = none ∨ adds.all (unspent s) = true

instance (request : TokenRequest) (s : Database) (m : IdentityMap) (rows : List Row) (adds : List Write) :
    Decidable (FirstUse request s m rows adds) :=
  inferInstanceAs (Decidable (_ ∨ _))

section Sessions
variable {α : Type} {F : Database → IdentityMap → List Row → List Write → Prop} {hash : String}
  {v : View Database IdentityMap Write Row}

abbrev Secured (F : Database → IdentityMap → List Row → List Write → Prop) (p : Tx α)
    (v : View Database IdentityMap Write Row) : Prop :=
  Guarantees (Rely TokenCommit) TokenCommit F p v

/-- What is about to be committed is locked, so it fits whatever the others commit. -/
theorem rotation_fits {old fresh : RefreshToken} {db : Database} (unrevoked : old.isRevoked = false)
    (stored : db.refreshTokens.find? old.tokenHash = some old)
    (free : (applyWrite (.account (.revokeRefreshToken old.tokenHash)) db).refreshTokens.admits
      fresh = true)
    (pending : v.pending = rotation old fresh) (rely : Rely TokenCommit v.held db v.db)
    (lockedOld : v.held (.refreshToken old.tokenHash))
    (lockedFresh : v.held (.refreshToken fresh.tokenHash)) :
    TokenCommit v.pending v.db := by
  have kept : db.refreshTokens.find? old.tokenHash = v.db.refreshTokens.find? old.tokenHash :=
    rely_frame rely lockedOld
  have still : db.refreshTokens.find? fresh.tokenHash = v.db.refreshTokens.find? fresh.tokenHash :=
    rely_frame rely lockedFresh
  have admitted : db.refreshTokens.admits fresh = true := by
    rw [← admits_update db.refreshTokens old.tokenHash revokeEdit]
    exact free
  have absent : db.refreshTokens.find? fresh.tokenHash = none := admits_key_free admitted
  exact .rotated old fresh (kept.symm.trans stored) unrevoked (still.symm.trans absent) pending

theorem rotate_secured {token : RefreshToken} {user : Uuid} {cfg : Settings} {now : Timestamp} {a : α}
    {request : TokenRequest} (refreshes : request.presents ≠ none) (bare : v.pending = [])
    (unrevoked : token.isRevoked = false) :
    Secured (FirstUse request) (RefreshTokenRepository.revoke token >>= fun _ =>
      storeRefreshToken cfg user hash now >>= fun _ => commit >>= fun _ => (.ret a : Tx α)) v := by
  have writes : (if token.isRevoked then [] else [AccountWrite.revokeRefreshToken token.tokenHash]) =
      [.revokeRefreshToken token.tokenHash] := by simp [unrevoked]
  unfold RefreshTokenRepository.revoke
  rw [writes]
  apply flush_then
  intro u onward first
  rw [bare, applyAll_nil] at first
  obtain ⟨old, stored, spent⟩ : ∃ t, u.db.refreshTokens.find? token.tokenHash = some t ∧
      t.isRevoked = false := by
    rcases first with idle | unspent
    · exact absurd idle refreshes
    · simpa [PayCoreTokenRules.unspent, Option.any_eq_true] using unspent
  have same : old.tokenHash = token.tokenHash := (find?_some_iff.mp stored).2
  have pending : u.pending = [.account (.revokeRefreshToken old.tokenHash)] := by
    rw [onward.pending, bare, same]
    rfl
  have mine : u.held (.refreshToken old.tokenHash) := by
    apply onward.locks
    simp [Store.targets, writeTargets, accountTargets, same]
  apply storeToken_then
  intro fresh w further free
  rw [pending] at free
  have kept : u.db.refreshTokens.find? old.tokenHash = w.db.refreshTokens.find? old.tokenHash :=
    rely_frame further.rely mine
  have given : w.held (.refreshToken fresh.tokenHash) := by
    apply further.locks
    simp [Store.targets, writeTargets]
  apply committed_then
  · intro db rely
    apply rotation_fits (v := { w with db := db }) spent _ free _ rely (further.keeps _ mine) given
    · rw [← same] at stored
      exact kept.symm.trans stored
    · rw [further.pending, pending]
      rfl
  · intro _ _
    trivial

theorem refresh_secured {cfg : Settings} {draws : TokenDraws} (bare : v.pending = []) :
    Secured (FirstUse (.refresh cfg hash draws)) (TokenRequest.refresh cfg hash draws).program v := by
  apply quietly_guarantees
  unfold PayCoreAccounts.refresh
  apply read_then
  intro u first
  apply given_then
  intro token picked
  have unrevoked : token.isRevoked = false := by
    simpa using (Option.filter_eq_some_iff.mp picked).2
  apply checked_then
  intro _
  apply read_then
  intro w second
  apply given_then
  intro user _
  apply rotate_secured _ _ unrevoked
  · simp [TokenRequest.presents]
  · rw [second.pending, first.pending, bare]
    rfl

theorem request_secured (request : TokenRequest) (bare : v.pending = []) :
    Secured (FirstUse request) request.program v := by
  cases request with
  | login cfg normalize verifyPassword email password draws =>
    have emits :
        Emits opens (TokenRequest.login cfg normalize verifyPassword email password draws).program :=
      emits_quietly (emits_login (fun _ => trivial) (fun _ => trivial) _ _ _ _ _ _)
    exact emits_wp (fun ws s all => .opened all) emits (by simp [bare])
  | refresh cfg tokenHash draws => exact refresh_secured bare
  | logout tokenHash =>
    have emits : Emits ends (TokenRequest.logout tokenHash).program := emits_logout (fun _ => trivial) _
    exact emits_wp (fun ws s all => .ended all) emits (by simp [bare])

end Sessions

end PayCoreTokenRules
