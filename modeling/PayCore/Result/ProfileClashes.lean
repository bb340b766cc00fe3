import PayCore.Result.CommittedRequests
import PayCore.Proof.SoloHandlers

/- What register and update_profile make of an email or a phone that somebody has. The lookups of
   the services skip soft-deleted users and register looks for no phone, but the unique constraints
   hold for all rows. -/
namespace PayCoreProfileClashes
open KeyedTable SessionProgram PayCoreTables PayCoreWrites PayCoreSessions PayCoreRepositories
open PayCoreSupport PayCoreRegistration PayCorePersistence PayCoreSoloHandlers PayCoreCommittedRequests

variable {answer : Request → Option PaystackData} {db : Database}

inductive ProfileRequest where
  | register (cfg : Settings) (normalize : String → String) (email hashedPassword fullName : String)
      (phone : Option String) (draws : RegistrationDraws)
  | updateProfile (userId : Uuid) (fullName phone : Option String)

def ProfileRequest.program : ProfileRequest → Tx User
  | .register cfg normalize email hashedPassword fullName phone draws =>
      PayCoreRegistration.register cfg normalize email hashedPassword fullName phone draws
  | .updateProfile userId fullName phone => PayCoreAccounts.updateProfile userId fullName phone

/-- The ids and the token that a registration draws are fresh; a profile is that of an existing user. -/
def Prepared (db : Database) : ProfileRequest → Prop
  | .register _ _ _ _ _ _ draws => db.users.find? draws.userId = none ∧
      (∀ w ∈ db.wallets.rows, w.id ≠ draws.walletId ∧ w.userId ≠ draws.userId) ∧
      db.refreshTokens.find? draws.refreshHash = none
  | .updateProfile userId _ _ => ∃ user, UserRepository.byId userId db = some user

/-- A user, soft-deleted or not, has the email or the phone that the request would store. -/
def Clashes (db : Database) : ProfileRequest → Prop
  | .register _ normalize email _ _ phone _ => ∃ u ∈ db.users.rows, u.email = normalize email ∨
      ∃ number stored, phone = some number ∧ varchar 20 number = some stored ∧ u.phone = some stored
  | .updateProfile userId _ phone => ∃ u ∈ db.users.rows, u.id ≠ userId ∧
      ∃ number, phone = some number ∧ u.phone = some number

/-- What is added by a registration: one user, one empty wallet of theirs and one refresh token,
    next to the record of it in the audit log. -/
structure Enrols (before after : Database) (normalize : String → String) (email : String) (user : User) :
    Prop where
  named : user.email = normalize email
  users : after.users.rows = before.users.rows ++ [user]
  wallet : ∃ w : Wallet, after.wallets.rows = before.wallets.rows ++ [w] ∧ w.userId = user.id ∧
    w.balance = 0
  token : ∃ t : RefreshToken, after.refreshTokens.rows = before.refreshTokens.rows ++ [t] ∧
    t.userId = user.id
  others : ∃ logs, after = { before with
    users := after.users, wallets := after.wallets, refreshTokens := after.refreshTokens,
      auditLogs := logs }

def Succeeds (before after : Database) (r : Except AppError User) : ProfileRequest → Prop
  | .register _ normalize email _ _ _ _ => ∃ user, r = .ok user ∧ Enrols before after normalize email user
  | .updateProfile userId fullName phone => ∃ user, UserRepository.byId userId before = some user ∧
      r = .ok (renamed user fullName phone)

/-- A clash ends in a ConflictError and nothing changed, and all else succeeds. -/
def Honours (answer : Request → Option PaystackData) (db : Database) (request : ProfileRequest) : Prop :=
  let ended := runAlone answer request.program db
  (Clashes db request → (∃ message code, ended.1 = .error (.conflict message code)) ∧ ended.2 = db) ∧
    (¬ Clashes db request → Succeeds db ended.2 ended.1 request)

/-- The lookup of the service finds the other user. -/
def Noticed (db : Database) : ProfileRequest → Prop
  | .register _ normalize email _ _ _ _ =>
      ∃ u ∈ db.users.rows, u.email = normalize email ∧ u.deletedAt = none
  | .updateProfile userId _ phone => ∃ u ∈ db.users.rows, u.id ≠ userId ∧ u.deletedAt = none ∧
      ∃ number, phone = some number ∧ u.phone = some number

def Storable (db : Database) : ProfileRequest → Prop
  | .register _ _ _ _ fullName phone _ =>
      (varchar 255 fullName).isSome = true ∧ (phone.all fun number => (varchar 20 number).isSome) = true
  | .updateProfile userId fullName phone => ∀ user, UserRepository.byId userId db = some user →
      UserRepository.fitting user fullName phone = true

section Registration
variable {cfg : Settings} {normalize : String → String} {email hashed name : String} {phone : Option String}
  {draws : RegistrationDraws}

theorem byEmail_isSome : (UserRepository.byEmail (normalize email) db).isSome = true ↔
    Noticed db (.register cfg normalize email hashed name phone draws) := by
  simp [UserRepository.byEmail, Noticed, List.find?_isSome]

theorem sharesSome_false {a b : Option String} : sharesSome a b = false ↔ ∀ x, b = some x → a ≠ some x := by
  cases a <;> cases b <;> simp [sharesSome]

theorem user_admits_iff {user : User} : db.users.admits user = true ↔ db.users.find? user.id = none ∧
    ∀ u ∈ db.users.rows, u.email ≠ user.email ∧ ∀ number, user.phone = some number →
    u.phone ≠ some number := by
  rw [admits_iff, find?_none_iff]
  have apart : ∀ u : User, clash u user = false ↔ u.id ≠ user.id ∧ u.email ≠ user.email ∧
      ∀ number, user.phone = some number → u.phone ≠ some number := by
    intro u
    rw [← sharesSome_false]
    simp [clash, and_assoc]
  constructor
  · intro free
    exact ⟨fun u mem => ((apart u).mp (free u mem)).1, fun u mem => ((apart u).mp (free u mem)).2⟩
  · rintro ⟨ids, others⟩ u mem
    exact (apart u).mpr ⟨ids u mem, others u mem⟩

theorem register_noticed (answer : Request → Option PaystackData)
    (noticed : Noticed db (.register cfg normalize email hashed name phone draws)) :
    runAlone answer (register cfg normalize email hashed name phone draws) db =
      (.error (.conflict "An account with this email already exists." "EMAIL_CONFLICT"), db) := by
  have found := byEmail_isSome.mpr noticed
  unfold runAlone register
  simp only [UserRepository.getByEmail, exec_query]
  rw [exec_seq]
  have seen : (start db : Solo).seen = db := rfl
  cases existing : UserRepository.byEmail (normalize email) db with
  | none => simp [existing] at found
  | some user =>
    rw [seen, existing]
    rfl

theorem register_unnoticed
    (unnoticed : ¬ Noticed db (.register cfg normalize email hashed name phone draws)) :
    exec answer (register cfg normalize email hashed name phone draws) (start db) =
      exec answer (UserRepository.create normalize draws.userId email hashed name phone >>= fun user => do
        let _ ← createWallet draws.walletId user.id
        storeRefreshToken cfg user.id draws.refreshHash draws.utcNow
        commit
        auditLog { actorId := some user.id, actorType := .user, action := "user.registered",
                   targetType := some "user", targetId := some user.id }
        pure user) (start db) := by
  have missed : UserRepository.byEmail (normalize email) db = none := by
    rw [← Option.not_isSome_iff_eq_none]
    intro found
    exact unnoticed (byEmail_isSome.mp found)
  unfold register
  simp only [UserRepository.getByEmail, exec_query]
  have seen : (start db : Solo).seen = db := rfl
  rw [seen, missed]
  rfl

def rowOf (normalize : String → String) (email hashed name : String) (phone : Option String)
    (draws : RegistrationDraws) : User :=
  { id := draws.userId, email := normalize email, hashedPassword := hashed, fullName := name, phone }

theorem row_admits_iff (cfg : Settings) {stored : Option String}
    (fresh : db.users.find? draws.userId = none) (kept : phone.mapM (varchar 20) = some stored) :
    db.users.admits (rowOf normalize email hashed name stored draws) = true ↔
      ¬ Clashes db (.register cfg normalize email hashed name phone draws) := by
  have numbers : ∀ number, stored = some number ↔ ∃ typed, phone = some typed ∧
      varchar 20 typed = some number := by
    intro number
    cases phone with
    | none =>
      cases kept
      simp
    | some typed =>
      cases made : varchar 20 typed with
      | none => simp [made] at kept
      | some n =>
        have same : some n = stored := by simpa [made] using kept
        simp [← same, made]
  rw [user_admits_iff]
  constructor
  · rintro ⟨_, others⟩ ⟨u, mem, email | ⟨typed, number, asked, made, has⟩⟩
    · exact (others u mem).1 email
    · exact (others u mem).2 number ((numbers number).mpr ⟨typed, asked, made⟩) has
  · intro none
    refine ⟨fresh, ?_⟩
    intro u mem
    constructor
    · intro email
      exact none ⟨u, mem, .inl email⟩
    · intro number carried has
      obtain ⟨typed, asked, made⟩ := (numbers number).mp carried
      exact none ⟨u, mem, .inr ⟨typed, number, asked, made, has⟩⟩

/-- An error of the database that no service turns into an answer. -/
def Unhandled (r : Except AppError User) : Prop := r = .error .database ∨ ∃ c, r = .error (.integrity c)

theorem phone_kept_iff : (∃ stored, phone.mapM (varchar 20) = some stored) ↔
    (phone.all fun number => (varchar 20 number).isSome) = true := by
  cases phone with
  | none => simp
  | some number => cases made : varchar 20 number <;> simp [made]

theorem insert_refused (answer : Request → Option PaystackData) {s : Solo} {user : User}
    (taken : s.seen.users.admits user = false) :
    ∃ c u, exec answer (UserRepository.insert user) s = (.error (.integrity c), u) := by
  simp only [UserRepository.insert, exec, taken, Bool.false_eq_true, if_false]
  split
  · exact ⟨_, _, rfl⟩
  · split <;> exact ⟨_, _, rfl⟩

theorem yields_createUser (answer : Request → Option PaystackData) {s : Solo} {fullName : String}
    {stored : Option String}
    (full : varchar 255 name = some fullName) (kept : phone.mapM (varchar 20) = some stored)
    (admits : s.seen.users.admits (rowOf normalize email hashed fullName stored draws) = true) :
    Yields answer (UserRepository.create normalize draws.userId email hashed name phone) s
      (rowOf normalize email hashed fullName stored draws)
      { s with pending := s.pending ++
        [.insertUser (rowOf normalize email hashed fullName stored draws)] } := by
  unfold UserRepository.create
  rw [full, kept]
  change exec answer (UserRepository.insert (rowOf normalize email hashed fullName stored draws)) s = _
  simp only [UserRepository.insert, exec, admits, if_true]

theorem yields_createWallet (answer : Request → Option PaystackData) (s : Solo) (walletId userId : Uuid)
    (unowned : ∀ w ∈ s.seen.wallets.rows, w.userId ≠ userId)
    (admits : s.seen.wallets.admits ({ id := walletId, userId, currency := "NGN" } : Wallet) = true) :
    ∃ m, Yields answer (createWallet walletId userId) s
    ({ id := walletId, userId, currency := "NGN" } : Wallet)
      { s with
        pending := s.pending ++ [.insertWallet ({ id := walletId, userId, currency := "NGN" } : Wallet)]
        memory := m } := by
  have none : WalletRepository.byUserId userId s.seen = none := by
    unfold WalletRepository.byUserId
    rw [List.find?_eq_none]
    intro w mem
    simp [unowned w mem]
  apply Exists.intro
  unfold createWallet Yields
  rw [exec_seq]
  simp only [WalletRepository.getByUserId, WalletRepository.select, exec, none, List.append_nil]
  change exec answer (WalletRepository.create walletId userId "NGN") s = _
  simp only [WalletRepository.create, exec, admits, if_true]
  rfl

theorem yields_storeRefreshToken (answer : Request → Option PaystackData) (cfg : Settings) (userId : Uuid)
    (utcNow : Timestamp) {s : Solo} {refreshHash : String}
    (free : s.seen.refreshTokens.find? refreshHash = none) :
    Yields answer (storeRefreshToken cfg userId refreshHash utcNow) s ()
      { s with
        pending := s.pending ++ [.insertRefreshToken
          { userId, tokenHash := refreshHash,
            expiresAt := utcNow + seconds (cfg.refreshTokenExpireDays * 86400) }] } := by
  have admits : s.seen.refreshTokens.admits
      { userId, tokenHash := refreshHash,
        expiresAt := utcNow + seconds (cfg.refreshTokenExpireDays * 86400) } = true := by
    rw [admits_iff]
    intro t mem
    exact beq_eq_false_iff_ne.mpr (find?_none_iff.mp free t mem)
  simp only [Yields, storeRefreshToken, exec, admits, if_true]

theorem register_unhandled (prepared : Prepared db (.register cfg normalize email hashed name phone draws))
    (unnoticed : ¬ Noticed db (.register cfg normalize email hashed name phone draws))
    (refused : Storable db (.register cfg normalize email hashed name phone draws) →
      Clashes db (.register cfg normalize email hashed name phone draws)) :
    Unhandled (runAlone answer (register cfg normalize email hashed name phone draws) db).1 := by
  unfold runAlone
  rw [register_unnoticed unnoticed]
  unfold UserRepository.create
  cases full : varchar 255 name with
  | none => exact .inl rfl
  | some fullName =>
    cases kept : phone.mapM (varchar 20) with
    | none => exact .inl rfl
    | some stored =>
      have clashes := refused ⟨by rw [full]; rfl, phone_kept_iff.mp ⟨stored, kept⟩⟩
      have taken : db.users.admits (rowOf normalize email hashed fullName stored draws) = false := by
        rw [← Bool.not_eq_true, row_admits_iff cfg prepared.1 kept]
        exact fun free => free clashes
      obtain ⟨c, u, raised⟩ := insert_refused answer (s := start db) taken
      change Unhandled (exec answer
        (UserRepository.insert (rowOf normalize email hashed fullName stored draws) >>= _) (start db)).1
      rw [exec_seq, raised]
      exact .inr ⟨c, rfl⟩

theorem register_succeeds (prepared : Prepared db (.register cfg normalize email hashed name phone draws))
    (unnoticed : ¬ Noticed db (.register cfg normalize email hashed name phone draws))
    (storable : Storable db (.register cfg normalize email hashed name phone draws))
    (free : ¬ Clashes db (.register cfg normalize email hashed name phone draws)) :
    ∃ user, (runAlone answer (register cfg normalize email hashed name phone draws) db).1 = .ok user ∧
      Enrols db (runAlone answer (register cfg normalize email hashed name phone draws) db).2
        normalize email user := by
  obtain ⟨fullName, full⟩ := Option.isSome_iff_exists.mp storable.1
  obtain ⟨stored, kept⟩ := phone_kept_iff.mpr storable.2
  let user := rowOf normalize email hashed fullName stored draws
  let wallet : Wallet := { id := draws.walletId, userId := draws.userId, currency := "NGN" }
  let token : RefreshToken :=
    { userId := draws.userId, tokenHash := draws.refreshHash,
      expiresAt := draws.utcNow + seconds (cfg.refreshTokenExpireDays * 86400) }
  let entry : AuditLog := { actorId := some draws.userId, actorType := .user, action := "user.registered",
                            targetType := some "user", targetId := some draws.userId }
  have admits : db.users.admits user = true := (row_admits_iff cfg prepared.1 kept).mpr free
  have walletFits : db.wallets.admits wallet = true := by
    rw [admits_iff]
    intro w mem
    obtain ⟨id, owner⟩ := prepared.2.1 w mem
    simp [clash, wallet, id, owner]
  have tokenFits : db.refreshTokens.admits token = true := by
    rw [admits_iff]
    intro t mem
    exact beq_eq_false_iff_ne.mpr (find?_none_iff.mp prepared.2.2 t mem)
  have ends : ∃ u : Solo, Yields answer (register cfg normalize email hashed name phone draws)
      (start db) user u ∧
      u.db = applyWrite (.insertAuditLog entry)
        (applyAll [Write.insertUser user, Write.insertWallet wallet, Write.insertRefreshToken token]
          db) := by
    unfold Yields
    rw [register_unnoticed unnoticed]
    obtain ⟨m, opened⟩ :=
      yields_createWallet answer { (start db : Solo) with pending := [.insertUser user] }
      draws.walletId draws.userId (fun w mem => (prepared.2.1 w mem).2) walletFits
    have created := yields_createUser answer (s := start db) full kept admits
    have stores := yields_storeRefreshToken answer cfg draws.userId draws.utcNow
      (s := ⟨db, [.insertUser user, .insertWallet wallet], m, []⟩) prepared.2.2
    apply Exists.intro
    constructor
    · apply yields_seq created
      apply yields_seq opened
      apply yields_seq stores
      apply yields_seq yields_commit
      exact yields_seq (yields_auditLog entry rfl) rfl
    · rfl
  obtain ⟨u, yields, leaves⟩ := ends
  unfold runAlone
  unfold Yields at yields
  rw [yields]
  refine ⟨user, rfl, rfl, ?_, ?_, ?_, ?_⟩
  all_goals simp only [leaves]
  · exact insert_rows admits
  · exact ⟨wallet, insert_rows walletFits, rfl, rfl⟩
  · exact ⟨token, insert_rows tokenFits, rfl⟩
  · exact ⟨_, rfl⟩

end Registration

section Profile
variable {user : User} {fullName phone : Option String}

theorem sole_phone {a b : User} {number : String} (memA : a ∈ db.users.rows) (memB : b ∈ db.users.rows)
    (hasA : a.phone = some number) (hasB : b.phone = some number) : a = b :=
  same_row_of_clash memA memB (by simp [clash, sharesSome, hasA, hasB])

theorem allows_rephone_iff (number : String) (stored : db.users.find? user.id = some user) :
    db.users.allows (rephone user.id user.phone number) = true ↔
      ∀ u ∈ db.users.rows, u.id ≠ user.id → u.phone ≠ some number := by
  have mem := (find?_some_iff.mp stored).1
  have own : rephone user.id user.phone number user = { user with phone := some number } :=
    by simp [rephone]
  have other : ∀ u : User, u.id ≠ user.id → rephone user.id user.phone number u = u := by
    intro u ne
    simp [rephone, ne]
  rw [allows_iff]
  constructor
  · intro apart u memU ne has
    have free := apart u memU user mem (fun same => ne (congrArg User.id same))
    rw [own, other u ne] at free
    simp [clash, sharesSome, has] at free
  · intro free a memA b memB ne
    have before : clash a b = false := by
      rw [← Bool.not_eq_true]
      exact fun clashes => ne (same_row_of_clash memA memB clashes)
    have renumbered : ∀ u ∈ db.users.rows, u ≠ user → clash u user = false →
        clash u { user with phone := some number } = false := by
      intro u memU differs apart
      have id : u.id ≠ user.id := by
        intro same
        exact differs (same_row_of_clash memU mem (by simp [clash, same]))
      have has := free u memU id
      simp only [clash, Bool.or_eq_false_iff] at apart ⊢
      exact ⟨apart.1, sharesSome_false.mpr (by simpa using has)⟩
    by_cases left : a = user
    · subst left
      have right : b.id ≠ a.id := by
        intro same
        exact ne (same_row_of_clash memA memB (by simp [clash, same]))
      rw [own, other b right, Keyed.clash_symm]
      exact renumbered b memB (Ne.symm ne) (by rw [Keyed.clash_symm]; exact before)
    · have id : a.id ≠ user.id := by
        intro same
        exact left (same_row_of_clash memA mem (by simp [clash, same]))
      rw [other a id]
      by_cases right : b = user
      · subst right
        rw [own]
        exact renumbered a memA ne before
      · have id' : b.id ≠ user.id := by
          intro same
          exact right (same_row_of_clash memB mem (by simp [clash, same]))
        rw [other b id']
        exact before

theorem byPhone_own {number : String} : (UserRepository.byPhone number db).all (·.id == user.id) = true ↔
    ∀ u ∈ db.users.rows, u.deletedAt = none → u.phone = some number → u.id = user.id := by
  cases found : UserRepository.byPhone number db with
  | none =>
    have missed := List.find?_eq_none.mp found
    simp only [Option.all_none, true_iff]
    intro u mem live has
    have := missed u mem
    simp [has, live] at this
  | some other =>
    have mem := List.mem_of_find?_eq_some found
    have fits := List.find?_some found
    simp only [Bool.and_eq_true, beq_iff_eq, Option.isNone_iff_eq_none] at fits
    simp only [Option.all_some, beq_iff_eq]
    constructor
    · intro own u memU _ has
      rw [sole_phone memU mem has fits.1]
      exact own
    · intro own
      exact own other mem fits.2 fits.1

theorem updateProfile_noticed (answer : Request → Option PaystackData)
    (found : UserRepository.byId user.id db = some user)
    (noticed : Noticed db (.updateProfile user.id fullName phone)) :
    runAlone answer (PayCoreAccounts.updateProfile user.id fullName phone) db =
      (.error (.conflict "This phone number is already registered." "PHONE_CONFLICT"), db) := by
  obtain ⟨other, mem, ne, live, number, rfl, has⟩ := noticed
  have self := (find?_some_iff.mp (Option.filter_eq_some_iff.mp found).1).1
  have differs : some number ≠ user.phone := by
    intro same
    exact ne (congrArg User.id (sole_phone mem self has same.symm))
  have taken : (UserRepository.byPhone number db).all (·.id == user.id) = false := by
    rw [← Bool.not_eq_true, byPhone_own]
    exact fun own => ne (own other mem live has)
  have seen : (start db : Solo).seen = db := rfl
  have raised : exec answer (PayCoreAccounts.updateProfile user.id fullName (some number)) (start db) =
      (.error (.conflict "This phone number is already registered." "PHONE_CONFLICT"), start db) := by
    unfold PayCoreAccounts.updateProfile
    simp only [UserRepository.getById, UserRepository.getByPhone, exec_query, seen, found]
    change exec answer (if some number = user.phone then _ else _) (start db) = _
    rw [if_neg differs, exec_query, seen, taken]
    rfl
  unfold runAlone
  rw [raised]
  rfl

/-- The number is the user's own, or the lookup has found nobody else. -/
theorem updateProfile_unnoticed (found : UserRepository.byId user.id db = some user)
    (unnoticed : ¬ Noticed db (.updateProfile user.id fullName phone)) :
    exec answer (PayCoreAccounts.updateProfile user.id fullName phone) (start db) =
      exec answer (UserRepository.updateProfile user fullName phone) (start db) := by
  have seen : (start db : Solo).seen = db := rfl
  unfold PayCoreAccounts.updateProfile
  simp only [UserRepository.getById, UserRepository.getByPhone, exec_query, seen, found]
  cases phone with
  | none => rfl
  | some number =>
    change exec answer (if some number = user.phone then _ else _) (start db) = _
    split
    · rfl
    · have own : (UserRepository.byPhone number db).all (·.id == user.id) = true := by
        apply byPhone_own.mpr
        intro u mem live has
        by_contra ne
        exact unnoticed ⟨u, mem, ne, live, number, rfl, has⟩
      rw [exec_query, seen, own]
      rfl

theorem clashes_iff (stored : db.users.find? user.id = some user) :
    Clashes db (.updateProfile user.id fullName phone) ↔ ∃ number, phone = some number ∧
    phone ≠ user.phone ∧
      db.users.allows (rephone user.id user.phone number) = false := by
  have self := (find?_some_iff.mp stored).1
  constructor
  · rintro ⟨other, mem, ne, number, rfl, has⟩
    refine ⟨number, rfl, ?_, ?_⟩
    · intro same
      exact ne (congrArg User.id (sole_phone mem self has same.symm))
    · rw [← Bool.not_eq_true, allows_rephone_iff number stored]
      exact fun free => free other mem ne has
  · rintro ⟨number, rfl, _, refused⟩
    by_contra none
    have free := (allows_rephone_iff number stored).mpr
      fun u mem ne has => none ⟨u, mem, ne, number, rfl, has⟩
    rw [refused] at free
    cases free

theorem updateProfile_unhandled (found : UserRepository.byId user.id db = some user)
    (unnoticed : ¬ Noticed db (.updateProfile user.id fullName phone))
    (refused : UserRepository.fitting user fullName phone = true →
      Clashes db (.updateProfile user.id fullName phone)) :
    Unhandled (runAlone answer (PayCoreAccounts.updateProfile user.id fullName phone) db).1 := by
  have stored := (Option.filter_eq_some_iff.mp found).1
  unfold runAlone
  rw [updateProfile_unnoticed found unnoticed]
  unfold UserRepository.updateProfile
  cases fits : UserRepository.fitting user fullName phone with
  | false => exact .inl rfl
  | true =>
    obtain ⟨number, rfl, differs, taken⟩ := (clashes_iff stored).mp (refused fits)
    right
    refine ⟨.usersPhone, ?_⟩
    change (exec answer (Prog.stmt _ _ _ _ _) (start db : Solo)).1 = _
    have seen : (start db : Solo).seen = db := rfl
    have held : UserRepository.heldPhone user.id db = user.phone :=
      by simp [UserRepository.heldPhone, stored]
    simp [exec, seen, held, changed, differs, taken]

theorem updateProfile_succeeds (found : UserRepository.byId user.id db = some user)
    (unnoticed : ¬ Noticed db (.updateProfile user.id fullName phone))
    (fits : UserRepository.fitting user fullName phone = true)
    (free : ¬ Clashes db (.updateProfile user.id fullName phone)) :
    (runAlone answer (PayCoreAccounts.updateProfile user.id fullName phone) db).1 =
      .ok (renamed user fullName phone) := by
  have stored := (Option.filter_eq_some_iff.mp found).1
  have allowed : ∀ number, phone = some number → phone ≠ user.phone →
      db.users.allows (rephone user.id user.phone number) = true := by
    intro number asked differs
    rw [← Bool.not_eq_false]
    exact fun refused => free ((clashes_iff stored).mpr ⟨number, asked, differs, refused⟩)
  obtain ⟨u, answers, _⟩ : ∃ u, exec answer (UserRepository.updateProfile user fullName phone) (start db) =
      (.ok (renamed user fullName phone), u) ∧ u.db = db := updateRow_answers stored fits allowed
  unfold runAlone
  rw [updateProfile_unnoticed found unnoticed, answers]

end Profile

/-- Where nobody is noticed who has the email or the phone, the request meets no clash and its
    values fit in. -/
def Heeded (db : Database) (request : ProfileRequest) : Prop :=
  Noticed db request ∨ (¬ Clashes db request ∧ Storable db request)

theorem noticed_clashes {request : ProfileRequest} (noticed : Noticed db request) : Clashes db request := by
  cases request with
  | register =>
    obtain ⟨u, mem, email, _⟩ := noticed
    exact ⟨u, mem, .inl email⟩
  | updateProfile =>
    obtain ⟨u, mem, ne, _, number, asked, has⟩ := noticed
    exact ⟨u, mem, ne, number, asked, has⟩

/-- What the request ends with: a conflict where somebody is noticed, success where nothing stands
   against it, and an error of the database elsewhere. -/
theorem request_ends {request : ProfileRequest} (prepared : Prepared db request)
    (answer : Request → Option PaystackData) :
    let ended := runAlone answer request.program db
    (Noticed db request → (∃ message code, ended.1 = .error (.conflict message code)) ∧ ended.2 = db) ∧
      (¬ Noticed db request → ¬ Clashes db request ∧ Storable db request →
        Succeeds db ended.2 ended.1 request) ∧
      (¬ Noticed db request → (Storable db request → Clashes db request) → Unhandled ended.1) := by
  cases request with
  | register cfg normalize email hashed name phone draws =>
    refine ⟨?_, ?_, ?_⟩
    · intro noticed
      have ends := register_noticed answer noticed
      dsimp only [ProfileRequest.program]
      rw [ends]
      exact ⟨⟨_, _, rfl⟩, rfl⟩
    · intro unnoticed ⟨free, storable⟩
      exact register_succeeds prepared unnoticed storable free
    · exact register_unhandled prepared
  | updateProfile userId fullName phone =>
    obtain ⟨user, found⟩ := prepared
    have own : user.id = userId := (find?_some_iff.mp (Option.filter_eq_some_iff.mp found).1).2
    subst own
    have storable : Storable db (.updateProfile user.id fullName phone) ↔
        UserRepository.fitting user fullName phone = true := by
      constructor
      · intro all
        exact all user found
      · intro fits other found'
        rw [Option.some.inj (found'.symm.trans found)]
        exact fits
    refine ⟨?_, ?_, ?_⟩
    · intro noticed
      have ends := updateProfile_noticed answer found noticed
      dsimp only [ProfileRequest.program]
      rw [ends]
      exact ⟨⟨_, _, rfl⟩, rfl⟩
    · intro unnoticed ⟨free, fits⟩
      exact ⟨user, found, updateProfile_succeeds found unnoticed (storable.mp fits) free⟩
    · intro unnoticed refused
      exact updateProfile_unhandled found unnoticed (fun fits => refused (storable.mpr fits))

theorem succeeds_handled {before after : Database} {r : Except AppError User} {request : ProfileRequest}
    (succeeds : Succeeds before after r request) : ¬ Unhandled r := by
  have fine : ∀ user : User, r = .ok user → ¬ Unhandled r := by
    rintro user rfl (never | ⟨c, never⟩) <;> cases never
  cases request with
  | register =>
    obtain ⟨user, ok, _⟩ := succeeds
    exact fine user ok
  | updateProfile =>
    obtain ⟨user, _, ok⟩ := succeeds
    exact fine _ ok

/-- A registration or an update of a profile turns every clash into a ConflictError and succeeds
    otherwise, exactly where a live user is found who has the email or the number, or no user
    at all, soft-deleted or not, has them and the values fit their columns. -/
theorem clashes_are_conflicts_iff {request : ProfileRequest} (prepared : Prepared db request)
    (answer : Request → Option PaystackData) : Honours answer db request ↔ Heeded db request := by
  obtain ⟨conflict, success, failure⟩ := request_ends prepared answer
  constructor
  · rintro ⟨clashing, otherwise⟩
    by_contra unheeded
    have unnoticed : ¬ Noticed db request := fun noticed => unheeded (.inl noticed)
    have refused : Storable db request → Clashes db request := by
      intro fits
      by_contra free
      exact unheeded (.inr ⟨free, fits⟩)
    have failed := failure unnoticed refused
    by_cases clashes : Clashes db request
    · obtain ⟨⟨message, code, told⟩, _⟩ := clashing clashes
      rcases failed with lost | ⟨c, lost⟩ <;> rw [told] at lost <;> cases lost
    · exact succeeds_handled (otherwise clashes) failed
  · rintro (noticed | ⟨free, fits⟩)
    · exact ⟨fun _ => conflict noticed, fun none => absurd (noticed_clashes noticed) none⟩
    · refine ⟨fun clashes => absurd clashes free, fun _ => success ?_ ⟨free, fits⟩⟩
      exact fun noticed => free (noticed_clashes noticed)

/-- Ada has closed her account. -/
def goneDb : Database :=
  { emptyDatabase with users := Table.empty.insert { ada with deletedAt := some 1 } }

def registers (email : String) (phone : Option String) : ProfileRequest :=
  .register {} (fun s => s) email "" "Ada" phone ⟨2, 12, "h", 0⟩

theorem ada_prepared (db : Database) (users : db.users.rows.map (·.id) = [1])
    (wallets : db.wallets.rows = [])
    (tokens : db.refreshTokens.rows = []) (email : String) (phone : Option String) :
    Prepared db (registers email phone) := by
  refine ⟨?_, by simp [wallets], by simp [Table.find?, tokens]⟩
  rw [find?_none_iff]
  intro u mem same
  have listed : u.id ∈ db.users.rows.map (·.id) := List.mem_map_of_mem mem
  have two : u.id = 2 := same
  simp [users, two] at listed

/-- Her email is free for get_by_email and taken for the database. -/
theorem closed_account_clashes : Prepared goneDb (registers "ada@x.ng" none) ∧
    ¬ Honours (fun _ => none) goneDb (registers "ada@x.ng" none) := by
  refine ⟨ada_prepared _ (by decide) (by decide) (by decide) _ _, ?_⟩
  rintro ⟨clashing, _⟩
  have clashes : Clashes goneDb (registers "ada@x.ng" none) :=
    ⟨{ ada with deletedAt := some 1 }, by decide, .inl (by decide)⟩
  obtain ⟨⟨message, code, told⟩, _⟩ := clashing clashes
  have ended : (runAlone (fun _ => none) (registers "ada@x.ng" none).program goneDb).1 =
      .error (.integrity .usersEmail) := by decide +kernel
  rw [ended] at told
  cases told

theorem free_email_is_registered :
    Honours (fun _ => none) profileDb (registers "bob@x.ng" (some "08012345678")) := by
  apply (clashes_are_conflicts_iff (ada_prepared _ (by decide) (by decide) (by decide) _ _) _).mpr
  refine .inr ⟨?_, by decide, by decide⟩
  rintro ⟨u, mem, taken⟩
  have only : u = ada := by simpa [profileDb, Table.empty, Table.insert, Table.admits] using mem
  subst only
  rcases taken with email | ⟨number, stored, _, _, has⟩
  · exact absurd email (by decide)
  · cases has

end PayCoreProfileClashes
