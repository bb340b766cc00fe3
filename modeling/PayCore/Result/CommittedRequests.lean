import PayCore.Proof.MoneyCommits

/- Commit discipline: get_db commits nothing, so every request of a router has to reach a commit of
   its own before it reports success. -/
namespace PayCoreCommittedRequests
open KeyedTable SessionProgram SerialRuns DurableSessions PayCoreTables PayCoreWrites PayCoreSessions
open PayCoreRepositories PayCoreSupport PayCoreMerchants PayCoreAccounts PayCoreJobs PayCoreOperations
open PayCoreCoherence PayCorePersistence PayCoreCommitRules PayCoreAccountCommits PayCoreMoneyCommits

def renamed (user : User) (fullName phone : Option String) : User :=
  { user with fullName := fullName.getD user.fullName, phone := phone.or user.phone }

/-- An active user asks for another name or number than the stored one, the columns take them and
    nobody has the number: neither the service nor the router commits the UPDATE. -/
def Forgotten (db : Database) : Operation → Prop
  | .updateProfile currentUserId fullName phone => ∃ user,
      UserRepository.byId currentUserId db = some user ∧ user.isActive = true ∧
        renamed user fullName phone ≠ user ∧ UserRepository.fitting user fullName phone = true ∧
        ∀ number, phone = some number → phone ≠ user.phone →
          (UserRepository.byPhone number db).all (·.id == user.id) = true ∧
            db.users.allows (rephone user.id user.phone number) = true
  | _ => False

variable {α β : Type} {T : α → Database → Prop} {s : Held} {answer : Request → Option PaystackData}
  {user : User} {fullName phone : Option String}

theorem name_kept (same : fullName.getD user.fullName = user.fullName) :
    (fullName.bind fun n => changed (some n) (some user.fullName)) = none := by
  cases fullName with
  | none => rfl
  | some n =>
    have eq : n = user.fullName := same
    simp [changed, eq]

theorem phone_kept (same : phone.or user.phone = user.phone) :
    (phone.bind fun p => changed (some p) user.phone) = none := by
  cases phone with
  | none => rfl
  | some p =>
    have eq : some p = user.phone := same
    rw [← eq]
    simp [changed]

theorem exec_query {f : Database → β} {k : β → Tx α} :
    exec answer (query f >>= k) s = exec answer (k (f s.seen)) s := by
  change exec answer (k (f s.seen)) { s with pending := s.pending ++ [] } = _
  rw [List.append_nil]

theorem phone_fits {db : Database} (stored : db.users.find? user.id = some user)
    (free : ∀ number, phone = some number → phone ≠ user.phone →
      db.users.allows (rephone user.id user.phone number) = true) :
    ((phone.bind fun p => changed (some p) user.phone).all fun p =>
      db.users.allows (rephone user.id (UserRepository.heldPhone user.id db) p)) = true := by
  have held : UserRepository.heldPhone user.id db = user.phone := by
    simp [UserRepository.heldPhone, stored]
  rw [held]
  by_cases same : phone.or user.phone = user.phone
  · rw [phone_kept same]
    rfl
  · cases phone with
    | none => exact absurd rfl same
    | some number =>
      have other : some number ≠ user.phone := same
      simp [changed, other, free number rfl other]

theorem updateRow_answers (stored : s.seen.users.find? user.id = some user)
    (fits : UserRepository.fitting user fullName phone = true)
    (free : ∀ number, phone = some number → phone ≠ user.phone →
      s.seen.users.allows (rephone user.id user.phone number) = true) :
    ∃ u, exec answer (UserRepository.updateProfile user fullName phone) s =
    (.ok (renamed user fullName phone), u) ∧
      u.db = s.db := by
  apply Exists.intro
  constructor
  · unfold UserRepository.updateProfile
    rw [fits]
    change exec answer (Prog.stmt _ _ _ _ _) s = _
    simp only [exec, phone_fits stored free, if_true]
    exact rfl
  · rfl

theorem updateProfile_answers (found : UserRepository.byId user.id s.seen = some user)
    (fits : UserRepository.fitting user fullName phone = true)
    (free : ∀ number, phone = some number → phone ≠ user.phone →
      (UserRepository.byPhone number s.seen).all (·.id == user.id) = true ∧
        s.seen.users.allows (rephone user.id user.phone number) = true) :
    ∃ u, exec answer (PayCoreAccounts.updateProfile user.id fullName phone) s =
      (.ok (renamed user fullName phone), u) ∧ u.db = s.db := by
  have row : ∃ u, exec answer (UserRepository.updateProfile user fullName phone) s =
      (.ok (renamed user fullName phone), u) ∧ u.db = s.db :=
    updateRow_answers (Option.filter_eq_some_iff.mp found).1 fits
      (fun number given other => (free number given other).2)
  unfold PayCoreAccounts.updateProfile
  simp only [UserRepository.getById, UserRepository.getByPhone, exec_query, found]
  cases phone with
  | none => exact row
  | some number =>
    change ∃ u, exec answer (if some number = user.phone then _ else _) s = _ ∧ _
    split
    · exact row
    · rename_i other
      rw [exec_query, (free number rfl other).1]
      exact row

theorem getCurrentUser_answers {userId : Uuid} (found : UserRepository.byId userId s.seen = some user)
    (active : user.isActive = true) : exec answer (getCurrentUser userId) s = (.ok user, s) := by
  unfold getCurrentUser
  simp only [UserRepository.getById, exec_query, found]
  change exec answer (require user.isActive _ >>= fun _ => .ret user) s = _
  rw [active]
  rfl

theorem forgotten_lost {db : Database} {op : Operation} (forgets : Forgotten db op) :
    ¬ Durable answer Report.stands op.reports db := by
  cases op with
  | updateProfile currentUserId fullName phone =>
    obtain ⟨user, found, active, other, fits, free⟩ := forgets
    have stored := (Option.filter_eq_some_iff.mp found).1
    have own : user.id = currentUserId := (find?_some_iff.mp stored).2
    obtain ⟨u, answers, still⟩ : ∃ u, exec answer (PayCoreAccounts.updateProfile user.id fullName phone)
        (start db) = (.ok (renamed user fullName phone), u) ∧ u.db = db :=
      updateProfile_answers (by rw [own]; exact found) fits free
    have ends : exec answer (Operation.reports (.updateProfile currentUserId fullName phone)) (start db) =
        (.ok (.user (renamed user fullName phone)), u) := by
      change exec answer (getCurrentUser currentUserId >>= _) (start db) = _
      rw [exec_seq, getCurrentUser_answers found active]
      change exec answer (PayCoreAccounts.updateProfile user.id fullName phone >>= _) (start db) = _
      rw [exec_seq, answers]
      rfl
    intro durable
    have told := (durable _ (by rw [ends])).2
    rw [ends] at told
    change u.db.users.find? user.id = some (renamed user fullName phone) at told
    rw [still] at told
    change db.users.find? user.id = _ at told
    rw [own, stored] at told
    exact other (Option.some.inj told).symm
  | _ => exact forgets.elim

theorem updateRow_settles (stored : s.seen.users.find? user.id = some user) (bare : s.pending = [])
    (free : renamed user fullName phone ≠ user → UserRepository.fitting user fullName phone = true →
      ∃ number, phone = some number ∧ phone ≠ user.phone ∧
        s.seen.users.allows (rephone user.id user.phone number) = false) :
    Settles (fun _ _ => True) (fun u db => (Report.user u).stands db)
      (UserRepository.updateProfile user fullName phone) s := by
  apply require_then
  intro fits
  by_cases same : renamed user fullName phone = user
  · have name : fullName.getD user.fullName = user.fullName := congrArg User.fullName same
    have number : phone.or user.phone = user.phone := congrArg User.phone same
    intro _
    simp only [name_kept name, phone_kept number, Option.all_none, if_true, Option.map_none,
      Option.toList_none,
      List.append_nil, List.map_nil]
    apply settles_ret bare
    change s.db.users.find? user.id = some (renamed user fullName phone)
    rw [same, ← seen_bare bare]
    exact stored
  · obtain ⟨number, asked, other, taken⟩ := free same fits
    have held : UserRepository.heldPhone user.id s.seen = user.phone := by
      simp [UserRepository.heldPhone, stored]
    subst asked
    intro _
    dsimp only
    split
    · rename_i free
      simp [changed, other, held, taken] at free
    · exact settles_raise

theorem number_refused {currentUserId : Uuid}
    (remembers : ¬ Forgotten s.seen (.updateProfile currentUserId fullName phone))
    (found : UserRepository.byId currentUserId s.seen = some user) (active : user.isActive = true)
    (other : renamed user fullName phone ≠ user)
    (fits : UserRepository.fitting user fullName phone = true) :
    ∃ number, phone = some number ∧ phone ≠ user.phone ∧
      ((UserRepository.byPhone number s.seen).all (·.id == user.id) = true →
        s.seen.users.allows (rephone user.id user.phone number) = false) := by
  by_contra none
  apply remembers
  refine ⟨user, found, active, other, fits, ?_⟩
  intro number asked differs
  by_contra taken
  apply none
  refine ⟨number, asked, differs, ?_⟩
  intro own
  simpa [own] using taken

theorem updateProfile_settles {currentUserId : Uuid}
    (remembers : ¬ Forgotten s.seen (.updateProfile currentUserId fullName phone)) (bare : s.pending = []) :
    Settles (fun _ _ => True) Report.stands
      (Operation.reports (.updateProfile currentUserId fullName phone)) s := by
  apply getCurrentUser_then
  intro user found active
  apply reporting_settles
  have refused := number_refused remembers found active
  have stored := (Option.filter_eq_some_iff.mp found).1
  rw [← (find?_some_iff.mp stored).2] at found stored
  change s.seen.users.find? user.id = some user at stored
  apply query_then
  rw [show UserRepository.byId user.id s.seen = some user from found]
  cases phone with
  | none =>
    apply updateRow_settles stored bare
    intro other fits
    obtain ⟨number, asked, _⟩ := refused other fits
    cases asked
  | some number =>
    change Settles _ _ (if some number = user.phone then _ else _) s
    split
    · rename_i same
      apply updateRow_settles stored bare
      intro other fits
      obtain ⟨_, _, differs, _⟩ := refused other fits
      exact absurd same differs
    · apply query_then
      apply require_then
      intro free
      apply updateRow_settles stored bare
      intro other fits
      obtain ⟨number', asked, differs, taken⟩ := refused other fits
      cases asked
      exact ⟨number, rfl, differs, taken free⟩

theorem keeps_anything {α : Type} (p : Tx α) : Keeps (fun _ _ => True) p := by
  induction p with
  | ret a => trivial
  | raise x => trivial
  | stmt rows writes memo next fault ihn ihf => exact fun s m _ => ⟨trivial, ihn s m⟩
  | call request next fault ihn ihf => exact ⟨ihn, ihf⟩
  | commit next fault ihn ihf => exact ihn
  | rollback next ih => exact ih

theorem settles_durable {p : Tx α} {db : Database} (settles : Settles (fun _ _ => True) T p (start db)) :
    Durable answer T p db :=
  durable_of_tidy (fun _ _ _ => trivial) (keeps_anything p) trivial settles

theorem coherent_durable {p : Tx α} {db : Database} (keeps : Keeps Coherent p)
    (settles : Settles Coherent T p (start db)) : Durable answer T p db :=
  durable_of_tidy (fun s _ _ => coherent_blank s) keeps (coherent_blank db) settles

theorem keeps_reporting {p : Tx α} {report : α → Report} (keeps : Keeps Coherent p) :
    Keeps Coherent (reporting report p) :=
  keeps_seq keeps (fun _ => trivial)

theorem remembered_durable {db : Database} (solvent : Solvent db) {op : Operation}
    (requested : op.requested)
    (remembers : ¬ Forgotten db op) : Durable answer Report.stands op.reports db := by
  have nothing : (start db : Held).pending = [] := rfl
  cases op with
  | money job =>
    cases job with
    | register cfg normalize email hashedPassword fullName phone draws =>
      exact settles_durable (reporting_settles register_settles)
    | initiateFunding user amount key draws =>
      exact coherent_durable (keeps_reporting (keeps_initiateFunding _ _ _ _))
        (reporting_settles (initiateFunding_settles nothing))
    | initiateTransfer normalize sender cfg recipient amount key draws =>
      exact coherent_durable (keeps_reporting (keeps_initiateTransfer _ _ _ _ _ _ _))
        (reporting_settles (initiateTransfer_settles nothing requested solvent))
    | initiatePayment payer cfg merchantId amount key draws =>
      exact coherent_durable (keeps_reporting (keeps_initiatePayment _ _ _ _ _ _))
        (reporting_settles (initiatePayment_settles nothing requested solvent))
    | initiateWithdrawal cfg user bankAccountId amount draws =>
      exact coherent_durable (keeps_reporting (keeps_initiateWithdrawal _ _ _ _ _))
        (reporting_settles initiateWithdrawal_settles)
    | _ => exact requested.elim
  | login cfg normalize verifyPassword email password draws =>
      exact settles_durable (reporting_settles login_settles)
  | refresh cfg tokenHash draws => exact settles_durable (reporting_settles refresh_settles)
  | logout tokenHash => exact settles_durable (reporting_settles (logout_settles nothing))
  | updateProfile currentUserId fullName phone =>
      exact settles_durable (updateProfile_settles remembers nothing)
  | createMerchant currentUserId businessName draws =>
    exact settles_durable (userReporting_settles fun _ => createMerchant_settles)
  | rotateApiKey currentUserId rawKey apiKeyHash =>
    exact settles_durable (userReporting_settles fun _ => rotateApiKey_settles)
  | updateWebhookConfig currentUserId webhookUrl newSecret =>
    exact settles_durable (userReporting_settles fun _ => updateWebhookConfig_settles)
  | submitKyc currentUserId targetTier fileBytes submissionId documentKey =>
    exact settles_durable (userReporting_settles fun _ => submitKyc_settles)
  | approveKyc submissionId reviewer utcNow => exact settles_durable (reporting_settles approveKyc_settles)
  | rejectKyc submissionId reviewer reason utcNow =>
      exact settles_durable (reporting_settles rejectKyc_settles)
  | addBankAccount cfg currentUserId accountName accountNumber bankCode bankName accountId =>
    exact settles_durable (userReporting_settles fun _ => addBankAccount_settles)
  | removeBankAccount currentUserId bankAccountId utcNow =>
    exact settles_durable (userReporting_settles fun _ => removeBankAccount_settles)

/-- Whatever the partner answers, a request that reports success leaves all that it flushed to the
    later sessions, and they read what it reported, unless it is a forgotten update of a profile. -/
theorem committed_unless_forgotten {db : Database} (solvent : Solvent db) {op : Operation}
    (requested : op.requested) (answer : Request → Option PaystackData) :
    Durable answer Report.stands op.reports db ↔ ¬ Forgotten db op :=
  ⟨fun durable forgets => forgotten_lost forgets durable, remembered_durable solvent requested⟩

def ada : User := { id := 1, email := "ada@x.ng", hashedPassword := "", fullName := "Ada" }

def profileDb : Database := { emptyDatabase with users := Table.empty.insert ada }

theorem merchant_profile_is_committed :
    Durable (fun _ => none) Report.stands
      (Operation.reports (.createMerchant 1 "Ada's" ⟨2, 3, "pk_live_1", "h", "whsec"⟩)) profileDb := by
  have solvent : Solvent profileDb := by simp [Solvent, profileDb, emptyDatabase, Table.empty]
  have requested :
      Operation.requested (.createMerchant 1 "Ada's" ⟨2, 3, "pk_live_1", "h", "whsec"⟩) := trivial
  exact (committed_unless_forgotten solvent requested _).mpr (fun forgets => forgets)

/-- Ada is told that she is Ada Obi now, and is Ada in every later session. -/
theorem new_name_is_forgotten :
    ¬ Durable (fun _ => none) Report.stands (Operation.reports (.updateProfile 1 (some "Ada Obi") none))
      profileDb := by
  intro durable
  have told := durable (.user { ada with fullName := "Ada Obi" }) (by rfl)
  exact absurd (congrArg (fun db : Database => (db.users.find? 1).map (·.fullName)) told.1) (by decide)

end PayCoreCommittedRequests
