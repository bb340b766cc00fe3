import PayCore.Proof.AskRules
import PayCore.Proof.Regularity
import PayCore.Proof.Statements

/- The rules that one session of a withdrawal, its payout or an event keeps to, whatever
   fails: when it may ask Paystack for a transfer, and what its commits do. -/
namespace PayCoreDispatchRules
open KeyedTable SessionProgram SessionSystem LoneSessions PayCoreTables PayCoreWrites PayCoreSessions
open PayCoreRepositories PayCoreSupport PayCoreWithdrawals PayCorePersistence PayCoreCommits
open PayCoreStatements PayCoreJobs PayCoreRegularity PayCoreAskRules

/-- Paystack documents `transfer_code` as a string: where a reply has the key, it is not null. -/
def Documented : Request → PaystackData → Prop
  | .initiateTransfer .., data => data.transferCode ≠ .null
  | _, _ => True

instance (request : Request) (data : PaystackData) : Decidable (Documented request data) := by
  unfold Documented
  split <;> infer_instance

def concernsPayouts : Job → Prop
  | .initiateWithdrawal .. => True
  | job => job.paysOut

abbrev Trail := List (Event Database Write Request)

/-- A withdrawal is never REVERSED, and PROCESSING only with the code of its transfer. -/
def InOrder (db : Database) : Prop :=
  ∀ t ∈ db.transactions.rows, t.type = .withdrawal →
    t.status ≠ .reversed ∧ (t.status = .processing → t.providerReference ≠ none)

/-- A transfer is asked by the payout of a stored transaction, under its own reference and for
    its own amount; a withdrawal is still PENDING then. -/
def Carries (job : Job) : Request → Database → Prop
  | .initiateTransfer amountKobo _ reference _, db =>
      ∃ t ∈ db.transactions.rows, job = .executePayout t.id ∧ t.reference = reference ∧
        t.amount = amountKobo ∧ (t.type = .withdrawal → t.status = .pending)
  | _, _ => True

def Dispatches (id : Uuid) : Event Database Write Request → Prop
  | .committed ws _ => ∃ set, .updateTransaction id set ∈ ws ∧ set.status = some .processing
  | .asked _ _ => False

structure Progress (ws : List Write) (db : Database) : Prop where
  ordered : InOrder db → InOrder (applyAll ws db)
  onward : Later db (applyAll ws db)
  dispatched : ∀ id set, .updateTransaction id set ∈ ws → set.status = some .processing →
    ∃ t, (applyAll ws db).transactions.find? id = some t ∧ t.status ≠ .pending

section Writes
variable {db : Database}

def Mild : Write → Prop
  | .insertTransaction t => t.status = .pending
  | .updateTransaction _ set =>
      (set.status = some .completed ∨ set.status = some .failed) ∧ set.providerReference = none
  | w => Regular w

theorem mild_regular {w : Write} (h : Mild w) : Regular w := by
  cases w with
  | updateTransaction id set =>
    rcases h.1 with completed | failed
    · simp [Regular, completed]
    · simp [Regular, failed]
  | insertTransaction t => trivial
  | _ => exact h

theorem inOrder_same (h : InOrder db) {s : Database} (same : s.transactions = db.transactions) :
    InOrder s := by
  intro t mem
  rw [same] at mem
  exact h t mem

theorem inOrder_replaced {s : Database} {id : Uuid} {a b : Transaction} (h : InOrder db)
    (moved : Replaced id a b db.transactions s.transactions)
    (fine : b.type = .withdrawal → b.status ≠ .reversed ∧
      (b.status = .processing → b.providerReference ≠ none)) :
    InOrder s := by
  intro t mem
  have found : s.transactions.find? t.id = some t := find?_some_iff.mpr ⟨mem, rfl⟩
  by_cases here : t.id = id
  · rw [here, moved.after] at found
    cases found
    exact fine
  · rw [moved.others t.id here] at found
    exact h t (find?_some_iff.mp found).1

theorem inOrder_mild {w : Write} (mild : Mild w) (h : InOrder db) : InOrder (applyWrite w db) := by
  cases w with
  | insertTransaction a =>
    intro t mem
    cases free : db.transactions.admits a with
    | false =>
      simp only [applyWrite, insert_refused free] at mem
      exact h t mem
    | true =>
      simp only [applyWrite, insert_rows free, List.mem_append, List.mem_singleton] at mem
      rcases mem with old | new
      · exact h t old
      · subst new
        have pending : t.status = .pending := mild
        simp [pending]
  | updateTransaction id set =>
    intro t mem
    have found : (db.transactions.update id (transactionEdit set)).find? t.id = some t :=
      find?_some_iff.mpr ⟨mem, rfl⟩
    rw [find?_update] at found
    split at found
    · obtain ⟨a, _, rfl⟩ := Option.map_eq_some_iff.mp found
      intro _
      rcases mild.1 with completed | failed
      · simp [TransactionUpdate.on, completed]
      · simp [TransactionUpdate.on, failed]
    · exact h t (find?_some_iff.mp found).1
  | account w => exact inOrder_same h (account_transactions w db)
  | _ => exact inOrder_same h rfl

theorem mild_progress {ws : List Write} (mild : ∀ w ∈ ws, Mild w) (db : Database) : Progress ws db where
  ordered h := by
    induction ws generalizing db with
    | nil => exact h
    | cons w ws ih =>
      exact ih (fun v mem => mild v (List.mem_cons_of_mem w mem)) _ (inOrder_mild (mild w (by simp)) h)
  onward := later_all (fun w mem => mild_regular (mild w mem)) db
  dispatched id set mem status := by
    have final := (mild _ mem).1
    simp [status] at final

end Writes

section Sessions
variable {s : Local Database IdentityMap Write Request} {job : Job} {txn : Transaction} {α : Type}
  {Q : Except AppError α → Local Database IdentityMap Write Request → Prop}

abbrev Sure (job : Job) (p : Tx α) (Q : Except AppError α → Local Database IdentityMap Write Request → Prop)
    (s : Local Database IdentityMap Write Request) : Prop :=
  careful Documented (Carries job) Progress p Q s

/-- A recipient code kept on a bank account. -/
def Recipient : Write → Prop
  | .setRecipientCode _ _ => True
  | _ => False

theorem recipient_transactions {ws : List Write} (recipients : ∀ w ∈ ws, Recipient w) (db : Database) :
    (applyAll ws db).transactions = db.transactions := by
  induction ws generalizing db with
  | nil => rfl
  | cons w ws ih =>
    rw [applyAll_cons, ih (fun v mem => recipients v (List.mem_cons_of_mem w mem))]
    have first := recipients w (by simp)
    cases w with
    | setRecipientCode account code => rfl
    | _ => exact first.elim

def revisedBy (sets : List TransactionUpdate) (t : Transaction) : Transaction :=
  sets.foldl (fun t set => set.on t) t

theorem revisedBy_append (sets : List TransactionUpdate) (set : TransactionUpdate) (t : Transaction) :
    revisedBy (sets ++ [set]) t = set.on (revisedBy sets t) := by
  simp [revisedBy]

theorem revised_all {db : Database} (sets : List TransactionUpdate)
    (found : db.transactions.find? txn.id = some txn) :
    Replaced txn.id txn (revisedBy sets txn) db.transactions
      (applyAll (sets.map (Write.updateTransaction txn.id)) db).transactions := by
  induction sets using List.reverseRecOn with
  | nil => exact ⟨found, found, fun _ _ => rfl, fun f => by simp [revisedBy]⟩
  | append_singleton sets set ih =>
    rw [List.map_append, applyAll_append, revisedBy_append]
    exact replaced_trans ih (replaced_update ih.after (transactionEdit set))

theorem revised_fold (sets : List TransactionUpdate) (t : Transaction) :
    Revised t (revisedBy sets t) := by
  induction sets generalizing t with
  | nil => exact revised_refl t
  | cons set sets ih => exact revised_trans (revised_on set t) (ih (set.on t))

theorem dispatch_progress {db : Database} {ws : List Write} {sets : List TransactionUpdate}
    (found : db.transactions.find? txn.id = some txn) (recipients : ∀ w ∈ ws, Recipient w)
    (never_back : ∀ set ∈ sets, set.status ≠ some .pending)
    (sent : txn.type = .withdrawal →
      (revisedBy sets txn).status = .processing ∧
      (revisedBy sets txn).providerReference ≠ none)
    (marked : (∃ set ∈ sets, set.status = some .processing) →
      (revisedBy sets txn).status = .processing) :
    Progress (ws ++ sets.map (Write.updateTransaction txn.id)) db := by
  have same := recipient_transactions recipients db
  have there : (applyAll ws db).transactions.find? txn.id = some txn := by rw [same]; exact found
  have moved := revised_all sets there
  have kind := revised_type (revised_fold sets txn)
  constructor
  · intro h
    rw [applyAll_append]
    apply inOrder_replaced (inOrder_same h same) moved
    intro withdrawal
    rw [kind] at withdrawal
    obtain ⟨processing, referred⟩ := sent withdrawal
    simp [processing, referred]
  · apply later_all
    intro w mem
    rcases List.mem_append.mp mem with recipient | mark
    · have first := recipients w recipient
      cases w with
      | setRecipientCode account code => trivial
      | _ => exact first.elim
    · obtain ⟨set, among, rfl⟩ := List.mem_map.mp mark
      exact never_back set among
  · intro id set mem status
    rcases List.mem_append.mp mem with recipient | mark
    · exact (recipients _ recipient).elim
    · obtain ⟨_, among, same⟩ := List.mem_map.mp mark
      cases same
      rw [applyAll_append]
      have processing := marked ⟨set, among, status⟩
      exact ⟨_, moved.after, by simp [processing]⟩

theorem silent_careful {rows : List Row} {memo : Database → IdentityMap → IdentityMap}
    {next : Database → IdentityMap → Tx α} {x : AppError}
    (onward : Sure job (next s.seen s.memory) Q { s with memory := memo s.seen s.memory })
    (failed : Q (.error x) { s with pending := [] }) :
    Sure job (.stmt rows (fun _ _ => []) memo next (.raise x) : Tx α) Q s := by
  constructor
  · simpa only [List.append_nil] using onward
  · exact failed

theorem flush_careful {set : TransactionUpdate} {Q : Except AppError Transaction → _ → Prop}
    (found : s.seen.transactions.find? txn.id = some txn)
    (onward : ∀ memory, Q (.ok (set.on txn))
      { s with pending := s.pending ++ [.updateTransaction txn.id set], memory })
    (failed : Q (.error .database) { s with pending := [] }) :
    Sure job (TransactionRepository.flush txn set) Q s := by
  constructor
  · simp only [found, Option.getD_some]
    exact onward _
  · exact failed

theorem commit_careful {Q : Except AppError Unit → _ → Prop} (fine : Progress s.pending s.db)
    (anyway : ∀ r u, Q r u) : Sure job commit Q s :=
  ⟨fine, anyway _ _, anyway _ _⟩

theorem recipientCodeOf_careful {account : BankAccount} {Q : Except AppError String → _ → Prop}
    (bare : s.pending = [])
    (onward : ∀ code u, u.db = s.db → (∀ w ∈ u.pending, Recipient w) → Q (.ok code) u)
    (failed : ∀ x u, Q (.error x) u) : Sure job (recipientCodeOf account) Q s := by
  unfold recipientCodeOf
  split
  · exact onward _ s rfl (by simp [bare])
  · apply seq_careful
    apply And.intro trivial
    constructor
    · intro data _
      apply seq_careful
      unfold require
      split
      · apply seq_careful
        constructor
        · exact onward _ _ rfl (by simp [bare, Recipient])
        · exact failed _ _
      · exact failed _ _
    · exact failed _ _

/-- From the call on: the code of the transfer is kept, and both are committed together. -/
theorem send_careful {ws : List Write} (sets : List TransactionUpdate) {current : Transaction}
    {recipientCode : String} (found : s.db.transactions.find? txn.id = some txn)
    (recipients : ∀ w ∈ ws, Recipient w)
    (pending : s.pending = ws ++ sets.map (Write.updateTransaction txn.id))
    (whole : revisedBy sets txn = current) (never_back : ∀ set ∈ sets, set.status ≠ some .pending)
    (started : txn.type = .withdrawal → txn.status = .pending ∧ current.status = .processing)
    (marked : (∃ set ∈ sets, set.status = some .processing) → current.status = .processing) :
    Sure (.executePayout txn.id) (do
      let transfer ← paystack (.initiateTransfer current.amount recipientCode current.reference
        ("PayCore withdrawal " ++ current.reference))
      let transferCode := transfer.transferCode.get ""
      if transferCode = current.providerReference then commit
      else do
        let _ ← TransactionRepository.flush current { providerReference := some transferCode }
        commit) (fun _ _ => True) s := by
  have revised : Revised txn current := by
    rw [← whole]
    exact revised_fold sets txn
  have same := recipient_transactions recipients s.db
  have there : (applyAll ws s.db).transactions.find? txn.id = some txn := by rw [same]; exact found
  have kept : s.seen.transactions.find? current.id = some current := by
    rw [Local.seen, pending, applyAll_append, revised_id revised, ← whole]
    exact (revised_all sets there).after
  apply seq_careful
  constructor
  · apply Exists.intro txn
    refine ⟨(find?_some_iff.mp found).1, rfl, ?_, ?_, fun kind => (started kind).1⟩
    · rw [revised]
    · rw [revised]
  constructor
  · intro data documented
    have coded : data.transferCode.get "" ≠ none := by
      cases code : data.transferCode with
      | null => exact absurd code documented
      | absent => simp [Field.get]
      | str c => simp [Field.get]
    change Sure _ (if data.transferCode.get "" = current.providerReference then commit else _) _ s
    generalize data.transferCode.get "" = code at coded
    split
    · rename_i unchanged
      apply commit_careful _ (fun _ _ => trivial)
      rw [pending]
      apply dispatch_progress found recipients never_back
      · intro kind
        rw [whole]
        exact ⟨(started kind).2, by rw [← unchanged]; exact coded⟩
      · rw [whole]
        exact marked
    · apply seq_careful
      apply flush_careful kept
      · intro memory
        apply commit_careful _ (fun _ _ => trivial)
        let last : TransactionUpdate := { providerReference := some code }
        have writes : s.pending ++ [Write.updateTransaction current.id last] =
            ws ++ (sets ++ [last]).map (Write.updateTransaction txn.id) := by
          rw [pending, revised_id revised]
          simp
        change Progress (s.pending ++ [Write.updateTransaction current.id last]) s.db
        rw [writes]
        have final : revisedBy (sets ++ [last]) txn = { current with providerReference := code } := by
          rw [revisedBy_append, whole]
          simp [last, TransactionUpdate.on]
        apply dispatch_progress found recipients
        · intro set mem
          rcases List.mem_append.mp mem with old | new
          · exact never_back set old
          · simp [List.mem_singleton.mp new, last]
        · intro kind
          rw [final]
          exact ⟨(started kind).2, coded⟩
        · rintro ⟨set, mem, status⟩
          rw [final]
          rcases List.mem_append.mp mem with old | new
          · exact marked ⟨set, old, status⟩
          · simp [List.mem_singleton.mp new, last] at status
      · trivial
  · trivial

theorem dispatchPayout_careful {recipientCode : String}
    (found : s.db.transactions.find? txn.id = some txn) (recipients : ∀ w ∈ s.pending, Recipient w)
    (pending : txn.type = .withdrawal → txn.status = .pending) :
    Sure (.executePayout txn.id) (dispatchPayout txn recipientCode) (fun _ _ => True) s := by
  have there : s.seen.transactions.find? txn.id = some txn := by
    rw [Local.seen, recipient_transactions recipients]
    exact found
  unfold dispatchPayout
  dsimp only
  split
  · rename_i status
    apply seq_careful
    have valid : TransactionStatus.processing ∈ validTransitions txn.status :=
      by simp [status, validTransitions]
    simp only [TransactionRepository.updateStatus, if_pos valid]
    apply flush_careful there
    · intro memory
      dsimp only
      let mark : TransactionUpdate := { status := some .processing }
      let started : Local Database IdentityMap Write Request :=
        { s with pending := s.pending ++ [.updateTransaction txn.id mark], memory }
      apply send_careful [mark] (s := started) found recipients rfl rfl
      · simp [mark]
      · intro kind
        exact ⟨status, rfl⟩
      · intro _
        rfl
    · exact trivial
  · rename_i status
    apply send_careful [] found recipients (by simp) rfl
    · simp
    · intro kind
      exact absurd (pending kind) status
    · simp

theorem executePayout_careful {db : Database} (ordered : InOrder db) (transactionId : Uuid) :
    Sure (.executePayout transactionId) (executePayout transactionId) (fun _ _ => True)
      ⟨db, [], default, []⟩ := by
  unfold executePayout
  apply seq_careful
  apply silent_careful
  · cases found : db.transactions.find? transactionId with
    | none =>
      simp only [Local.seen, applyAll_nil, found, Option.map_none]
      trivial
    | some txn =>
      have own : txn.id = transactionId := (find?_some_iff.mp found).2
      subst own
      have loaded : (default : IdentityMap).transaction txn = txn := transaction_unloaded rfl
      simp only [Local.seen, applyAll_nil, found, Option.map_some, loaded]
      change Sure _ (if txn.status = .completed ∨ txn.status = .failed then pure () else _) _ _
      split
      · trivial
      · rename_i unsettled
        split
        · trivial
        · rename_i undispatched
          have pending : txn.type = .withdrawal → txn.status = .pending := by
            intro kind
            obtain ⟨kept, referred⟩ := ordered txn (find?_some_iff.mp found).1 kind
            cases status : txn.status with
            | pending => rfl
            | processing =>
              have code := referred status
              exact absurd ⟨status, Option.isSome_iff_ne_none.mpr code⟩ undispatched
            | completed => exact absurd (Or.inl status) unsettled
            | failed => exact absurd (Or.inr status) unsettled
            | reversed => exact absurd status kept
          split
          · trivial
          · apply seq_careful
            apply silent_careful
            · rename_i bankAccountId _
              dsimp only [Local.seen, applyAll_nil]
              cases BankAccountRepository.byId bankAccountId db with
              | none => trivial
              | some account =>
                apply seq_careful
                apply recipientCodeOf_careful rfl
                · intro code u same recipients
                  apply dispatchPayout_careful _ recipients pending
                  rw [same]
                  exact found
                · intros
                  trivial
            · trivial
  · trivial

end Sessions

section Jobs
variable {db : Database}

def Keeps : Request → Prop
  | .initiateTransfer .. => False
  | _ => True

theorem keeps_carries {job : Job} (request : Request) (s : Database) (keeps : Keeps request) :
    Carries job request s := by
  cases request <;> first | exact keeps.elim | trivial

theorem keeps_checkWithdrawal (cfg : Settings) (now : Timestamp) (user : User) (amount : Int) :
    Asks Keeps (checkWithdrawal cfg now user amount) := by
  unfold checkWithdrawal enforceKycSingleLimit enforceDailyLimit
  apply asks_seq (asks_require _ _)
  intro _
  apply asks_seq
  · split
    · trivial
    · exact asks_require _ _
  intro _
  exact asks_seq (asks_query _) (fun _ => asks_require _ _)

theorem keeps_initiateWithdrawal (cfg : Settings) (user : User) (bankAccountId : Uuid) (amount : Int)
    (draws : WithdrawalDraws) : Asks Keeps (initiateWithdrawal cfg user bankAccountId amount draws) := by
  unfold initiateWithdrawal
  apply asks_seq (asks_selectWallet _ _)
  intro _
  apply asks_seq (asks_orRaise _ _)
  intro _
  apply asks_seq (keeps_checkWithdrawal _ _ _ _)
  intro _
  apply asks_seq (asks_selectTransaction _)
  intro _
  apply asks_seq (asks_require _ _)
  intro _
  apply asks_seq (asks_query _)
  intro _
  apply asks_seq (asks_orRaise _ _)
  intro _
  apply asks_seq (asks_selectWallet _ _)
  intro _
  apply asks_seq (asks_orRaise _ _)
  intro _
  apply asks_seq (asks_require _ _)
  intro _
  apply asks_seq (asks_createTransaction _)
  intro _
  apply asks_seq (asks_updateBalance _ _)
  intro _
  apply asks_seq asks_commit
  intro _
  apply asks_seq
  · have enqueued : ∀ task, Asks Keeps (enqueue task) := fun _ => ⟨trivial, fun _ => trivial, trivial⟩
    exact asks_handle (enqueued _) (fun _ => trivial)
  · exact fun _ => asks_audited _ _

theorem keeps_onProcessing (reference : String) {settle : Transaction → Uuid → Tx Unit}
    (tail : ∀ txn walletId, Asks Keeps (settle txn walletId)) :
    Asks Keeps (onProcessing reference settle) := by
  unfold onProcessing
  apply asks_seq (asks_selectTransaction _)
  intro found
  cases found with
  | none => trivial
  | some txn =>
    dsimp only
    split
    · cases txn.sourceWalletId with
      | none => trivial
      | some walletId => exact tail txn walletId
    · trivial

theorem keeps_settlement {α : Type} {txn : Transaction} {walletId : Uuid} {write : Wallet → Tx α}
    {status : TransactionStatus} {reason : Option String} {entry : AuditLog}
    (written : ∀ wallet, Asks Keeps (write wallet)) :
    Asks Keeps (do
      let wallet ← WalletRepository.lockForUpdate walletId
      match wallet with
      | none => pure ()
      | some wallet => do
        let _ ← write wallet
        let _ ← TransactionRepository.updateStatus txn status reason
        commit
        auditLog entry) := by
  apply asks_seq (asks_selectWallet _ _)
  intro wallet
  cases wallet with
  | none => trivial
  | some wallet =>
    apply asks_seq (written wallet)
    intro _
    apply asks_seq (asks_updateStatus _ _ _)
    intro _
    exact asks_seq asks_commit (fun _ => asks_auditLog _)

/-- The history of a lone job keeps to the rules. -/
theorem job_chain {job : Job} (ordered : InOrder db) (kind : concernsPayouts job) {trail : Trail}
    {S : Lone Database IdentityMap Write Row Request PaystackData AppError Unit}
    (trace : Trace Documented (initial db fun _ => job.program) trail S) :
    Chain (Carries job) Progress db trail S.db := by
  apply trace_chain _ trace
  change Sure job job.program (fun _ _ => True) ⟨db, [], default, []⟩
  have mild : Asks Keeps job.program → Emits Mild job.program →
      Sure job job.program (fun _ _ => True) ⟨db, [], default, []⟩ :=
    fun asks emits => emits_careful keeps_carries (fun ws s all => mild_progress all s) asks emits (by simp)
  cases job with
  | initiateWithdrawal cfg user bankAccountId amount draws =>
    apply mild
    · exact asks_seq (keeps_initiateWithdrawal cfg user bankAccountId amount draws) (fun _ => trivial)
    · apply emits_mono _ (emits_job (.initiateWithdrawal cfg user bankAccountId amount draws))
      intro w opened
      cases w with
      | insertTransaction t => exact opened.2.2.2
      | setBalance id b => exact opened
      | insertAuditLog l => trivial
      | _ => exact opened.elim
  | executePayout transactionId => exact executePayout_careful ordered transactionId
  | processPayoutSuccess reference =>
    apply mild
    · exact keeps_onProcessing reference
        (fun txn walletId => keeps_settlement (fun _ => asks_statement (fun _ _ => trivial)))
    · exact emits_processPayoutSuccess (fun _ => trivial) (fun _ => trivial)
        (fun _ _ => ⟨.inl rfl, rfl⟩) reference
  | processPayoutFailure reference transferCode =>
    apply mild
    · exact keeps_onProcessing reference
        (fun txn walletId => keeps_settlement (fun _ => asks_updateBalance _ _))
    · exact emits_processPayoutFailure (fun _ _ h => h) (fun _ => trivial)
        (fun _ _ => ⟨.inr rfl, rfl⟩) reference transferCode
  | _ => exact kind.elim

end Jobs

end PayCoreDispatchRules
