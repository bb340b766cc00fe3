import PayCore.Proof.BankAccountRules

/- The default bank account of each user, over runs in which one request follows the other
   and anything may fail. -/
namespace PayCoreDefaultAccounts
open KeyedTable ChosenRows SessionProgram SessionSystem LoneSessions PayCoreTables PayCoreWrites
open PayCoreSessions PayCoreRepositories PayCoreSupport PayCoreWithdrawals PayCoreJobs
open PayCoreLoneRules PayCoreBankAccountRules

inductive AccountRequest where
  | addBankAccount (cfg : Settings) (user : User) (accountName accountNumber bankCode bankName : String)
      (accountId : Uuid)
  | removeBankAccount (user : User) (bankAccountId : Uuid) (utcNow : Timestamp)
  | setDefault (bankAccountId : Uuid)

def AccountRequest.program : AccountRequest → Tx Unit
  | .addBankAccount cfg user accountName accountNumber bankCode bankName accountId =>
      quietly (PayCoreWithdrawals.addBankAccount cfg user accountName accountNumber bankCode
        bankName accountId)
  | .removeBankAccount user bankAccountId utcNow =>
      PayCoreWithdrawals.removeBankAccount user bankAccountId utcNow
  | .setDefault bankAccountId => chooseDefault bankAccountId

/-- Nothing but these requests touches a bank account; the rest of the state is anybody's. -/
def SameAccounts (s t : Database) : Prop := t.bankAccounts.rows = s.bankAccounts.rows

def AccountRun (start s : Database) : Prop :=
  ∃ history, Turns AnyReply (fun _ => True) AccountRequest.program SameAccounts start history s

variable {start s : Database}

theorem request_sure (request : AccountRequest) :
    Sure AnyReply Freely AccountCommit request.program ⟨s, [], default, []⟩ := by
  cases request with
  | addBankAccount cfg user accountName accountNumber bankCode bankName accountId =>
    apply sure_seq
    apply careful_mono _ (addBankAccount_sure (fun _ _ commit => commit) _ _ _ _ _ _ _)
    intro r u _
    cases r <;> trivial
  | removeBankAccount user bankAccountId utcNow =>
    exact removeBankAccount_sure (fun _ _ commit => commit) user bankAccountId utcNow
  | setDefault bankAccountId => exact chooseDefault_sure (fun _ _ commit => commit) bankAccountId

theorem default_chain {trail : List (Event Database Write Request)} (h : OneDefault start)
    (chain : Chain Freely AccountCommit start trail s) : OneDefault s := by
  induction chain with
  | start => exact h
  | asked before ok ih => exact ih
  | committed before ok ih => exact default_commit ih ok

theorem default_run (h : OneDefault start) (run : AccountRun start s) : OneDefault s := by
  obtain ⟨history, turns⟩ := run
  induction turns with
  | start => exact h
  | aside before same ih =>
    unfold OneDefault
    rw [same]
    exact ih
  | @turn history trail s request S before kind trace ih =>
    have chain : Chain Freely AccountCommit s trail S.db := by
      apply trace_chain _ trace
      exact request_sure request
    exact default_chain ih chain

def defaultOf (userId : Uuid) (db : Database) : Except AppError (Option BankAccount) :=
  (runAlone (fun _ => none) (BankAccountRepository.getDefault userId) db).1

theorem defaultOf_eq (userId : Uuid) (db : Database) : defaultOf userId db =
    TransactionRepository.scalarOneOrNone (BankAccountRepository.defaultsOf userId db) := by
  unfold defaultOf runAlone BankAccountRepository.getDefault
  rw [exec_seq]
  cases picked : TransactionRepository.scalarOneOrNone (BankAccountRepository.defaultsOf userId db) with
  | error x => simp [exec, start, query, Local.seen, picked]
  | ok found =>
    simp only [exec, start, query, Local.seen, applyAll_nil, List.append_nil, picked]
    rfl

theorem mem_defaultsOf {userId : Uuid} {a : BankAccount} {db : Database} :
    a ∈ BankAccountRepository.defaultsOf userId db ↔
      (a ∈ db.bankAccounts.rows ∧ a.userId = userId ∧ isLive a) ∧ leads a := by
  simp [BankAccountRepository.defaultsOf, mem_liveOf, leads]

/-- With one default account at most, scalar_one_or_none finds what there is. -/
theorem one_found {accounts : List BankAccount} (distinct : accounts.Nodup)
    (single : ∀ a ∈ accounts, ∀ b ∈ accounts, a = b) :
    TransactionRepository.scalarOneOrNone accounts = .ok accounts.head? := by
  cases accounts with
  | nil => rfl
  | cons a rest =>
    cases rest with
    | nil => rfl
    | cons b rest =>
      have same := single a (by simp) b (by simp)
      simp [same] at distinct

theorem default_found (h : OneDefault s) (userId : Uuid) :
    defaultOf userId s = .ok (BankAccountRepository.defaultsOf userId s).head? := by
  rw [defaultOf_eq]
  apply one_found
  · exact ((rows_nodup s.bankAccounts).filter _).filter _
  · intro a memA b memB
    obtain ⟨⟨oldA, userA, _⟩, leadsA⟩ := mem_defaultsOf.mp memA
    obtain ⟨⟨oldB, userB, _⟩, leadsB⟩ := mem_defaultsOf.mp memB
    exact h.single a oldA b oldB (userA.trans userB.symm) leadsA leadsB

theorem default_none_iff (h : OneDefault s) (userId : Uuid) :
    (BankAccountRepository.defaultsOf userId s).head? = none ↔
    BankAccountRepository.liveOf userId s = [] := by
  rw [List.head?_eq_none_iff, List.eq_nil_iff_forall_not_mem, List.eq_nil_iff_forall_not_mem]
  constructor
  · intro nobody a mem
    obtain ⟨among, mine, lives⟩ := mem_liveOf.mp mem
    obtain ⟨b, there, same, leading⟩ := h.led a among lives
    exact nobody b (mem_defaultsOf.mpr ⟨⟨there, same.trans mine, h.alive b there leading⟩, leading⟩)
  · intro nobody a mem
    exact nobody a (mem_liveOf.mpr (mem_defaultsOf.mp mem).1)

theorem one_default_account (bare : start.bankAccounts.rows = []) (run : AccountRun start s) :
    (∀ userId, BankAccountRepository.liveOf userId s ≠ [] →
      ∃! a, a ∈ BankAccountRepository.liveOf userId s ∧ a.isDefault = true) ∧
    (∀ a ∈ s.bankAccounts.rows, a.deletedAt ≠ none → a.isDefault = false) ∧
    ∀ userId, ∃ found, defaultOf userId s = .ok found ∧
      (found = none ↔ BankAccountRepository.liveOf userId s = []) := by
  have initially : OneDefault start := by
    unfold OneDefault
    rw [bare]
    exact chosen_nil
  have h := default_run initially run
  refine ⟨?_, ?_, ?_⟩
  · intro userId some
    obtain ⟨a, mem⟩ := List.exists_mem_of_ne_nil _ some
    obtain ⟨among, mine, lives⟩ := mem_liveOf.mp mem
    obtain ⟨b, ⟨facts, leading⟩, only⟩ := chosen_unique h ⟨a, among, mine, lives⟩
    refine ⟨b, ⟨mem_liveOf.mpr facts, leading⟩, ?_⟩
    rintro c ⟨there, also⟩
    exact only c ⟨mem_liveOf.mp there, also⟩
  · intro a mem deleted
    by_contra flag
    exact deleted (h.alive a mem (by simpa [leads] using flag))
  · intro userId
    exact ⟨_, default_found h userId, default_none_iff h userId⟩

section Banking

def customer : User :=
  { id := 1, email := "alice", hashedPassword := "", fullName := "Alice", kycTier := 2 }

def adding (id : Uuid) : AccountRequest × List (Action Unit PaystackData) :=
  (.addBankAccount {} customer "Alice" "0123456789" "058" "GTBank" id, List.replicate 3 (.run ()))

/-- Two accounts; the second one is made the default and then removed. -/
def banking : List (AccountRequest × List (Action Unit PaystackData)) :=
  [adding 70, adding 71, (.setDefault 71, List.replicate 4 (.run ())),
   (.removeBankAccount customer 71 9, List.replicate 6 (.run ()))]

theorem first_account_leads_again : ∃ s, AccountRun emptyDatabase s ∧
    s.bankAccounts.rows.map (fun a => (a.id, a.isDefault, a.deletedAt)) =
    [(70, true, none), (71, false, some 9)] ∧
    (∀ userId, BankAccountRepository.liveOf userId s ≠ [] →
      ∃! a, a ∈ BankAccountRepository.liveOf userId s ∧ a.isDefault = true) ∧
    (∀ a ∈ s.bankAccounts.rows, a.deletedAt ≠ none → a.isDefault = false) ∧
    ∀ userId, ∃ found, defaultOf userId s = .ok found ∧
      (found = none ↔ BankAccountRepository.liveOf userId s = []) := by
  have computed : (takeTurns AnyReply AccountRequest.program emptyDatabase banking).map (fun out =>
      out.2.bankAccounts.rows.map (fun a => (a.id, a.isDefault, a.deletedAt))) =
      some [(70, true, none), (71, false, some 9)] := by decide +kernel
  obtain ⟨⟨history, s⟩, reached, value⟩ := Option.map_eq_some_iff.mp computed
  have run : AccountRun emptyDatabase s := ⟨history, turns_of_plan (fun _ _ => trivial) reached⟩
  exact ⟨s, run, value, one_default_account rfl run⟩

end Banking

end PayCoreDefaultAccounts
