import PayCore.Library.Failures
import PayCore.Proof.SoloHandlers
import PayCore.Result.SharedKeys

/- What the statements of the services may raise, one after the other. -/
namespace PayCoreFailureRules
open SessionProgram Failures PayCoreTables PayCoreWrites PayCoreSessions PayCoreRepositories
open PayCoreSupport PayCorePayments PayCoreFunding PayCoreWithdrawals PayCorePersistence PayCoreSoloHandlers
open PayCoreSharedKeys

variable {α : Type} {P : AppError → Prop}

theorem looks_ret (a : α) : Looks P (.ret a : Tx α) := ⟨trivial, trivial⟩

theorem looks_require {condition : Bool} {error : AppError} (fine : P error) :
    Looks P (require condition error) := by
  unfold require
  split
  · exact ⟨trivial, trivial⟩
  · exact ⟨trivial, fine⟩

theorem looks_orRaise {value : Option α} {error : AppError} (fine : P error) :
    Looks P (orRaise value error) := by
  cases value with
  | none => exact ⟨trivial, fine⟩
  | some a => exact ⟨trivial, trivial⟩

section Database
variable (lost : P .database)
include lost

theorem looks_query (f : Database → α) : Looks P (query f) :=
  ⟨fun _ _ => ⟨rfl, trivial⟩, fun _ _ => trivial, lost⟩

theorem looks_selectWallet (rows : List Row) (pick : Database → Option Wallet) :
    Looks P (WalletRepository.select rows pick) :=
  ⟨fun _ _ => ⟨rfl, trivial⟩, fun _ _ => trivial, lost⟩

theorem looks_lookup (key : String) : Looks P (TransactionRepository.getByIdempotencyKey key) :=
  ⟨fun _ _ => ⟨rfl, trivial⟩, fun _ _ => trivial, lost⟩

theorem looks_lookupKey (key : Option String) : Looks P (lookupKey key) := by
  unfold lookupKey
  split
  · exact looks_lookup lost _
  · exact looks_ret _

theorem throws_commit : Throws P commit := ⟨trivial, lost⟩

theorem throws_createEntry (e : LedgerEntry) : Throws P (LedgerRepository.createEntry e) :=
  ⟨fun _ _ => trivial, lost⟩

theorem throws_updateBalance (refused : P (.integrity .walletsBalanceNonNegative)) (wallet : Wallet)
    (balance : Int) :
    Throws P (WalletRepository.updateBalance wallet balance) := by
  constructor
  · intro s m
    dsimp only
    split
    · trivial
    · split
      · exact refused
      · exact lost
  · exact lost

theorem throws_audited (entry : AuditLog) (a : α) :
    Throws P (auditLog entry >>= fun _ => (.ret a : Tx α)) := by
  apply throws_seq
  · apply throws_handle
    · exact throws_seq (P := P) ⟨fun _ _ => trivial, lost⟩ (fun _ => throws_commit lost)
    · intro _ _
      trivial
  · intro _
    trivial

omit lost in
theorem throws_enqueue (unreachable : P .broker) (task : Task) : Throws P (enqueue task) :=
  ⟨fun _ => trivial, unreachable⟩

theorem throws_createAndEnqueue (merchant : Merchant) (transactionId deliveryId : Uuid)
    (eventType : String) :
    Throws P (createAndEnqueue merchant transactionId deliveryId eventType) := by
  unfold createAndEnqueue
  split
  · apply throws_seq
    · exact ⟨fun _ _ => trivial, lost⟩
    intro _
    apply throws_seq (throws_commit lost)
    intro _
    apply throws_handle (throws_enqueue (P := fun _ => True) trivial _)
    intro _ _
    trivial
  · trivial

end Database

/-- An IntegrityError names one of these constraints. -/
structure Unclashing (named : Constraint → Prop) (x : AppError) : Prop where
  allowed : ∀ c, x = .integrity c → named c

def FreshRow (id : Uuid) (hex : String) (db : Database) : Prop :=
  db.transactions.find? id = none ∧ db.transactions.rows.any (·.reference == "txn_" ++ hex) = false

def Unused (key : Option String) (db : Database) : Prop := ∀ k, key = some k → carriers k db = []

section Requests
variable {answer : Request → Option PaystackData} {s : Solo} {key : Option String}
    {named : Constraint → Prop}

theorem lost : Unclashing named .database := ⟨by rintro c ⟨⟩⟩

theorem unused_admits {db : Database} {t : Transaction} {hex : String} (fresh : FreshRow t.id hex db)
    (named : t.reference = "txn_" ++ hex) (unused : Unused t.idempotencyKey db) :
    db.transactions.admits t = true := by
  apply transaction_admits_iff.mpr
  refine ⟨fresh.1, ?_, ?_⟩
  · rw [named]
    exact fresh.2
  · intro k carried
    have free := carriers_nil_iff.mp (unused k carried)
    rw [List.any_eq_false]
    simpa using free

theorem failsAs_create {t : Transaction} (lost : P .database)
    (free : s.seen.transactions.admits t = true) :
    FailsAs P answer (TransactionRepository.create t) s := by
  intro x u ends
  unfold TransactionRepository.create at ends
  split at ends
  · simp [TransactionRepository.insert, exec, free] at ends
  · cases ends
    exact lost

/-- A key that the services test for is looked up; the one they do not test for is unused. -/
theorem failsAs_lookup {f : Option Transaction → Tx α} (clear : key = some "" → carriers "" s.db = [])
    (bare : s.pending = []) (found : ∀ txn u, FailsAs (Unclashing named) answer (f (some txn)) u)
    (missed : ∀ u, u.db = s.db → u.pending = [] → Unused key s.db →
      FailsAs (Unclashing named) answer (f none) u) :
    FailsAs (Unclashing named) answer (lookupKey key >>= f) s := by
  apply failsAs_after (looks_lookupKey lost key)
  intro existing u ends db pending
  cases existing with
  | some txn => exact found txn u
  | none =>
    apply missed u db (pending.trans bare)
    rintro k rfl
    by_cases empty : k = ""
    · rw [empty]
      exact clear (congrArg some empty)
    · have given : truthy (some k) = true := truthy_iff.mpr ⟨k, rfl, empty⟩
      have here : s.seen = s.db := by simp [Local.seen, bare]
      simp only [Yields, lookupKey, given, if_true, TransactionRepository.getByIdempotencyKey,
        TransactionRepository.select, exec, here, Option.getD_some, TransactionRepository.byIdempotencyKey,
        Prod.mk.injEq, Except.ok.injEq, Option.map_eq_none_iff] at ends
      apply carriers_nil_iff.mpr
      intro t mem
      simpa using List.find?_eq_none.mp ends.1 t mem

theorem throws_recoverMovement {x : AppError} (fine : Unclashing named x) :
    Throws (Unclashing named) (recoverMovement key x) := by
  unfold recoverMovement
  split
  · apply throws_seq (P := (Unclashing named)) (p := rollback) trivial
    intro _
    split
    · apply throws_seq
      · exact (looks_lookup lost _).throws
      intro existing
      cases existing with
      | some txn => trivial
      | none => exact fine
    · exact fine
  · exact fine

theorem failsAs_moveFunds (checked : named .walletsBalanceNonNegative) {type : TransactionType}
    {initiator : User} {amount : Int} {draws : Draws} {senderWallet recipientWallet : Wallet}
    (fresh : FreshRow draws.transactionId draws.hex s.db) (unused : Unused key s.db)
    (bare : s.pending = []) :
    FailsAs (Unclashing named) answer
      (moveFunds type initiator amount key draws senderWallet recipientWallet) s := by
  have refused : Unclashing named (.integrity .walletsBalanceNonNegative) := by
    constructor
    rintro c ⟨⟩
    exact checked
  have locks : ∀ id, Looks (Unclashing named) (WalletRepository.lockForUpdate id) :=
    fun id => looks_selectWallet lost _ _
  unfold moveFunds
  dsimp only
  apply failsAs_after (locks _)
  intro first u1 _ db1 pending1
  apply failsAs_after (locks _)
  intro second u2 _ db2 pending2
  apply failsAs_after (looks_orRaise (P := (Unclashing named)) ⟨by rintro c ⟨⟩⟩)
  intro lockedFirst u3 _ db3 pending3
  apply failsAs_after (looks_orRaise (P := (Unclashing named)) ⟨by rintro c ⟨⟩⟩)
  intro lockedSecond u4 _ db4 pending4
  apply failsAs_after (looks_require (P := (Unclashing named)) ⟨by rintro c ⟨⟩⟩)
  intro _ u5 _ db5 pending5
  have here : u5.db = s.db := by rw [db5, db4, db3, db2, db1]
  have clean : u5.pending = [] := by rw [pending5, pending4, pending3, pending2, pending1, bare]
  apply failsAs_handle ?_ (fun x (fine : Unclashing named x) => throws_recoverMovement fine)
  unfold writeMovement
  dsimp only
  apply failsAs_seq
  · apply failsAs_create lost
    have seen : u5.seen = s.db := by simp [Local.seen, clean, here]
    rw [seen]
    exact unused_admits fresh rfl unused
  · intro txn u6 _
    apply failsAs_throws
    apply throws_seq
    · apply throws_seq (throws_createEntry lost _)
      intro _
      exact throws_seq (throws_createEntry lost _) (fun _ => trivial)
    intro _
    apply throws_seq (throws_updateBalance lost refused _ _)
    intro _
    apply throws_seq (throws_updateBalance lost refused _ _)
    intro _
    exact throws_seq (throws_commit lost) (fun _ => trivial)

theorem looks_limits (cfg : Settings) (now : Timestamp) (user : User) (amount : Int)
    (type : TransactionType) :
    Looks (Unclashing named) (enforceKycSingleLimit cfg user.kycTier amount) ∧
      Looks (Unclashing named) (enforceDailyLimit cfg now user.id user.kycTier amount type) := by
  constructor
  · unfold enforceKycSingleLimit
    split
    · exact ⟨trivial, ⟨by rintro c ⟨⟩⟩⟩
    · exact looks_require ⟨by rintro c ⟨⟩⟩
  · exact looks_seq (looks_query lost _) (fun _ => looks_require ⟨by rintro c ⟨⟩⟩)

theorem looks_checkTransfer (cfg : Settings) (now : Timestamp) (user : User) (wallet : Wallet)
    (recipient : Uuid)
    (amount : Int) : Looks (Unclashing named) (checkTransfer cfg now user wallet recipient amount) := by
  unfold checkTransfer
  apply looks_seq (looks_limits cfg now user amount .transfer).1
  intro _
  apply looks_seq (looks_limits cfg now user amount .transfer).2
  intro _
  exact looks_seq (looks_query lost _) (fun _ => looks_require ⟨by rintro c ⟨⟩⟩)

theorem looks_checkMerchantPayment (cfg : Settings) (now : Timestamp) (user : User) (amount : Int) :
    Looks (Unclashing named) (checkMerchantPayment cfg now user amount) := by
  unfold checkMerchantPayment
  apply looks_seq (looks_limits cfg now user amount .merchantPayment).1
  intro _
  exact (looks_limits cfg now user amount .merchantPayment).2

theorem looks_resolveTransfer (normalize : String → String) (sender : User) (recipient : Recipient) :
    Looks (Unclashing named) (resolveTransfer normalize sender recipient) := by
  unfold resolveTransfer
  apply looks_seq (looks_selectWallet lost _ _)
  intro _
  apply looks_seq (looks_orRaise ⟨by rintro c ⟨⟩⟩)
  intro _
  apply looks_seq
  · cases recipient with
    | userId id => exact looks_query lost _
    | email email => exact looks_query lost _
  intro _
  apply looks_seq (looks_orRaise ⟨by rintro c ⟨⟩⟩)
  intro _
  apply looks_seq (looks_require ⟨by rintro c ⟨⟩⟩)
  intro _
  apply looks_seq (looks_selectWallet lost _ _)
  intro _
  exact looks_seq (looks_orRaise ⟨by rintro c ⟨⟩⟩) (fun _ => looks_ret _)

theorem looks_resolvePayment (payer : User) (merchantId : Uuid) :
    Looks (Unclashing named) (resolvePayment payer merchantId) := by
  unfold resolvePayment
  apply looks_seq (looks_query lost _)
  intro _
  apply looks_seq (looks_orRaise ⟨by rintro c ⟨⟩⟩)
  intro _
  apply looks_seq (looks_require ⟨by rintro c ⟨⟩⟩)
  intro _
  apply looks_seq (looks_require ⟨by rintro c ⟨⟩⟩)
  intro _
  apply looks_seq (looks_selectWallet lost _ _)
  intro _
  apply looks_seq (looks_orRaise ⟨by rintro c ⟨⟩⟩)
  intro _
  apply looks_seq (looks_selectWallet lost _ _)
  intro _
  exact looks_seq (looks_orRaise ⟨by rintro c ⟨⟩⟩) (fun _ => looks_ret _)

theorem looks_resolveFunding (user : User) (amount : Int) :
    Looks (Unclashing named) (resolveFunding user amount) := by
  unfold resolveFunding
  apply looks_seq (looks_selectWallet lost _ _)
  intro _
  apply looks_seq (looks_orRaise ⟨by rintro c ⟨⟩⟩)
  intro _
  apply looks_seq (looks_require ⟨by rintro c ⟨⟩⟩)
  intro _
  exact looks_seq (looks_require ⟨by rintro c ⟨⟩⟩) (fun _ => looks_ret _)

theorem throws_fundingOf (t : Transaction) (paymentUrl : Option String) :
    Throws (Unclashing named) (fundingOf t paymentUrl) :=
  throws_seq (looks_orRaise ⟨by rintro c ⟨⟩⟩).throws (fun _ => trivial)

end Requests

section Services
variable {answer : Request → Option PaystackData} {db : Database} {key : Option String}
    {named : Constraint → Prop}

def Clear (key : Option String) (db : Database) : Prop := key = some "" → carriers "" db = []

theorem failsAs_initiateTransfer (checked : named .walletsBalanceNonNegative) (clear : Clear key db)
    {normalize : String → String} {sender : User} {cfg : Settings} {recipient : Recipient} {amount : Int}
    {draws : Draws} (fresh : FreshRow draws.transactionId draws.hex db) : FailsAs (Unclashing named) answer
      (initiateTransfer normalize sender cfg recipient amount key draws) (start db) := by
  unfold initiateTransfer
  apply failsAs_after (looks_resolveTransfer normalize sender recipient)
  intro wallets u _ db1 pending1
  apply failsAs_lookup (by rw [db1]; exact clear) pending1
  · intro txn v
    exact failsAs_throws trivial
  intro v db2 bare unused
  have here : v.db = db := db2.trans db1
  rw [db1] at unused
  apply failsAs_after (looks_checkTransfer cfg _ sender _ _ amount)
  intro _ w _ db3 pending3
  apply failsAs_seq
  · apply failsAs_moveFunds checked
    · rw [db3, here]
      exact fresh
    · rw [db3, here]
      exact unused
    · exact pending3.trans bare
  intro moved x _
  apply failsAs_throws
  cases moved with
  | existing txn => trivial
  | committed txn =>
    apply throws_seq
    · apply throws_seq (looks_query lost _).throws
      intro _
      split
      · exact throws_enqueue ⟨by rintro c ⟨⟩⟩ _
      · trivial
    · intro _
      exact throws_audited lost _ _

theorem failsAs_initiatePayment (checked : named .walletsBalanceNonNegative) (clear : Clear key db)
    {payer : User} {cfg : Settings} {merchantId : Uuid} {amount : Int} {draws : Draws}
    (fresh : FreshRow draws.transactionId draws.hex db) :
    FailsAs (Unclashing named) answer (initiatePayment payer cfg merchantId amount key draws)
    (start db) := by
  unfold initiatePayment
  apply failsAs_after (looks_resolvePayment payer merchantId)
  intro parties u _ db1 pending1
  apply failsAs_lookup (by rw [db1]; exact clear) pending1
  · intro txn v
    exact failsAs_throws trivial
  intro v db2 bare unused
  have here : v.db = db := db2.trans db1
  rw [db1] at unused
  apply failsAs_after (looks_checkMerchantPayment cfg _ payer amount)
  intro _ w _ db3 pending3
  apply failsAs_seq
  · apply failsAs_moveFunds checked
    · rw [db3, here]
      exact fresh
    · rw [db3, here]
      exact unused
    · exact pending3.trans bare
  intro moved x _
  apply failsAs_throws
  cases moved with
  | existing txn => trivial
  | committed txn =>
    apply throws_seq
    · unfold maybeFlagMerchantPayment
      split
      · exact throws_enqueue ⟨by rintro c ⟨⟩⟩ _
      · trivial
    intro _
    apply throws_seq
    · exact throws_handle (throws_createAndEnqueue (P := fun _ => True) trivial _ _ _ _)
        (fun _ _ => trivial)
    · intro _
      exact throws_audited lost _ _

theorem failsAs_initiateFunding (clear : Clear key db) {user : User} {amount : Int}
    {draws : WithdrawalDraws} (fresh : FreshRow draws.transactionId draws.hex db) :
    FailsAs (Unclashing named) answer (initiateFunding user amount key draws) (start db) := by
  unfold initiateFunding
  apply failsAs_after (looks_resolveFunding user amount)
  intro wallet u _ db1 pending1
  apply failsAs_lookup (by rw [db1]; exact clear) pending1
  · intro txn v
    exact failsAs_throws (throws_fundingOf _ _)
  intro v db2 bare unused
  have here : v.db = db := db2.trans db1
  rw [db1] at unused
  have asks :
      Looks (Unclashing named)
        (paystack (.initializeTransaction user.email amount ("txn_" ++ draws.hex))) :=
    ⟨⟨fun _ => trivial, trivial⟩, fun _ => trivial, ⟨by rintro c ⟨⟩⟩⟩
  apply failsAs_after asks
  intro data w _ db3 pending3
  apply failsAs_seq
  · apply failsAs_create lost
    have seen : w.seen = db := by simp [Local.seen, pending3, bare, db3, here]
    rw [seen]
    exact unused_admits fresh rfl unused
  · intro txn x _
    apply failsAs_throws
    exact throws_seq (throws_commit lost) (fun _ => throws_fundingOf _ _)

end Services

end PayCoreFailureRules
