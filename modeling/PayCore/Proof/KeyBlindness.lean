import PayCore.Library.AlikeRuns
import PayCore.Result.SharedKeys

/- Requests with an idempotency key look at no other key: they do the same in databases that
   differ in the keys of the stored transactions, but not in who carries theirs. -/
namespace PayCoreKeyBlindness
open KeyedTable SessionProgram AlikeRuns PayCoreTables PayCoreWrites PayCoreSessions PayCoreRepositories
open PayCoreSupport PayCorePayments PayCoreFunding PayCoreWithdrawals PayCoreSharedKeys

def unkeyed (t : Transaction) : Transaction := { t with idempotencyKey := none }

/-- The same database, but for the idempotency keys of its transactions. -/
def Rekeyed (s t : Database) : Prop :=
  ∃ rekeyed : Table Transaction, t = { s with transactions := rekeyed } ∧
    rekeyed.rows.map unkeyed = s.transactions.rows.map unkeyed

/-- The same database for whoever asks for this key only. -/
def Alike (key : Option String) (s t : Database) : Prop :=
  Rekeyed s t ∧ ∀ k, key = some k → carriers k t = carriers k s

section Rows
variable {key : Option String} {k : String} {s t : Database}

theorem rows_unkeyed {γ : Type} {f : List Transaction → γ} (rekeyed : Rekeyed s t)
    (blind : ∀ rows, f rows = f (rows.map unkeyed)) : f t.transactions.rows = f s.transactions.rows := by
  obtain ⟨table, rfl, same⟩ := rekeyed
  rw [blind table.rows, blind s.transactions.rows, same]

theorem all_unkeyed (rekeyed : Rekeyed s t) {p : Transaction → Bool} (blind : ∀ a, p (unkeyed a) = p a) :
    t.transactions.rows.all p = s.transactions.rows.all p := by
  apply rows_unkeyed rekeyed (f := fun rows => rows.all p)
  intro rows
  simp [List.all_map, Function.comp_def, blind]

theorem any_unkeyed (rekeyed : Rekeyed s t) {p : Transaction → Bool} (blind : ∀ a, p (unkeyed a) = p a) :
    t.transactions.rows.any p = s.transactions.rows.any p := by
  apply rows_unkeyed rekeyed (f := fun rows => rows.any p)
  intro rows
  simp [List.any_map, Function.comp_def, blind]

theorem shares_none (a : Option String) : sharesSome a none = false := by
  cases a <;> rfl

theorem admits_alike (alike : Alike key s t) {x : Transaction} (keyed : x.idempotencyKey = key) :
    t.transactions.admits x = s.transactions.admits x := by
  have split : ∀ table : Table Transaction, table.admits x =
      (table.rows.all (fun a => !(a.id == x.id) && !(a.reference == x.reference)) &&
        table.rows.all (fun a => !sharesSome a.idempotencyKey key)) := by
    intro table
    rw [← keyed, Bool.eq_iff_iff]
    simp only [Table.admits, clash, Bool.and_eq_true, List.all_eq_true, Bool.not_or]
    grind
  have others :=
    all_unkeyed alike.1 (p := fun a => !(a.id == x.id) && !(a.reference == x.reference)) (fun _ => rfl)
  have own : t.transactions.rows.all (fun a => !sharesSome a.idempotencyKey key) =
      s.transactions.rows.all (fun a => !sharesSome a.idempotencyKey key) := by
    cases key with
    | none =>
      have clear : ∀ rows : List Transaction,
          rows.all (fun a => !sharesSome a.idempotencyKey none) = true := by
        intro rows
        simp [shares_none]
      rw [clear, clear]
    | some k =>
      have same := alike.2 k rfl
      have carried :
          ∀ u : Database, u.transactions.rows.all (fun a => !sharesSome a.idempotencyKey (some k)) =
          (carriers k u).isEmpty := by
        intro u
        rw [Bool.eq_iff_iff, List.isEmpty_iff, carriers_nil_iff]
        simp [sharesSome]
        grind
      rw [carried, carried, same]
  rw [split, split, others, own]

theorem others_same (rekeyed : Rekeyed s t) : t.users = s.users ∧ t.wallets = s.wallets ∧
    t.merchants = s.merchants := by
  obtain ⟨_, rfl, _⟩ := rekeyed
  exact ⟨rfl, rfl, rfl⟩

theorem found_alike (alike : Alike (some k) s t) :
    TransactionRepository.byIdempotencyKey k t = TransactionRepository.byIdempotencyKey k s := by
  have first : ∀ u : Database, TransactionRepository.byIdempotencyKey k u = (carriers k u).head? := by
    intro u
    rw [carriers, List.head?_filter]
    rfl
  rw [first, first, alike.2 k rfl]

theorem violated_alike (rekeyed : Rekeyed s t) (x : Transaction) :
    TransactionRepository.violated x t = TransactionRepository.violated x s := by
  have stored : ∀ u : Database, (u.transactions.find? x.id).isSome = u.transactions.rows.any
      (·.id == x.id) := by
    intro u
    rw [Bool.eq_iff_iff]
    simp [Table.find?]
  have same := any_unkeyed rekeyed (p := fun a => a.id == x.id) (fun _ => rfl)
  have referred := any_unkeyed rekeyed (p := fun a => a.reference == x.reference) (fun _ => rfl)
  unfold TransactionRepository.violated
  rw [stored, stored, same, referred]

end Rows

section Writes
variable {key : Option String}

theorem respects_insert {x : Transaction} (keyed : x.idempotencyKey = key) :
    Respects (Alike key) (.insertTransaction x : Write) := by
  intro s t alike
  have admitted := admits_alike alike keyed
  obtain ⟨⟨table, rfl, rows⟩, same⟩ := alike
  cases free : s.transactions.admits x with
  | false =>
    rw [free] at admitted
    change Alike key { s with transactions := s.transactions.insert x }
      { s with transactions := table.insert x }
    rw [insert_refused free, insert_refused admitted]
    exact ⟨⟨table, rfl, rows⟩, same⟩
  | true =>
    rw [free] at admitted
    constructor
    · refine ⟨table.insert x, rfl, ?_⟩
      change (table.insert x).rows.map unkeyed = (s.transactions.insert x).rows.map unkeyed
      rw [insert_rows free, insert_rows admitted, List.map_append, List.map_append, rows]
    · intro k wanted
      have before := same k wanted
      unfold carriers at before ⊢
      change (table.insert x).rows.filter _ = (s.transactions.insert x).rows.filter _
      rw [insert_rows free, insert_rows admitted, List.filter_append, List.filter_append]
      exact congrArg (· ++ _) before

theorem respects_other {w : Write} (aside : ∀ (s : Database) (table : Table Transaction),
    (applyWrite w s).transactions = s.transactions ∧
      applyWrite w { s with transactions := table } = { applyWrite w s with transactions := table }) :
    Respects (Alike key) w := by
  rintro s t ⟨⟨table, rfl, rows⟩, same⟩
  obtain ⟨kept, moved⟩ := aside s table
  constructor
  · refine ⟨table, moved, ?_⟩
    rw [rows]
    exact congrArg (fun u : Table Transaction => u.rows.map unkeyed) kept.symm
  · intro k wanted
    have before := same k wanted
    unfold carriers at before ⊢
    change (applyWrite w { s with transactions := table }).transactions.rows.filter _ =
      (applyWrite w s).transactions.rows.filter _
    rw [moved, kept]
    exact before

end Writes

section Statements
variable {α : Type} {key : Option String} {rows : List Row}

theorem blind_query {f : Database → α} (blind : ∀ s t, Rekeyed s t → f s = f t) :
    Blind (Alike key) (query f) := by
  intro s t m alike
  have same := blind s t alike.1
  exact ⟨⟨rfl, rfl, congrArg _ same⟩, by simp, trivial⟩

theorem blind_require (condition : Bool) (error : AppError) :
    Blind (Alike key) (require condition error) := by
  unfold require
  split <;> trivial

theorem blind_orRaise (value : Option α) (error : AppError) : Blind (Alike key) (orRaise value error) := by
  cases value <;> trivial

theorem blind_selectWallet {pick : Database → Option Wallet}
    (blind : ∀ s t, Rekeyed s t → pick s = pick t) :
    Blind (Alike key) (WalletRepository.select rows pick) := by
  intro s t m alike
  have same := blind s t alike.1
  simp only [same]
  exact ⟨⟨trivial, trivial, trivial⟩, by simp, trivial⟩

theorem byUserId_rekeyed (userId : Uuid) {s t : Database} (rekeyed : Rekeyed s t) :
    WalletRepository.byUserId userId s = WalletRepository.byUserId userId t := by
  unfold WalletRepository.byUserId
  rw [(others_same rekeyed).2.1]

theorem byId_rekeyed (id : Uuid) {s t : Database} (rekeyed : Rekeyed s t) :
    WalletRepository.byId id s = WalletRepository.byId id t := by
  unfold WalletRepository.byId
  rw [(others_same rekeyed).2.1]

theorem blind_lookup (key : Option String) : Blind (Alike key) (lookupKey key) := by
  unfold lookupKey
  split
  · rename_i given
    obtain ⟨k, rfl, _⟩ := truthy_iff.mp given
    intro s t m alike
    have same := found_alike alike
    simp only [Option.getD_some, same]
    exact ⟨⟨trivial, trivial, trivial⟩, by simp, trivial⟩
  · trivial

theorem blind_create {x : Transaction} (keyed : x.idempotencyKey = key) :
    Blind (Alike key) (TransactionRepository.create x) := by
  unfold TransactionRepository.create
  split
  swap
  · trivial
  intro s t m alike
  simp only [admits_alike alike keyed, violated_alike alike.1]
  refine ⟨⟨trivial, trivial, trivial⟩, ?_, ?_⟩
  · intro w mem
    split at mem
    · rw [List.mem_singleton.mp mem]
      exact respects_insert keyed
    · cases mem
  · split <;> trivial

theorem blind_createEntry (e : LedgerEntry) : Blind (Alike key) (LedgerRepository.createEntry e) := by
  intro s t m _
  refine ⟨⟨rfl, rfl, rfl⟩, ?_, trivial⟩
  intro w mem
  rw [List.mem_singleton.mp mem]
  exact respects_other fun _ _ => ⟨rfl, rfl⟩

theorem blind_updateBalance (wallet : Wallet) (balance : Int) :
    Blind (Alike key) (WalletRepository.updateBalance wallet balance) := by
  intro s t m alike
  simp only [(others_same alike.1).2.1]
  refine ⟨⟨trivial, trivial, trivial⟩, ?_, ?_⟩
  · intro w mem
    split at mem
    · rw [List.mem_singleton.mp mem]
      exact respects_other fun _ _ => ⟨rfl, rfl⟩
    · cases mem
  · split
    · trivial
    · split <;> trivial

theorem blind_commit : Blind (Alike key) commit := trivial

theorem blind_enqueue (task : Task) : Blind (Alike key) (enqueue task) := ⟨fun _ => trivial, trivial⟩

theorem blind_auditLog (entry : AuditLog) : Blind (Alike key) (auditLog entry) := by
  apply blind_handle
  · apply blind_seq
    · intro s t m _
      refine ⟨⟨rfl, rfl, rfl⟩, ?_, trivial⟩
      intro w mem
      rw [List.mem_singleton.mp mem]
      exact respects_other fun _ _ => ⟨rfl, rfl⟩
    · exact fun _ => blind_commit
  · intro _
    trivial

theorem blind_audited (entry : AuditLog) (a : α) :
    Blind (Alike key) (auditLog entry >>= fun _ => (.ret a : Tx α)) :=
  blind_seq (blind_auditLog entry) (fun _ => trivial)

theorem blind_createAndEnqueue (merchant : Merchant) (transactionId deliveryId : Uuid)
    (eventType : String) :
    Blind (Alike key) (createAndEnqueue merchant transactionId deliveryId eventType) := by
  unfold createAndEnqueue
  split
  · apply blind_seq
    · intro s t m _
      refine ⟨⟨rfl, rfl, rfl⟩, ?_, trivial⟩
      intro w mem
      rw [List.mem_singleton.mp mem]
      exact respects_other fun _ _ => ⟨rfl, rfl⟩
    · intro _
      exact blind_seq blind_commit (fun _ => blind_handle (blind_enqueue _) (fun _ => trivial))
  · trivial

end Statements

section Services
variable {key : Option String} (cfg : Settings) (now : Timestamp)

theorem sum_rekeyed (userId : Uuid) (type : TransactionType) (start : Timestamp) {s t : Database}
    (rekeyed : Rekeyed s t) : FraudRepository.dailyOutgoingSum userId type start s =
      FraudRepository.dailyOutgoingSum userId type start t := by
  symm
  apply rows_unkeyed rekeyed (f := fun rows => ((rows.filter fun t => t.initiatedByUserId == userId &&
    t.type == type && t.status == .completed && decide (start ≤ t.createdAt)).map (·.amount)).sum)
  intro rows
  rw [List.filter_map, List.map_map]
  rfl

theorem transfers_rekeyed (source destination : Uuid) (amount : Int) (since : Timestamp) {s t : Database}
    (rekeyed : Rekeyed s t) : FraudRepository.recentTransfers source destination amount since s =
      FraudRepository.recentTransfers source destination amount since t := by
  symm
  apply rows_unkeyed rekeyed (f := fun rows => (rows.filter fun t => t.sourceWalletId == some source &&
    t.destinationWalletId == some destination && t.amount == amount &&
    t.type == .transfer && decide (since ≤ t.createdAt)).length)
  intro rows
  rw [List.filter_map, List.length_map]
  rfl

theorem recipients_rekeyed (source : Uuid) (since : Timestamp) {s t : Database} (rekeyed : Rekeyed s t) :
    FraudRepository.distinctRecipients source since s = FraudRepository.distinctRecipients source
      since t := by
  symm
  apply rows_unkeyed rekeyed (f := fun rows => ((rows.filter fun t => t.sourceWalletId == some source &&
    t.type == .transfer && decide (since ≤ t.createdAt)).filterMap
      (·.destinationWalletId)).eraseDups.length)
  intro rows
  rw [List.filter_map, List.filterMap_map]
  rfl

theorem blind_limits (user : User) (amount : Int) (type : TransactionType) :
    Blind (Alike key) (enforceKycSingleLimit cfg user.kycTier amount) ∧
      Blind (Alike key) (enforceDailyLimit cfg now user.id user.kycTier amount type) := by
  constructor
  · unfold enforceKycSingleLimit
    split
    · trivial
    · exact blind_require _ _
  · exact blind_seq (blind_query fun _ _ rekeyed => sum_rekeyed _ _ _ rekeyed) (fun _ => blind_require _ _)

theorem blind_checkTransfer (user : User) (wallet : Wallet) (recipient : Uuid) (amount : Int) :
    Blind (Alike key) (checkTransfer cfg now user wallet recipient amount) := by
  unfold checkTransfer
  apply blind_seq (blind_limits cfg now user amount .transfer).1
  intro _
  apply blind_seq (blind_limits cfg now user amount .transfer).2
  intro _
  exact blind_seq (blind_query fun _ _ rekeyed => transfers_rekeyed _ _ _ _ rekeyed)
    (fun _ => blind_require _ _)

theorem blind_moveFunds (type : TransactionType) (initiator : User) (amount : Int) (draws : Draws)
    (senderWallet recipientWallet : Wallet) :
    Blind (Alike key) (moveFunds type initiator amount key draws senderWallet recipientWallet) := by
  have locked : ∀ id, Blind (Alike key) (WalletRepository.lockForUpdate id) :=
    fun id => blind_selectWallet fun _ _ rekeyed => byId_rekeyed id rekeyed
  unfold moveFunds
  apply blind_seq (locked _)
  intro _
  apply blind_seq (locked _)
  intro _
  apply blind_seq (blind_orRaise _ _)
  intro _
  apply blind_seq (blind_orRaise _ _)
  intro _
  apply blind_seq (blind_require _ _)
  intro _
  apply blind_handle
  · unfold writeMovement
    dsimp only
    apply blind_seq
    · exact blind_create rfl
    intro _
    apply blind_seq
    · exact blind_seq (blind_createEntry _) (fun _ => blind_seq (blind_createEntry _) (fun _ => trivial))
    intro _
    apply blind_seq (blind_updateBalance _ _)
    intro _
    apply blind_seq (blind_updateBalance _ _)
    intro _
    exact blind_seq blind_commit (fun _ => trivial)
  · intro error
    cases error with
    | integrity c =>
      have looked := blind_lookup key
      unfold lookupKey at looked
      unfold recoverMovement
      apply blind_seq (show Blind (Alike key) rollback from trivial)
      intro _
      split
      · rename_i given
        rw [if_pos given] at looked
        apply blind_seq looked
        intro existing
        cases existing <;> trivial
      · trivial
    | _ => trivial

theorem blind_walletOf (userId : Uuid) : Blind (Alike key) (WalletRepository.getByUserId userId) :=
  blind_selectWallet fun _ _ rekeyed => byUserId_rekeyed userId rekeyed

theorem users_rekeyed {α : Type} (f : Table User → α) {s t : Database} (rekeyed : Rekeyed s t) :
    f s.users = f t.users :=
  congrArg f (others_same rekeyed).1.symm

theorem blind_resolveTransfer (normalize : String → String) (sender : User) (recipient : Recipient) :
    Blind (Alike key) (resolveTransfer normalize sender recipient) := by
  unfold resolveTransfer
  apply blind_seq (blind_walletOf _)
  intro _
  apply blind_seq (blind_orRaise _ _)
  intro _
  apply blind_seq
  · cases recipient with
    | userId id =>
        exact blind_query fun _ _ => users_rekeyed fun users => (users.find? id).filter (·.deletedAt.isNone)
    | email email =>
      exact blind_query fun _ _ => users_rekeyed fun users =>
        users.rows.find? fun u => u.email == normalize email && u.deletedAt.isNone
  intro _
  apply blind_seq (blind_orRaise _ _)
  intro _
  apply blind_seq (blind_require _ _)
  intro _
  apply blind_seq (blind_walletOf _)
  intro _
  exact blind_seq (blind_orRaise _ _) (fun _ => trivial)

theorem blind_initiateTransfer (normalize : String → String) (sender : User) (recipient : Recipient)
    (amount : Int) (draws : Draws) :
    Blind (Alike key) (initiateTransfer normalize sender cfg recipient amount key draws) := by
  unfold initiateTransfer
  apply blind_seq (blind_resolveTransfer normalize sender recipient)
  intro wallets
  apply blind_seq (blind_lookup key)
  intro existing
  cases existing with
  | some txn => trivial
  | none =>
    apply blind_seq (blind_checkTransfer cfg _ sender _ _ amount)
    intro _
    apply blind_seq (blind_moveFunds .transfer sender amount draws _ _)
    intro moved
    cases moved with
    | existing txn => trivial
    | committed txn =>
      apply blind_seq
      · apply blind_seq (blind_query fun _ _ rekeyed => recipients_rekeyed _ _ rekeyed)
        intro _
        split
        · exact blind_enqueue _
        · trivial
      · exact fun _ => blind_audited _ _

theorem blind_resolvePayment (payer : User) (merchantId : Uuid) :
    Blind (Alike key) (resolvePayment payer merchantId) := by
  unfold resolvePayment
  apply blind_seq
  · apply blind_query
    intro s t rekeyed
    unfold MerchantRepository.byId
    rw [(others_same rekeyed).2.2]
  intro _
  apply blind_seq (blind_orRaise _ _)
  intro _
  apply blind_seq (blind_require _ _)
  intro _
  apply blind_seq (blind_require _ _)
  intro _
  apply blind_seq (blind_walletOf _)
  intro _
  apply blind_seq (blind_orRaise _ _)
  intro _
  apply blind_seq (blind_walletOf _)
  intro _
  exact blind_seq (blind_orRaise _ _) (fun _ => trivial)

theorem blind_initiatePayment (payer : User) (merchantId : Uuid) (amount : Int) (draws : Draws) :
    Blind (Alike key) (initiatePayment payer cfg merchantId amount key draws) := by
  unfold initiatePayment
  apply blind_seq (blind_resolvePayment payer merchantId)
  intro parties
  apply blind_seq (blind_lookup key)
  intro existing
  cases existing with
  | some txn => trivial
  | none =>
    apply blind_seq
    · unfold checkMerchantPayment
      exact blind_seq (blind_limits cfg draws.clock.utcNow payer amount .merchantPayment).1
        (fun _ => (blind_limits cfg draws.clock.utcNow payer amount .merchantPayment).2)
    intro _
    apply blind_seq (blind_moveFunds .merchantPayment payer amount draws _ _)
    intro moved
    cases moved with
    | existing txn => trivial
    | committed txn =>
      apply blind_seq
      · unfold maybeFlagMerchantPayment
        split
        · exact blind_enqueue _
        · trivial
      intro _
      apply blind_seq
      · exact blind_handle (blind_createAndEnqueue _ _ _ _) (fun _ => trivial)
      · exact fun _ => blind_audited _ _

theorem blind_fundingOf (t : Transaction) (paymentUrl : Option String) :
    Blind (Alike key) (fundingOf t paymentUrl) :=
  blind_seq (blind_orRaise _ _) (fun _ => trivial)

theorem blind_resolveFunding (user : User) (amount : Int) :
    Blind (Alike key) (resolveFunding user amount) := by
  unfold resolveFunding
  apply blind_seq (blind_walletOf _)
  intro _
  apply blind_seq (blind_orRaise _ _)
  intro _
  apply blind_seq (blind_require _ _)
  intro _
  exact blind_seq (blind_require _ _) (fun _ => trivial)

theorem blind_initiateFunding (user : User) (amount : Int) (draws : WithdrawalDraws) :
    Blind (Alike key) (initiateFunding user amount key draws) := by
  unfold initiateFunding
  apply blind_seq (blind_resolveFunding user amount)
  intro wallet
  apply blind_seq (blind_lookup key)
  intro existing
  cases existing with
  | some txn => exact blind_fundingOf _ _
  | none =>
    have asked : ∀ request, Blind (Alike key) (paystack request) := fun _ => ⟨fun _ => trivial, trivial⟩
    apply blind_seq (asked _)
    intro data
    apply blind_seq
    · exact blind_create rfl
    intro _
    exact blind_seq blind_commit (fun _ => blind_fundingOf _ _)

end Services

end PayCoreKeyBlindness
