import PayCore.Library.BackedCalls
import PayCore.Proof.OwnRows

/- What has to be stored before anybody outside hears of it: whom a payout pays, what a notification is
   about, why a transaction is flagged. -/
namespace PayCoreBackings
open KeyedTable SessionProgram RelyGuarantee PayCoreTables PayCoreWrites PayCoreSessions PayCoreSupport
open PayCorePersistence PayCoreStatements PayCoreOwnRows

/-- Only a withdrawal names a bank account, and only one that belongs to its initiator. -/
def Earmarked (t : Transaction) (db : Database) : Prop :=
  ∀ id, t.extraData.bind (·.bankAccountId) = some id → t.type = .withdrawal ∧
    HasAccount t.initiatedByUserId id db

/-- The delivery tells a merchant of a payment to a wallet of theirs. -/
def Announces (d : WebhookDelivery) (db : Database) : Prop :=
  ∃ t ∈ db.transactions.rows, ∃ m ∈ db.merchants.rows, ∃ walletId, t.id = d.transactionId ∧
    t.type = .merchantPayment ∧ m.id = d.merchantId ∧ t.destinationWalletId = some walletId ∧
    Owned walletId m.userId db

/-- By what Paystack knows a bank account. -/
structure Details where
  name : String
  accountNumber : String
  bankCode : String
  deriving DecidableEq

def detailsOf (a : BankAccount) : Details := ⟨a.accountName, a.accountNumber, a.bankCode⟩

section Codes
variable (issued : Details → String → Prop)

/-- A reply to create_transfer_recipient holds the code that Paystack has issued for that bank
account, if any. -/
def Issues : Request → PaystackData → Prop
  | .createTransferRecipient name accountNumber bankCode, data =>
      ∀ code, data.recipientCode.get "" = some code → issued ⟨name, accountNumber, bankCode⟩ code
  | _, _ => True

instance [∀ details code, Decidable (issued details code)] (request : Request) (data : PaystackData) :
    Decidable (Issues issued request data) :=
  match request with
  | .createTransferRecipient name accountNumber bankCode =>
      inferInstanceAs
        (Decidable (∀ code ∈ data.recipientCode.get "", issued ⟨name, accountNumber, bankCode⟩ code))
  | .initializeTransaction .. | .verifyTransaction .. | .initiateTransfer .. | .resolveAccount
      .. | .uploadFile ..
  | .delay .. | .postWebhook .. => .isTrue trivial

def Issued (id : Uuid) (code : String) (db : Database) : Prop :=
  ∃ a ∈ db.bankAccounts.rows, a.id = id ∧ issued (detailsOf a) code

structure Grounded (db : Database) : Prop where
  earmarked : ∀ t ∈ db.transactions.rows, Earmarked t db
  announces : ∀ d ∈ db.webhookDeliveries.rows, Announces d db
  coded : ∀ a ∈ db.bankAccounts.rows, ∀ code, a.paystackRecipientCode = some code →
    issued (detailsOf a) code

structure GroundedCommit (ws : List Write) (db : Database) : Prop where
  regular : ∀ w ∈ ws, Regular w
  earmarked : ∀ t, .insertTransaction t ∈ ws → Earmarked t db
  announces : ∀ d, .insertDelivery d ∈ ws → Announces d db
  coded : ∀ id code, .setRecipientCode id code ∈ ws → Issued issued id code db
  uncoded : ∀ a, .account (.insertBankAccount a) ∈ ws → a.paystackRecipientCode = none

end Codes

section Calls
variable (cfg : Settings) (readings : Timestamp → Prop) (issued : Details → String → Prop)

/-- The payment is a large one, or the sender has sent to many wallets in the window before a
reading of the clock. -/
def Suspicious (t : Transaction) (db : Database) : Prop :=
  (t.type = .merchantPayment ∧ kobo cfg.fraudMerchantPaymentFlagThreshold < t.amount) ∨
    (t.type = .transfer ∧ ∃ source now, ∃ recipients : List Uuid, t.sourceWalletId = some source ∧
      readings now ∧
      recipients.Nodup ∧ cfg.fraudRapidTransferCount < recipients.length ∧ ∀ id ∈ recipients,
        ∃ r ∈ db.transactions.rows,
        r.type = .transfer ∧ r.sourceWalletId = some source ∧ r.destinationWalletId = some id ∧
        now - seconds cfg.fraudRapidTransferWindowSeconds ≤ r.createdAt)

/-- The bank account is one that a stored withdrawal is to be paid to, and belongs to its initiator. -/
def Payee (a : BankAccount) (db : Database) : Prop :=
  ∃ t ∈ db.transactions.rows, t.type = .withdrawal ∧ t.extraData.bind (·.bankAccountId) = some a.id ∧
    a.userId = t.initiatedByUserId

def Backed : Request → Database → Prop
  | .initializeTransaction email _ _, db => ∃ u ∈ db.users.rows, u.email = email
  | .createTransferRecipient name accountNumber bankCode, db => ∃ a ∈ db.bankAccounts.rows,
      a.accountName = name ∧ a.accountNumber = accountNumber ∧ a.bankCode = bankCode ∧ Payee a db
  | .initiateTransfer amountKobo recipientCode reference reason, db => ∃ t ∈ db.transactions.rows,
      t.type = .withdrawal ∧ t.amount = amountKobo ∧ t.reference = reference ∧
      reason = "PayCore withdrawal " ++ reference ∧ ∃ a ∈ db.bankAccounts.rows,
      t.extraData.bind (·.bankAccountId) = some a.id ∧ a.userId = t.initiatedByUserId ∧
        issued (detailsOf a) recipientCode
  | .delay (.processWithdrawal id), db => ∃ t ∈ db.transactions.rows, t.id = id ∧ t.type = .withdrawal
  | .delay (.flagTransactionRisk id), db =>
      ∃ t ∈ db.transactions.rows, t.id = id ∧ Suspicious cfg readings t db
  | .delay (.deliverMerchantWebhook id), db => ∃ d ∈ db.webhookDeliveries.rows, d.id = id ∧ Announces d db
  | _, _ => True

end Calls

def Spelled (a b : BankAccount) : Prop :=
  b.id = a.id ∧ b.userId = a.userId ∧ b.accountName = a.accountName ∧ b.accountNumber = a.accountNumber ∧
    b.bankCode = a.bankCode

def SameNews (d e : WebhookDelivery) : Prop :=
  e.id = d.id ∧ e.transactionId = d.transactionId ∧ e.merchantId = d.merchantId

/-- All that a call may rest on in `s` is there in `t`. -/
structure Standing (s t : Database) : Prop where
  later : Later s t
  accounts : ∀ a ∈ s.bankAccounts.rows, ∃ b ∈ t.bankAccounts.rows, Spelled a b
  deliveries : ∀ d ∈ s.webhookDeliveries.rows, ∃ e ∈ t.webhookDeliveries.rows, SameNews d e

section Standing
variable {cfg : Settings} {readings : Timestamp → Prop} {issued : Details → String → Prop}
    {s t u db : Database}
  {w : Write} {ws : List Write}

theorem standing_refl (s : Database) : Standing s s where
  later := later_refl s
  accounts a mem := ⟨a, mem, rfl, rfl, rfl, rfl, rfl⟩
  deliveries d mem := ⟨d, mem, rfl, rfl, rfl⟩

theorem spelled_details {a b : BankAccount} (same : Spelled a b) : detailsOf b = detailsOf a := by
  obtain ⟨_, _, name, number, bank⟩ := same
  rw [detailsOf, name, number, bank]
  rfl

theorem standing_trans (left : Standing s t) (right : Standing t u) : Standing s u where
  later := later_trans left.later right.later
  accounts a mem := by
    obtain ⟨b, there, id, user, name, number, bank⟩ := left.accounts a mem
    obtain ⟨c, last, id', user', name', number', bank'⟩ := right.accounts b there
    exact ⟨c, last, id'.trans id, user'.trans user, name'.trans name, number'.trans number,
      bank'.trans bank⟩
  deliveries d mem := by
    obtain ⟨e, there, id, transaction, merchant⟩ := left.deliveries d mem
    obtain ⟨f, last, id', transaction', merchant'⟩ := right.deliveries e there
    exact ⟨f, last, id'.trans id, transaction'.trans transaction, merchant'.trans merchant⟩

theorem account_kept (w : Write) {a : BankAccount} (mem : a ∈ db.bankAccounts.rows) :
    ∃ b ∈ (applyWrite w db).bankAccounts.rows, Spelled a b := by
  have edited : ∀ (id : Uuid) (e : Edit BankAccount), Spelled a (e.on a) → Spelled a (editAt id e a) := by
    intro id e same
    unfold editAt
    split
    · exact same
    · exact ⟨rfl, rfl, rfl, rfl, rfl⟩
  cases w with
  | setRecipientCode id code =>
    exact ⟨_, kept_update (t := db.bankAccounts) mem,
      edited id (recipientEdit code) ⟨rfl, rfl, rfl, rfl, rfl⟩⟩
  | account w =>
    cases w with
    | insertBankAccount b => exact ⟨a, mem_insert mem, rfl, rfl, rfl, rfl, rfl⟩
    | updateBankAccount id set =>
      exact ⟨_, kept_update (t := db.bankAccounts) mem, edited id (bankAccountEdit set)
        ⟨rfl, rfl, rfl, rfl, rfl⟩⟩
    | _ => exact ⟨a, mem, rfl, rfl, rfl, rfl, rfl⟩
  | _ => exact ⟨a, mem, rfl, rfl, rfl, rfl, rfl⟩

theorem delivery_kept (w : Write) {d : WebhookDelivery} (mem : d ∈ db.webhookDeliveries.rows) :
    ∃ e ∈ (applyWrite w db).webhookDeliveries.rows, SameNews d e := by
  cases w with
  | insertDelivery e => exact ⟨d, mem_insert mem, rfl, rfl, rfl⟩
  | updateDelivery id set =>
    refine ⟨editAt id (deliveryEdit set) d, kept_update (t := db.webhookDeliveries) mem, ?_⟩
    unfold editAt
    split <;> exact ⟨rfl, rfl, rfl⟩
  | account w => cases w <;> exact ⟨d, mem, rfl, rfl, rfl⟩
  | _ => exact ⟨d, mem, rfl, rfl, rfl⟩

theorem standing_write (regular : Regular w) (db : Database) : Standing db (applyWrite w db) where
  later := later_write regular db
  accounts _ mem := account_kept w mem
  deliveries _ mem := delivery_kept w mem

theorem standing_all (regular : ∀ w ∈ ws, Regular w) (db : Database) : Standing db (applyAll ws db) := by
  induction ws generalizing db with
  | nil => exact standing_refl db
  | cons w ws ih =>
    apply standing_trans (standing_write (regular w List.mem_cons_self) db)
    exact ih (fun v mem => regular v (List.mem_cons_of_mem w mem)) _

theorem transaction_stands (h : Standing s t) {a : Transaction} (mem : a ∈ s.transactions.rows) :
    ∃ b ∈ t.transactions.rows, Revised a b := by
  obtain ⟨b, found, revised, _⟩ := h.later.transactions a.id a (find?_some_iff.mpr ⟨mem, rfl⟩)
  exact ⟨b, (find?_some_iff.mp found).1, revised⟩

theorem account_stands (h : Standing s t) {userId id : Uuid} (own : HasAccount userId id s) :
    HasAccount userId id t := by
  obtain ⟨a, mem, key, user⟩ := own
  obtain ⟨b, there, same, owner, _⟩ := h.accounts a mem
  exact ⟨b, there, same.trans key, owner.trans user⟩

theorem earmarked_stands (h : Standing s t) {a b : Transaction} (revised : Revised a b)
    (marked : Earmarked a s) :
    Earmarked b t := by
  intro id named
  rw [revised_extra revised] at named
  obtain ⟨type, own⟩ := marked id named
  rw [revised_type revised, show b.initiatedByUserId = a.initiatedByUserId by rw [revised]]
  exact ⟨type, account_stands h own⟩

theorem announces_stands (h : Standing s t) {d e : WebhookDelivery} (same : SameNews d e)
    (told : Announces d s) :
    Announces e t := by
  obtain ⟨_, transaction, merchant⟩ := same
  obtain ⟨a, mem, m, listed, walletId, id, type, key, destination, owned⟩ := told
  obtain ⟨b, there, revised⟩ := transaction_stands h mem
  obtain ⟨n, last, kept, owner⟩ := h.later.merchants m listed
  refine ⟨b, there, n, last, walletId, ?_, ?_, ?_, ?_, ?_⟩
  · rw [revised_id revised, transaction, id]
  · rw [revised_type revised, type]
  · rw [kept, merchant, key]
  · rw [revised_destination revised, destination]
  · rw [owner]
    exact owned_later h.later owned

theorem suspicious_stands (h : Standing s t) {a b : Transaction} (revised : Revised a b)
    (doubt : Suspicious cfg readings a s) :
    Suspicious cfg readings b t := by
  rcases doubt with ⟨type, large⟩ | ⟨type, source, now, recipients, paid, read, apart, many, each⟩
  · left
    rw [revised_type revised, revised_amount revised]
    exact ⟨type, large⟩
  · right
    rw [revised_type revised, revised_source revised]
    refine ⟨type, source, now, recipients, paid, read, apart, many, ?_⟩
    intro id mem
    obtain ⟨r, row, kind, from_wallet, to_wallet, since⟩ := each id mem
    obtain ⟨q, there, same⟩ := transaction_stands h row
    refine ⟨q, there, ?_, ?_, ?_, ?_⟩
    · rw [revised_type same, kind]
    · rw [revised_source same, from_wallet]
    · rw [revised_destination same, to_wallet]
    · rw [show q.createdAt = r.createdAt by rw [same]]
      exact since

theorem issued_stands (h : Standing s t) {id : Uuid} {code : String} (known : Issued issued id code s) :
    Issued issued id code t := by
  obtain ⟨a, mem, key, known⟩ := known
  obtain ⟨b, there, same⟩ := h.accounts a mem
  refine ⟨b, there, same.1.trans key, ?_⟩
  rw [spelled_details same]
  exact known

theorem payee_stands (h : Standing s t) {a b : BankAccount} (same : Spelled a b)
    (paid : Payee a s) : Payee b t := by
  obtain ⟨id, user, _⟩ := same
  obtain ⟨c, mem, type, named, owner⟩ := paid
  obtain ⟨d, there, revised⟩ := transaction_stands h mem
  refine ⟨d, there, ?_, ?_, ?_⟩
  · rw [revised_type revised, type]
  · rw [revised_extra revised, named, id]
  · rw [user, owner, show d.initiatedByUserId = c.initiatedByUserId by rw [revised]]

theorem backed_stands (h : Standing s t) {request : Request}
    (backed : Backed cfg readings issued request s) :
    Backed cfg readings issued request t := by
  cases request with
  | initializeTransaction email amount reference =>
    obtain ⟨u, mem, same⟩ := backed
    obtain ⟨v, there, _, still⟩ := h.later.users u mem
    exact ⟨v, there, still.trans same⟩
  | createTransferRecipient name number bankCode =>
    obtain ⟨a, mem, name, number, bank, paid⟩ := backed
    obtain ⟨b, there, same⟩ := h.accounts a mem
    have payee := payee_stands h same paid
    obtain ⟨_, _, name', number', bank'⟩ := same
    exact ⟨b, there, name'.trans name, number'.trans number, bank'.trans bank, payee⟩
  | initiateTransfer amount code reference reason =>
    obtain ⟨a, mem, type, sum, named, text, account, listed, payee, owner, known⟩ := backed
    obtain ⟨b, there, revised⟩ := transaction_stands h mem
    obtain ⟨still, kept, same⟩ := h.accounts account listed
    refine ⟨b, there, ?_, ?_, ?_, text, still, kept, ?_, ?_, ?_⟩
    · rw [revised_type revised, type]
    · rw [revised_amount revised, sum]
    · rw [← named, revised]
    · rw [revised_extra revised, payee, same.1]
    · rw [same.2.1, owner, show b.initiatedByUserId = a.initiatedByUserId by rw [revised]]
    · rw [spelled_details same]
      exact known
  | delay task =>
    cases task with
    | processWithdrawal id =>
      obtain ⟨a, mem, key, type⟩ := backed
      obtain ⟨b, there, revised⟩ := transaction_stands h mem
      exact ⟨b, there, (revised_id revised).trans key, (revised_type revised).trans type⟩
    | flagTransactionRisk id =>
      obtain ⟨a, mem, key, doubt⟩ := backed
      obtain ⟨b, there, revised⟩ := transaction_stands h mem
      exact ⟨b, there, (revised_id revised).trans key, suspicious_stands h revised doubt⟩
    | deliverMerchantWebhook id =>
      obtain ⟨d, mem, key, told⟩ := backed
      obtain ⟨e, there, same⟩ := h.deliveries d mem
      exact ⟨e, there, same.1.trans key, announces_stands h same told⟩
    | checkStaleTransactions => trivial
  | _ => trivial

end Standing

section Commits
variable {issued : Details → String → Prop} {db : Database} {w : Write} {ws : List Write}

theorem transactions_from (w : Write) {b : Transaction} (mem : b ∈ (applyWrite w db).transactions.rows) :
    (∃ a ∈ db.transactions.rows, Revised a b) ∨ w = .insertTransaction b := by
  cases w with
  | insertTransaction t =>
    rcases insert_back mem with old | new
    · exact .inl ⟨b, old, revised_refl b⟩
    · rw [new]
      exact .inr rfl
  | updateTransaction id set =>
    obtain ⟨a, old, same⟩ := mem_update (t := db.transactions) mem
    refine .inl ⟨a, old, ?_⟩
    rw [same]
    unfold editAt
    split
    · exact revised_on set a
    · exact revised_refl a
  | account w =>
    rw [applyWrite, account_transactions] at mem
    exact .inl ⟨b, mem, revised_refl b⟩
  | _ => exact .inl ⟨b, mem, revised_refl b⟩

theorem deliveries_from (w : Write) {e : WebhookDelivery}
    (mem : e ∈ (applyWrite w db).webhookDeliveries.rows) :
    (∃ d ∈ db.webhookDeliveries.rows, SameNews d e) ∨ w = .insertDelivery e := by
  cases w with
  | insertDelivery d =>
    rcases insert_back mem with old | new
    · exact .inl ⟨e, old, rfl, rfl, rfl⟩
    · rw [new]
      exact .inr rfl
  | updateDelivery id set =>
    obtain ⟨d, old, same⟩ := mem_update (t := db.webhookDeliveries) mem
    refine .inl ⟨d, old, ?_⟩
    rw [same]
    unfold editAt
    split <;> exact ⟨rfl, rfl, rfl⟩
  | account w => cases w <;> exact .inl ⟨e, mem, rfl, rfl, rfl⟩
  | _ => exact .inl ⟨e, mem, rfl, rfl, rfl⟩

theorem accounts_from (w : Write) {b : BankAccount} (mem : b ∈ (applyWrite w db).bankAccounts.rows) :
    (∃ a ∈ db.bankAccounts.rows, Spelled a b ∧ (b.paystackRecipientCode = a.paystackRecipientCode ∨
      ∃ code, w = .setRecipientCode a.id code ∧ b.paystackRecipientCode = some code)) ∨
    w = .account (.insertBankAccount b) := by
  cases w with
  | setRecipientCode id code =>
    obtain ⟨a, old, same⟩ := mem_update (t := db.bankAccounts) mem
    refine .inl ⟨a, old, ?_⟩
    rw [same]
    unfold editAt
    split
    · rename_i here
      exact ⟨⟨rfl, rfl, rfl, rfl, rfl⟩, .inr ⟨code, by rw [← here]; rfl, rfl⟩⟩
    · exact ⟨⟨rfl, rfl, rfl, rfl, rfl⟩, .inl rfl⟩
  | account w =>
    cases w with
    | insertBankAccount a =>
      rcases insert_back mem with old | new
      · exact .inl ⟨b, old, ⟨rfl, rfl, rfl, rfl, rfl⟩, .inl rfl⟩
      · rw [new]
        exact .inr rfl
    | updateBankAccount id set =>
      obtain ⟨a, old, same⟩ := mem_update (t := db.bankAccounts) mem
      refine .inl ⟨a, old, ?_⟩
      rw [same]
      unfold editAt
      split <;> exact ⟨⟨rfl, rfl, rfl, rfl, rfl⟩, .inl rfl⟩
    | _ => exact .inl ⟨b, mem, ⟨rfl, rfl, rfl, rfl, rfl⟩, .inl rfl⟩
  | _ => exact .inl ⟨b, mem, ⟨rfl, rfl, rfl, rfl, rfl⟩, .inl rfl⟩

/-- The code of a row is the one it had, or one that was issued for it. -/
theorem coded_write (known : ∀ id code, w = .setRecipientCode id code → Issued issued id code db)
    (new : ∀ a, w = .account (.insertBankAccount a) → a.paystackRecipientCode = none)
    (coded : ∀ a ∈ db.bankAccounts.rows, ∀ code, a.paystackRecipientCode = some code →
      issued (detailsOf a) code) :
    ∀ b ∈ (applyWrite w db).bankAccounts.rows, ∀ code, b.paystackRecipientCode = some code → issued
    (detailsOf b) code := by
  intro b mem code has
  rcases accounts_from w mem with ⟨a, old, same, kept | ⟨_, set, given⟩⟩ | inserted
  · rw [spelled_details same]
    exact coded a old code (kept.symm.trans has)
  · cases given.symm.trans has
    obtain ⟨other, row, key, good⟩ := known a.id code set
    have one : other = a := by
      have found := find?_some_iff.mpr ⟨row, key⟩
      have again : db.bankAccounts.find? a.id = some a := find?_some_iff.mpr ⟨old, rfl⟩
      rw [again] at found
      exact (Option.some.inj found).symm
    rw [spelled_details same, ← one]
    exact good
  · rw [new b inserted] at has
    cases has

theorem grounded_commit (commit : GroundedCommit issued ws db) (grounded : Grounded issued db) :
    Grounded issued (applyAll ws db) := by
  induction ws generalizing db with
  | nil => exact grounded
  | cons w ws ih =>
    have stands := standing_write (commit.regular w List.mem_cons_self) db
    apply ih
    · constructor
      · exact fun v mem => commit.regular v (List.mem_cons_of_mem w mem)
      · exact fun t mem => earmarked_stands stands (revised_refl t)
          (commit.earmarked t (List.mem_cons_of_mem w mem))
      · exact fun d mem => announces_stands stands ⟨rfl, rfl, rfl⟩
          (commit.announces d (List.mem_cons_of_mem w mem))
      · exact fun id code mem => issued_stands stands (commit.coded id code (List.mem_cons_of_mem w mem))
      · exact fun a mem => commit.uncoded a (List.mem_cons_of_mem w mem)
    · constructor
      · intro t mem
        rcases transactions_from w mem with ⟨a, old, revised⟩ | rfl
        · exact earmarked_stands stands revised (grounded.earmarked a old)
        · exact earmarked_stands stands (revised_refl t) (commit.earmarked t List.mem_cons_self)
      · intro d mem
        rcases deliveries_from w mem with ⟨e, old, same⟩ | rfl
        · exact announces_stands stands same (grounded.announces e old)
        · exact announces_stands stands ⟨rfl, rfl, rfl⟩ (commit.announces d List.mem_cons_self)
      · apply coded_write _ _ grounded.coded
        · rintro id code rfl
          exact commit.coded id code List.mem_cons_self
        · rintro a rfl
          exact commit.uncoded a List.mem_cons_self

theorem grounded_env : Interference (Rely (GroundedCommit issued)) :=
  interference_rely fun _ _ commit => commit.regular

variable {s t : Database} {held : Row → Prop}

theorem grounded_rely (rely : Rely (GroundedCommit issued) held s t) (h : Grounded issued s) :
    Grounded issued t :=
  rely_keeps rely (fun _ _ commit grounded => grounded_commit commit grounded) h

theorem standing_rely (rely : Rely (GroundedCommit issued) held s t) : Standing s t := by
  apply rely_keeps (P := Standing s) rely _ (standing_refl s)
  intro ws u commit before
  exact standing_trans before (standing_all commit.regular u)

end Commits

end PayCoreBackings
