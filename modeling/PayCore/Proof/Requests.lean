import PayCore.Proof.Statements
import PayCore.Service.Payments

/- The part of a request that only looks: guards, fraud checks and the lookup of the
   idempotency key. -/
namespace PayCoreRequests
open KeyedTable SessionProgram SessionSystem RelyGuarantee PayCoreTables PayCoreWrites PayCoreSessions
open PayCoreRepositories PayCoreSupport PayCorePayments PayCorePersistence PayCoreCommits
open PayCoreStatements

variable {R : (Row → Prop) → Database → Database → Prop} {G : List Write → Database → Prop}
  {F : Database → IdentityMap → List Row → List Write → Prop} {α β : Type} {v u : Window}
  {origin : Database}

/-- The object is its row as it stood at some moment since `origin`. -/
def Glimpsed (R : (Row → Prop) → Database → Database → Prop) (origin : Database) (w : Wallet)
    (db : Database) : Prop :=
  ∃ s, R Nothing origin s ∧ R Nothing s db ∧ s.wallets.find? w.id = some w

theorem glimpsed_rely (env : Interference R) {w : Wallet} {s t : Database} (rely : R Nothing s t)
    (h : Glimpsed R origin w s) : Glimpsed R origin w t := by
  obtain ⟨moment, since, until_then, found⟩ := h
  exact ⟨moment, since, env.trans until_then rely, found⟩

/-- A session that started at `origin`, with no write pending and no transaction loaded. -/
structure Clean (R : (Row → Prop) → Database → Database → Prop) (origin : Database) (u : Window) :
    Prop where
  rely : R Nothing origin u.db
  bare : u.pending = []
  unread : ∀ id, u.memory.transactions id = none
  glimpsed : ∀ id w, u.memory.wallets id = some w → Glimpsed R origin w u.db

theorem clean_goes (env : Interference R) (clean : Clean R origin v) (goes : Goes R v u)
    (pending : u.pending = []) (memory : u.memory = v.memory) : Clean R origin u where
  rely := env.trans clean.rely goes.rely
  bare := pending
  unread := by
    rw [memory]
    exact clean.unread
  glimpsed id w loaded := by
    rw [memory] at loaded
    exact glimpsed_rely env goes.rely (clean.glimpsed id w loaded)

theorem glimpsed_wallet (env : Interference R) (clean : Clean R origin v) (goes : Goes R v u)
    {row : Wallet} (found : u.db.wallets.find? row.id = some row) :
    Glimpsed R origin (v.memory.wallet row) u.db := by
  cases loaded : v.memory.wallets row.id with
  | none =>
    rw [wallet_unloaded loaded]
    exact ⟨u.db, env.trans clean.rely goes.rely, env.refl Nothing u.db, found⟩
  | some w =>
    have same : v.memory.wallet row = w := by simp [IdentityMap.wallet, loaded]
    rw [same]
    exact glimpsed_rely env goes.rely (clean.glimpsed _ w loaded)

theorem clean_wallet (env : Interference R) (clean : Clean R origin v) (goes : Goes R v u)
    (pending : u.pending = []) {row : Wallet}
    (memory : u.memory = v.memory.keepWallet (v.memory.wallet row))
    (found : u.db.wallets.find? row.id = some row) : Clean R origin u where
  rely := env.trans clean.rely goes.rely
  bare := pending
  unread := by
    rw [memory]
    exact clean.unread
  glimpsed id w loaded := by
    simp only [memory, IdentityMap.keepWallet, Function.update_apply] at loaded
    split at loaded
    · cases loaded
      exact glimpsed_wallet env clean goes found
    · exact glimpsed_rely env goes.rely (clean.glimpsed id w loaded)

theorem clean_start (env : Interference R) (db : Database) (held : Row → Prop) :
    Clean R db (⟨db, [], default, held⟩ : Window) where
  rely := env.refl Nothing db
  bare := rfl
  unread _ := rfl
  glimpsed := by simp

/-- The program reads and decides, and never fails on the CHECK of a balance. -/
def Looks : Tx α → Prop
  | .ret _ => True
  | .raise x => x ≠ .integrity .walletsBalanceNonNegative
  | .stmt _ writes memo next fault =>
      (∀ s m, writes s m = [] ∧ memo s m = m ∧ Looks (next s m)) ∧ Looks fault
  | _ => False

theorem looks_seq {p : Tx α} {f : α → Tx β} (first : Looks p) (rest : ∀ a, Looks (f a)) :
    Looks (p >>= f) := by
  show Looks (p.bind f)
  induction p with
  | ret a => exact rest a
  | raise x => exact first
  | stmt rows writes memo next fault ihn ihf =>
    refine ⟨fun s m => ?_, ihf first.2⟩
    exact ⟨(first.1 s m).1, (first.1 s m).2.1, ihn s m (first.1 s m).2.2⟩
  | call request next fault _ _ => exact first.elim
  | commit next fault _ _ => exact first.elim
  | rollback next _ => exact first.elim

theorem looks_query (f : Database → α) : Looks (query f) :=
  ⟨fun _ _ => ⟨rfl, rfl, trivial⟩, by simp [Looks]⟩

theorem looks_require {condition : Bool} {error : AppError}
    (other : error ≠ .integrity .walletsBalanceNonNegative) : Looks (require condition error) := by
  unfold require
  split
  · trivial
  · exact other

theorem looks_orRaise {value : Option α} {error : AppError}
    (other : error ≠ .integrity .walletsBalanceNonNegative) : Looks (orRaise value error) := by
  cases value with
  | none => exact other
  | some a => trivial

section Checks
variable (cfg : Settings) (now : Timestamp)

theorem looks_kycSingleLimit (kycTier : Nat) (amount : Int) :
    Looks (enforceKycSingleLimit cfg kycTier amount) := by
  unfold enforceKycSingleLimit
  split
  · simp [Looks]
  · exact looks_require (by simp)

theorem looks_dailyLimit (userId : Uuid) (kycTier : Nat) (amount : Int) (type : TransactionType) :
    Looks (enforceDailyLimit cfg now userId kycTier amount type) :=
  looks_seq (looks_query _) (fun _ => looks_require (by simp))

theorem looks_noDuplicate (source destination : Uuid) (amount : Int) :
    Looks (enforceNoDuplicateTransfer cfg now source destination amount) :=
  looks_seq (looks_query _) (fun _ => looks_require (by simp))

theorem looks_checkTransfer (user : User) (wallet : Wallet) (recipient : Uuid) (amount : Int) :
    Looks (checkTransfer cfg now user wallet recipient amount) :=
  looks_seq (looks_kycSingleLimit cfg _ _)
    (fun _ => looks_seq (looks_dailyLimit cfg now _ _ _ _) (fun _ => looks_noDuplicate cfg now _ _ _))

theorem looks_checkMerchantPayment (user : User) (amount : Int) :
    Looks (checkMerchantPayment cfg now user amount) :=
  looks_seq (looks_kycSingleLimit cfg _ _) (fun _ => looks_dailyLimit cfg now _ _ _ _)

theorem looks_checkWithdrawal (user : User) (amount : Int) :
    Looks (checkWithdrawal cfg now user amount) :=
  looks_seq (looks_require (by simp))
    (fun _ => looks_seq (looks_kycSingleLimit cfg _ _) (fun _ => looks_dailyLimit cfg now _ _ _ _))

end Checks

def tierDailyLimit (cfg : Settings) (kycTier : Nat) : Int :=
  kobo (if kycTier = 1 then cfg.kycTier1DailyLimit else cfg.kycTier2DailyLimit)

/-- `P` held at some moment since `origin`. -/
def Passed (R : (Row → Prop) → Database → Database → Prop) (origin db : Database)
    (P : Database → Prop) : Prop :=
  ∃ s, R Nothing origin s ∧ R Nothing s db ∧ P s

theorem passed_rely (env : Interference R) {P : Database → Prop} {s t : Database}
    (rely : R Nothing s t) (h : Passed R origin s P) : Passed R origin t P := by
  obtain ⟨moment, since, until_then, holds⟩ := h
  exact ⟨moment, since, env.trans until_then rely, holds⟩

theorem passed_alone {origin : Database} {P : Database → Prop} (h : Passed Alone origin db P) : P db := by
  obtain ⟨s, _, same, holds⟩ := h
  unfold Alone at same
  rw [same]
  exact holds

/-- The tier and the daily limit that an outgoing request has been checked against. -/
structure Checked (R : (Row → Prop) → Database → Database → Prop) (origin : Database) (cfg : Settings)
    (now : Timestamp) (user : User) (amount : Int) (type : TransactionType) (db : Database) : Prop where
  tier : user.kycTier ≠ 0
  daily : Passed R origin db (fun s => FraudRepository.dailyOutgoingSum user.id type (dayStart now) s +
    amount ≤ tierDailyLimit cfg user.kycTier)

theorem checked_rely (env : Interference R) {cfg : Settings} {now : Timestamp} {user : User}
    {amount : Int} {type : TransactionType} {s t : Database} (rely : R Nothing s t)
    (h : Checked R origin cfg now user amount type s) : Checked R origin cfg now user amount type t where
  tier := h.tier
  daily := passed_rely env rely h.daily

theorem passes_wp {condition : Bool} {error : AppError}
    {Q : Post Database IdentityMap Write Row AppError Unit}
    (refused : condition = false → Q (.error error) v) (passed : condition = true → Q (.ok ()) v) :
    wp R G F (require condition error) Q v := by
  cases condition with
  | false => exact refused rfl
  | true => exact passed rfl

section Verified
variable (env : Interference R) {cfg : Settings} {now : Timestamp} {user : User} {amount : Int}
include env

theorem enforceLimits_wp {type : TransactionType} {Q : Post Database IdentityMap Write Row AppError Unit}
    (clean : Clean R origin v)
    (failed : ∀ u x, x ≠ .integrity .walletsBalanceNonNegative → Q (.error x) u)
    (passed : ∀ u, Clean R origin u → R Nothing v.db u.db → Later v.db u.db →
      Checked R origin cfg now user amount type u.db → Q (.ok ()) u) :
    wp R G F (do
      enforceKycSingleLimit cfg user.kycTier amount
      enforceDailyLimit cfg now user.id user.kycTier amount type) Q v := by
  refine seq_wp ?_
  unfold enforceKycSingleLimit
  by_cases unverified : user.kycTier = 0
  · rw [if_pos unverified]
    exact failed v _ (by simp)
  rw [if_neg unverified]
  refine passes_wp (fun _ => failed v _ (by simp)) ?_
  intro _
  unfold enforceDailyLimit
  refine seq_wp ?_
  refine query_wp env (fun u => failed u _ (by simp)) ?_
  intro u goes pending memory
  have after := clean_goes env clean goes (pending.trans clean.bare) memory
  refine passes_wp (fun _ => failed u _ (by simp)) ?_
  intro room
  rw [clean.bare, applyAll_nil] at room
  exact passed u after goes.rely goes.later
    ⟨unverified, u.db, after.rely, env.refl Nothing u.db, of_decide_eq_true room⟩

theorem checkTransfer_wp {wallet : Wallet} {recipient : Uuid}
    {Q : Post Database IdentityMap Write Row AppError Unit} (clean : Clean R origin v)
    (failed : ∀ u x, x ≠ .integrity .walletsBalanceNonNegative → Q (.error x) u)
    (passed : ∀ u, Clean R origin u → R Nothing v.db u.db → Later v.db u.db →
      Checked R origin cfg now user amount .transfer u.db →
      Passed R origin u.db (fun s => FraudRepository.recentTransfers wallet.id recipient amount
        (now - seconds cfg.fraudDuplicateWindowSeconds) s = 0) → Q (.ok ()) u) :
    wp R G F (checkTransfer cfg now user wallet recipient amount) Q v := by
  have split : checkTransfer cfg now user wallet recipient amount = (do
      enforceKycSingleLimit cfg user.kycTier amount
      enforceDailyLimit cfg now user.id user.kycTier amount .transfer) >>=
        fun _ => enforceNoDuplicateTransfer cfg now wallet.id recipient amount := by
    simp only [checkTransfer, LawfulMonad.bind_assoc]
  rw [split]
  refine seq_wp ?_
  refine enforceLimits_wp env clean failed ?_
  intro v1 clean1 rely1 later1 checked
  unfold enforceNoDuplicateTransfer
  refine seq_wp ?_
  refine query_wp env (fun u => failed u _ (by simp)) ?_
  intro u goes pending memory
  have after := clean_goes env clean1 goes (pending.trans clean1.bare) memory
  refine passes_wp (fun _ => failed u _ (by simp)) ?_
  intro alone
  rw [clean1.bare, applyAll_nil] at alone
  exact passed u after (env.trans rely1 goes.rely) (later_trans later1 goes.later)
    (checked_rely env goes.rely checked)
    ⟨u.db, after.rely, env.refl Nothing u.db, of_decide_eq_true alone⟩

theorem checkMerchantPayment_wp {Q : Post Database IdentityMap Write Row AppError Unit}
    (clean : Clean R origin v)
    (failed : ∀ u x, x ≠ .integrity .walletsBalanceNonNegative → Q (.error x) u)
    (passed : ∀ u, Clean R origin u → R Nothing v.db u.db → Later v.db u.db →
      Checked R origin cfg now user amount .merchantPayment u.db → Q (.ok ()) u) :
    wp R G F (checkMerchantPayment cfg now user amount) Q v :=
  enforceLimits_wp env clean failed passed

theorem checkWithdrawal_wp {Q : Post Database IdentityMap Write Row AppError Unit}
    (clean : Clean R origin v)
    (failed : ∀ u x, x ≠ .integrity .walletsBalanceNonNegative → Q (.error x) u)
    (passed : ∀ u, Clean R origin u → R Nothing v.db u.db → Later v.db u.db →
      Checked R origin cfg now user amount .withdrawal u.db → Q (.ok ()) u) :
    wp R G F (checkWithdrawal cfg now user amount) Q v := by
  unfold checkWithdrawal
  refine require_wp (fun _ => failed v _ (by simp)) ?_
  intro _
  exact enforceLimits_wp env clean failed passed

end Verified

section Guards
variable (env : Interference R)
include env

theorem getByUserId_wp {userId : Uuid} {Q : Post Database IdentityMap Write Row AppError (Option Wallet)}
    (clean : Clean R origin v) (failed : ∀ u, Q (.error .database) u)
    (done : ∀ u found, Clean R origin u → Later v.db u.db →
      (∀ w, found = some w → Owned w.id userId u.db) → Q (.ok found) u) :
    wp R G F (WalletRepository.getByUserId userId) Q v := by
  refine selectWallet_wp env failed ?_ ?_
  · intro u goes pending memory _
    refine done u none (clean_goes env clean goes (pending.trans clean.bare) (by rw [memory]))
      goes.later ?_
    simp
  · intro u row goes pending memory _ _ picked
    rw [clean.bare] at picked
    have found : u.db.wallets.find? row.id = some row :=
      find?_some_iff.mpr ⟨List.mem_of_find?_eq_some picked, rfl⟩
    refine done u _ (clean_wallet env clean goes (pending.trans clean.bare) memory found)
      goes.later ?_
    rintro w ⟨rfl⟩
    refine ⟨row, ?_, ?_⟩
    · rw [wallet_id]
      exact found
    · have := List.find?_some picked
      simp only [Bool.and_eq_true, beq_iff_eq] at this
      exact this.1

theorem requireWallet_wp {userId : Uuid} {error : AppError} {fit : Wallet → Bool}
    {f : Wallet → Tx α} {Q : Post Database IdentityMap Write Row AppError α} (clean : Clean R origin v)
    (other : error ≠ .integrity .walletsBalanceNonNegative)
    (failed : ∀ u x, x ≠ .integrity .walletsBalanceNonNegative → Q (.error x) u)
    (done : ∀ u w, Clean R origin u → Later v.db u.db → Owned w.id userId u.db →
      wp R G F (f w) Q u) :
    wp R G F (do
      let wallet ← WalletRepository.getByUserId userId
      let wallet ← orRaise (wallet.filter fit) error
      f wallet) Q v := by
  refine seq_wp ?_
  refine getByUserId_wp env clean (fun u => failed u _ (by simp)) ?_
  intro u found after later owned
  refine orRaise_wp (fun _ => failed u _ other) ?_
  intro w fits
  exact done u w after later (owned w (Option.filter_eq_some_iff.mp fits).1)

def recipientIn (normalize : String → String) : Recipient → Database → Option User
  | .userId id, db => UserRepository.byId id db
  | .email email, db => UserRepository.byEmail (normalize email) db

theorem resolveTransfer_wp {normalize : String → String} {sender : User} {recipient : Recipient}
    {Q : Post Database IdentityMap Write Row AppError (Wallet × Wallet)} (clean : Clean R origin v)
    (failed : ∀ u x, x ≠ .integrity .walletsBalanceNonNegative → Q (.error x) u)
    (done : ∀ u senderWallet recipientWallet user s, Clean R origin u →
      Owned senderWallet.id sender.id u.db → Owned recipientWallet.id user.id u.db →
      sender.id ≠ user.id → R Nothing origin s → Later s u.db →
      recipientIn normalize recipient s = some user → Q (.ok (senderWallet, recipientWallet)) u) :
    wp R G F (resolveTransfer normalize sender recipient) Q v := by
  have finds : findRecipient normalize recipient = query (recipientIn normalize recipient) := by
    cases recipient <;> rfl
  unfold resolveTransfer
  refine requireWallet_wp env clean (by simp) failed ?_
  intro v1 senderWallet clean1 _ ownsSender
  rw [finds, wp_seq]
  refine query_wp env (fun u => failed u _ (by simp)) ?_
  intro v2 goes2 pending2 memory2
  have bare2 := pending2.trans clean1.bare
  have clean2 := clean_goes env clean1 goes2 bare2 (by rw [memory2])
  rw [clean1.bare, applyAll_nil]
  refine orRaise_wp (fun _ => failed v2 _ (by simp)) ?_
  intro user active
  have found := (Option.filter_eq_some_iff.mp active).1
  refine require_wp (fun _ => failed v2 _ (by simp)) ?_
  intro other
  refine requireWallet_wp env clean2 (by simp) failed ?_
  intro v3 recipientWallet clean3 later3 ownsRecipient
  have ownsSender3 := owned_later (later_trans goes2.later later3) ownsSender
  exact done v3 senderWallet recipientWallet user v2.db clean3 ownsSender3 ownsRecipient
    (by simpa using other) clean2.rely later3 found

theorem resolvePayment_wp {payer : User} {merchantId : Uuid}
    {Q : Post Database IdentityMap Write Row AppError (Merchant × Wallet × Wallet)}
    (clean : Clean R origin v)
    (failed : ∀ u x, x ≠ .integrity .walletsBalanceNonNegative → Q (.error x) u)
    (done : ∀ u merchant payerWallet merchantWallet s, Clean R origin u →
      Owned payerWallet.id payer.id u.db → Owned merchantWallet.id merchant.userId u.db →
      payer.id ≠ merchant.userId → R Nothing origin s → Later s u.db →
      MerchantRepository.byId merchantId s = some merchant →
      Q (.ok (merchant, payerWallet, merchantWallet)) u) :
    wp R G F (resolvePayment payer merchantId) Q v := by
  unfold resolvePayment
  refine seq_wp ?_
  refine query_wp env (fun u => failed u _ (by simp)) ?_
  intro v1 goes1 pending1 memory1
  have bare1 := pending1.trans clean.bare
  have clean1 := clean_goes env clean goes1 bare1 (by rw [memory1])
  rw [clean.bare, applyAll_nil]
  refine orRaise_wp (fun _ => failed v1 _ (by simp)) ?_
  intro merchant found
  refine require_wp (fun _ => failed v1 _ (by simp)) ?_
  intro _
  refine require_wp (fun _ => failed v1 _ (by simp)) ?_
  intro other
  refine requireWallet_wp env clean1 (by simp) failed ?_
  intro v2 payerWallet clean2 later2 ownsPayer
  refine requireWallet_wp env clean2 (by simp) failed ?_
  intro v3 merchantWallet clean3 later3 ownsMerchant
  exact done v3 merchant payerWallet merchantWallet v1.db clean3 (owned_later later3 ownsPayer)
    ownsMerchant (by simpa using other) clean1.rely (later_trans later2 later3) found

theorem getByIdempotencyKey_wp {key : String}
    {Q : Post Database IdentityMap Write Row AppError (Option Transaction)} (clean : Clean R origin v)
    (failed : ∀ u, Q (.error .database) u)
    (free : ∀ u, Clean R origin u → Later v.db u.db → Q (.ok none) u)
    (taken : ∀ u txn, u.pending = [] → R Nothing origin u.db →
      TransactionRepository.byIdempotencyKey key u.db = some txn → Q (.ok (some txn)) u) :
    wp R G F (TransactionRepository.getByIdempotencyKey key) Q v := by
  refine selectTransaction_wp env ?_ ?_ ?_
  · intro u x _ why
    rcases why with rfl | never
    · exact failed u
    · cases never
  · intro u goes pending memory _
    exact free u (clean_goes env clean goes (pending.trans clean.bare) (by rw [memory])) goes.later
  · intro u row goes pending _ _ picked
    rw [clean.bare, applyAll_nil] at picked
    rw [transaction_unloaded (clean.unread row.id)]
    exact taken u row (pending.trans clean.bare) (env.trans clean.rely goes.rely)
      (Except.ok.inj picked)

theorem lookupKey_wp {key : Option String}
    {Q : Post Database IdentityMap Write Row AppError (Option Transaction)} (clean : Clean R origin v)
    (failed : ∀ u, Q (.error .database) u)
    (free : ∀ u, Clean R origin u → Later v.db u.db → Q (.ok none) u)
    (taken : ∀ u txn, u.pending = [] → R Nothing origin u.db → truthy key = true →
      TransactionRepository.byIdempotencyKey (key.getD "") u.db = some txn → Q (.ok (some txn)) u) :
    wp R G F (lookupKey key) Q v := by
  unfold lookupKey
  split
  · rename_i has
    refine getByIdempotencyKey_wp env clean failed free ?_
    intro u txn bare rely found
    exact taken u txn bare rely has found
  · exact free v clean (later_refl v.db)

end Guards

end PayCoreRequests
