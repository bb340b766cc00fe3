import PayCore.Model.Writes

/- The foreign keys of app/models. PostgreSQL checks them at each INSERT and UPDATE, the tables
   of this model do not: that they are never broken is proved of every run. -/
namespace PayCoreForeignKeys
open KeyedTable SessionProgram PayCoreTables PayCoreWrites

inductive Referred where
  | user (id : Uuid)
  | wallet (id : Uuid)
  | transaction (id : Uuid)
  | merchant (id : Uuid)
  deriving DecidableEq, Repr

def Present (db : Database) : Referred → Prop
  | .user id => ∃ u ∈ db.users.rows, u.id = id
  | .wallet id => ∃ w ∈ db.wallets.rows, w.id = id
  | .transaction id => ∃ t ∈ db.transactions.rows, t.id = id
  | .merchant id => ∃ m ∈ db.merchants.rows, m.id = id

def walletKeys (w : Wallet) : List Referred := [.user w.userId]

def transactionKeys (t : Transaction) : List Referred :=
  (t.sourceWalletId.map Referred.wallet).toList ++ (t.destinationWalletId.map Referred.wallet).toList ++
    [.user t.initiatedByUserId]

def entryKeys (e : LedgerEntry) : List Referred := [.transaction e.transactionId, .wallet e.walletId]

def merchantKeys (m : Merchant) : List Referred := [.user m.userId]

def bankAccountKeys (a : BankAccount) : List Referred := [.user a.userId]

def tokenKeys (t : RefreshToken) : List Referred := [.user t.userId]

def deliveryKeys (d : WebhookDelivery) : List Referred :=
  [.merchant d.merchantId, .transaction d.transactionId]

def submissionKeys (s : KYCSubmission) : List Referred :=
  .user s.userId :: (s.reviewerId.map Referred.user).toList

/-- Every foreign key of every row. -/
def foreignKeys (db : Database) : List Referred :=
  db.wallets.rows.flatMap walletKeys ++ db.transactions.rows.flatMap transactionKeys ++
    db.ledgerEntries.flatMap entryKeys ++ db.merchants.rows.flatMap merchantKeys ++
    db.bankAccounts.rows.flatMap bankAccountKeys ++ db.refreshTokens.rows.flatMap tokenKeys ++
    db.webhookDeliveries.rows.flatMap deliveryKeys ++ db.kycSubmissions.rows.flatMap submissionKeys

def Linked (db : Database) : Prop := ∀ r ∈ foreignKeys db, Present db r

def writeKeys : Write → List Referred
  | .insertWallet w => walletKeys w
  | .insertTransaction t => transactionKeys t
  | .insertEntry e => entryKeys e
  | .insertRefreshToken t => tokenKeys t
  | .insertDelivery d => deliveryKeys d
  | .account (.insertMerchant m) => merchantKeys m
  | .account (.insertBankAccount a) => bankAccountKeys a
  | .account (.insertSubmission s) => submissionKeys s
  | .account (.reviewSubmission _ review) => [.user review.reviewerId]
  | _ => []

section Tables
variable {ρ κ : Type} [Keyed ρ κ] {t : Table ρ} {f : ρ → List Referred}

theorem keys_insert {r : ρ} : ∀ k ∈ (t.insert r).rows.flatMap f, k ∈ t.rows.flatMap f ∨ k ∈ f r := by
  intro k mem
  cases free : t.admits r with
  | false =>
    rw [insert_refused free] at mem
    exact .inl mem
  | true =>
    rw [insert_rows free, List.flatMap_append, List.mem_append] at mem
    simpa using mem

theorem keys_update [DecidableEq κ] {id : κ} {e : Edit ρ} (keeps : ∀ r, f (e.on r) = f r) :
    (t.update id e).rows.flatMap f = t.rows.flatMap f := by
  rw [update_rows, List.flatMap_map]
  congr 1
  funext r
  simp only [editAt]
  split
  · exact keeps r
  · rfl

end Tables

theorem keys_reviewed {t : Table KYCSubmission} {id : Uuid} {review : Review} :
    ∀ k ∈ (t.update id (reviewEdit review)).rows.flatMap submissionKeys,
      k ∈ t.rows.flatMap submissionKeys ∨ k = .user review.reviewerId := by
  intro k mem
  obtain ⟨s, row, key⟩ := List.mem_flatMap.mp mem
  obtain ⟨a, old, same⟩ := mem_update row
  have own : .user a.userId ∈ t.rows.flatMap submissionKeys :=
    List.mem_flatMap.mpr ⟨a, old, List.mem_cons_self⟩
  by_cases here : a.id = id
  · have moved : editAt id (reviewEdit review) a = (reviewEdit review).on a := if_pos here
    rw [same, moved] at key
    simp only [submissionKeys, reviewEdit, Option.map_some, Option.toList_some, List.mem_cons,
      List.not_mem_nil, or_false] at key
    rcases key with user | reviewer
    · rw [user]
      exact .inl own
    · exact .inr reviewer
  · have stayed : editAt id (reviewEdit review) a = a := if_neg here
    rw [same, stayed] at key
    exact .inl (List.mem_flatMap.mpr ⟨a, old, key⟩)

theorem keys_write (w : Write) (db : Database) :
    ∀ k ∈ foreignKeys (applyWrite w db), k ∈ foreignKeys db ∨ k ∈ writeKeys w := by
  intro k mem
  simp only [foreignKeys, List.mem_append] at mem ⊢
  cases w with
  | insertWallet w =>
    have new := fun h => keys_insert (t := db.wallets) (r := w) (f := walletKeys) k h
    simp only [applyWrite] at mem
    tauto
  | insertTransaction t =>
    have new := fun h => keys_insert (t := db.transactions) (r := t) (f := transactionKeys) k h
    simp only [applyWrite] at mem
    tauto
  | insertEntry e =>
    simp only [applyWrite, List.flatMap_append, List.mem_append, List.flatMap_singleton] at mem
    simp only [writeKeys]
    tauto
  | insertRefreshToken t =>
    have new := fun h => keys_insert (t := db.refreshTokens) (r := t) (f := tokenKeys) k h
    simp only [applyWrite] at mem
    tauto
  | insertDelivery d =>
    have new := fun h => keys_insert (t := db.webhookDeliveries) (r := d) (f := deliveryKeys) k h
    simp only [applyWrite] at mem
    tauto
  | setBalance id balance =>
    simp only [applyWrite, keys_update (f := walletKeys) (e := balanceEdit balance) (fun _ => rfl)] at mem
    exact .inl mem
  | updateTransaction id set =>
    simp only [applyWrite, keys_update (f := transactionKeys) (e := transactionEdit set)
      (fun _ => rfl)] at mem
    exact .inl mem
  | setRecipientCode id code =>
    simp only [applyWrite, keys_update (f := bankAccountKeys) (e := recipientEdit code)
      (fun _ => rfl)] at mem
    exact .inl mem
  | updateDelivery id set =>
    simp only [applyWrite, keys_update (f := deliveryKeys) (e := deliveryEdit set) (fun _ => rfl)] at mem
    exact .inl mem
  | account w =>
    cases w with
    | insertMerchant m =>
      have new := fun h => keys_insert (t := db.merchants) (r := m) (f := merchantKeys) k h
      simp only [applyWrite, applyAccount] at mem
      tauto
    | updateMerchant id set =>
      simp only [applyWrite, applyAccount,
        keys_update (f := merchantKeys) (e := merchantEdit set) (fun _ => rfl)] at mem
      exact .inl mem
    | insertBankAccount a =>
      have new := fun h => keys_insert (t := db.bankAccounts) (r := a) (f := bankAccountKeys) k h
      simp only [applyWrite, applyAccount] at mem
      tauto
    | updateBankAccount id set =>
      simp only [applyWrite, applyAccount,
        keys_update (f := bankAccountKeys) (e := bankAccountEdit set) (fun _ => rfl)] at mem
      exact .inl mem
    | revokeRefreshToken hash =>
      simp only [applyWrite, applyAccount, keys_update (f := tokenKeys) (e := revokeEdit)
        (fun _ => rfl)] at mem
      exact .inl mem
    | insertSubmission s =>
      have new := fun h => keys_insert (t := db.kycSubmissions) (r := s) (f := submissionKeys) k h
      simp only [applyWrite, applyAccount] at mem
      tauto
    | reviewSubmission id review =>
      have new := @keys_reviewed db.kycSubmissions id review k
      simp only [applyWrite, applyAccount] at mem
      simp only [writeKeys, List.mem_singleton]
      tauto
    | updateUser id set => exact .inl mem
    | changePhone id held phone => exact .inl mem
  | insertUser u => exact .inl mem
  | insertAuditLog l => exact .inl mem

end PayCoreForeignKeys
