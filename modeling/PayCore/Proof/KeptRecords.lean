import PayCore.Model.ForeignKeys
import PayCore.Proof.Books
import PayCore.Proof.Statements

/- What the endpoints record and never take back: whose a transaction is, what its entries say, and
   what the audit log reports. -/
namespace PayCoreKeptRecords
open KeyedTable SessionProgram PayCoreTables PayCoreWrites PayCorePersistence PayCoreCommits PayCoreBooks
open PayCoreForeignKeys PayCoreStatements

def moves (type : TransactionType) : Prop := type = .transfer ∨ type = .merchantPayment

instance (type : TransactionType) : Decidable (moves type) := inferInstanceAs (Decidable (_ ∨ _))

/-- Everything of `s` that a record of `t` may build on. -/
structure Kept (s t : Database) : Prop where
  later : Later s t
  ledger : ∀ e ∈ s.ledgerEntries, e ∈ t.ledgerEntries
  transactions : ∀ id a, s.transactions.find? id = some a → ∃ b, t.transactions.find? id = some b ∧
    Revised a b ∧ (a.failureReason.isSome = true → b.failureReason.isSome = true) ∧
    (moves a.type → b.status = a.status)
  submissions : ∀ id a, s.kycSubmissions.find? id = some a → ∃ b, t.kycSubmissions.find? id = some b ∧
    b.userId = a.userId ∧ (a.status ≠ .pending → b.status ≠ .pending)

theorem kept_refl (s : Database) : Kept s s where
  later := later_refl s
  ledger _ mem := mem
  transactions _ a found := ⟨a, found, revised_refl a, fun h => h, fun _ => rfl⟩
  submissions _ a found := ⟨a, found, rfl, fun h => h⟩

theorem kept_trans {s t u : Database} (left : Kept s t) (right : Kept t u) : Kept s u := by
  constructor
  · exact later_trans left.later right.later
  · intro e mem
    exact right.ledger e (left.ledger e mem)
  · intro id a found
    obtain ⟨b, there, revised, failed, settled⟩ := left.transactions id a found
    obtain ⟨c, last, again, more, still⟩ := right.transactions id b there
    refine ⟨c, last, revised_trans revised again, fun h => more (failed h), ?_⟩
    intro moving
    rw [still (by rw [revised_type revised]; exact moving), settled moving]
  · intro id a found
    obtain ⟨b, there, user, reviewed⟩ := left.submissions id a found
    obtain ⟨c, last, same, more⟩ := right.submissions id b there
    exact ⟨c, last, same.trans user, fun h => more (reviewed h)⟩

/-- A write that takes no record back. The status of a movement is never set again. -/
def Steady (db : Database) : Write → Prop
  | .insertWallet w => 0 ≤ w.balance
  | .setBalance _ balance => 0 ≤ balance
  | .updateTransaction id set => set.status ≠ some .pending ∧
      (set.status ≠ none → ∃ t, db.transactions.find? id = some t ∧ ¬ moves t.type)
  | .account (.reviewSubmission _ review) => review.status ≠ .pending
  | _ => True

section Writes
variable {s t db : Database} {w : Write}

theorem steady_regular (h : Steady db w) : Regular w := by
  cases w with
  | updateTransaction id set => exact h.1
  | insertWallet w => exact h
  | setBalance id balance => exact h
  | _ => trivial

theorem steady_kept (kept : Kept s t) (h : Steady s w) : Steady t w := by
  cases w with
  | updateTransaction id set =>
    refine ⟨h.1, ?_⟩
    intro sets
    obtain ⟨a, found, still⟩ := h.2 sets
    obtain ⟨b, there, revised, _⟩ := kept.transactions id a found
    refine ⟨b, there, ?_⟩
    rw [revised_type revised]
    exact still
  | account w =>
    cases w with
    | reviewSubmission id review => exact h
    | _ => trivial
  | insertWallet w => exact h
  | setBalance id balance => exact h
  | _ => trivial

theorem kept_transactions (h : Steady db w) {id : Uuid} {a : Transaction}
    (found : db.transactions.find? id = some a) :
    ∃ b, (applyWrite w db).transactions.find? id = some b ∧ Revised a b ∧
      (a.failureReason.isSome = true → b.failureReason.isSome = true) ∧
      (moves a.type → b.status = a.status) := by
  cases w with
  | insertTransaction t => exact ⟨a, find?_insert_kept found, revised_refl a, fun h => h, fun _ => rfl⟩
  | updateTransaction k set =>
    have after : (applyWrite (.updateTransaction k set) db).transactions.find? id =
        if k = id then (db.transactions.find? id).map (transactionEdit set).on
          else db.transactions.find? id :=
      find?_update _ _ _ _
    by_cases here : k = id
    · subst here
      rw [if_pos rfl, found] at after
      refine ⟨_, after, revised_on set a, ?_, ?_⟩
      · intro failed
        obtain ⟨reason, has⟩ := Option.isSome_iff_exists.mp failed
        cases given : set.failureReason <;> simp [TransactionUpdate.on, given, has]
      · intro moving
        cases given : set.status with
        | none => simp [TransactionUpdate.on, given]
        | some status =>
          obtain ⟨b, there, still⟩ := h.2 (by simp [given])
          rw [found] at there
          cases there
          exact absurd moving still
    · rw [if_neg here] at after
      exact ⟨a, after.trans found, revised_refl a, fun h => h, fun _ => rfl⟩
  | account w =>
    refine ⟨a, ?_, revised_refl a, fun h => h, fun _ => rfl⟩
    rw [applyWrite, account_transactions]
    exact found
  | _ => exact ⟨a, found, revised_refl a, fun h => h, fun _ => rfl⟩

theorem kept_submissions (h : Steady db w) {id : Uuid} {a : KYCSubmission}
    (found : db.kycSubmissions.find? id = some a) :
    ∃ b, (applyWrite w db).kycSubmissions.find? id = some b ∧
      b.userId = a.userId ∧ (a.status ≠ .pending → b.status ≠ .pending) := by
  cases w with
  | account w =>
    cases w with
    | insertSubmission s => exact ⟨a, find?_insert_kept found, rfl, fun h => h⟩
    | reviewSubmission k review =>
      have after : (applyWrite (.account (.reviewSubmission k review)) db).kycSubmissions.find? id =
          if k = id then (db.kycSubmissions.find? id).map (reviewEdit review).on
            else db.kycSubmissions.find? id :=
        find?_update _ _ _ _
      by_cases here : k = id
      · rw [if_pos here, found] at after
        exact ⟨_, after, rfl, fun _ => h⟩
      · rw [if_neg here] at after
        exact ⟨a, after.trans found, rfl, fun h => h⟩
    | _ => exact ⟨a, found, rfl, fun h => h⟩
  | _ => exact ⟨a, found, rfl, fun h => h⟩

theorem entries_back (w : Write) {e : LedgerEntry} (mem : e ∈ (applyWrite w db).ledgerEntries) :
    e ∈ db.ledgerEntries ∨ w = .insertEntry e := by
  cases w with
  | insertEntry f =>
    rcases List.mem_append.mp mem with old | new
    · exact .inl old
    · rw [List.mem_singleton.mp new]
      exact .inr rfl
  | account w =>
    rw [applyWrite, account_ledgerEntries] at mem
    exact .inl mem
  | _ => exact .inl mem

theorem logs_back (w : Write) {l : AuditLog} (mem : l ∈ (applyWrite w db).auditLogs) :
    l ∈ db.auditLogs ∨ w = .insertAuditLog l := by
  cases w with
  | insertAuditLog k =>
    rcases List.mem_append.mp mem with old | new
    · exact .inl old
    · rw [List.mem_singleton.mp new]
      exact .inr rfl
  | account w =>
    cases w <;> exact .inl mem
  | _ => exact .inl mem

theorem kept_ledger (w : Write) {e : LedgerEntry} (mem : e ∈ db.ledgerEntries) :
    e ∈ (applyWrite w db).ledgerEntries := by
  cases w with
  | insertEntry f => exact List.mem_append_left _ mem
  | account w =>
    rw [applyWrite, account_ledgerEntries]
    exact mem
  | _ => exact mem

theorem kept_write (h : Steady db w) : Kept db (applyWrite w db) where
  later := later_write (steady_regular h) db
  ledger _ mem := kept_ledger w mem
  transactions _ _ found := kept_transactions h found
  submissions _ _ found := kept_submissions h found

theorem kept_all {ws : List Write} (h : ∀ w ∈ ws, Steady db w) : Kept db (applyAll ws db) := by
  induction ws generalizing db with
  | nil => exact kept_refl db
  | cons w ws ih =>
    have first := kept_write (h w List.mem_cons_self)
    apply kept_trans first
    apply ih
    intro v mem
    exact steady_kept first (h v (List.mem_cons_of_mem w mem))

/-- What a write brings about, and no steady write undoes, holds once it is committed. -/
theorem written {P : Database → Prop} {ws : List Write} (lasts : ∀ s t, Kept s t → P s → P t)
    (made : ∀ s, Kept db s → P (applyWrite w s)) (steady : ∀ x ∈ ws, Steady db x) (mem : w ∈ ws) :
    P (applyAll ws db) := by
  induction ws generalizing db with
  | nil => cases mem
  | cons x ws ih =>
    have first := kept_write (steady x List.mem_cons_self)
    have rest : ∀ y ∈ ws, Steady (applyWrite x db) y := fun y among =>
      steady_kept first (steady y (List.mem_cons_of_mem x among))
    rcases List.mem_cons.mp mem with rfl | later
    · exact lasts (applyWrite w db) _ (kept_all rest) (made db (kept_refl db))
    · exact ih (fun s kept => made s (kept_trans first kept)) rest later

end Writes

section Records
variable {s t db : Database}

theorem present_kept (kept : Kept s t) {r : Referred} (there : Present s r) : Present t r := by
  cases r with
  | user id =>
    obtain ⟨a, mem, rfl⟩ := there
    obtain ⟨b, last, same, _⟩ := kept.later.users a mem
    exact ⟨b, last, same⟩
  | wallet id =>
    obtain ⟨a, mem, rfl⟩ := there
    obtain ⟨b, last, _⟩ := kept.later.wallets a.id a (find?_some_iff.mpr ⟨mem, rfl⟩)
    exact ⟨b, (find?_some_iff.mp last).1, (find?_some_iff.mp last).2⟩
  | transaction id =>
    obtain ⟨a, mem, rfl⟩ := there
    obtain ⟨b, last, _⟩ := kept.later.transactions a.id a (find?_some_iff.mpr ⟨mem, rfl⟩)
    exact ⟨b, (find?_some_iff.mp last).1, (find?_some_iff.mp last).2⟩
  | merchant id =>
    obtain ⟨a, mem, rfl⟩ := there
    obtain ⟨b, last, same, _⟩ := kept.later.merchants a mem
    exact ⟨b, last, same⟩

theorem owned_present {id userId : Uuid} (h : Owned id userId db) : Present db (.wallet id) := by
  obtain ⟨row, found, _⟩ := h
  exact ⟨row, (find?_some_iff.mp found).1, (find?_some_iff.mp found).2⟩

theorem row_present {id : Uuid} {a : Transaction} (found : db.transactions.find? id = some a) :
    Present db (.transaction id) :=
  ⟨a, (find?_some_iff.mp found).1, (find?_some_iff.mp found).2⟩

/-- The initiator has the right to the transaction: the wallet that pays is the initiator's own. -/
structure Righted (db : Database) (t : Transaction) : Prop where
  kind : t.type ≠ .reversal
  payer : ∀ id, t.sourceWalletId = some id → Owned id t.initiatedByUserId db ∧ 0 < t.amount
  moved : moves t.type → t.status = .completed ∧ t.sourceWalletId ≠ none ∧
    t.destinationWalletId ≠ none ∧
    t.sourceWalletId ≠ t.destinationWalletId
  funded : t.type = .funding → t.sourceWalletId = none ∧
    ∃ id, t.destinationWalletId = some id ∧ Owned id t.initiatedByUserId db
  held : t.type = .withdrawal → t.destinationWalletId = none ∧ t.sourceWalletId ≠ none

theorem righted_kept {a : Transaction} (kept : Kept s t) (h : Righted s a) : Righted t a where
  kind := h.kind
  payer id pays := ⟨owned_later kept.later (h.payer id pays).1, (h.payer id pays).2⟩
  moved := h.moved
  funded funding := by
    obtain ⟨unsourced, id, paid, own⟩ := h.funded funding
    exact ⟨unsourced, id, paid, owned_later kept.later own⟩
  held := h.held

theorem righted_revised {a b : Transaction} (revised : Revised a b)
    (settled : moves a.type → b.status = a.status) (h : Righted db a) : Righted db b := by
  rw [revised]
  constructor
  · exact h.kind
  · exact h.payer
  · intro moving
    obtain ⟨status, rest⟩ := h.moved moving
    exact ⟨(settled moving).trans status, rest⟩
  · exact h.funded
  · exact h.held

/-- An entry stands for its transaction: a DEBIT on the wallet that pays, a CREDIT on the one
that is paid. -/
def Represents (db : Database) (e : LedgerEntry) : Prop :=
  ∃ t, db.transactions.find? e.transactionId = some t ∧
    (e.entryType = .debit → t.sourceWalletId = some e.walletId ∧ e.amount = t.amount) ∧
    (e.entryType = .credit → t.destinationWalletId = some e.walletId ∧ (moves t.type → e.amount = t.amount))

theorem accounted_kept {e : LedgerEntry} (kept : Kept s t) (h : Represents s e) : Represents t e := by
  obtain ⟨a, found, debit, credit⟩ := h
  obtain ⟨b, there, revised, _⟩ := kept.transactions _ a found
  refine ⟨b, there, ?_⟩
  rw [revised]
  exact ⟨debit, credit⟩

def Doubled (t : Transaction) (entries : List LedgerEntry) : Prop :=
  ∃ source destination debit credit, t.sourceWalletId = some source ∧
    t.destinationWalletId = some destination ∧
    entries = [debit, credit] ∧ IsEntry t.id .debit source t.amount debit ∧
    IsEntry t.id .credit destination t.amount credit

theorem doubled_revised {a b : Transaction} {entries : List LedgerEntry} (revised : Revised a b)
    (h : Doubled a entries) : Doubled b entries := by
  rw [revised]
  exact h

/-- What an audit record reports has happened. -/
inductive Attested (db : Database) : AuditLog → Prop where
  | account (userId : Uuid) (action : String) (there : Present db (.user userId))
      (named : action = "user.registered" ∨ action = "user.login") :
      Attested db ⟨some userId, .user, action, some "user", some userId⟩
  | moved (t : Transaction) (action : String) (row : db.transactions.find? t.id = some t)
      (named : t.type = .transfer ∧ action = "transfer.completed" ∨
        t.type = .merchantPayment ∧ action = "merchant_payment.completed") :
      Attested db ⟨some t.initiatedByUserId, .user, action, some "transaction", some t.id⟩
  | opened (t : Transaction) (row : db.transactions.find? t.id = some t) (type : t.type = .withdrawal) :
      Attested db ⟨some t.initiatedByUserId, .user, "withdrawal.initiated", some "transaction", some t.id⟩
  | funded (t : Transaction) (e : LedgerEntry) (row : db.transactions.find? t.id = some t)
      (type : t.type = .funding) (posted : e ∈ db.ledgerEntries) (own : e.transactionId = t.id)
      (side : e.entryType = .credit) :
      Attested db ⟨some t.initiatedByUserId, .user, "wallet.funded", some "transaction", some t.id⟩
  | paidOut (t : Transaction) (e : LedgerEntry) (row : db.transactions.find? t.id = some t)
      (type : t.type = .withdrawal) (posted : e ∈ db.ledgerEntries) (own : e.transactionId = t.id)
      (side : e.entryType = .debit) :
      Attested db ⟨some t.initiatedByUserId, .system, "withdrawal.completed", some "transaction", some t.id⟩
  | refunded (t : Transaction) (row : db.transactions.find? t.id = some t) (type : t.type = .withdrawal)
      (failed : t.failureReason.isSome = true) :
      Attested db ⟨some t.initiatedByUserId, .system, "withdrawal.failed", some "transaction", some t.id⟩
  | merchant (m : Merchant) (action : String) (row : m ∈ db.merchants.rows)
      (named : action = "merchant.created" ∨ action = "api_key.generated") :
      Attested db ⟨some m.userId, .user, action, some "merchant", some m.id⟩
  | submitted (s : KYCSubmission) (row : db.kycSubmissions.find? s.id = some s) :
      Attested db ⟨some s.userId, .user, "kyc.submitted", some "kyc_submission", some s.id⟩
  | reviewed (s : KYCSubmission) (reviewerId : Uuid) (action : String)
      (row : db.kycSubmissions.find? s.id = some s) (status : s.status ≠ .pending)
      (there : Present db (.user reviewerId)) (other : reviewerId ≠ s.userId)
      (named : action = "kyc.approved" ∨ action = "kyc.rejected") :
      Attested db ⟨some reviewerId, .admin, action, some "kyc_submission", some s.id⟩
  | reconciled (adminId : Uuid) (there : Present db (.user adminId)) :
      Attested db ⟨some adminId, .admin, "admin.reconciliation_triggered", none, none⟩

theorem row_kept {a : Transaction} (kept : Kept s t) (row : s.transactions.find? a.id = some a) :
    ∃ b, t.transactions.find? b.id = some b ∧ Revised a b ∧
      (a.failureReason.isSome = true → b.failureReason.isSome = true) := by
  obtain ⟨b, there, revised, failed, _⟩ := kept.transactions a.id a row
  refine ⟨b, ?_, revised, failed⟩
  rw [revised_id revised]
  exact there

theorem revised_initiator {a b : Transaction} (h : Revised a b) :
    b.initiatedByUserId = a.initiatedByUserId := by rw [h]

theorem attested_kept {l : AuditLog} (kept : Kept s t) (h : Attested s l) : Attested t l := by
  cases h with
  | account userId action there named => exact .account userId action (present_kept kept there) named
  | moved a action row named =>
    obtain ⟨b, there, revised, _⟩ := row_kept kept row
    rw [← revised_initiator revised, ← revised_id revised]
    exact .moved b action there (by rw [revised_type revised]; exact named)
  | opened a row type =>
    obtain ⟨b, there, revised, _⟩ := row_kept kept row
    rw [← revised_initiator revised, ← revised_id revised]
    exact .opened b there ((revised_type revised).trans type)
  | funded a e row type posted own side =>
    obtain ⟨b, there, revised, _⟩ := row_kept kept row
    rw [← revised_initiator revised, ← revised_id revised]
    exact .funded b e there ((revised_type revised).trans type) (kept.ledger e posted)
      (own.trans (revised_id revised).symm) side
  | paidOut a e row type posted own side =>
    obtain ⟨b, there, revised, _⟩ := row_kept kept row
    rw [← revised_initiator revised, ← revised_id revised]
    exact .paidOut b e there ((revised_type revised).trans type) (kept.ledger e posted)
      (own.trans (revised_id revised).symm) side
  | refunded a row type failed =>
    obtain ⟨b, there, revised, still⟩ := row_kept kept row
    rw [← revised_initiator revised, ← revised_id revised]
    exact .refunded b there ((revised_type revised).trans type) (still failed)
  | merchant m action row named =>
    obtain ⟨n, there, id, user⟩ := kept.later.merchants m row
    rw [← id, ← user]
    exact .merchant n action there named
  | submitted a row =>
    obtain ⟨b, there, user, _⟩ := kept.submissions a.id a row
    have id : b.id = a.id := (find?_some_iff.mp there).2
    rw [← user, ← id]
    exact .submitted b (by rw [id]; exact there)
  | reviewed a reviewerId action row status there other named =>
    obtain ⟨b, last, user, still⟩ := kept.submissions a.id a row
    have id : b.id = a.id := (find?_some_iff.mp last).2
    rw [← id]
    exact .reviewed b reviewerId action (by rw [id]; exact last) (still status) (present_kept kept there)
      (by rw [user]; exact other) named
  | reconciled adminId there => exact .reconciled adminId (present_kept kept there)

end Records

end PayCoreKeptRecords
