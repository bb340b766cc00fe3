import PayCore.Proof.LockRules
import PayCore.Result.WalletBalances

/- No two sessions, and no ring of them, wait for each other's wallets and transactions. -/
namespace PayCoreDeadlockFreedom
open KeyedTable SessionProgram SessionSystem RelyGuarantee LockOrder PayCoreTables PayCoreWrites
open PayCoreSessions PayCoreRepositories PayCoreSupport PayCorePayments PayCoreWithdrawals PayCoreFunding
open PayCoreJobs PayCorePersistence PayCoreRegularity PayCoreLockRules PayCoreJobRules PayCoreWalletBalances

variable {α β : Type} {fundings : Uuid → Bool} {L : Database → Database → Prop} {w : Database}
  {m : IdentityMap} {held : Row → Prop}

theorem whole {p : Tx Unit} {v : Spot} (h : Climbs fundings L (p >>= fun _ => .ret ()) v) :
    Climbs fundings L p v := by
  have same : (p >>= fun _ => .ret ()) = p := bind_pure_unit
  rwa [same] at h

theorem above_funding {id walletId : Uuid} (funding : fundings id = true) :
    ¬ held (.wallet walletId) → ∀ h i, (Nothing h ∨ h = .transaction id) →
    lockOrder fundings h = some i →
      i < toLex (1, walletId) := by
  rintro _ h i (none | rfl) ranked
  · exact none.elim
  · simp only [lockOrder, funding, if_true, Option.some.injEq] at ranked
    rw [← ranked]
    exact Prod.Lex.toLex_lt_toLex.mpr (.inl (by simp))

/-- A charge locks the funding first and its wallet next. -/
theorem creditFunding_then {txn : Transaction} {walletId : Uuid} {amount : Int} {k : Unit → Tx α}
    (funding : fundings txn.id = true) (onward : ∀ s m held, Climbs fundings L (k ()) ⟨s, m, held⟩) :
    Climbs fundings L (creditFunding txn walletId amount >>= k)
      ⟨w, m, fun r => Nothing r ∨ r = .transaction txn.id⟩ := by
  apply nested_then
  apply lockForUpdate_then (above_funding funding)
  intro found s m named
  cases found with
  | none => exact onward s m _
  | some wallet =>
    apply nested_then
    apply updateBalance_then (.inr (by rw [named wallet rfl]))
    intro _ s m
    apply nested_then
    apply createEntry_then
    intro s
    apply nested_then
    apply updateStatus_then (above_held (.inl (.inr rfl)))
    intro s m _ _ set
    apply nested_then
    apply commit_then
    intro s m
    apply auditLog_then
    intro s m
    exact onward s m _

theorem scalar_mem {γ : Type} {l : List γ} {a : γ}
    (picked : TransactionRepository.scalarOneOrNone l = .ok (some a)) : a ∈ l := by
  cases l with
  | nil => cases picked
  | cons b rest =>
    cases rest with
    | nil =>
      cases picked
      simp
    | cons c more => cases picked

theorem processChargeSuccess_then {data : PaystackData} {k : Unit → Tx α}
    (onward : ∀ s m held, Climbs fundings Lasts (k ()) ⟨s, m, held⟩) :
    Climbs fundings Lasts (processChargeSuccess data >>= k) ⟨w, default, Nothing⟩ := by
  unfold processChargeSuccess
  split
  · apply nested_then
    apply firstTransaction_then
    · intro s row picked
      exact (List.mem_filter.mp (scalar_mem picked)).1
    intro found s m shelved stored
    cases found with
    | none => exact onward s m _
    | some txn =>
      have there := stored txn rfl
      dsimp only
      split
      · rename_i pending
        apply nested_then
        apply updateStatus_then above_nothing
        intro t m _ later set
        obtain ⟨row, kept, revised⟩ := later _ _ there
        have id : row.id = txn.id := revised_id revised
        rw [kept]
        dsimp only [Option.getD_some]
        cases received : (set.on row).destinationWalletId with
        | none => exact onward t m _
        | some walletId =>
          have funding : fundings (set.on row).id = true := by
            change fundings row.id = true
            rw [id]
            apply shelved.awaited txn (find?_some_iff.mp there).1 pending
            rw [← revised_destination revised]
            change (set.on row).destinationWalletId.isSome = true
            rw [received]
            rfl
          rw [← id]
          exact creditFunding_then funding onward
      · exact onward s m _
  · exact onward w default _

theorem failFunding_then {transactionId : Uuid} {status : Option String} {k : Unit → Tx α}
    (onward : ∀ s m held, Climbs fundings L (k ()) ⟨s, m, held⟩) :
    Climbs fundings L (failFunding transactionId status >>= k) ⟨w, m, Nothing⟩ := by
  apply nested_then
  apply selectTransaction_then
  intro found s m
  cases found with
  | none => exact onward s m _
  | some txn =>
    dsimp only
    split
    · apply nested_then
      apply updateStatus_then above_nothing
      intro t m _ _ set
      apply nested_then
      apply updateStatus_then (above_held (.inr (by rw [flushed_id])))
      intro t m _ _ set
      apply commit_then
      exact fun s m => onward s m _
    · exact onward s m _

theorem reconcileFunding_climbs {transactionId : Uuid} {providerReference : String} :
    Climbs fundings Lasts (reconcileFunding transactionId providerReference) ⟨w, default, Nothing⟩ := by
  have body : ∀ data, Climbs fundings Lasts (applyResult transactionId data >>= fun _ => .ret ())
      ⟨w, default, Nothing⟩ := by
    intro data
    unfold applyResult
    dsimp only
    split
    · apply nested_then
      apply processChargeSuccess_then
      intro s m held
      apply commit_then
      exact fun _ _ => trivial
    · apply failFunding_then
      exact fun _ _ _ => trivial
  apply whole
  unfold reconcileFunding
  apply handle_then
  · apply nested_then
    exact ⟨body, trivial⟩
  · exact fun _ _ => trivial

theorem wallet_alone {id : Uuid} : ∀ h, (Nothing h ∨ h = Row.wallet id) → ∃ id, h = .wallet id := by
  rintro h (none | rfl)
  · exact none.elim
  · exact ⟨id, rfl⟩

/-- A payout locks the wallet first and the withdrawal next. -/
theorem onProcessing_climbs {reference : String} {settle : Transaction → Uuid → Tx Unit}
    (settles : ∀ txn walletId s m, fundings txn.id ≠ true →
      Climbs fundings L (settle txn walletId) ⟨s, m, Nothing⟩) :
    Climbs fundings L (onProcessing reference settle) ⟨w, default, Nothing⟩ := by
  apply firstTransaction_then
  · intro s row picked
    exact List.mem_of_find?_eq_some (Except.ok.inj picked)
  intro found s m shelved stored
  cases found with
  | none => trivial
  | some txn =>
    dsimp only
    split
    · cases source : txn.sourceWalletId with
      | none => trivial
      | some walletId =>
        apply settles txn walletId s m
        intro known
        rw [shelved.sourceless txn (find?_some_iff.mp (stored txn rfl)).1 known] at source
        cases source
    · trivial

theorem settlePayout_climbs {txn : Transaction} {walletId : Uuid} (unshelved : fundings txn.id ≠ true) :
    Climbs fundings L (settlePayout txn walletId) ⟨w, m, Nothing⟩ := by
  apply lockForUpdate_then (fun _ _ _ none => none.elim)
  intro found s m named
  cases found with
  | none => trivial
  | some wallet =>
    apply createEntry_then
    intro s
    apply updateStatus_then (above_wallets unshelved wallet_alone)
    intro s m _ _ set
    apply commit_then
    intro s m
    apply whole
    exact auditLog_then (fun _ _ => trivial)

theorem refundPayout_climbs {txn : Transaction} {walletId : Uuid} {transferCode : String}
    (unshelved : fundings txn.id ≠ true) :
    Climbs fundings L (refundPayout txn walletId transferCode) ⟨w, m, Nothing⟩ := by
  apply lockForUpdate_then (fun _ _ _ none => none.elim)
  intro found s m named
  cases found with
  | none => trivial
  | some wallet =>
    apply updateBalance_then (.inr (by rw [named wallet rfl]))
    intro _ s m
    apply updateStatus_then (above_wallets unshelved wallet_alone)
    intro s m _ _ set
    apply commit_then
    intro s m
    apply whole
    exact auditLog_then (fun _ _ => trivial)

theorem dispatchPayout_climbs {txn : Transaction} {recipientCode : String} :
    Climbs fundings L (dispatchPayout txn recipientCode) ⟨w, m, Nothing⟩ := by
  have sent : ∀ (t : Transaction) s m held, above fundings t.id held →
      Climbs fundings L (do
        let transfer ← paystack (.initiateTransfer t.amount recipientCode t.reference
          ("PayCore withdrawal " ++ t.reference))
        let transferCode := transfer.transferCode.get ""
        if transferCode = t.providerReference then commit
        else do
          let _ ← TransactionRepository.flush t { providerReference := some transferCode }
          commit) ⟨s, m, held⟩ := by
    intro t s m held climb
    refine ⟨?_, trivial⟩
    intro transfer
    change Climbs fundings L (if _ then commit else _) _
    split
    · exact fun _ => ⟨trivial, trivial⟩
    · apply flush_then climb
      exact fun _ _ _ _ _ => ⟨trivial, trivial⟩
  unfold dispatchPayout
  split
  · apply updateStatus_then above_nothing
    intro s m _ _ set
    exact sent _ s m _ (above_held (.inr (by rw [flushed_id])))
  · exact sent txn w m _ above_nothing

theorem recipientCodeOf_then {account : BankAccount} {k : String → Tx α}
    (onward : ∀ code s m, Climbs fundings L (k code) ⟨s, m, held⟩) :
    Climbs fundings L (recipientCodeOf account >>= k) ⟨w, m, held⟩ := by
  unfold recipientCodeOf
  split
  · exact onward _ w m
  · apply nested_then
    refine ⟨?_, trivial⟩
    intro recipient
    change Climbs fundings L ((require _ _ >>= _) >>= k) _
    apply nested_then
    apply require_then
    apply nested_then
    apply quiet_then
    · intro s r mem ranked
      have same : r = .bankAccount account.id := by simpa [needed, Store.targets, writeTargets] using mem
      rw [same] at ranked
      cases ranked
    · exact fun s _ _ => onward _ s m

theorem executePayout_climbs {transactionId : Uuid} :
    Climbs fundings L (executePayout transactionId) ⟨w, m, Nothing⟩ := by
  apply selectTransaction_then
  intro found s m
  cases found with
  | none => trivial
  | some txn =>
    dsimp only
    split
    · trivial
    · split
      · trivial
      · cases txn.extraData.bind (·.bankAccountId) with
        | none => trivial
        | some bankAccountId =>
          apply query_then
          intro account s
          cases account with
          | none => trivial
          | some account =>
            apply recipientCodeOf_then
            exact fun code s m => dispatchPayout_climbs

section Requests

theorem kycSingleLimit_then {cfg : Settings} {kycTier : Nat} {amount : Int} {k : Unit → Tx α} {v : Spot}
    (onward : Climbs fundings L (k ()) v) :
    Climbs fundings L (enforceKycSingleLimit cfg kycTier amount >>= k) v := by
  unfold enforceKycSingleLimit
  split
  · trivial
  · exact require_then onward

theorem dailyLimit_then {cfg : Settings} {now : Timestamp} {userId : Uuid} {kycTier : Nat} {amount : Int}
    {type : TransactionType} {k : Unit → Tx α} (onward : ∀ s, Climbs fundings L (k ()) ⟨s, m, held⟩) :
    Climbs fundings L (enforceDailyLimit cfg now userId kycTier amount type >>= k) ⟨w, m, held⟩ := by
  apply nested_then
  apply query_then
  intro sum s
  exact require_then (onward s)

def Unlocked (L : Database → Database → Prop) (fundings : Uuid → Bool) (p : Tx α) : Prop :=
  ∀ s m, Climbs fundings L p ⟨s, m, Nothing⟩

theorem two_wallets {first second : Uuid} :
    ∀ h, (((Nothing h ∨ h = Row.wallet first) ∨ h = Row.wallet second)) → ∃ id, h = .wallet id := by
  rintro h ((none | rfl) | rfl)
  · exact none.elim
  · exact ⟨first, rfl⟩
  · exact ⟨second, rfl⟩

theorem writeMovement_then {type : TransactionType} {initiator : User} {amount : Int} {key : Option String}
    {draws : Draws} {payer payee : Wallet} {k : Movement → Tx α}
    (wallets : ∀ h, held h → ∃ id, h = .wallet id)
    (payerHeld : held (.wallet payer.id)) (payeeHeld : held (.wallet payee.id))
    (onward : ∀ moved, Unlocked L fundings (k moved)) :
    Climbs fundings L (writeMovement type initiator amount key draws payer payee >>= k) ⟨w, m, held⟩ := by
  apply nested_then
  apply createTransaction_then wallets
  intro s m
  apply nested_then
  apply nested_then
  apply createEntry_then
  intro s
  apply nested_then
  apply createEntry_then
  intro s
  apply nested_then
  apply updateBalance_then (.inl payerHeld)
  intro _ s m
  apply nested_then
  apply updateBalance_then (.inl payeeHeld)
  intro _ s m
  apply nested_then
  apply commit_then
  exact fun s m => onward _ s m

theorem recoverMovement_then {key : Option String} {error : AppError} {k : Movement → Tx α} {v : Spot}
    (onward : ∀ moved, Unlocked L fundings (k moved)) :
    Climbs fundings L (recoverMovement key error >>= k) v := by
  cases error with
  | integrity c =>
    intro w
    change Climbs fundings L ((if truthy key then _ else _) >>= k) ⟨w, default, Nothing⟩
    split
    · apply nested_then
      apply selectTransaction_then
      intro found s m
      cases found with
      | none => trivial
      | some txn => exact onward _ s m
    · trivial
  | _ => trivial

theorem moveFunds_then {type : TransactionType} {initiator : User} {amount : Int} {key : Option String}
    {draws : Draws} {payerWallet payeeWallet : Wallet} {k : Movement → Tx α}
    (onward : ∀ moved, Unlocked L fundings (k moved)) :
    Climbs fundings L (moveFunds type initiator amount key draws payerWallet payeeWallet >>= k)
      ⟨w, m, Nothing⟩ := by
  apply nested_then
  apply lockForUpdate_then (fun _ _ _ none => none.elim)
  intro foundFirst s m namedFirst
  apply nested_then
  apply lockForUpdate_then
  · rintro free h i (none | rfl) ranked
    · exact none.elim
    · cases ranked
      apply Prod.Lex.toLex_lt_toLex.mpr
      have other : min payerWallet.id payeeWallet.id ≠ max payerWallet.id payeeWallet.id := by
        intro same
        exact free (.inr (by rw [same]))
      exact .inr ⟨rfl, lt_of_le_of_ne (by omega) other⟩
  intro foundSecond s m namedSecond
  apply nested_then
  apply orRaise_then
  intro lockedFirst first
  apply nested_then
  apply orRaise_then
  intro lockedSecond second
  apply nested_then
  apply require_then
  have firstHeld := namedFirst _ first
  have secondHeld := namedSecond _ second
  apply handle_then
  · apply writeMovement_then two_wallets _ _ onward
    · split
      · exact .inl (.inr (by rw [firstHeld]))
      · exact .inr (by rw [secondHeld])
    · split
      · exact .inr (by rw [secondHeld])
      · exact .inl (.inr (by rw [firstHeld]))
  · exact fun x u => recoverMovement_then onward

theorem deliver_then {merchant : Merchant} {transactionId deliveryId : Uuid} {eventType : String}
    {k : Unit → Tx α} (onward : Unlocked L fundings (k ())) :
    Climbs fundings L
      (Prog.handle (createAndEnqueue merchant transactionId deliveryId eventType) (fun _ => .ret ()) >>= k)
      ⟨w, m, Nothing⟩ := by
  apply (climbs_seq _ _ _ _).mpr
  apply handle_climbs
  unfold createAndEnqueue
  split
  · constructor
    · intro s _ _
      constructor
      · intro r mem _ n asked
        have same : r = .webhookDelivery deliveryId := by
          simpa [needed, Store.targets, writeTargets] using mem
        rw [same] at asked
        cases asked
      · exact fun w => ⟨⟨fun _ => onward w m, onward w m⟩, onward w m⟩
    · exact fun w => onward w m
  · exact onward w m

theorem flagPayment_then {cfg : Settings} {transactionId : Uuid} {user : User} {amount : Int}
    {k : Unit → Tx α} {v : Spot} (onward : Climbs fundings L (k ()) v) :
    Climbs fundings L (maybeFlagMerchantPayment cfg transactionId user amount >>= k) v := by
  unfold maybeFlagMerchantPayment
  split
  · exact enqueue_then onward
  · exact onward

theorem flagRapid_then {cfg : Settings} {now : Timestamp} {transactionId walletId : Uuid} {k : Unit → Tx α}
    (onward : ∀ s, Climbs fundings L (k ()) ⟨s, m, held⟩) :
    Climbs fundings L (maybeFlagRapidTransfers cfg now transactionId walletId >>= k) ⟨w, m, held⟩ := by
  apply nested_then
  apply query_then
  intro distinct s
  split
  · exact enqueue_then (onward s)
  · exact onward s

theorem dispatch_then {transactionId : Uuid} {k : Unit → Tx α} {v : Spot}
    (onward : Climbs fundings L (k ()) v) :
    Climbs fundings L
    (Prog.handle (enqueue (.processWithdrawal transactionId)) (fun _ => .ret ()) >>= k) v :=
  ⟨fun _ => onward, onward⟩

theorem findRecipient_then {normalize : String → String} {recipient : Recipient} {k : Option User → Tx α}
    (onward : ∀ user s, Climbs fundings L (k user) ⟨s, m, held⟩) :
    Climbs fundings L (findRecipient normalize recipient >>= k) ⟨w, m, held⟩ := by
  cases recipient with
  | userId id => exact query_then onward
  | email email => exact query_then onward

theorem initiateTransfer_climbs {normalize : String → String} {sender : User} {cfg : Settings}
    {recipient : Recipient} {amount : Int} {key : Option String} {draws : Draws} :
    Climbs fundings L (initiateTransfer normalize sender cfg recipient amount key draws)
      ⟨w, m, Nothing⟩ := by
  apply nested_then
  apply getByUserId_then
  intro _ s m
  apply nested_then
  apply orRaise_then
  intro payer _
  apply nested_then
  apply findRecipient_then
  intro user s
  apply nested_then
  apply orRaise_then
  intro payee _
  apply nested_then
  apply require_then
  apply nested_then
  apply getByUserId_then
  intro _ s m
  apply nested_then
  apply orRaise_then
  intro payeeWallet _
  apply lookupKey_then
  intro existing s m
  cases existing with
  | some txn => trivial
  | none =>
    apply nested_then
    apply kycSingleLimit_then
    apply nested_then
    apply dailyLimit_then
    intro s
    apply nested_then
    apply query_then
    intro count s
    apply require_then
    apply moveFunds_then
    intro moved s m
    cases moved with
    | existing txn => trivial
    | committed txn =>
      apply flagRapid_then
      intro s
      exact auditLog_then (fun _ _ => trivial)

theorem initiatePayment_climbs {payer : User} {cfg : Settings} {merchantId : Uuid} {amount : Int}
    {key : Option String} {draws : Draws} :
    Climbs fundings L (initiatePayment payer cfg merchantId amount key draws) ⟨w, m, Nothing⟩ := by
  apply nested_then
  apply query_then
  intro _ s
  apply nested_then
  apply orRaise_then
  intro merchant _
  apply nested_then
  apply require_then
  apply nested_then
  apply require_then
  apply nested_then
  apply getByUserId_then
  intro _ s m
  apply nested_then
  apply orRaise_then
  intro payerWallet _
  apply nested_then
  apply getByUserId_then
  intro _ s m
  apply nested_then
  apply orRaise_then
  intro merchantWallet _
  apply lookupKey_then
  intro existing s m
  cases existing with
  | some txn => trivial
  | none =>
    apply nested_then
    apply kycSingleLimit_then
    apply dailyLimit_then
    intro s
    apply moveFunds_then
    intro moved s m
    cases moved with
    | existing txn => trivial
    | committed txn =>
      apply flagPayment_then
      apply deliver_then
      intro s m
      exact auditLog_then (fun _ _ => trivial)

theorem initiateWithdrawal_climbs {cfg : Settings} {user : User} {bankAccountId : Uuid} {amount : Int}
    {draws : WithdrawalDraws} :
    Climbs fundings L (initiateWithdrawal cfg user bankAccountId amount draws) ⟨w, m, Nothing⟩ := by
  apply getByUserId_then
  intro _ s m
  apply orRaise_then
  intro wallet _
  apply nested_then
  apply require_then
  apply nested_then
  apply kycSingleLimit_then
  apply dailyLimit_then
  intro s
  apply selectTransaction_then
  intro active s m
  apply require_then
  apply query_then
  intro account s
  apply orRaise_then
  intro _ _
  apply lockForUpdate_then (fun _ _ _ none => none.elim)
  intro found s m named
  apply orRaise_then
  intro lockedWallet locked
  apply require_then
  apply createTransaction_then wallet_alone
  intro s m
  apply updateBalance_then
  · exact .inl (.inr (by rw [named _ locked]))
  intro _ s m
  apply commit_then
  intro s m
  apply dispatch_then
  exact auditLog_then (fun _ _ => trivial)

end Requests

def contends : Job → Prop
  | .register .. => False
  | .initiateFunding .. => False
  | _ => True

def mayWrite : Job → Write → Prop
  | .initiateTransfer .. => opensOneWay
  | .initiatePayment .. => opensOneWay
  | .initiateWithdrawal .. => opensOneWay
  | _ => settles

/-- What a handler goes back to on the row it has read. The requests go back to none. -/
def looksBack : Job → Database → Database → Prop
  | .initiateTransfer .. => fun _ _ => True
  | .initiatePayment .. => fun _ _ => True
  | .initiateWithdrawal .. => fun _ _ => True
  | _ => Lasts

theorem mayWrite_either {job : Job} {w : Write} (h : mayWrite job w) : opensOneWay w ∨ settles w := by
  cases job with
  | initiateTransfer => exact .inl h
  | initiatePayment => exact .inl h
  | initiateWithdrawal => exact .inl h
  | _ => exact .inr h

theorem settles_regular {w : Write} (settled : settles w) : Regular w := by
  cases w <;> first | exact settled | exact settled.1 | trivial

theorem mayWrite_regular {job : Job} {w : Write} (h : mayWrite job w) : Regular w := by
  rcases mayWrite_either h with opens | settled
  · cases w <;> first | exact opens | exact opens.elim | trivial
  · exact settles_regular settled

theorem looksBack_or (job : Job) :
    looksBack job = (fun _ _ => True) ∨ looksBack job = Lasts ∧ mayWrite job = settles := by
  cases job with
  | initiateTransfer => exact .inl rfl
  | initiatePayment => exact .inl rfl
  | initiateWithdrawal => exact .inl rfl
  | _ => exact .inr ⟨rfl, rfl⟩

theorem jobs_steady {ι : Type} (jobs : ι → Job) :
    Steady (Shelved fundings) (fun i => looksBack (jobs i)) (fun i => mayWrite (jobs i)) where
  sound i w s allowed shelved := shelved_write (mayWrite_either allowed) shelved
  still i s := by
    rcases looksBack_or (jobs i) with free | ⟨lasts, _⟩
    · rw [free]
      trivial
    · rw [lasts]
      exact lasts_refl s
  own i w s t allowed later := by
    rcases looksBack_or (jobs i) with free | ⟨lasts, _⟩
    · rw [free]
      trivial
    · rw [lasts] at later ⊢
      apply lasts_trans later
      have single : ∀ v ∈ [w], Regular v := by
        intro v mem
        rw [List.mem_singleton.mp mem]
        exact mayWrite_regular allowed
      exact lasts_all single t
  others i j ws vs s db mine theirs later := by
    rcases looksBack_or (jobs i) with free | ⟨lasts, settled⟩
    · rw [free]
      trivial
    · rw [lasts] at later ⊢
      rw [settled] at mine
      apply lasts_others mine _ _ later
      · exact fun w mem => mayWrite_regular (theirs w mem)
      · exact fun w mem => settles_regular (mine w mem)

theorem job_emits {job : Job} (kind : contends job) : Emits (mayWrite job) job.program := by
  have opened : ∀ type user amount w, moves type user amount w → opensOneWay w := by
    intro type user amount w h
    cases w with
    | insertTransaction t =>
      intro pending
      rw [h.2.2.2] at pending
      cases pending
    | _ => exact h
  cases job with
  | register => exact kind.elim
  | initiateFunding => exact kind.elim
  | initiateTransfer => exact emits_mono (opened _ _ _) (emits_job (.initiateTransfer ..))
  | initiatePayment => exact emits_mono (opened _ _ _) (emits_job (.initiatePayment ..))
  | initiateWithdrawal =>
    apply emits_seq
    · exact emits_initiateWithdrawal (fun _ _ _ _ _ nowhere _ => nowhere) (fun _ _ h => h)
        (fun _ => trivial) _ _ _
    · exact fun _ => trivial
  | processChargeSuccess => exact emits_job (.processChargeSuccess _)
  | reconcileFunding => exact emits_job (.reconcileFunding ..)
  | executePayout => exact emits_job (.executePayout _)
  | processPayoutSuccess => exact emits_job (.processPayoutSuccess _)
  | processPayoutFailure => exact emits_job (.processPayoutFailure ..)

theorem quietly_climbs {p : Tx α} {v : Spot} (h : Climbs fundings L p v) :
    Climbs fundings L (quietly p) v := by
  apply (climbs_seq _ _ _ _).mpr
  apply climbs_mono _ h
  intro r u _
  cases r <;> trivial

theorem job_climbs {job : Job} (kind : contends job) :
    Climbs fundings (looksBack job) job.program ⟨w, default, Nothing⟩ := by
  cases job with
  | register => exact kind.elim
  | initiateFunding => exact kind.elim
  | initiateTransfer => exact quietly_climbs initiateTransfer_climbs
  | initiatePayment => exact quietly_climbs initiatePayment_climbs
  | initiateWithdrawal => exact quietly_climbs initiateWithdrawal_climbs
  | processChargeSuccess =>
    apply whole
    exact processChargeSuccess_then (fun _ _ _ => trivial)
  | reconcileFunding => exact reconcileFunding_climbs
  | executePayout => exact executePayout_climbs
  | processPayoutSuccess =>
      exact onProcessing_climbs (fun _ _ _ _ unshelved => settlePayout_climbs unshelved)
  | processPayoutFailure =>
      exact onProcessing_climbs (fun _ _ _ _ unshelved => refundPayout_climbs unshelved)

section
variable {ι : Type} [DecidableEq ι] {db : Database}

/-- A transaction that is still open takes money from a wallet or gives money to one, not both. -/
def OneWay (db : Database) : Prop :=
  ∀ t ∈ db.transactions.rows, t.status = .pending → t.destinationWalletId.isSome → t.sourceWalletId = none

def fundingsIn (db : Database) (id : Uuid) : Bool :=
  db.transactions.rows.any fun t => t.id == id && t.sourceWalletId.isNone

theorem oneWay_shelved (oneWay : OneWay db) : Shelved (fundingsIn db) db := by
  constructor
  · intro id known
    simp only [fundingsIn, List.any_eq_true, Bool.and_eq_true, beq_iff_eq,
      Option.isNone_iff_eq_none] at known
    obtain ⟨t, mem, same, _⟩ := known
    rw [find?_some_iff.mpr ⟨mem, same⟩]
    simp
  · intro t mem known
    simp only [fundingsIn, List.any_eq_true, Bool.and_eq_true, beq_iff_eq,
      Option.isNone_iff_eq_none] at known
    obtain ⟨a, there, same, sourceless⟩ := known
    have row : a = t := same_row_of_clash there mem (Keyed.clash_of_key a t same)
    rw [← row]
    exact sourceless
  · intro t mem pending received
    simp only [fundingsIn, List.any_eq_true, Bool.and_eq_true, beq_iff_eq, Option.isNone_iff_eq_none]
    exact ⟨t, mem, rfl, oneWay t mem pending received⟩

def keepsOneWay : Write → Prop
  | .insertTransaction t => t.status = .pending → t.destinationWalletId.isSome → t.sourceWalletId = none
  | .updateTransaction _ set => set.status ≠ some .pending
  | _ => True

theorem oneWay_write {w : Write} (allowed : keepsOneWay w) (h : OneWay db) : OneWay (applyWrite w db) := by
  cases w with
  | insertTransaction t =>
    intro a mem pending received
    cases free : db.transactions.admits t with
    | false =>
      simp only [applyWrite, insert_refused free] at mem
      exact h a mem pending received
    | true =>
      simp only [applyWrite, insert_rows free, List.mem_append, List.mem_singleton] at mem
      rcases mem with old | rfl
      · exact h a old pending received
      · exact allowed pending received
  | updateTransaction id set =>
    intro a mem pending received
    obtain ⟨b, old, same⟩ := mem_update mem
    rw [same] at pending received ⊢
    unfold editAt at pending received ⊢
    by_cases here : Keyed.key b = id
    · rw [if_pos here] at pending received ⊢
      apply h b old _ received
      cases status : set.status with
      | none => simpa [TransactionUpdate.on, status] using pending
      | some new =>
        have reopened : new = .pending := by simpa [TransactionUpdate.on, status] using pending
        rw [reopened] at status
        exact absurd status allowed
    · rw [if_neg here] at pending received ⊢
      exact h b old pending received
  | account w =>
    intro a mem
    rw [applyWrite, account_transactions] at mem
    exact h a mem
  | _ => exact h

theorem oneWay_all {ws : List Write} (allowed : ∀ w ∈ ws, keepsOneWay w) (h : OneWay db) :
    OneWay (applyAll ws db) := by
  induction ws generalizing db with
  | nil => exact h
  | cons w ws ih =>
    apply ih (fun v mem => allowed v (List.mem_cons_of_mem w mem))
    exact oneWay_write (allowed w (by simp)) h

theorem job_oneWay (job : Job) : Emits keepsOneWay job.program := by
  have settled : ∀ w, settles w → keepsOneWay w := by
    intro w h
    cases w <;> first | exact h.1 | trivial
  have moved : ∀ type user amount w, moves type user amount w → keepsOneWay w := by
    intro type user amount w h
    cases w with
    | insertTransaction t =>
      intro pending
      rw [h.2.2.2] at pending
      cases pending
    | _ => first | exact h.elim | trivial
  have quiet : ∀ {γ : Type} {p : Tx γ}, Emits keepsOneWay p → Emits keepsOneWay (quietly p) :=
    fun emits => emits_seq emits (fun _ => trivial)
  cases job with
  | register =>
    exact quiet (emits_register (fun _ _ _ => trivial) (fun _ _ _ => trivial) (fun _ => trivial)
      (fun _ => trivial) _ _ _ _ _ _ _)
  | initiateFunding =>
    exact quiet (emits_initiateFunding (fun _ _ _ _ _ sourceless _ _ => sourceless) _ _)
  | initiateTransfer => exact emits_mono (moved _ _ _) (emits_job (.initiateTransfer ..))
  | initiatePayment => exact emits_mono (moved _ _ _) (emits_job (.initiatePayment ..))
  | initiateWithdrawal =>
    apply quiet
    apply emits_initiateWithdrawal
    · intro t _ _ _ _ nowhere _ received
      simp [nowhere] at received
    · exact fun _ _ _ => trivial
    · exact fun _ => trivial
  | processChargeSuccess => exact emits_mono settled (emits_job (.processChargeSuccess _))
  | reconcileFunding => exact emits_mono settled (emits_job (.reconcileFunding ..))
  | executePayout => exact emits_mono settled (emits_job (.executePayout _))
  | processPayoutSuccess => exact emits_mono settled (emits_job (.processPayoutSuccess _))
  | processPayoutFailure => exact emits_mono settled (emits_job (.processPayoutFailure ..))

theorem oneWay_kept (oneWay : OneWay db) {jobs : ι → Job} {T : Machine ι}
    (run : Run Anyhow (opening db jobs) T) : OneWay T.db := by
  have lasting : Lasting (fun (ws : List Write) (_ : Database) => ∀ w ∈ ws, keepsOneWay w)
      (fun (_ : ι) (_ : Except AppError Unit) _ => True) := lasting_true
  have safe : Safe (fun ws _ => ∀ w ∈ ws, keepsOneWay w) (fun _ _ _ _ _ => True)
      (fun (_ : ι) (_ : Except AppError Unit) _ => True) (opening db jobs) := by
    apply initial_safe
    intro i
    apply emits_wp (fun _ _ allowed => allowed) (job_oneWay (jobs i))
    simp
  have free : Run (Meets (fun _ _ _ _ _ => True)) (opening db jobs) T := by
    apply run_weaken _ run
    intro S a _ j rows writes memo next fault _ _
    trivial
  exact run_keeps lasting safe free (P := fun _ s => OneWay s)
    (fun _ _ _ _ allowed kept => oneWay_all allowed kept) oneWay

/-- Sessions of transfers, payments, withdrawals, charges, payouts, dispatches and sweeps, however
    they interleave, never wait in a circle for wallets and transactions. The database may be any
    that the operations have built: `oneWay_kept`. -/
theorem no_deadlock (oneWay : OneWay db) {jobs : ι → Job} (kind : ∀ i, contends (jobs i)) {T : Machine ι}
    (run : Run Anyhow (opening db jobs) T) (i : ι) : ¬ Relation.TransGen (Waits bookRow T) i i := by
  have steady : Steady (Shelved (fundingsIn db)) (fun i => looksBack (jobs i))
      (fun i => mayWrite (jobs i)) :=
    jobs_steady jobs
  have start : Climbing (Shelved (fundingsIn db)) (fun i => looksBack (jobs i)) (fun i => mayWrite (jobs i))
      (lockOrder (fundingsIn db)) (opening db jobs) :=
    initial_climbing steady (oneWay_shelved oneWay) (fun i => job_emits (kind i))
      (fun i _ => job_climbs (kind i))
  apply no_circle steady (run_climbing steady start run)
  intro r book
  cases r <;> first | exact book.elim | rfl

end

section Crossing

def crossDb : Database :=
  { raceDb with
    wallets := ⟨[{ id := 11, userId := 1, balance := 10000 },
      { id := 12, userId := 2, balance := 10000 }], by decide⟩ }

/-- Alice pays Bob while Bob pays Alice. -/
def crossing (i : Fin 2) : Job :=
  .initiateTransfer id (member (1 + i) "sender") {} (.userId (2 - i)) 5000 none
    ⟨100 + i, toString i.val, 0, ⟨0, 0⟩⟩

/-- Alice's session holds her wallet, and Bob's session needs it next. -/
def blocked (T : Machine (Fin 2)) : Bool :=
  T.owner (.wallet 11) == some 0 && !(T.session 1).aborted &&
    match (T.session 1).prog with
    | .stmt rows writes _ _ _ =>
        decide (.wallet 11 ∈ needed rows
          (writes (applyAll (T.session 1).pending T.db) (T.session 1).memory))
    | _ => false

theorem blocked_awaits {T : Machine (Fin 2)} (h : blocked T = true) :
    Awaits bookRow T 1 (.wallet 11) 0 := by
  simp only [blocked, Bool.and_eq_true, beq_iff_eq, Bool.not_eq_true'] at h
  obtain ⟨⟨owned, live⟩, next⟩ := h
  refine ⟨by decide, live, trivial, owned, ?_⟩
  cases prog : (T.session 1).prog with
  | stmt rows writes memo onward fault =>
    rw [prog] at next
    exact of_decide_eq_true next
  | _ => simp [prog] at next

theorem crossing_transfers_wait_in_line :
    ∃ T : Machine (Fin 2), Run Anyhow (opening crossDb crossing) T ∧ Awaits bookRow T 1 (.wallet 11) 0 ∧
      ¬ Relation.TransGen (Waits bookRow T) 1 1 := by
  have computed : (schedule Anyhow (opening crossDb crossing)
      (List.replicate 7 (.run 0) ++ List.replicate 5 (.run 1))).map blocked = some true := by decide +kernel
  obtain ⟨T, run, value⟩ := reached_of_schedule computed
  refine ⟨T, run, blocked_awaits value, ?_⟩
  apply no_deadlock _ _ run
  · intro t mem
    cases mem
  · exact fun _ => trivial

end Crossing

end PayCoreDeadlockFreedom
