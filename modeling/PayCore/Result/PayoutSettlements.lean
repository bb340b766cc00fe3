import PayCore.Result.StatusTransitions

/- Concurrent dispatch and events of one payout: where every UPDATE finds the status its
   session has read, the hold is settled at most once, and an event that finds the dispatch
   committed settles it. -/
namespace PayCorePayoutSettlements
open KeyedTable SessionProgram SessionSystem RelyGuarantee PayCoreTables PayCoreWrites PayCoreSessions
open PayCoreRepositories PayCorePersistence PayCoreCommits PayCoreStatements PayCoreStatusMoves
open PayCoreHandlers PayCoreJobs PayCoreJobRules PayCoreStatusTransitions

variable {ι : Type}

/-- Committed DEBIT entries of the withdrawal plus balances set by the commits that change it. -/
def settlements (id : Uuid) (log : List (ι × List Write)) : Nat :=
  tally (fun ws => entries .debit id ws + balanceWrites id ws) log

def HasStatus (p : TransactionStatus → Prop) (id : Uuid) (db : Database) : Prop :=
  ∃ row, db.transactions.find? id = some row ∧ p row.status

def Settled (id : Uuid) (db : Database) : Prop := HasStatus (fun s => s = .completed ∨ s = .failed) id db

theorem settle_settled {id : Uuid} {db : Database} {ws : List Write} (h : SettleCommit id db ws) :
    Settled id (applyAll ws db) := by
  obtain ⟨new, final, move⟩ := settle_move h
  obtain ⟨row, found, status⟩ := move.after
  exact ⟨row, found, by rw [status]; exact final⟩

theorem status_kept {p : TransactionStatus → Prop} (starts : p .pending → p .processing)
    (ends : p .processing → p .completed ∧ p .failed) {id : Uuid} {db : Database} {ws : List Write}
    (h : PayoutCommit ws db) (has : HasStatus p id db) : HasStatus p id (applyAll ws db) := by
  obtain ⟨row, found, holds⟩ := has
  have moved : ∀ {k old new}, StatusMove k old new db (applyAll ws db) → (p old → p new) →
      HasStatus p id (applyAll ws db) := by
    intro k old new move onward
    by_cases mine : id = k
    · subst mine
      obtain ⟨before, there, was⟩ := move.before
      obtain ⟨after, here, is⟩ := move.after
      rw [there] at found
      cases found
      exact ⟨after, here, by rw [is]; exact onward (by rw [← was]; exact holds)⟩
    · exact ⟨row, by rw [move.others id mine]; exact found, holds⟩
  cases h with
  | dispatch k h =>
    obtain ⟨old, new, ⟨rfl, rfl⟩ | ⟨rfl, _⟩, move⟩ := dispatch_move h
    · exact moved move starts
    · exact moved move (fun h => h)
  | settle k h =>
    obtain ⟨new, rfl | rfl, move⟩ := settle_move h
    · exact moved move (fun h => (ends h).1)
    · exact moved move (fun h => (ends h).2)
  | side h => exact ⟨row, by rw [(side_money h db).transactions]; exact found, holds⟩

theorem settled_kept {id : Uuid} {db : Database} {ws : List Write} (h : PayoutCommit ws db)
    (settled : Settled id db) : Settled id (applyAll ws db) :=
  status_kept (by simp) (by simp) h settled

/-- Not settled yet, or settled once and final. -/
def SettledOnce (id : Uuid) (log : List (ι × List Write)) (db : Database) : Prop :=
  settlements id log = 0 ∨ (settlements id log = 1 ∧ Settled id db)

theorem settled_idle {id : Uuid} {log : List (ι × List Write)} {db : Database} {ws : List Write}
    {i : ι} (commit : PayoutCommit ws db) (debits : entries .debit id ws = 0)
    (balances : balanceWrites id ws = 0) (h : SettledOnce id log db) :
    SettledOnce id (log ++ [(i, ws)]) (applyAll ws db) := by
  unfold SettledOnce settlements at h ⊢
  rw [tally_commit, debits, balances]
  rcases h with none_yet | ⟨once, settled⟩
  · exact Or.inl none_yet
  · exact Or.inr ⟨once, settled_kept commit settled⟩

theorem settled_step {id : Uuid} {log : List (ι × List Write)} {db : Database} {ws : List Write}
    (i : ι) (commit : PayoutCommit ws db) (h : SettledOnce id log db) :
    SettledOnce id (log ++ [(i, ws)]) (applyAll ws db) := by
  cases commit with
  | dispatch k commit =>
    obtain ⟨debits, balances⟩ := dispatch_counts id commit .debit
    exact settled_idle (.dispatch k commit) debits balances h
  | side commit =>
    exact settled_idle (.side commit) (side_entries commit .debit id)
      (none_balanced id (side_balances commit)) h
  | settle k commit =>
    rcases settle_counts id commit with ⟨debits, balances⟩ | ⟨rfl, one⟩
    · exact settled_idle (.settle k commit) debits balances h
    · -- It settles from PROCESSING, so nothing had settled before.
      rcases h with none_yet | ⟨_, row, found, final⟩
      · refine Or.inr ⟨?_, settle_settled commit⟩
        unfold settlements at none_yet ⊢
        rw [tally_commit, none_yet, one]
      · obtain ⟨_, _, move⟩ := settle_move commit
        obtain ⟨before, there, was⟩ := move.before
        rw [there] at found
        cases found
        rw [was] at final
        rcases final with never | never <;> cases never

section
variable [DecidableEq ι]

theorem hold_settled_at_most_once {db : Database} {jobs : ι → Job} (pays : ∀ i, (jobs i).paysOut)
    {T : Machine ι} (run : Run (Meets (fun _ => FreshTransactions)) (opening db jobs) T) (id : Uuid) :
    settlements id T.log ≤ 1 := by
  have verified := fun i => paysOut_wp payout_env (fun _ _ h => h) (pays i) db
  have kept := run_keeps lasting_true (opening_safe verified) run (P := SettledOnce id)
    (fun i ws log s commit h => settled_step i commit h) (Or.inl rfl)
  rcases kept with none_yet | ⟨once, _⟩ <;> omega

end

section Twice

/-- The success handler and the failure handler have both read PROCESSING. -/
theorem crossing_events_settle_twice :
    ¬ ∀ T : Machine (Fin 2), Run Anyhow (opening (heldDb .processing) bothEvents) T →
      settlements 100 T.log ≤ 1 := by
  intro claim
  have computed : (schedule Anyhow (opening (heldDb .processing) bothEvents)
      (.run 1 :: List.replicate 7 (.run 0) ++ List.replicate 6 (.run 1) :
        List (Action (Fin 2) PaystackData))).map (fun T => settlements 100 T.log) = some 2 := by
    decide +kernel
  obtain ⟨T, run, twice⟩ := reached_of_schedule computed
  have once := claim T run
  omega

theorem bothEvents_payOut (i : Fin 2) : (bothEvents i).paysOut := by
  match i with
  | 0 => trivial
  | 1 => trivial

theorem events_in_turn_settle_once :
    ∃ T : Machine (Fin 2), statusOf T = some .failed ∧ settlements 100 T.log ≤ 1 := by
  have computed : (schedule (Meets (fun _ => FreshTransactions))
      (opening (heldDb .processing) bothEvents)
      (List.replicate 7 (.run 1) ++ [.run 0] : List (Action (Fin 2) PaystackData))).map statusOf =
      some (some .failed) := by decide +kernel
  obtain ⟨T, run, status⟩ := reached_of_schedule computed
  exact ⟨T, status, hold_settled_at_most_once bothEvents_payOut run 100⟩

end Twice

def concerns (id : Uuid) (reference : String) : Job → Prop
  | .executePayout k => k = id
  | .processPayoutSuccess s => s = reference
  | .processPayoutFailure s _ => s = reference
  | _ => False

def isEvent : Job → Bool
  | .processPayoutSuccess _ => true
  | .processPayoutFailure _ _ => true
  | _ => false

/-- The dispatch is committed: what a session sees of the withdrawal is not PENDING. -/
def Dispatched (id : Uuid) (s : Database) : Prop :=
  ∀ row, s.transactions.find? id = some row → row.status ≠ .pending

instance (id : Uuid) (s : Database) : Decidable (Dispatched id s) :=
  decidable_of_iff ((s.transactions.find? id).all (fun row => decide (row.status ≠ .pending)) = true)
    (by simp [Dispatched, Option.all_eq_true])

/-- Every UPDATE of a status is fresh, and an event is handled after the dispatch is committed. -/
def Orderly (jobs : ι → Job) (id : Uuid) (i : ι) (s : Database) (m : IdentityMap) (rows : List Row)
    (adds : List Write) : Prop :=
  FreshTransactions s m rows adds ∧ (isEvent (jobs i) = true → Dispatched id s)

instance (jobs : ι → Job) (id : Uuid) (i : ι) (s : Database) (m : IdentityMap) (rows : List Row)
    (adds : List Write) : Decidable (Orderly jobs id i s m rows adds) :=
  inferInstanceAs (Decidable (_ ∧ _))

section Consumed
variable {db : Database} {id walletId : Uuid} {t : Transaction} {wallet : Wallet}

theorem settled_persists : Persists (Rely PayoutCommit) (Settled id) where
  rely rely h := rely_keeps rely (fun _ _ commit settled => settled_kept commit settled) h
  side side h := settled_kept (.side side) h

/-- An event whose handler starts after the dispatch leaves the withdrawal settled. -/
theorem event_settles (found : db.transactions.find? id = some t) (unreversed : t.status ≠ .reversed)
    (source : t.sourceWalletId = some walletId) (holder : db.wallets.find? walletId = some wallet)
    (live : wallet.deletedAt = none) {settle : Transaction → Uuid → Tx Unit}
    (handler : settle = PayCoreWithdrawals.settlePayout ∨
      ∃ code, settle = fun txn wallet => PayCoreWithdrawals.refundPayout txn wallet code) :
    wp (Rely PayoutCommit) PayoutCommit
      (fun s m rows adds => FreshTransactions s m rows adds ∧ Dispatched id s)
      (PayCoreWithdrawals.onProcessing t.reference settle)
      (fun r u => r = .ok () → Settled id u.db) (⟨db, [], default, Nothing⟩ : Window) := by
  have stored : ∀ {u : Window}, Goes (Rely PayoutCommit) ⟨db, [], default, Nothing⟩ u →
      ∃ row, u.db.transactions.find? id = some row ∧ Revised t row ∧
        TransactionRepository.byReference t.reference u.db = some row := by
    intro u goes
    obtain ⟨row, there, revised, _⟩ := goes.later.transactions id t found
    refine ⟨row, there, revised, ?_⟩
    have same : row.reference = t.reference := by rw [revised]
    rw [← same]
    exact byReference_stored there
  refine payoutEvent_wp (K := fun k => k = id) (D := Settled id) payout_env (fun _ _ _ _ h => h.1)
    (fun k ws s _ h => .settle k h) (fun ws s h => .side h) ?_ settled_persists handler rfl rfl ?_
    (fun _ _ never => by cases never) ?_ ?_ (fun _ settled _ => settled)
  · rintro k ws s rfl h
    exact settle_settled h
  · intro u row goes picked
    obtain ⟨again, there, _, same⟩ := stored goes
    rw [picked] at same
    cases same
    exact (find?_some_iff.mp there).2
  · intro u goes seen _
    obtain ⟨row, there, revised, picked⟩ := stored goes
    obtain ⟨⟨_, dispatched⟩, unready⟩ := seen row picked
    have left : row.status ≠ .pending := dispatched row there
    obtain ⟨again, there', unreversed'⟩ := rely_keeps goes.rely
      (P := HasStatus (fun s => s ≠ .reversed) id)
      (fun _ _ commit h => status_kept (by simp) (by simp) commit h) ⟨t, found, unreversed⟩
    rw [there] at there'
    cases there'
    refine ⟨row, there, ?_⟩
    cases status : row.status with
    | completed => exact Or.inl rfl
    | failed => exact Or.inr rfl
    | pending => exact absurd status left
    | reversed => exact absurd status unreversed'
    | processing =>
      have none := unready status
      rw [revised_source revised, source] at none
      cases none
  · intro u row other goes picked paidFrom w onward missing _
    obtain ⟨again, _, revised, same⟩ := stored goes
    rw [picked] at same
    cases same
    rw [revised_source revised, source] at paidFrom
    cases paidFrom
    have later := later_trans goes.later onward.later
    obtain ⟨now, there, rebalanced⟩ := later.wallets walletId wallet holder
    have alive : now.deletedAt = none := by rw [rebalanced]; exact live
    simp [WalletRepository.byId, there, WalletRepository.live, alive] at missing

variable [DecidableEq ι]

theorem terminal_event_settles_the_hold {jobs : ι → Job}
    (about : ∀ i, concerns id t.reference (jobs i)) (found : db.transactions.find? id = some t)
    (unreversed : t.status ≠ .reversed) (source : t.sourceWalletId = some walletId)
    (holder : db.wallets.find? walletId = some wallet) (live : wallet.deletedAt = none)
    {T : Machine ι} (run : Run (Meets (Orderly jobs id)) (opening db jobs) T) {i : ι}
    (event : isEvent (jobs i) = true) (returned : (T.session i).prog.returned = true) :
    Settled id T.db := by
  have lasting : Lasting PayoutCommit
      (fun (i : ι) (r : Except AppError Unit) (s : Database) =>
        isEvent (jobs i) = true → r = .ok () → Settled id s) := by
    intro i r s later rely h event returned
    exact settled_persists.rely rely (h event returned)
  have safe : Safe PayoutCommit (Orderly jobs id)
      (fun i r s => isEvent (jobs i) = true → r = .ok () → Settled id s) (opening db jobs) := by
    refine initial_safe ?_
    intro j
    have ours := about j
    cases job : jobs j with
    | executePayout k =>
      have pays : (Job.executePayout k).paysOut := trivial
      have verified := paysOut_wp payout_env (fun _ _ h => h) pays db
      refine wp_mono ?_ (wp_condition (fun s m rows adds h => h.1) verified)
      intro r u _ never
      simp [isEvent] at never
    | processPayoutSuccess reference =>
      rw [job] at ours
      cases ours
      refine wp_mono ?_ (wp_condition ?_ (event_settles found unreversed source holder live (Or.inl rfl)))
      · intro r u h _
        exact h
      · intro s m rows adds h
        exact ⟨h.1, h.2 (by rw [job]; rfl)⟩
    | processPayoutFailure reference code =>
      rw [job] at ours
      cases ours
      refine wp_mono ?_ (wp_condition ?_
        (event_settles found unreversed source holder live (Or.inr ⟨code, rfl⟩)))
      · intro r u h _
        exact h
      · intro s m rows adds h
        exact ⟨h.1, h.2 (by rw [job]; rfl)⟩
    | _ =>
      rw [job] at ours
      exact ours.elim
  have verified := (run_safe lasting safe run).verified i
  obtain ⟨u, prog⟩ := returned_ret returned
  rw [prog] at verified
  exact verified event rfl

end Consumed

section Early

def dispatchAndEvent : Fin 2 → Job
  | 0 => .executePayout 100
  | 1 => .processPayoutSuccess "txn_a"

/-- The event comes between the call to Paystack and the commit of PROCESSING: its handler
   reads PENDING and returns, and nothing settles the withdrawal after that. -/
theorem early_event_is_consumed :
    ¬ ∀ T : Machine (Fin 2), Run Anyhow (opening (heldDb .pending) dispatchAndEvent) T →
      (T.session 1).prog.returned = true → Ended T 0 → Settled 100 T.db := by
  intro claim
  have computed : (schedule Anyhow (opening (heldDb .pending) dispatchAndEvent)
      (List.replicate 3 (.run 0) ++ [.reply 0 { transferCode := .str "TRF_1" }, .run 1, .run 0, .run 0] :
        List (Action (Fin 2) PaystackData))).map
      (fun T => ((T.session 1).prog.returned, (T.session 0).prog.finished, statusOf T)) =
      some (true, true, some .processing) := by decide +kernel
  obtain ⟨T, run, values⟩ := reached_of_schedule computed
  simp only [Prod.mk.injEq, statusOf, Option.map_eq_some_iff] at values
  obtain ⟨returned, ended, row, found, status⟩ := values
  obtain ⟨settled, there, final⟩ := claim T run returned ended
  rw [found] at there
  cases there
  rw [status] at final
  rcases final with never | never <;> cases never

theorem dispatchAndEvent_concern (i : Fin 2) : concerns 100 "txn_a" (dispatchAndEvent i) := by
  match i with
  | 0 => rfl
  | 1 => rfl

theorem event_after_dispatch_settles :
    ∃ T : Machine (Fin 2), statusOf T = some .completed ∧ Settled 100 T.db := by
  have computed : (schedule (Meets (Orderly dispatchAndEvent 100))
      (opening (heldDb .pending) dispatchAndEvent)
      (List.replicate 3 (.run 0) ++ [.reply 0 { transferCode := .str "TRF_1" }, .run 0, .run 0] ++
        List.replicate 7 (.run 1) : List (Action (Fin 2) PaystackData))).map
      (fun T => (statusOf T, (T.session 1).prog.returned)) = some (some .completed, true) := by
    decide +kernel
  obtain ⟨T, run, values⟩ := reached_of_schedule computed
  simp only [Prod.mk.injEq] at values
  have holder : (heldDb .pending).wallets.find? 11 =
      some { id := 11, userId := 1, balance := 4000 } := rfl
  exact ⟨T, values.1, terminal_event_settles_the_hold (t := heldWithdrawal .pending)
    dispatchAndEvent_concern rfl (by decide) rfl holder rfl run (i := 1) rfl values.2⟩

end Early

end PayCorePayoutSettlements
