import Mathlib.Data.Prod.Lex
import PayCore.Library.LockOrder
import PayCore.Proof.Regularity

/- The order of the locks. The transactions that take money from no wallet, which are the fundings,
   come first, then the wallets by their ids, then every other transaction. -/
namespace PayCoreLockRules
open KeyedTable SessionProgram SessionSystem RelyGuarantee LockOrder PayCoreTables PayCoreWrites
open PayCoreSessions PayCoreRepositories PayCoreSupport PayCorePayments PayCoreWithdrawals PayCoreFunding
open PayCorePersistence PayCoreRegularity

def bookRow : Row → Prop
  | .wallet _ => True
  | .transaction _ => True
  | _ => False

def lockOrder (fundings : Uuid → Bool) : Row → Option (Nat ×ₗ Nat)
  | .transaction id => some (toLex (if fundings id then 0 else 2, id))
  | .wallet id => some (toLex (1, id))
  | _ => none

/-- Every funding is stored, and a transaction that waits for money from outside is one. -/
structure Shelved (fundings : Uuid → Bool) (db : Database) : Prop where
  stored : ∀ id, fundings id = true → db.transactions.find? id ≠ none
  sourceless : ∀ t ∈ db.transactions.rows, fundings t.id = true → t.sourceWalletId = none
  awaited : ∀ t ∈ db.transactions.rows, t.status = .pending → t.destinationWalletId.isSome →
    fundings t.id = true

def Lasts (s t : Database) : Prop :=
  ∀ id a, s.transactions.find? id = some a → ∃ b, t.transactions.find? id = some b ∧ Revised a b

/-- What the requests may write: a transaction that is open goes to no wallet. -/
def opensOneWay : Write → Prop
  | .insertTransaction t => t.status = .pending → t.destinationWalletId = none
  | .setBalance _ b => 0 ≤ b
  | .insertEntry _ => True
  | .insertDelivery _ => True
  | .insertAuditLog _ => True
  | _ => False

variable {fundings : Uuid → Bool}

theorem shelved_insert {t : Transaction} {db : Database}
    (oneWay : t.status = .pending → t.destinationWalletId = none)
    (h : Shelved fundings db) : Shelved fundings (applyWrite (.insertTransaction t) db) := by
  cases free : db.transactions.admits t with
  | false =>
    simp only [applyWrite, insert_refused free]
    exact h
  | true =>
    have unshelved : fundings t.id ≠ true := fun known => h.stored t.id known (admits_key_free free)
    constructor
    · intro id known gone
      cases found : db.transactions.find? id with
      | none => exact h.stored id known found
      | some row =>
        simp only [applyWrite, find?_insert_kept found] at gone
        cases gone
    · intro a mem known
      simp only [applyWrite, insert_rows free, List.mem_append, List.mem_singleton] at mem
      rcases mem with old | rfl
      · exact h.sourceless a old known
      · exact absurd known unshelved
    · intro a mem pending received
      simp only [applyWrite, insert_rows free, List.mem_append, List.mem_singleton] at mem
      rcases mem with old | rfl
      · exact h.awaited a old pending received
      · simp [oneWay pending] at received

theorem shelved_update {id : Uuid} {set : TransactionUpdate} {db : Database}
    (started : set.status ≠ some .pending) (h : Shelved fundings db) :
    Shelved fundings (applyWrite (.updateTransaction id set) db) := by
  constructor
  · intro k known gone
    simp only [applyWrite, find?_update] at gone
    split at gone
    · exact h.stored k known (by simpa using gone)
    · exact h.stored k known gone
  · intro a mem known
    obtain ⟨b, old, same⟩ := mem_update mem
    rw [same] at known ⊢
    unfold editAt at known ⊢
    split at known
    · rename_i here
      rw [if_pos here]
      exact h.sourceless b old known
    · rename_i elsewhere
      rw [if_neg elsewhere]
      exact h.sourceless b old known
  · intro a mem pending received
    obtain ⟨b, old, same⟩ := mem_update mem
    rw [same] at pending received ⊢
    unfold editAt at pending received ⊢
    split at pending
    · rename_i here
      rw [if_pos here] at received ⊢
      apply h.awaited b old _ received
      cases status : set.status with
      | none => simpa [TransactionUpdate.on, status] using pending
      | some s =>
        rw [status] at started
        simp [TransactionUpdate.on, status] at pending
        exact absurd (by rw [pending]) started
    · rename_i elsewhere
      rw [if_neg elsewhere] at received ⊢
      exact h.awaited b old pending received

theorem shelved_write {w : Write} {db : Database} (allowed : opensOneWay w ∨ settles w)
    (h : Shelved fundings db) : Shelved fundings (applyWrite w db) := by
  cases w with
  | insertTransaction t =>
    rcases allowed with opens | settled
    · exact shelved_insert opens h
    · exact settled.elim
  | updateTransaction id set =>
    rcases allowed with opens | settled
    · exact opens.elim
    · exact shelved_update settled.1 h
  | account w =>
    rcases allowed with opens | settled
    · exact opens.elim
    · exact settled.elim
  | _ => exact ⟨h.stored, h.sourceless, h.awaited⟩

theorem lasts_refl (s : Database) : Lasts s s := fun _ a found => ⟨a, found, revised_refl a⟩

theorem lasts_trans {s t u : Database} (left : Lasts s t) (right : Lasts t u) : Lasts s u := by
  intro id a found
  obtain ⟨b, there, revised⟩ := left id a found
  obtain ⟨c, last, again⟩ := right id b there
  exact ⟨c, last, revised_trans revised again⟩

theorem lasts_all {ws : List Write} (regular : ∀ w ∈ ws, Regular w) (db : Database) :
    Lasts db (applyAll ws db) := by
  intro id a found
  obtain ⟨b, there, revised, _⟩ := (later_all regular db).transactions id a found
  exact ⟨b, there, revised⟩

theorem settled_before {ws : List Write} (settled : ∀ w ∈ ws, settles w) {db : Database} {id : Uuid}
    {b : Transaction} (found : (applyAll ws db).transactions.find? id = some b) :
    ∃ a, db.transactions.find? id = some a ∧ Revised a b := by
  induction ws generalizing db with
  | nil => exact ⟨b, found, revised_refl b⟩
  | cons w ws ih =>
    obtain ⟨c, there, revised⟩ := ih (fun v mem => settled v (List.mem_cons_of_mem w mem)) found
    have allowed := settled w (by simp)
    cases w with
    | updateTransaction k set =>
      change (applyWrite (.updateTransaction k set) db).transactions.find? id = some c at there
      simp only [applyWrite, find?_update] at there
      split at there
      · obtain ⟨a, stored, same⟩ := Option.map_eq_some_iff.mp there
        rw [← same] at revised
        exact ⟨a, stored, revised_trans (revised_on set a) revised⟩
      · exact ⟨c, there, revised⟩
    | setBalance k amount => exact ⟨c, there, revised⟩
    | insertEntry e => exact ⟨c, there, revised⟩
    | setRecipientCode k code => exact ⟨c, there, revised⟩
    | insertAuditLog l => exact ⟨c, there, revised⟩
    | _ => exact allowed.elim

theorem lasts_others {ws vs : List Write} {s db : Database} (settled : ∀ w ∈ ws, settles w)
    (regular : ∀ w ∈ vs, Regular w) (regular' : ∀ w ∈ ws, Regular w) (h : Lasts s (applyAll ws db)) :
    Lasts s (applyAll ws (applyAll vs db)) := by
  intro id a found
  obtain ⟨b, there, revised⟩ := h id a found
  obtain ⟨c, before, again⟩ := settled_before settled there
  obtain ⟨d, last, more⟩ := lasts_trans (lasts_all regular db) (lasts_all regular' _) id c before
  exact ⟨d, last, revised_trans revised (revised_trans (revised_symm again) more)⟩

abbrev Spot := Point Database IdentityMap Row

variable {α β : Type} {L : Database → Database → Prop} {w : Database} {m : IdentityMap} {held : Row → Prop}

def Climbs (fundings : Uuid → Bool) (L : Database → Database → Prop) (p : Tx α) (v : Spot) : Prop :=
  climbs (Shelved fundings) L (lockOrder fundings) p (fun _ _ => True) v

theorem nested_then {γ : Type} {p : Tx γ} {f : γ → Tx β} {k : β → Tx α} {v : Spot}
    (h : Climbs fundings L (p >>= fun c => f c >>= k) v) : Climbs fundings L ((p >>= f) >>= k) v := by
  change Climbs fundings L ((p.bind f).bind k) v
  rw [bind_assoc]
  exact h

theorem handle_then {p : Tx β} {handler : AppError → Tx β} {k : β → Tx α} {v : Spot}
    (body : Climbs fundings L (p >>= k) v) (handled : ∀ x u, Climbs fundings L (handler x >>= k) u) :
    Climbs fundings L (p.handle handler >>= k) v := by
  apply (climbs_seq _ _ _ _).mpr
  apply handle_climbs
  apply climbs_mono _ ((climbs_seq _ _ _ _).mp body)
  intro r u fine
  cases r with
  | ok a => exact fine
  | error x => exact (climbs_seq _ _ _ _).mp (handled x u)

theorem quiet_then {rows : List Row} {writes : Database → IdentityMap → List Write}
    {memo : Database → IdentityMap → IdentityMap} {next : Database → IdentityMap → Tx α} {x : AppError}
    (quiet : ∀ s, ∀ r ∈ needed rows (writes s m), (lockOrder fundings r).isSome → held r)
    (onward : ∀ s, Shelved fundings s → L w s → Climbs fundings L (next s m) ⟨s, memo s m, held⟩) :
    Climbs fundings L (.stmt rows writes memo next (.raise x)) ⟨w, m, held⟩ := by
  refine ⟨?_, fun _ => trivial⟩
  intro s shelved later
  constructor
  · intro r mem free n asked
    exact absurd (quiet s r mem (by simp [asked])) free
  · apply climbs_held _ (onward s shelved later)
    intro r ranked
    exact ⟨.inl, fun mine => mine.elim id (fun mem => quiet s r mem ranked)⟩

theorem lock_then {rows : List Row} {writes : Database → IdentityMap → List Write}
    {memo : Database → IdentityMap → IdentityMap} {next : Database → IdentityMap → Tx α} {x : AppError}
    (row : Row)
    (asks : ∀ s, Shelved fundings s → row ∈ needed rows (writes s m) ∧
      ∀ r ∈ needed rows (writes s m), (lockOrder fundings r).isSome → r = row)
    (above : ¬ held row → ∀ h i n, held h → lockOrder fundings h = some i →
      lockOrder fundings row = some n → i < n)
    (onward : ∀ s, Shelved fundings s → L w s →
      Climbs fundings L (next s m) ⟨s, memo s m, fun r => held r ∨ r = row⟩) :
    Climbs fundings L (.stmt rows writes memo next (.raise x)) ⟨w, m, held⟩ := by
  refine ⟨?_, fun _ => trivial⟩
  intro s shelved later
  obtain ⟨asked, only⟩ := asks s shelved
  constructor
  · intro r mem free n ranked h i mine rankedH
    have same := only r mem (by simp [ranked])
    subst same
    exact above free h i n mine rankedH ranked
  · apply climbs_held _ (onward s shelved later)
    intro r ranked
    constructor
    · rintro (mine | rfl)
      · exact .inl mine
      · exact .inr asked
    · rintro (mine | mem)
      · exact .inl mine
      · exact .inr (only r mem ranked)

theorem query_then {f : Database → β} {k : β → Tx α}
    (onward : ∀ b s, Climbs fundings L (k b) ⟨s, m, held⟩) :
    Climbs fundings L (query f >>= k) ⟨w, m, held⟩ :=
  quiet_then (by simp [needed]) (fun s _ _ => onward _ s)

theorem require_then {condition : Bool} {error : AppError} {k : Unit → Tx α} {v : Spot}
    (onward : Climbs fundings L (k ()) v) : Climbs fundings L (require condition error >>= k) v := by
  cases condition with
  | true => exact onward
  | false => trivial

theorem orRaise_then {value : Option β} {error : AppError} {k : β → Tx α} {v : Spot}
    (onward : ∀ b, value = some b → Climbs fundings L (k b) v) :
    Climbs fundings L (orRaise value error >>= k) v := by
  cases value with
  | some b => exact onward b rfl
  | none => trivial

theorem getByUserId_then {userId : Uuid} {k : Option Wallet → Tx α}
    (onward : ∀ found s m, Climbs fundings L (k found) ⟨s, m, held⟩) :
    Climbs fundings L (WalletRepository.getByUserId userId >>= k) ⟨w, m, held⟩ :=
  quiet_then (by simp [needed]) (fun s _ _ => onward _ s _)

theorem lockForUpdate_then {id : Uuid} {k : Option Wallet → Tx α}
    (above : ¬ held (.wallet id) → ∀ h i, held h → lockOrder fundings h = some i → i < toLex (1, id))
    (onward : ∀ found s m, (∀ wallet, found = some wallet → wallet.id = id) →
      Climbs fundings L (k found) ⟨s, m, fun r => held r ∨ r = .wallet id⟩) :
    Climbs fundings L (WalletRepository.lockForUpdate id >>= k) ⟨w, m, held⟩ := by
  apply lock_then (.wallet id)
  · intro s _
    simp [needed]
  · intro free h i n mine ranked asked
    cases asked
    exact above free h i mine ranked
  · intro s _ _
    apply onward
    intro wallet found
    obtain ⟨row, stored, same⟩ := Option.map_eq_some_iff.mp found
    rw [← same, wallet_id]
    exact (find?_some_iff.mp (Option.filter_eq_some_iff.mp stored).1).2

theorem updateBalance_then {wallet : Wallet} {newBalance : Int} {k : Wallet → Tx α}
    (mine : held (.wallet wallet.id))
    (onward : ∀ wallet s m, Climbs fundings L (k wallet) ⟨s, m, held⟩) :
    Climbs fundings L (WalletRepository.updateBalance wallet newBalance >>= k) ⟨w, m, held⟩ := by
  apply quiet_then
  · intro s r mem _
    have same : r = .wallet wallet.id := by
      by_cases fits : WalletRepository.storable newBalance
      · simpa [needed, fits, Store.targets, writeTargets] using mem
      · simpa [needed, fits] using mem
    rw [same]
    exact mine
  · intro s _ _
    dsimp only
    split
    · exact onward _ s _
    · split <;> trivial

theorem createEntry_then {e : LedgerEntry} {k : LedgerEntry → Tx α}
    (onward : ∀ s, Climbs fundings L (k e) ⟨s, m, held⟩) :
    Climbs fundings L (LedgerRepository.createEntry e >>= k) ⟨w, m, held⟩ := by
  apply quiet_then
  · intro s r mem _
    simp [needed, Store.targets, writeTargets] at mem
  · exact fun s _ _ => onward s

theorem commit_then {k : Unit → Tx α} {v : Spot}
    (onward : ∀ s m, Climbs fundings L (k ()) ⟨s, m, Nothing⟩) : Climbs fundings L (commit >>= k) v :=
  fun s => ⟨onward s _, trivial⟩

theorem auditLog_then {entry : AuditLog} {k : Unit → Tx α}
    (onward : ∀ s m, Climbs fundings L (k ()) ⟨s, m, Nothing⟩) :
    Climbs fundings L (auditLog entry >>= k) ⟨w, m, held⟩ := by
  unfold auditLog
  apply handle_then
  · apply nested_then
    apply quiet_then
    · intro s r mem _
      simp [needed, Store.targets, writeTargets] at mem
    · intro s _ _
      exact commit_then onward
  · intro x u
    exact fun s => onward s _

theorem enqueue_then {task : Task} {k : Unit → Tx α} {v : Spot} (onward : Climbs fundings L (k ()) v) :
    Climbs fundings L (enqueue task >>= k) v :=
  ⟨fun _ => onward, trivial⟩

theorem selectTransaction_then {pick : Database → Except AppError (Option Transaction)}
    {k : Option Transaction → Tx α} (onward : ∀ found s m, Climbs fundings L (k found) ⟨s, m, held⟩) :
    Climbs fundings L (TransactionRepository.select pick >>= k) ⟨w, m, held⟩ := by
  apply quiet_then (by simp [needed])
  intro s _ _
  dsimp only
  split
  · exact onward _ s _
  · trivial

theorem lookupKey_then {key : Option String} {k : Option Transaction → Tx α}
    (onward : ∀ found s m, Climbs fundings L (k found) ⟨s, m, held⟩) :
    Climbs fundings L (lookupKey key >>= k) ⟨w, m, held⟩ := by
  unfold lookupKey
  split
  · exact selectTransaction_then onward
  · exact onward none w m

theorem firstTransaction_then {pick : Database → Except AppError (Option Transaction)}
    {k : Option Transaction → Tx α}
    (rows : ∀ s row, pick s = .ok (some row) → row ∈ s.transactions.rows)
    (onward : ∀ found s m, Shelved fundings s →
      (∀ t, found = some t → s.transactions.find? t.id = some t) →
        Climbs fundings L (k found) ⟨s, m, held⟩) :
    Climbs fundings L (TransactionRepository.select pick >>= k) ⟨w, default, held⟩ := by
  apply quiet_then (by simp [needed])
  intro s shelved _
  dsimp only
  cases picked : pick s with
  | error x => trivial
  | ok row =>
    apply onward _ s _ shelved
    intro t found
    obtain ⟨a, given, same⟩ := Option.map_eq_some_iff.mp found
    subst given
    have own : a = t := same
    subst own
    exact find?_some_iff.mpr ⟨rows s a picked, rfl⟩

theorem createTransaction_then {txn : Transaction} {k : Transaction → Tx α}
    (wallets : ∀ h, held h → ∃ id, h = .wallet id)
    (onward : ∀ s m, Climbs fundings L (k txn) ⟨s, m, fun r => held r ∨ r = .transaction txn.id⟩) :
    Climbs fundings L (TransactionRepository.create txn >>= k) ⟨w, m, held⟩ := by
  unfold TransactionRepository.create
  split
  swap
  · trivial
  refine ⟨?_, fun _ => trivial⟩
  intro s shelved _
  cases fits : s.transactions.admits txn with
  | false =>
    constructor
    · intro r mem
      simp [needed, fits] at mem
    · simp only [fits, Bool.false_eq_true, if_false]
      trivial
  | true =>
    have unshelved : fundings txn.id ≠ true :=
      fun known => shelved.stored txn.id known (admits_key_free fits)
    have only : ∀ r, (lockOrder fundings r).isSome → r ∈ needed [] [Write.insertTransaction txn] →
        r = .transaction txn.id := by
      intro r ranked mem
      simp only [needed, List.nil_append, touched_cons, touched_nil, List.append_nil] at mem
      change r ∈ [.transaction txn.id, .reference txn.reference] ++ _ at mem
      simp only [List.mem_append, List.mem_cons, List.not_mem_nil, or_false, Option.mem_toList,
        Option.map_eq_some_iff] at mem
      rcases mem with (same | rfl) | ⟨key, _, rfl⟩
      · exact same
      · cases ranked
      · cases ranked
    simp only [fits, if_true]
    constructor
    · intro r mem _ n asked h i mine ranked
      have same := only r (by simp [asked]) mem
      subst same
      obtain ⟨id, rfl⟩ := wallets h mine
      cases ranked
      simp only [lockOrder, unshelved, Option.some.injEq] at asked
      rw [← asked]
      exact Prod.Lex.toLex_lt_toLex.mpr (.inl (by simp))
    · apply climbs_held _ (onward s _)
      intro r ranked
      constructor
      · rintro (mine | rfl)
        · exact .inl mine
        · exact .inr (by simp [needed, Store.targets, writeTargets])
      · rintro (mine | mem)
        · exact .inl mine
        · exact .inr (only r ranked mem)

/-- The place of a transaction among the locks. -/
def above (fundings : Uuid → Bool) (id : Uuid) (held : Row → Prop) : Prop :=
  ¬ held (.transaction id) → ∀ h i n, held h → lockOrder fundings h = some i →
    lockOrder fundings (.transaction id) = some n → i < n

theorem above_held {id : Uuid} (mine : held (.transaction id)) : above fundings id held :=
  fun free => absurd mine free

theorem above_nothing {id : Uuid} : above fundings id Nothing := fun _ _ _ _ none => none.elim

theorem above_wallets {id : Uuid} (unshelved : fundings id ≠ true)
    (wallets : ∀ h, held h → ∃ id, h = .wallet id) :
    above fundings id held := by
  intro _ h i n mine ranked asked
  obtain ⟨k, rfl⟩ := wallets h mine
  cases ranked
  simp only [lockOrder, unshelved, Option.some.injEq] at asked
  rw [← asked]
  exact Prod.Lex.toLex_lt_toLex.mpr (.inl (by simp))

theorem flush_then {txn : Transaction} {set : TransactionUpdate} {k : Transaction → Tx α}
    (climbs : above fundings txn.id held)
    (onward : ∀ s m, Shelved fundings s → L w s →
      Climbs fundings L (k (set.on ((s.transactions.find? txn.id).getD txn)))
        ⟨s, m, fun r => held r ∨ r = .transaction txn.id⟩) :
    Climbs fundings L (TransactionRepository.flush txn set >>= k) ⟨w, m, held⟩ := by
  apply lock_then (.transaction txn.id) _ climbs
  · exact fun s shelved later => onward s _ shelved later
  · intro s _
    simp [needed, Store.targets, writeTargets]

theorem updateStatus_then {txn : Transaction} {newStatus : TransactionStatus} {reason : Option String}
    {k : Transaction → Tx α} (climbs : above fundings txn.id held)
    (onward : ∀ s m, Shelved fundings s → L w s → ∀ set : TransactionUpdate,
      Climbs fundings L (k (set.on ((s.transactions.find? txn.id).getD txn)))
        ⟨s, m, fun r => held r ∨ r = .transaction txn.id⟩) :
    Climbs fundings L (TransactionRepository.updateStatus txn newStatus reason >>= k) ⟨w, m, held⟩ := by
  unfold TransactionRepository.updateStatus
  split
  · exact flush_then climbs (fun s m shelved later => onward s m shelved later _)
  · trivial

theorem flushed_id {txn : Transaction} {set : TransactionUpdate} {s : Database} :
    (set.on ((s.transactions.find? txn.id).getD txn)).id = txn.id := by
  cases found : s.transactions.find? txn.id with
  | none => rfl
  | some row => exact (find?_some_iff.mp found).2

end PayCoreLockRules
