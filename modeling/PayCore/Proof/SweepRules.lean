import Mathlib.Algebra.Order.BigOperators.Group.List
import Mathlib.Algebra.Order.Group.Int
import PayCore.Proof.SoloHandlers
import PayCore.Service.Reconciliation

/- The sweep with nobody else at work: what becomes of the fundings that it asks Paystack for. -/
namespace PayCoreSweepRules
open KeyedTable SessionProgram PayCoreTables PayCoreWrites PayCoreSessions PayCoreRepositories
open PayCoreSupport PayCoreFunding PayCorePersistence PayCoreCommits PayCoreStatements
open PayCoreHandlers PayCoreSoloHandlers PayCoreReconciliation

/-- A funding that still waits for its charge. -/
def waiting (t : Transaction) : Bool :=
  t.type == .funding && t.status == .pending && t.providerReference.isSome

def backlog (db : Database) : List Transaction := db.transactions.rows.filter waiting

def reply (answer : Request → Option PaystackData) (t : Transaction) : Option PaystackData :=
  t.providerReference.bind (fun reference => answer (.verifyTransaction reference))

/-- A charge that has succeeded is the one that was asked about. -/
def Honest (answer : Request → Option PaystackData) (t : Transaction) : Prop :=
  ∀ data, reply answer t = some data → data.status.get "" = some "success" →
    ∃ reference, t.providerReference = some reference ∧ data.reference = .str reference ∧ reference ≠ "" ∧
      0 ≤ data.amount.getD 0

def reported (answer : Request → Option PaystackData) (t : Transaction) : Int :=
  match reply answer t with
  | some data => if data.status.get "" = some "success" then data.amount.getD 0 else 0
  | none => 0

def reportedTo (answer : Request → Option PaystackData) (id : Uuid) (t : Transaction) : Int :=
  if t.destinationWalletId = some id then reported answer t else 0

/-- What the fundings that wait will bring to the wallet. -/
def due (answer : Request → Option PaystackData) (id : Uuid) (db : Database) : Int :=
  ((backlog db).map (reportedTo answer id)).sum

/-- No two transactions have a provider reference in common, Paystack speaks of what it is asked
about, no wallet is overdrawn, and each has room for what is due to it. -/
structure Sweepable (answer : Request → Option PaystackData) (db : Database) : Prop where
  apart : ∀ a ∈ db.transactions.rows, ∀ b ∈ db.transactions.rows, ∀ reference,
    a.providerReference = some reference → b.providerReference = some reference → a.id = b.id
  honest : ∀ t ∈ backlog db, Honest answer t
  solvent : Solvent db
  room : ∀ w ∈ db.wallets.rows, WalletRepository.storable (w.balance + due answer w.id db)

/-- The fundings `ids` wait no longer, and nothing else has moved. -/
structure Settled (answer : Request → Option PaystackData) (ids : List Uuid) (s t : Database) : Prop where
  left : backlog t = (backlog s).filter (fun a => decide (a.id ∉ ids))
  others : ∀ k, k ∉ ids → t.transactions.find? k = s.transactions.find? k
  fit : Sweepable answer t

section Amounts
variable {answer : Request → Option PaystackData} {db u : Database} {t : Transaction} {id : Uuid}

theorem reportedTo_nonneg (honest : Honest answer t) : 0 ≤ reportedTo answer id t := by
  unfold reportedTo reported
  split
  swap
  · exact Int.le_refl 0
  split
  · rename_i data replied
    split
    · rename_i success
      obtain ⟨_, _, _, _, amount⟩ := honest data replied success
      exact amount
    · exact Int.le_refl 0
  · exact Int.le_refl 0

theorem due_nonneg (honest : ∀ t ∈ backlog db, Honest answer t) : 0 ≤ due answer id db := by
  apply List.sum_nonneg
  intro x mem
  obtain ⟨t, waits, rfl⟩ := List.mem_map.mp mem
  exact reportedTo_nonneg (honest t waits)

theorem due_sublist (honest : ∀ t ∈ backlog db, Honest answer t)
    (fewer : (backlog u).Sublist (backlog db)) :
    due answer id u ≤ due answer id db := by
  apply (fewer.map _).sum_le_sum
  intro x mem
  obtain ⟨t, waits, rfl⟩ := List.mem_map.mp mem
  exact reportedTo_nonneg (honest t waits)

theorem backlog_apart (db : Database) : ((backlog db).map (·.id)).Nodup :=
  (keys_nodup db.transactions).sublist (List.filter_sublist.map _)

theorem sum_without {l : List Transaction} (f : Transaction → Int) (mem : t ∈ l)
    (apart : (l.map (·.id)).Nodup) :
    (l.map f).sum = f t + ((l.filter (fun a => decide (a.id ∉ [t.id]))).map f).sum := by
  induction l with
  | nil => cases mem
  | cons a rest ih =>
    obtain ⟨alone, onward⟩ := List.nodup_cons.mp apart
    rcases List.mem_cons.mp mem with rfl | later
    · have kept : rest.filter (fun a => decide (a.id ∉ [t.id])) = rest := by
        apply List.filter_eq_self.mpr
        intro b among
        have other : b.id ≠ t.id := fun same => alone (List.mem_map.mpr ⟨b, among, same⟩)
        simp [other]
      rw [List.filter_cons_of_neg (by simp), kept, List.map_cons, List.sum_cons]
    · have other : a.id ≠ t.id := fun same => alone (List.mem_map.mpr ⟨t, later, same.symm⟩)
      rw [List.filter_cons_of_pos (by simp [other]), List.map_cons, List.map_cons, List.sum_cons,
        List.sum_cons,
        ih later onward]
      omega

theorem due_without (waits : t ∈ backlog db)
    (left : backlog u = (backlog db).filter (fun a => decide (a.id ∉ [t.id]))) :
    due answer id db = reportedTo answer id t + due answer id u := by
  unfold due
  rw [left]
  exact sum_without _ waits (backlog_apart db)

theorem balances_storable (fit : Sweepable answer db) :
    ∀ w ∈ db.wallets.rows, WalletRepository.storable w.balance := by
  intro w mem
  have waiting : 0 ≤ due answer w.id db := due_nonneg fit.honest
  have covered := fit.solvent w mem
  obtain ⟨_, short⟩ := fit.room w mem
  exact ⟨covered, by omega⟩

theorem credit_storable (fit : Sweepable answer db) (waits : t ∈ backlog db) {wallet : Wallet}
    (destination : t.destinationWalletId = some wallet.id) (mem : wallet ∈ db.wallets.rows) :
    WalletRepository.storable (wallet.balance + reported answer t) := by
  have mine : reportedTo answer wallet.id t = reported answer t := if_pos destination
  have nonneg : 0 ≤ reportedTo answer wallet.id t := reportedTo_nonneg (fit.honest t waits)
  have within : reportedTo answer wallet.id t ≤ due answer wallet.id db := by
    apply List.single_le_sum _ _ (List.mem_map_of_mem waits)
    intro x among
    obtain ⟨a, other, rfl⟩ := List.mem_map.mp among
    exact reportedTo_nonneg (fit.honest a other)
  have covered := fit.solvent wallet mem
  obtain ⟨_, short⟩ := fit.room wallet mem
  rw [mine] at nonneg within
  exact ⟨by omega, by omega⟩

theorem room_kept (fit : Sweepable answer db) (same : u.wallets = db.wallets)
    (fewer : (backlog u).Sublist (backlog db)) :
    ∀ w ∈ u.wallets.rows, WalletRepository.storable (w.balance + due answer w.id u) := by
  rw [same]
  intro w mem
  have waiting : 0 ≤ due answer w.id u := due_nonneg (fun t mem => fit.honest t (fewer.subset mem))
  have less : due answer w.id u ≤ due answer w.id db := due_sublist fit.honest fewer
  have covered := fit.solvent w mem
  obtain ⟨_, short⟩ := fit.room w mem
  exact ⟨by omega, by omega⟩

end Amounts

section Settling
variable {answer : Request → Option PaystackData} {s t u : Database} {ids more : List Uuid}

theorem settled_nothing (fit : Sweepable answer s) : Settled answer [] s s where
  left := by simp
  others _ _ := rfl
  fit := fit

theorem settled_append (first : Settled answer ids s t) (second : Settled answer more t u) :
    Settled answer (ids ++ more) s u where
  left := by
    rw [second.left, first.left, List.filter_filter]
    apply List.filter_congr
    intro a _
    simp [not_or, Bool.and_comm]
  others k outside := by
    rw [List.mem_append, not_or] at outside
    exact (second.others k outside.2).trans (first.others k outside.1)
  fit := second.fit

end Settling

section Marks
variable {answer : Request → Option PaystackData} {db t : Database} {id : Uuid}

theorem apart_marked (fit : Sweepable answer db) (status : TransactionStatus) (reason : Option String)
    (moved : t.transactions =
      db.transactions.update id (transactionEdit { status := some status, failureReason := reason })) :
    ∀ a ∈ t.transactions.rows, ∀ b ∈ t.transactions.rows, ∀ reference,
      a.providerReference = some reference → b.providerReference = some reference → a.id = b.id := by
  intro a memA b memB reference ofA ofB
  rw [moved] at memA memB
  obtain ⟨c, rowC, rfl⟩ := mem_update memA
  obtain ⟨d, rowD, rfl⟩ := mem_update memB
  have same : ∀ e : Transaction,
      (editAt id (transactionEdit { status := some status, failureReason := reason }) e).providerReference =
      e.providerReference ∧
        (editAt id (transactionEdit { status := some status, failureReason := reason }) e).id = e.id := by
    intro e
    unfold editAt
    split <;> exact ⟨rfl, rfl⟩
  rw [(same c).1] at ofA
  rw [(same d).1] at ofB
  rw [(same c).2, (same d).2]
  exact fit.apart c rowC d rowD reference ofA ofB

theorem backlog_marked (status : TransactionStatus) (reason : Option String) (started : status ≠ .pending)
    (moved : t.transactions =
      db.transactions.update id (transactionEdit { status := some status, failureReason := reason })) :
    backlog t = (backlog db).filter (fun a => decide (a.id ∉ [id])) := by
  unfold backlog
  rw [moved, filter_update, List.filter_filter]
  · apply List.filter_congr
    intro a _
    simp [Keyed.key, Bool.and_comm]
  · intro a
    simp [waiting, transactionEdit, TransactionUpdate.on, started]

theorem settled_moved (fit : Sweepable answer db) (status : TransactionStatus) (reason : Option String)
    (started : status ≠ .pending)
    (moved : t.transactions =
      db.transactions.update id (transactionEdit { status := some status, failureReason := reason }))
    (solvent : Solvent t)
    (room : ∀ w ∈ t.wallets.rows, WalletRepository.storable (w.balance + due answer w.id t)) :
    Settled answer [id] db t where
  left := backlog_marked status reason started moved
  others k outside := by
    rw [moved]
    exact find?_update_other (fun same => outside (by simp [same]))
  fit := by
    refine ⟨apart_marked fit status reason moved, ?_, solvent, room⟩
    intro a waits
    rw [backlog_marked status reason started moved] at waits
    exact fit.honest a (List.mem_filter.mp waits).1

theorem settled_marked (fit : Sweepable answer db) (status : TransactionStatus) (reason : Option String)
    (started : status ≠ .pending)
    (moved : t.transactions =
      db.transactions.update id (transactionEdit { status := some status, failureReason := reason }))
    (same : t.wallets = db.wallets) : Settled answer [id] db t := by
  apply settled_moved fit status reason started moved
  · unfold Solvent
    rw [same]
    exact fit.solvent
  · apply room_kept fit same
    rw [backlog_marked status reason started moved]
    exact List.filter_sublist

theorem settled_twice {s t u : Database} (first : Settled answer [id] s t)
    (second : Settled answer [id] t u) :
    Settled answer [id] s u where
  left := by
    rw [second.left, first.left, List.filter_filter]
    apply List.filter_congr
    intro a _
    simp
  others k outside := (second.others k outside).trans (first.others k outside)
  fit := second.fit

end Marks

section Resolution
variable {answer : Request → Option PaystackData} {db : Database} {t : Transaction} {calls : List Request}

theorem waiting_iff {t : Transaction} : waiting t = true ↔
    t.type = .funding ∧ t.status = .pending ∧ t.providerReference.isSome = true := by
  simp [waiting, and_assoc]

theorem only_referred (fit : Sweepable answer db) (row : t ∈ db.transactions.rows) {reference : String}
    (referred : t.providerReference = some reference) :
    TransactionRepository.byProviderReference reference db = .ok (some t) := by
  unfold TransactionRepository.byProviderReference
  rw [filter_unique row (by simp [referred])]
  · rfl
  · intro a mem picked
    have same := fit.apart a mem t row reference (by simpa using picked) referred
    simp [clash, same]

/-- What the wallet had, and what was due to it, is what it has and what is due to it. -/
theorem room_credited (fit : Sweepable answer db) (waits : t ∈ backlog db) {u : Database} {wallet : Wallet}
    (destination : t.destinationWalletId = some wallet.id)
    (holder : db.wallets.find? wallet.id = some wallet)
    (left : backlog u = (backlog db).filter (fun a => decide (a.id ∉ [t.id])))
    (paid : u.wallets = db.wallets.update wallet.id (balanceEdit (wallet.balance + reported answer t))) :
    ∀ w ∈ u.wallets.rows, WalletRepository.storable (w.balance + due answer w.id u) := by
  intro w mem
  rw [paid] at mem
  obtain ⟨a, row, rfl⟩ := mem_update mem
  have room := fit.room a row
  rw [due_without waits left, reportedTo, destination] at room
  by_cases here : a.id = wallet.id
  · have one : a = wallet := by
      have found : db.wallets.find? wallet.id = some a := find?_some_iff.mpr ⟨row, here⟩
      rw [holder] at found
      exact (Option.some.inj found).symm
    subst one
    rw [if_pos rfl, ← Int.add_assoc] at room
    simpa [editAt, Keyed.key] using room
  · rw [if_neg (by simpa using Ne.symm here), Int.zero_add] at room
    simpa [editAt, Keyed.key, here] using room

theorem settled_credit (fit : Sweepable answer db) (pending : t.status = .pending)
    (row : db.transactions.find? t.id = some t)
    (waits : t ∈ backlog db) {wallet : Wallet} (destination : t.destinationWalletId = some wallet.id)
    (holder : db.wallets.find? wallet.id = some wallet)
    (affords : WalletRepository.storable (wallet.balance + reported answer t))
    (entry : AuditLog) :
    Settled answer [t.id] db
    (applyWrite (.insertAuditLog entry) (applyAll (creditWrites t wallet (reported answer t)) db)) := by
  have commit : ChargeCommit t.id db (creditWrites t wallet (reported answer t)) :=
    .credited t wallet _ row pending destination holder affords
  have first : Settled answer [t.id] db (applyAll [mark t.id .processing none] db) :=
    settled_marked fit .processing none (by simp) rfl rfl
  have moved :
      (applyWrite (.insertAuditLog entry)
        (applyAll (creditWrites t wallet (reported answer t)) db)).transactions =
      (applyAll [mark t.id .processing none] db).transactions.update t.id
        (transactionEdit { status := some .completed, failureReason := none }) := rfl
  apply settled_twice first
  apply settled_moved first.fit .completed none (by simp) moved
  · exact (later_all (charge_regular commit) db).solvent fit.solvent
  · apply room_credited fit waits destination holder _ rfl
    rw [backlog_marked .completed none (by simp) moved, first.left, List.filter_filter]
    apply List.filter_congr
    intro a _
    simp

theorem yields_missing {walletId : Uuid} {s : Solo}
    (missing : WalletRepository.byId walletId s.seen = none) :
    Yields answer (WalletRepository.lockForUpdate walletId) s none s := by
  simp [Yields, WalletRepository.lockForUpdate, WalletRepository.select, exec, missing]

/-- process_charge_success on a funding that waits: credited, or PROCESSING where there is no
wallet to credit. -/
theorem charge_settles (fit : Sweepable answer db) (row : t ∈ db.transactions.rows)
    (waits : waiting t = true)
    {data : PaystackData} {reference : String} (referred : t.providerReference = some reference)
    (named : data.reference = .str reference) (present : reference ≠ "")
    (told : data.amount.getD 0 = reported answer t) :
    Leaves answer (processChargeSuccess data >>= fun _ => commit) ⟨db, [], default, calls⟩
    (Settled answer [t.id] db) := by
  obtain ⟨_, pending, _⟩ := waiting_iff.mp waits
  have found : db.transactions.find? t.id = some t := find?_some_iff.mpr ⟨row, rfl⟩
  have marked : (applyAll [mark t.id .processing none] db).transactions.find? t.id =
      some (restated t .processing none) := (replaced_update found (transactionEdit _)).after
  have has : truthy (data.reference.get "") = true := by simp [named, Field.get, truthy, present]
  have same : (data.reference.get "").getD "" = reference := by simp [named, Field.get]
  have started : Settled answer [t.id] db (applyAll [mark t.id .processing none] db) :=
    settled_marked fit .processing none (by simp) rfl rfl
  unfold processChargeSuccess
  rw [if_pos has, same, told, seq_seq]
  refine leaves_yields (yields_select (only_referred fit row referred) rfl) ?_
  simp only [if_pos pending]
  rw [seq_seq]
  refine leaves_yields (yields_updateStatus (pending_starts pending) found) ?_
  cases destination : (restated t .processing none).destinationWalletId with
  | none => exact started
  | some walletId =>
    simp only
    unfold creditFunding
    rw [seq_seq]
    cases holder : WalletRepository.byId walletId db with
    | none =>
      refine leaves_yields (yields_missing holder) ?_
      exact started
    | some wallet =>
      obtain ⟨there, live⟩ := Option.filter_eq_some_iff.mp holder
      obtain ⟨listed, own⟩ := find?_some_iff.mp there
      change wallet.id = walletId at own
      subst own
      have among : t ∈ backlog db := List.mem_filter.mpr ⟨row, waits⟩
      have room := credit_storable fit among destination listed
      refine leaves_yields (yields_lockForUpdate there (by simpa [WalletRepository.live] using live) rfl) ?_
      simp only
      rw [seq_seq]
      refine leaves_yields (yields_updateBalance room) ?_
      rw [seq_seq]
      refine leaves_yields (yields_createEntry _) ?_
      rw [seq_seq]
      refine leaves_yields (yields_updateStatus (processing_ends rfl (.inl rfl)) marked) ?_
      rw [seq_seq]
      refine leaves_yields yields_commit ?_
      refine leaves_yields (yields_auditLog _ rfl) ?_
      exact settled_credit fit pending found among destination there room _

theorem result_settles (fit : Sweepable answer db) (row : t ∈ db.transactions.rows)
    (waits : waiting t = true)
    {data : PaystackData} {reference : String} (referred : t.providerReference = some reference)
    (honest : data.status.get "" = some "success" →
      data.reference = .str reference ∧ reference ≠ "" ∧ data.amount.getD 0 = reported answer t) :
    Leaves answer (applyResult t.id data) ⟨db, [], default, calls⟩ (Settled answer [t.id] db) := by
  unfold applyResult
  by_cases success : data.status.get "" = some "success"
  · rw [if_pos success]
    obtain ⟨named, present, told⟩ := honest success
    exact charge_settles fit row waits referred named present told
  · rw [if_neg success]
    obtain ⟨_, pending, _⟩ := waiting_iff.mp waits
    have found : db.transactions.find? t.id = some t := find?_some_iff.mpr ⟨row, rfl⟩
    have marked : (applyAll [mark t.id .processing none] db).transactions.find? t.id =
        some (restated t .processing none) := (replaced_update found (transactionEdit _)).after
    have started : Settled answer [t.id] db (applyAll [mark t.id .processing none] db) :=
      settled_marked fit .processing none (by simp) rfl rfl
    unfold failFunding
    refine leaves_yields (yields_select (congrArg Except.ok found) rfl) ?_
    simp only [if_pos pending]
    refine leaves_yields (yields_updateStatus (pending_starts pending) found) ?_
    refine leaves_yields (yields_updateStatus (processing_ends rfl (.inr rfl)) marked) ?_
    apply settled_twice started
    exact settled_marked started.fit .failed _ (by simp) rfl rfl

/-- The session of one funding: it settles it where Paystack answers, and else leaves everything
as it was. -/
theorem reconcile_settles (fit : Sweepable answer db) (row : t ∈ db.transactions.rows)
    (waits : waiting t = true)
    {reference : String} (referred : t.providerReference = some reference) :
    EndsIn answer (reconcileFunding t.id reference) ⟨db, [], default, calls⟩
      (Settled answer (if (reply answer t).isSome then [t.id] else []) db) := by
  have asked : reply answer t = answer (.verifyTransaction reference) := by simp [reply, referred]
  apply endsIn_swallowed
  apply leaves_paystack
  · intro lost
    rw [asked, lost]
    exact settled_nothing fit
  · intro data replied
    rw [asked, replied]
    apply result_settles fit row waits referred
    intro success
    have said := asked.trans replied
    obtain ⟨own, known, named, present, _⟩ :=
      fit.honest t (List.mem_filter.mpr ⟨row, waits⟩) data said success
    rw [referred] at known
    cases known
    exact ⟨named, present, by simp [reported, said, success]⟩

end Resolution

section Sweeps
variable {answer : Request → Option PaystackData} {db : Database}

def answered (answer : Request → Option PaystackData) (t : Transaction) : Bool := (reply answer t).isSome

def answeredIds (answer : Request → Option PaystackData) (batch : List Transaction) : List Uuid :=
  (batch.filter (answered answer)).map (·.id)

theorem yields_rollback {s : Solo} :
    Yields answer rollback s () { s with pending := [], memory := default } := rfl

theorem yields_query {α : Type} (f : Database → α) (s : Solo) : Yields answer (query f) s (f s.seen) s := by
  simp [Yields, query, exec]

theorem reconcileAll_settles (picked : List Transaction) (fit : Sweepable answer db)
    (waits : ∀ t ∈ picked, t ∈ backlog db)
    (apart : (picked.map (·.id)).Nodup) (calls : List Request) :
    EndsIn answer (reconcileAll (picked.filterMap referred)) ⟨db, [], default, calls⟩
      (Settled answer (answeredIds answer picked) db) := by
  induction picked generalizing db calls with
  | nil => exact ⟨(), _, rfl, settled_nothing fit⟩
  | cons t rest ih =>
    obtain ⟨alone, onward⟩ := List.nodup_cons.mp apart
    obtain ⟨row, waiting⟩ := List.mem_filter.mp (waits t List.mem_cons_self)
    obtain ⟨reference, given⟩ := Option.isSome_iff_exists.mp (waiting_iff.mp waiting).2.2
    have entry : referred t = some (t.id, reference) := by simp [referred, given]
    rw [List.filterMap_cons, entry]
    unfold reconcileAll
    obtain ⟨_, u, ends, settled⟩ := reconcile_settles fit row waiting given
    apply endsIn_seq ends
    apply endsIn_seq yields_rollback
    have here : ∀ a ∈ rest, a ∈ backlog u.db := by
      intro a mem
      rw [settled.left]
      apply List.mem_filter.mpr
      constructor
      · exact waits a (List.mem_cons_of_mem t mem)
      · have other : a.id ≠ t.id := fun same => alone (List.mem_map.mpr ⟨a, mem, same⟩)
        split <;> simp [other]
    obtain ⟨_, v, last, more⟩ := ih settled.fit here onward u.calls
    refine ⟨_, v, last, ?_⟩
    have both := settled_append settled more
    have ids : answeredIds answer (t :: rest) =
        (if (reply answer t).isSome then [t.id] else []) ++ answeredIds answer rest := by
      unfold answeredIds answered
      rw [List.filter_cons]
      split <;> rfl
    rw [ids]
    exact both

/-- What a sweep picks where everything that waits is stale. -/
def picked (sweep : Sweep) (db : Database) : List Transaction :=
  (sweep.fundings.order (backlog db)).take batchLimit

theorem picked_waits {sweep : Sweep} {t : Transaction} (mem : t ∈ picked sweep db) : t ∈ backlog db :=
  (sweep.fundings.perm _).mem_iff.mp (List.mem_of_mem_take mem)

theorem batch_backlog (sweep : Sweep) (old : ∀ t ∈ backlog db, t.createdAt ≤ sweep.cutoff) :
    batch sweep.fundings (staleFunding sweep.cutoff) db = picked sweep db := by
  have same : db.transactions.rows.filter (staleFunding sweep.cutoff) = backlog db := by
    apply List.filter_congr
    intro t row
    cases waits : waiting t with
    | true =>
      have due := old t (List.mem_filter.mpr ⟨row, waits⟩)
      have all : staleFunding sweep.cutoff t = (waiting t && decide (t.createdAt ≤ sweep.cutoff)) := rfl
      rw [all, waits, decide_eq_true due]
      rfl
    | false =>
      have all : staleFunding sweep.cutoff t = (waiting t && decide (t.createdAt ≤ sweep.cutoff)) := rfl
      rw [all, waits]
      rfl
  rw [batch, same]
  rfl

theorem picked_apart (sweep : Sweep) (db : Database) : ((picked sweep db).map (·.id)).Nodup := by
  have all := ((sweep.fundings.perm (backlog db)).map (·.id)).nodup_iff.mpr (backlog_apart db)
  exact all.sublist ((List.take_sublist _ _).map _)

theorem reads_enqueueAll (ids : List Uuid) : Reads (enqueueAll ids) := by
  induction ids with
  | nil => trivial
  | cons id rest ih => exact reads_seq ⟨fun _ => trivial, trivial⟩ (fun _ => ih)

/-- One sweep settles what Paystack answers for among the fundings it has picked. -/
theorem sweep_settles (sweep : Sweep) (fit : Sweepable answer db)
    (old : ∀ t ∈ backlog db, t.createdAt ≤ sweep.cutoff) :
    Settled answer (answeredIds answer (picked sweep db)) db (runAlone answer (reconcile sweep) db).2 := by
  change Leaves answer (reconcile sweep) (start db) _
  unfold reconcile
  apply leaves_yields (yields_query _ _)
  apply leaves_yields yields_rollback
  have given : sweep.staleFundings db = (picked sweep db).filterMap referred := by
    rw [Sweep.staleFundings, batch_backlog sweep old]
  change Leaves answer (reconcileAll (sweep.staleFundings db) >>= _) _ _
  rw [given]
  obtain ⟨_, u, ends, settled⟩ := reconcileAll_settles (picked sweep db) fit
    (fun _ mem => picked_waits mem) (picked_apart sweep db) []
  apply leaves_yields ends
  apply leaves_yields (yields_query _ _)
  apply leaves_yields yields_rollback
  exact leaves_reads (reads_enqueueAll _) settled

end Sweeps

end PayCoreSweepRules
