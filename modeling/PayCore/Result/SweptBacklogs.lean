import PayCore.Library.BatchedPasses
import PayCore.Proof.SweepRules

/- Sweeps one after the other, with nobody else at work: how far they get with the fundings that wait. -/
namespace PayCoreSweptBacklogs
open KeyedTable SessionProgram BatchedPasses PayCoreTables PayCoreSessions PayCoreRepositories
open PayCorePersistence PayCoreReconciliation PayCoreSweepRules

def sweptBy (answer : Request → Option PaystackData) (sweeps : List Sweep) (db : Database) : Database :=
  sweeps.foldl (fun s sweep => (runAlone answer (reconcile sweep) s).2) db

/-- The fundings that wait and that Paystack answers for, and those it does not. -/
def answerable (answer : Request → Option PaystackData) (db : Database) : List Transaction :=
  (backlog db).filter (answered answer)

def unanswerable (answer : Request → Option PaystackData) (db : Database) : List Transaction :=
  (backlog db).filter (fun t => !answered answer t)

section Sweeps
variable {answer : Request → Option PaystackData} {db s : Database}

/-- What the sweeps keep of the state that they have started from. -/
structure Progress (answer : Request → Option PaystackData) (db s : Database) : Prop where
  fit : Sweepable answer s
  fewer : (backlog s).Sublist (backlog db)
  lost : unanswerable answer s = unanswerable answer db
  beside : ∀ t ∈ db.transactions.rows, (waiting t && answered answer t) = false → t ∈ s.transactions.rows

theorem answered_only {sweep : Sweep} {t : Transaction} (row : t ∈ s.transactions.rows)
    (given : t.id ∈ answeredIds answer (picked sweep s)) : waiting t = true ∧ answered answer t = true := by
  obtain ⟨b, taken, same⟩ := List.mem_map.mp given
  obtain ⟨mem, asked⟩ := List.mem_filter.mp taken
  obtain ⟨among, waits⟩ := List.mem_filter.mp (picked_waits mem)
  have first : s.transactions.find? t.id = some b := find?_some_iff.mpr ⟨among, same⟩
  have second : s.transactions.find? t.id = some t := find?_some_iff.mpr ⟨row, rfl⟩
  rw [first] at second
  cases second
  exact ⟨waits, asked⟩

variable {sweep : Sweep} {after : Database}
    (settled : Settled answer (answeredIds answer (picked sweep s)) s after)
include settled

theorem progress_settled (so_far : Progress answer db s) : Progress answer db after where
  fit := settled.fit
  fewer := by
    rw [settled.left]
    exact List.filter_sublist.trans so_far.fewer
  lost := by
    rw [← so_far.lost]
    unfold unanswerable
    rw [settled.left, List.filter_filter]
    apply List.filter_congr
    intro t mem
    cases asked : answered answer t with
    | true => rfl
    | false =>
      have outside : t.id ∉ answeredIds answer (picked sweep s) := by
        intro given
        have reached := (answered_only (List.mem_filter.mp mem).1 given).2
        rw [asked] at reached
        cases reached
      simp [outside]
  beside t row idle := by
    have there := so_far.beside t row idle
    have outside : t.id ∉ answeredIds answer (picked sweep s) := by
      intro given
      obtain ⟨waits, asked⟩ := answered_only there given
      rw [waits, asked] at idle
      cases idle
    have found : after.transactions.find? t.id = some t :=
      (settled.others t.id outside).trans (find?_some_iff.mpr ⟨there, rfl⟩)
    exact (find?_some_iff.mp found).1

/-- A batch has room for what Paystack answers for beside everything it does not answer for. -/
theorem answerable_settled : (answerable answer after).length ≤
    (answerable answer s).length - (batchLimit - (unanswerable answer s).length) := by
  have left : answerable answer after = (answerable answer s).filter
      (fun a => decide (a.id ∉ answeredIds answer (picked sweep s))) := by
    unfold answerable
    rw [settled.left, List.filter_filter, List.filter_filter]
    apply List.filter_congr
    intro t _
    exact Bool.and_comm _ _
  have own : ((answerable answer s).map (·.id)).Nodup :=
    (backlog_apart s).sublist (List.filter_sublist.map _)
  have apart : (answeredIds answer (picked sweep s)).Nodup :=
    (picked_apart sweep s).sublist (List.filter_sublist.map _)
  have inside : ∀ x ∈ answeredIds answer (picked sweep s), x ∈ (answerable answer s).map (·.id) := by
    intro x mem
    obtain ⟨t, taken, rfl⟩ := List.mem_map.mp mem
    obtain ⟨chosen, asked⟩ := List.mem_filter.mp taken
    exact List.mem_map_of_mem (List.mem_filter.mpr ⟨picked_waits chosen, asked⟩)
  have remaining := remaining_length own apart inside
  have share := batch_share (k := batchLimit) (p := answered answer) (sweep.fundings.perm (backlog s))
  rw [← left, answeredIds, List.length_map] at remaining
  simp only [List.countP_eq_length_filter] at share
  change min (answerable answer s).length (batchLimit - (unanswerable answer s).length) ≤
    ((picked sweep s).filter (answered answer)).length at share
  omega

end Sweeps

section Backlogs
variable {answer : Request → Option PaystackData} {db : Database} {sweeps : List Sweep}

theorem sweeps_progress (fit : Sweepable answer db)
    (old : ∀ sweep ∈ sweeps, ∀ t ∈ backlog db, t.createdAt ≤ sweep.cutoff) :
    Progress answer db (sweptBy answer sweeps db) ∧ (answerable answer (sweptBy answer sweeps db)).length ≤
      (answerable answer db).length - (batchLimit - (unanswerable answer db).length) * sweeps.length := by
  have first : Progress answer db db := ⟨fit, List.Sublist.refl _, rfl, fun _ row _ => row⟩
  refine @passes_shrink Database Sweep (fun s sweep => (runAlone answer (reconcile sweep) s).2)
    (fun s => (answerable answer s).length) (Progress answer db) _ sweeps ?_ db first
  intro sweep mem s so_far
  have settled :=
    sweep_settles sweep so_far.fit (fun t waits => old sweep mem t (so_far.fewer.subset waits))
  have fewer := answerable_settled settled
  rw [so_far.lost] at fewer
  exact ⟨progress_settled settled so_far, fewer⟩

theorem sweeps_clear_the_backlog (fit : Sweepable answer db)
    (old : ∀ sweep ∈ sweeps, ∀ t ∈ backlog db, t.createdAt ≤ sweep.cutoff) :
    (answerable answer (sweptBy answer sweeps db)).length ≤ (answerable answer db).length -
        (batchLimit - (unanswerable answer db).length) * sweeps.length ∧
      unanswerable answer (sweptBy answer sweeps db) = unanswerable answer db ∧
      (∀ t ∈ db.transactions.rows, (waiting t && answered answer t) = false →
        t ∈ (sweptBy answer sweeps db).transactions.rows) ∧
      ∀ w ∈ (sweptBy answer sweeps db).wallets.rows, WalletRepository.storable w.balance := by
  obtain ⟨progress, shrunk⟩ := sweeps_progress fit old
  exact ⟨shrunk, progress.lost, progress.beside, balances_storable progress.fit⟩

/-- An order in which what Paystack does not answer for comes first. -/
def stuckFirst (answer : Request → Option PaystackData) : Plan where
  order rows := rows.filter (fun t => !answered answer t) ++ rows.filter (fun t => !(!answered answer t))
  perm rows := List.filter_append_perm _ rows

theorem stuck_picked {s : Database} {sweep : Sweep} (order : sweep.fundings = stuckFirst answer)
    (enough : batchLimit ≤ (unanswerable answer s).length) : answeredIds answer (picked sweep s) = [] := by
  have first : picked sweep s = (unanswerable answer s).take batchLimit := by
    unfold picked
    rw [order]
    exact List.take_append_of_le_length enough
  unfold answeredIds
  rw [first, List.map_eq_nil_iff, List.filter_eq_nil_iff]
  intro t mem asked
  have lost := (List.mem_filter.mp (List.mem_of_mem_take mem)).2
  rw [asked] at lost
  cases lost

theorem stuck_backlog (fit : Sweepable answer db)
    (enough : batchLimit ≤ (unanswerable answer db).length)
    (stuck : ∀ sweep ∈ sweeps, sweep.fundings = stuckFirst answer ∧
      ∀ t ∈ backlog db, t.createdAt ≤ sweep.cutoff) :
    backlog (sweptBy answer sweeps db) = backlog db := by
  unfold sweptBy
  induction sweeps generalizing db with
  | nil => rfl
  | cons sweep rest ih =>
    obtain ⟨order, old⟩ := stuck sweep List.mem_cons_self
    have settled := sweep_settles sweep fit old
    rw [stuck_picked order enough] at settled
    have same : backlog (runAlone answer (reconcile sweep) db).2 = backlog db := by simp [settled.left]
    rw [List.foldl_cons, ← same]
    apply ih settled.fit
    · unfold unanswerable
      rw [same]
      exact enough
    · rw [same]
      exact fun later mem => stuck later (List.mem_cons_of_mem sweep mem)

theorem latest (l : List Transaction) : ∃ bound, ∀ t ∈ l, t.createdAt ≤ bound := by
  induction l with
  | nil => exact ⟨0, by simp⟩
  | cons t rest ih =>
    obtain ⟨bound, holds⟩ := ih
    refine ⟨max t.createdAt bound, ?_⟩
    intro a mem
    rcases List.mem_cons.mp mem with rfl | later
    · exact Nat.le_max_left _ _
    · exact Nat.le_trans (holds a later) (Nat.le_max_right _ _)

/-- Nothing orders the rows that a sweep selects: it gets to every funding that Paystack answers
for just when those it does not answer for leave room in a batch. Where they leave none, it may
never get to any. -/
theorem sweeps_reach_all_iff (fit : Sweepable answer db) (some_wait : answerable answer db ≠ []) :
    ((∀ sweeps : Nat → Sweep, (∀ n, ∀ t ∈ backlog db, t.createdAt ≤ (sweeps n).cutoff) →
        ∃ n, answerable answer (sweptBy answer ((List.range n).map sweeps) db) = []) ↔
      (unanswerable answer db).length < batchLimit) ∧
    (batchLimit ≤ (unanswerable answer db).length → ∃ order : Plan, ∀ sweeps : List Sweep,
      (∀ sweep ∈ sweeps, sweep.fundings = order ∧ ∀ t ∈ backlog db, t.createdAt ≤ sweep.cutoff) →
        backlog (sweptBy answer sweeps db) = backlog db) := by
  have starves : batchLimit ≤ (unanswerable answer db).length → ∃ order : Plan, ∀ sweeps : List Sweep,
      (∀ sweep ∈ sweeps, sweep.fundings = order ∧ ∀ t ∈ backlog db, t.createdAt ≤ sweep.cutoff) →
        backlog (sweptBy answer sweeps db) = backlog db :=
    fun enough => ⟨stuckFirst answer, fun _ stuck => stuck_backlog fit enough stuck⟩
  refine ⟨⟨?_, ?_⟩, starves⟩
  · intro reaches
    by_contra many
    obtain ⟨order, stays⟩ := starves (by omega)
    obtain ⟨bound, holds⟩ := latest (backlog db)
    have late :
        ∀ t ∈ backlog db, t.createdAt ≤ (Sweep.mk (bound + staleThreshold) order tableOrder).cutoff := by
      intro t mem
      have before := holds t mem
      change t.createdAt ≤ bound + staleThreshold - staleThreshold
      rw [Nat.add_sub_cancel]
      exact before
    obtain ⟨n, cleared⟩ := reaches (fun _ => ⟨bound + staleThreshold, order, tableOrder⟩) (fun _ => late)
    unfold answerable at cleared
    rw [stays] at cleared
    · exact some_wait cleared
    · intro sweep mem
      obtain ⟨_, _, rfl⟩ := List.mem_map.mp mem
      exact ⟨rfl, late⟩
  · intro room sweeps old
    refine ⟨(answerable answer db).length, ?_⟩
    have late : ∀ sweep ∈ (List.range (answerable answer db).length).map sweeps,
        ∀ t ∈ backlog db, t.createdAt ≤ sweep.cutoff := by
      intro sweep mem
      obtain ⟨n, _, rfl⟩ := List.mem_map.mp mem
      exact old n
    obtain ⟨_, bound⟩ := sweeps_progress fit late
    rw [List.length_map, List.length_range] at bound
    have share : (answerable answer db).length ≤
        (batchLimit - (unanswerable answer db).length) * (answerable answer db).length :=
      Nat.le_mul_of_pos_left _ (by omega)
    rw [← List.length_eq_zero_iff]
    omega

end Backlogs

section Morning

def requested (id : Uuid) (reference : String) : Transaction :=
  { id, reference, type := .funding, amount := 1000, destinationWalletId := some 15, initiatedByUserId := 1,
    providerReference := some reference, createdAt := 0 }

def waitingDb : Database :=
  { emptyDatabase with
    wallets := ⟨[{ id := 15, userId := 1 }], by decide⟩
    transactions := ⟨[requested 101 "a", requested 102 "b", requested 103 "c"], by decide⟩ }

/-- Paystack knows the first as paid and the second as abandoned, and the third not at all. -/
def known : Request → Option PaystackData
  | .verifyTransaction reference =>
      if reference = "a" then some { reference := .str "a", status := .str "success", amount := some 1000 }
      else if reference = "b" then some { reference := .str "b", status := .str "abandoned" }
      else none
  | _ => none

theorem waiting_honest : ∀ t ∈ backlog waitingDb, Honest known t := by
  intro t mem data replied success
  have row := (List.mem_filter.mp mem).1
  simp only [waitingDb, List.mem_cons, List.not_mem_nil, or_false] at row
  rcases row with rfl | rfl | rfl
  · cases replied
    exact ⟨"a", rfl, rfl, by decide, by decide⟩
  · cases replied
    simp [Field.get] at success
  · cases replied

theorem waiting_sweepable : Sweepable known waitingDb where
  apart := by
    intro a memA b memB reference ofA ofB
    have same := ofA.trans ofB.symm
    simp only [waitingDb, List.mem_cons, List.not_mem_nil, or_false] at memA memB
    rcases memA with rfl | rfl | rfl <;> rcases memB with rfl | rfl | rfl <;> simp [requested] at same ⊢
  honest := waiting_honest
  solvent := by simp [Solvent, waitingDb]
  room := by decide +kernel

def hourly : Sweep := ⟨2 * staleThreshold, tableOrder, tableOrder⟩

theorem waiting_old : ∀ sweep ∈ [hourly], ∀ t ∈ backlog waitingDb, t.createdAt ≤ sweep.cutoff :=
  by decide +kernel

theorem one_sweep_settles_two : (answerable known (sweptBy known [hourly] waitingDb)).length ≤ 0 ∧
    unanswerable known (sweptBy known [hourly] waitingDb) = [requested 103 "c"] := by
  obtain ⟨fewer, lost, _⟩ := sweeps_clear_the_backlog waiting_sweepable waiting_old
  constructor
  · exact fewer.trans (by decide +kernel)
  · exact lost.trans (by decide +kernel)

theorem one_unanswered_starves_none :
    ∃ n, answerable known (sweptBy known ((List.range n).map (fun _ => hourly)) waitingDb) = [] := by
  have reaches := (sweeps_reach_all_iff waiting_sweepable (by decide +kernel)).1.mpr (by decide +kernel)
  apply reaches
  intro _
  exact waiting_old hourly List.mem_cons_self

end Morning

end PayCoreSweptBacklogs
