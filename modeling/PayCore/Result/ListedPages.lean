import PayCore.Service.Listings

/- Paging through a list: the totals are right, and which lists come out whole. -/
namespace PayCoreListedPages
open Paging KeyedTable PayCoreTables PayCoreWrites PayCoreListings

section Filters
variable {α β : Type}

theorem mem_narrowed {value : Option β} {test : β → α → Bool} {rows : List α} {row : α} :
    row ∈ narrowed value test rows ↔ row ∈ rows ∧ ∀ v, value = some v → test v row = true := by
  cases value with
  | none => simp [narrowed]
  | some v => simp [narrowed, List.mem_filter]

theorem nodup_narrowed {value : Option β} {test : β → α → Bool} {rows : List α} (unique : rows.Nodup) :
    (narrowed value test rows).Nodup := by
  cases value with
  | none => exact unique
  | some v => exact unique.filter _

end Filters

section Lists
variable {db : Database} {query : Query}

theorem mem_matched (row : query.Entry) :
    row ∈ (query.list db).matched ↔ row ∈ query.table db ∧ query.asksFor row := by
  cases query with
  | getByWallet walletId =>
    simp [Query.list, Query.table, Query.asksFor, TransactionRepository.getByWallet,
      TransactionRepository.newest]
  | getByUser userId typeFilter statusFilter =>
    cases typeFilter <;> cases statusFilter <;>
      simp [Query.list, Query.table, Query.asksFor, TransactionRepository.getByUser,
        TransactionRepository.newest]
  | listAdmin filters =>
    simp only [Query.list, Query.table, Query.asksFor, TransactionRepository.listAdmin,
      TransactionRepository.newest, mem_narrowed, beq_iff_eq, decide_eq_true_iff, and_assoc]
  | listByStatus createdAt status =>
    simp only [Query.list, Query.table, Query.asksFor, listByStatus, mem_narrowed, beq_iff_eq]

theorem nodup_matched : (query.list db).matched.Nodup := by
  have transactions := rows_nodup db.transactions
  cases query with
  | getByWallet walletId => exact transactions.filter _
  | getByUser userId typeFilter statusFilter => exact transactions.filter _
  | listAdmin filters =>
    exact nodup_narrowed (nodup_narrowed (nodup_narrowed (nodup_narrowed (nodup_narrowed transactions))))
  | listByStatus createdAt status => exact nodup_narrowed (rows_nodup db.kycSubmissions)

/-- The COUNT query is built of the same filters. -/
theorem total_matched : (query.list db).total = (query.list db).matched.length := by
  cases query with
  | getByWallet walletId => exact List.countP_eq_length_filter
  | getByUser userId typeFilter statusFilter => exact List.countP_eq_length_filter
  | listAdmin filters => rfl
  | listByStatus createdAt status => rfl

end Lists

/-- Every row of the table that passes the filters is there once, and no other row. -/
structure Whole (db : Database) (query : Query) (rows : List query.Entry) : Prop where
  once : rows.Nodup
  exact : ∀ row, row ∈ rows ↔ row ∈ query.table db ∧ query.asksFor row

def Turned (db : Database) (query : Query) (limit : Nat) (pages : Nat → List query.Entry) : Prop :=
  ∀ i, (query.list db).Returns limit (i * limit) (pages i)

section Pages
variable {db : Database} {query : Query} {limit count : Nat}

theorem whole_iff {rows : List query.Entry} : Whole db query rows ↔ rows.Perm (query.list db).matched := by
  constructor
  · intro whole
    apply (List.perm_ext_iff_of_nodup whole.once nodup_matched).mpr
    intro row
    rw [whole.exact, mem_matched]
  · intro same
    constructor
    · exact same.nodup_iff.mpr nodup_matched
    · intro row
      rw [same.mem_iff, mem_matched]

/-- Each page comes out of an order of its own. -/
theorem turned_orders (count : Nat) {pages : Nat → List query.Entry}
    (turned : Turned db query limit pages) :
    ∃ orders : Nat → List query.Entry,
    (∀ i, Arranged (query.list db).key (query.list db).matched (orders i)) ∧
      (List.range count).flatMap pages = fetched limit count orders := by
  choose orders arranged taken using turned
  exact ⟨orders, arranged, List.flatMap_congr fun i _ => taken i⟩

theorem total_pages (enough : (query.list db).total ≤ count * limit) {pages : Nat → List query.Entry}
    (turned : Turned db query limit pages) :
    (query.list db).total = ((List.range count).flatMap pages).length := by
  obtain ⟨orders, arranged, made_of⟩ := turned_orders count turned
  rw [made_of, length_fetched (fun i => arranged_length (arranged i)), ← total_matched]
  exact (Nat.min_eq_right enough).symm

theorem whole_iff_unsplit (positive : 1 ≤ limit) (enough : (query.list db).total ≤ count * limit) :
    (∀ pages, Turned db query limit pages → Whole db query ((List.range count).flatMap pages)) ↔
      Unsplit (query.list db).key limit (query.list db).matched := by
  have all : (query.list db).matched.length ≤ count * limit := total_matched ▸ enough
  rw [← fetches_all_iff positive nodup_matched all]
  constructor
  · intro complete orders arranged
    exact whole_iff.mp (complete _ fun i => ⟨orders i, arranged i, rfl⟩)
  · intro complete pages turned
    obtain ⟨orders, arranged, made_of⟩ := turned_orders count turned
    rw [made_of]
    exact whole_iff.mpr (complete orders arranged)

end Pages

/-- The total is always the number of the rows that the pages hold. The pages hold every row that
    passes the filters once, whatever order the queries give rows of one created_at, just where these
    are all on one page, and so where no two rows have one created_at. -/
theorem pages_are_whole_iff (db : Database) (query : Query) {limit count : Nat} (positive : 1 ≤ limit)
    (enough : (query.list db).total ≤ count * limit) :
    (∀ pages, Turned db query limit pages →
      (query.list db).total = ((List.range count).flatMap pages).length) ∧
    ((∀ pages, Turned db query limit pages → Whole db query ((List.range count).flatMap pages)) ↔
      Unsplit (query.list db).key limit (query.list db).matched) ∧
    (((query.list db).matched.map (query.list db).key).Nodup → ∀ pages, Turned db query limit pages →
      Whole db query ((List.range count).flatMap pages)) := by
  refine ⟨fun pages turned => total_pages enough turned, whole_iff_unsplit positive enough, ?_⟩
  intro distinct
  exact (whole_iff_unsplit positive enough).mpr (unsplit_distinct distinct)

section Tied

def payment (id : Uuid) (reference : String) (createdAt : Timestamp) : Transaction :=
  { id, reference, type := .merchantPayment, amount := 100, initiatedByUserId := 1, createdAt }

def twoPayments (first second : Timestamp) : Database :=
  applyWrite (.insertTransaction (payment 2 "b" second))
    (applyWrite (.insertTransaction (payment 1 "a" first)) emptyDatabase)

/-- Two transactions of one instant, in pages of one: the first may be on both. -/
theorem a_tie_may_be_returned_twice :
    ¬ ∀ (db : Database) (query : Query) (limit count : Nat), 1 ≤ limit → limit ≤ 100 →
      (query.list db).total ≤ count * limit → ∀ pages, Turned db query limit pages →
        Whole db query ((List.range count).flatMap pages) := by
  intro claim
  have rows : ((Query.getByUser 1 none none).list (twoPayments 5 5)).matched =
      [payment 1 "a" 5, payment 2 "b" 5] := by decide +kernel
  have given : Arranged ((Query.getByUser 1 none none).list (twoPayments 5 5)).key
      ((Query.getByUser 1 none none).list (twoPayments 5 5)).matched [payment 1 "a" 5, payment 2 "b" 5] :=
    ⟨List.Perm.of_eq rows.symm, by decide +kernel⟩
  have swapped : Arranged ((Query.getByUser 1 none none).list (twoPayments 5 5)).key
      ((Query.getByUser 1 none none).list (twoPayments 5 5)).matched [payment 2 "b" 5, payment 1 "a" 5] :=
    ⟨(List.Perm.swap _ _ _).trans (List.Perm.of_eq rows.symm), by decide +kernel⟩
  have turned : Turned (twoPayments 5 5) (.getByUser 1 none none) 1
      fun i => if i < 2 then [payment 1 "a" 5] else [] := by
    intro i
    rcases i with _ | _ | i
    · exact ⟨_, given, rfl⟩
    · exact ⟨_, swapped, rfl⟩
    · refine ⟨_, given, ?_⟩
      have past : ¬ i + 1 + 1 < 2 := by omega
      simp [page, past]
  have whole := claim _ _ 1 2 (by decide) (by decide) (by decide +kernel) _ turned
  have twice := whole.once
  revert twice
  decide +kernel

theorem payments_apart_are_listed_once :
    (∀ pages, Turned (twoPayments 5 6) (.getByUser 1 none none) 1 pages →
      2 = ((List.range 2).flatMap pages).length) ∧
    ∀ pages, Turned (twoPayments 5 6) (.getByUser 1 none none) 1 pages →
      Whole (twoPayments 5 6) (.getByUser 1 none none) ((List.range 2).flatMap pages) := by
  have enough : ((Query.getByUser 1 none none).list (twoPayments 5 6)).total ≤ 2 * 1 := by decide +kernel
  have listed := pages_are_whole_iff (twoPayments 5 6) (.getByUser 1 none none) (by decide) enough
  refine ⟨listed.1, listed.2.1.mpr ?_⟩
  unfold Unsplit before upto
  decide +kernel

end Tied

end PayCoreListedPages
