import Mathlib.Data.List.Nodup
import Mathlib.Data.List.Perm.Basic
import Mathlib.Data.List.Sort
import Mathlib.Order.Defs.LinearOrder

/- Reading a result in pages, each by a query of its own: ORDER BY key LIMIT limit OFFSET offset.
   Rows with one key stand in any order, and in another one at the next query. -/
namespace Paging

variable {α κ : Type} [LinearOrder κ]

structure Arranged (key : α → κ) (rows ordered : List α) : Prop where
  same : ordered.Perm rows
  sorted : ordered.Pairwise fun a b => key a ≤ key b

def page (limit offset : Nat) (ordered : List α) : List α := (ordered.drop offset).take limit

def fetched (limit count : Nat) (orders : Nat → List α) : List α :=
  (List.range count).flatMap fun i => page limit (i * limit) (orders i)

/-- The rows that come before `r` in every order, and those that may. -/
def before (key : α → κ) (rows : List α) (r : α) : Nat := rows.countP fun a => key a < key r

def upto (key : α → κ) (rows : List α) (r : α) : Nat := rows.countP fun a => key a ≤ key r

/-- Rows with one key are never on two pages. -/
def Unsplit (key : α → κ) (limit : Nat) (rows : List α) : Prop :=
  ∀ r ∈ rows, before key rows r / limit = (upto key rows r - 1) / limit

section
omit [LinearOrder κ]

theorem fetched_succ (limit count : Nat) (orders : Nat → List α) :
    fetched limit (count + 1) orders = fetched limit count orders ++ page limit (count * limit)
    (orders count) := by
  simp [fetched, List.range_succ]

theorem length_fetched {limit total : Nat} {orders : Nat → List α}
    (full : ∀ i, (orders i).length = total) (count : Nat) :
    (fetched limit count orders).length = min (count * limit) total := by
  induction count with
  | zero => simp [fetched]
  | succ count ih =>
    rw [fetched_succ, List.length_append, ih, page, List.length_take, List.length_drop, full count,
      Nat.succ_mul]
    omega

theorem fetched_steady (limit count : Nat) (ordered : List α) :
    fetched limit count (fun _ => ordered) = ordered.take (count * limit) := by
  induction count with
  | zero => simp [fetched]
  | succ count ih => rw [fetched_succ, ih, page, Nat.succ_mul, List.take_add]

theorem page_filter {ordered : List α} {picks : α → Bool} {offset limit : Nat}
    (places : ∀ j r, ordered[j]? = some r → (picks r = true ↔ offset ≤ j ∧ j < offset + limit)) :
    page limit offset ordered = ordered.filter picks := by
  induction ordered generalizing offset limit with
  | nil => simp [page]
  | cons x rest ih =>
    have here := places 0 x rfl
    have later : ∀ j r, rest[j]? = some r → (picks r = true ↔ offset ≤ j + 1 ∧ j + 1 < offset + limit) :=
      fun j r at_ => places (j + 1) r at_
    cases offset with
    | succ offset =>
      have skipped : ¬ picks x = true := fun picked => absurd (here.mp picked).1 (by omega)
      have rest_same := @ih offset limit (fun j r at_ => (later j r at_).trans (by omega))
      rw [List.filter_cons_of_neg skipped, ← rest_same]
      rfl
    | zero =>
      cases limit with
      | zero =>
        have skipped : ¬ picks x = true := fun picked => absurd (here.mp picked).2 (by omega)
        have rest_same := @ih 0 0 (fun j r at_ => (later j r at_).trans (by omega))
        rw [List.filter_cons_of_neg skipped, ← rest_same]
        simp [page]
      | succ limit =>
        have taken : picks x = true := here.mpr (by omega)
        have rest_same := @ih 0 limit (fun j r at_ => (later j r at_).trans (by omega))
        rw [List.filter_cons_of_pos taken, ← rest_same]
        rfl

theorem classes_perm (rows : List α) (place : α → Nat) (count : Nat) :
    ((List.range count).flatMap fun i => rows.filter fun r => place r = i).Perm
      (rows.filter fun r => place r < count) := by
  induction count with
  | zero => simp
  | succ count ih =>
    rw [List.range_succ, List.flatMap_append]
    have split := List.filter_append_perm (fun r => decide (place r < count))
      (rows.filter fun r => place r < count + 1)
    have low : (rows.filter fun r => place r < count + 1).filter (fun r => decide (place r < count)) =
        rows.filter fun r => place r < count := by
      rw [List.filter_filter]
      apply List.filter_congr
      intro r _
      rw [← Bool.decide_and, decide_eq_decide]
      omega
    have top : (rows.filter fun r => place r < count + 1).filter (fun r => !decide (place r < count)) =
        rows.filter fun r => place r = count := by
      rw [List.filter_filter]
      apply List.filter_congr
      intro r _
      rw [← decide_not, ← Bool.decide_and, decide_eq_decide]
      omega
    rw [low, top] at split
    simpa using (ih.append_right _).trans split

end

section Places
variable {key : α → κ} {rows ordered : List α}

theorem arranged_length (arranged : Arranged key rows ordered) : ordered.length = rows.length :=
  arranged.same.length_eq

theorem split_at {j : Nat} {r : α} (at_ : ordered[j]? = some r) :
    ∃ front behind, ordered = front ++ r :: behind ∧ front.length = j := by
  obtain ⟨inside, value⟩ := List.getElem?_eq_some_iff.mp at_
  refine ⟨ordered.take j, ordered.drop (j + 1), ?_, List.length_take_of_le (Nat.le_of_lt inside)⟩
  rw [← value, ← List.drop_eq_getElem_cons inside, List.take_append_drop]

theorem place_bounds (arranged : Arranged key rows ordered) {j : Nat} {r : α} (at_ : ordered[j]? = some r) :
    before key rows r ≤ j ∧ j < upto key rows r := by
  obtain ⟨front, behind, rfl, rfl⟩ := split_at at_
  have sorted := arranged.sorted
  rw [List.pairwise_append, List.pairwise_cons] at sorted
  obtain ⟨_, ⟨after, _⟩, across⟩ := sorted
  rw [before, upto, ← arranged.same.countP_eq, ← arranged.same.countP_eq, List.countP_append,
    List.countP_append]
  constructor
  · have none_after : (r :: behind).countP (fun a => decide (key a < key r)) = 0 := by
      rw [List.countP_eq_zero]
      intro a mem
      rcases List.mem_cons.mp mem with rfl | later
      · simp
      · simpa using after a later
    rw [none_after]
    exact List.countP_le_length
  · have all_front : front.countP (fun a => decide (key a ≤ key r)) = front.length := by
      rw [List.countP_eq_length]
      intro a mem
      simpa using across a mem r List.mem_cons_self
    have itself : 0 < (r :: behind).countP (fun a => decide (key a ≤ key r)) := by
      rw [List.countP_pos_iff]
      exact ⟨r, List.mem_cons_self, by simp⟩
    omega

theorem place_exists {r : α} (mem : r ∈ rows) (arranged : Arranged key rows ordered) :
    before key rows r < rows.length ∧ before key rows r < upto key rows r := by
  obtain ⟨j, at_⟩ := List.mem_iff_getElem?.mp (arranged.same.mem_iff.mpr mem)
  have bounds := place_bounds arranged at_
  have inside := (List.getElem?_eq_some_iff.mp at_).1
  rw [arranged_length arranged] at inside
  omega

theorem page_of {j limit i : Nat} (positive : 0 < limit) :
    j / limit = i ↔ i * limit ≤ j ∧ j < i * limit + limit := by
  have below : i < j / limit + 1 ↔ i * limit ≤ j := by
    rw [Nat.lt_succ_iff, Nat.le_div_iff_mul_le positive]
  have above : j / limit < i + 1 ↔ j < i * limit + limit := by
    rw [Nat.div_lt_iff_lt_mul positive, Nat.succ_mul]
  omega

end Places

section Pages
variable {key : α → κ} {rows : List α} {limit count : Nat}

/-- Where no page boundary cuts through rows with one key, the pages are the rows, however each
    query orders them. -/
theorem unsplit_fetches (positive : 0 < limit) (enough : rows.length ≤ count * limit)
    (unsplit : Unsplit key limit rows) {orders : Nat → List α}
    (arranged : ∀ i, Arranged key rows (orders i)) :
    (fetched limit count orders).Perm rows := by
  have picks : ∀ i, page limit (i * limit) (orders i) =
      (orders i).filter fun r => before key rows r / limit = i := by
    intro i
    apply page_filter
    intro j r at_
    have mem : r ∈ rows := (arranged i).same.mem_iff.mp (List.mem_of_getElem? at_)
    have bounds := place_bounds (arranged i) at_
    have low : before key rows r / limit ≤ j / limit := Nat.div_le_div_right bounds.1
    have high : j / limit ≤ (upto key rows r - 1) / limit := Nat.div_le_div_right (by omega)
    have same : before key rows r / limit = j / limit := by
      have whole := unsplit r mem
      omega
    rw [decide_eq_true_iff, same]
    exact page_of positive
  have pages : (fetched limit count orders).Perm
      ((List.range count).flatMap fun i => rows.filter fun r => before key rows r / limit = i) := by
    apply List.Perm.flatMap_left
    intro i _
    rw [picks i]
    exact (arranged i).same.filter _
  have all : rows.filter (fun r => before key rows r / limit < count) = rows := by
    rw [List.filter_eq_self]
    intro r mem
    have inside := (place_exists mem (arranged 0)).1
    rw [decide_eq_true_iff, Nat.div_lt_iff_lt_mul positive]
    omega
  have classes := classes_perm rows (fun r => before key rows r / limit) count
  rw [all] at classes
  exact pages.trans classes

theorem exists_arranged (key : α → κ) (rows : List α) : ∃ ordered, Arranged key rows ordered := by
  refine ⟨rows.mergeSort fun a b => decide (key a ≤ key b), List.mergeSort_perm _ _, ?_⟩
  have sorted : (rows.mergeSort fun a b => decide (key a ≤ key b)).Pairwise
      fun a b => decide (key a ≤ key b) = true := by
    apply List.pairwise_mergeSort
    · simpa using fun a b c => le_trans
    · simpa using fun a b => le_total (key a) (key b)
  simpa using sorted

/-- The rows with the key of `r` may stand in any order between those before and those after. -/
theorem blocks_arranged {r : α} {front ties behind : List α}
    (first : Arranged key (rows.filter fun a => key a < key r) front)
    (tied : ties.Perm (rows.filter fun a => key a = key r))
    (last : Arranged key (rows.filter fun a => key r < key a) behind) :
    Arranged key rows (front ++ (ties ++ behind)) := by
  have front_key : ∀ a ∈ front, key a < key r := by
    intro a mem
    simpa using (List.mem_filter.mp (first.same.mem_iff.mp mem)).2
  have tied_key : ∀ a ∈ ties, key a = key r := by
    intro a mem
    simpa using (List.mem_filter.mp (tied.mem_iff.mp mem)).2
  have behind_key : ∀ a ∈ behind, key r < key a := by
    intro a mem
    simpa using (List.mem_filter.mp (last.same.mem_iff.mp mem)).2
  constructor
  · have rest : (ties ++ behind).Perm (rows.filter fun a => !decide (key a < key r)) := by
      have split := List.filter_append_perm (fun a => decide (key a = key r))
        (rows.filter fun a => !decide (key a < key r))
      have same : (rows.filter fun a => !decide (key a < key r)).filter (fun a => decide (key a = key r)) =
          rows.filter fun a => key a = key r := by
        rw [List.filter_filter]
        apply List.filter_congr
        intro a _
        grind
      have later : (rows.filter fun a => !decide (key a < key r)).filter
          (fun a => !decide (key a = key r)) =
          rows.filter fun a => key r < key a := by
        rw [List.filter_filter]
        apply List.filter_congr
        intro a _
        grind
      rw [same, later] at split
      exact (tied.append last.same).trans split
    exact (first.same.append rest).trans (List.filter_append_perm (fun a => decide (key a < key r)) rows)
  · rw [List.pairwise_append, List.pairwise_append]
    refine ⟨first.sorted, ⟨?_, last.sorted, ?_⟩, ?_⟩
    · apply List.pairwise_of_forall_mem_list
      intro a mem b mem'
      rw [tied_key a mem, tied_key b mem']
    · intro a mem b mem'
      rw [tied_key a mem]
      exact le_of_lt (behind_key b mem')
    · intro a mem b mem'
      rcases List.mem_append.mp mem' with tie | later
      · rw [tied_key b tie]
        exact le_of_lt (front_key a mem)
      · exact le_of_lt (lt_trans (front_key a mem) (behind_key b later))

theorem filters_length (rows : List α) (r : α) :
    upto key rows r = before key rows r + (rows.filter fun a => key a = key r).length := by
  rw [upto, before, ← List.countP_eq_length_filter, List.countP_eq_countP_filter_add rows _ fun a =>
    decide (key a < key r)]
  have low : ((rows.filter fun a => decide (key a < key r)).countP fun a => decide (key a ≤ key r)) =
      rows.countP fun a => key a < key r := by
    rw [List.countP_filter]
    apply List.countP_congr
    intro a _
    grind
  have high : ((rows.filter fun a => !decide (key a < key r)).countP fun a => decide (key a ≤ key r)) =
      rows.countP fun a => key a = key r := by
    rw [List.countP_filter]
    apply List.countP_congr
    intro a _
    grind
  rw [low, high]

theorem unsplit_distinct (distinct : (rows.map key).Nodup) : Unsplit key limit rows := by
  intro r mem
  have alone : (rows.filter fun a => key a = key r).length = 1 := by
    have once := List.count_eq_one_of_mem distinct (List.mem_map_of_mem mem)
    rw [List.count, List.countP_map] at once
    rw [← List.countP_eq_length_filter, ← once]
    apply List.countP_congr
    intro a _
    simp
  rw [filters_length, alone, Nat.add_sub_cancel]

theorem page_place {ordered : List α} {offset j : Nat} {x : α} (unique : ordered.Nodup)
    (at_ : ordered[j]? = some x) : x ∈ page limit offset ordered ↔ offset ≤ j ∧ j < offset + limit := by
  have inside := (List.getElem?_eq_some_iff.mp at_).1
  constructor
  · intro mem
    obtain ⟨k, found⟩ := List.mem_iff_getElem?.mp mem
    rw [page, List.getElem?_take] at found
    split at found
    · rw [List.getElem?_drop, ← at_] at found
      have same := (List.getElem?_inj inside unique).mp found.symm
      omega
    · cases found
  · intro bounds
    apply List.mem_iff_getElem?.mpr
    refine ⟨j - offset, ?_⟩
    rw [page, List.getElem?_take, if_pos (by omega), List.getElem?_drop, ← at_]
    congr 1
    omega

/-- Pages that agree but for one of them: where both make up the same rows, so do the two. -/
theorem page_exchanged {orders : Nat → List α} (others : Nat → List α) {p : Nat} (within : p < count)
    (agree : ∀ i, i ≠ p → orders i = others i)
    (same : (fetched limit count orders).Perm (fetched limit count others)) :
    (page limit (p * limit) (orders p)).Perm (page limit (p * limit) (others p)) := by
  obtain ⟨first, last, split⟩ := List.append_of_mem (List.mem_range.mpr within)
  have distinct := List.nodup_range (n := count)
  rw [split, List.nodup_append, List.nodup_cons] at distinct
  obtain ⟨_, ⟨absent, _⟩, apart⟩ := distinct
  have front : (first.flatMap fun i => page limit (i * limit) (orders i)) =
      first.flatMap fun i => page limit (i * limit) (others i) := by
    apply List.flatMap_congr
    intro i mem
    rw [agree i (apart i mem p List.mem_cons_self)]
  have behind : (last.flatMap fun i => page limit (i * limit) (orders i)) =
      last.flatMap fun i => page limit (i * limit) (others i) := by
    apply List.flatMap_congr
    intro i mem
    rw [agree i (fun same => absent (same ▸ mem))]
  rw [fetched, fetched, split, List.flatMap_append, List.flatMap_append, List.flatMap_cons,
    List.flatMap_cons, front, behind, List.perm_append_left_iff, List.perm_append_right_iff] at same
  exact same

/-- Where a page boundary cuts through rows with one key, the first of them may be the last of them
    at the next query: it is returned twice, and another row is not. -/
theorem split_misses (positive : 0 < limit) (unique : rows.Nodup) (enough : rows.length ≤ count * limit)
    {r : α} (mem : r ∈ rows) (cut : before key rows r / limit ≠ (upto key rows r - 1) / limit) :
    ∃ orders : Nat → List α, (∀ i, Arranged key rows (orders i)) ∧
    ¬ (fetched limit count orders).Perm rows := by
  obtain ⟨front, first⟩ := exists_arranged key (rows.filter fun a => key a < key r)
  obtain ⟨behind, last⟩ := exists_arranged key (rows.filter fun a => key r < key a)
  have tied : r ∈ rows.filter fun a => key a = key r := by simp [mem]
  obtain ⟨x, ties, split⟩ := List.exists_cons_of_ne_nil (List.ne_nil_of_mem tied)
  have leads : Arranged key rows (front ++ (x :: ties ++ behind)) :=
    blocks_arranged first (List.Perm.of_eq split.symm) last
  have trails : Arranged key rows (front ++ (ties ++ [x] ++ behind)) :=
    blocks_arranged first (split ▸ List.perm_append_singleton x ties) last
  have start : front.length = before key rows r := by
    rw [first.same.length_eq, before, List.countP_eq_length_filter]
  have stop : upto key rows r = front.length + (ties.length + 1) := by
    rw [filters_length rows r, split, start, List.length_cons]
  have lead_at : (front ++ (x :: ties ++ behind))[front.length]? = some x := by simp
  have trail_at : (front ++ (ties ++ [x] ++ behind))[front.length + ties.length]? = some x := by simp
  have trail_place : (upto key rows r - 1) / limit = (front.length + ties.length) / limit := by
    rw [stop]
    rfl
  rw [trail_place, ← start] at cut
  let p := (front.length + ties.length) / limit
  let orders := fun i => if i = p then front ++ (ties ++ [x] ++ behind) else front ++ (x :: ties ++ behind)
  have arranged : ∀ i, Arranged key rows (orders i) := by
    intro i
    by_cases here : i = p
    · simpa [orders, here] using trails
    · simpa [orders, here] using leads
  refine ⟨orders, arranged, ?_⟩
  intro complete
  have inside : front.length + ties.length < rows.length := by
    rw [← arranged_length trails]
    simp
  have within : p < count := by
    rw [Nat.div_lt_iff_lt_mul positive]
    omega
  have steady : (fetched limit count fun _ => front ++ (x :: ties ++ behind)).Perm rows := by
    rw [fetched_steady, List.take_of_length_le (arranged_length leads ▸ enough)]
    exact leads.same
  have exchanged := page_exchanged (fun _ => front ++ (x :: ties ++ behind)) within
    (fun i other => if_neg other) (complete.trans steady.symm)
  rw [if_pos rfl] at exchanged
  have there : x ∈ page limit (p * limit) (front ++ (ties ++ [x] ++ behind)) :=
    (page_place (trails.same.nodup_iff.mpr unique) trail_at).mpr ((page_of positive).mp rfl)
  have here := (page_place (leads.same.nodup_iff.mpr unique) lead_at).mp (exchanged.mem_iff.mp there)
  exact cut ((page_of positive).mpr here)

theorem fetches_all_iff (positive : 0 < limit) (unique : rows.Nodup)
    (enough : rows.length ≤ count * limit) :
    (∀ orders : Nat → List α, (∀ i, Arranged key rows (orders i)) →
      (fetched limit count orders).Perm rows) ↔
      Unsplit key limit rows := by
  constructor
  · intro complete r mem
    by_contra cut
    obtain ⟨orders, arranged, missing⟩ := split_misses positive unique enough mem cut
    exact missing (complete orders arranged)
  · intro unsplit orders arranged
    exact unsplit_fetches positive enough unsplit arranged

end Pages

end Paging
