import Mathlib.Algebra.BigOperators.Group.List.Basic
import Mathlib.Data.List.Nodup
import Mathlib.Data.List.Pairwise
import Mathlib.Tactic.Abel

/- One relation of a database: rows under a primary key, together with the
   unique constraints that no two rows may break. A table carries the proof
   that its rows respect them, so insertion and edits never have to. -/
namespace KeyedTable

/-- `clash` says that two rows cannot both be stored. Rows with one primary key clash. -/
class Keyed (ρ : Type) (κ : outParam Type) where
  key : ρ → κ
  clash : ρ → ρ → Bool
  clash_symm : ∀ a b, clash a b = clash b a
  clash_of_key : ∀ a b, key a = key b → clash a b = true

export Keyed (key clash)

structure Table (ρ : Type) {κ : Type} [Keyed ρ κ] where
  rows : List ρ
  unique : rows.Pairwise (fun a b => clash a b = false)

variable {ρ κ : Type} [Keyed ρ κ]

structure Edit (ρ : Type) {κ : Type} [Keyed ρ κ] where
  on : ρ → ρ
  keeps_key : ∀ a, key (on a) = key a
  keeps_clash : ∀ a b, clash (on a) b = clash a b

def Table.empty : Table ρ := ⟨[], List.Pairwise.nil⟩

theorem rows_nodup (t : Table ρ) : t.rows.Nodup := by
  apply t.unique.imp
  intro a b apart same
  rw [same, Keyed.clash_of_key b b rfl] at apart
  cases apart

def Table.admits (t : Table ρ) (r : ρ) : Bool := t.rows.all (fun a => !clash a r)

theorem admits_iff {t : Table ρ} {r : ρ} :
    t.admits r = true ↔ ∀ a ∈ t.rows, clash a r = false := by
  simp [Table.admits]

/-- A row that clashes with a stored one leaves the table as it was. -/
def Table.insert (t : Table ρ) (r : ρ) : Table ρ :=
  if free : t.admits r = true then
    ⟨t.rows ++ [r], by
      rw [List.pairwise_append]
      refine ⟨t.unique, List.pairwise_singleton _ _, ?_⟩
      intro a ha b hb
      rw [List.mem_singleton.mp hb]
      exact admits_iff.mp free a ha⟩
  else t

theorem insert_rows {t : Table ρ} {r : ρ} (free : t.admits r = true) :
    (t.insert r).rows = t.rows ++ [r] := by
  simp [Table.insert, free]

theorem insert_refused {t : Table ρ} {r : ρ} (taken : t.admits r = false) :
    t.insert r = t := by
  simp [Table.insert, taken]

theorem same_row_of_clash {t : Table ρ} {a b : ρ} (ha : a ∈ t.rows) (hb : b ∈ t.rows)
    (h : clash a b = true) : a = b := by
  by_contra ne
  have : Std.Symm (fun a b : ρ => clash a b = false) := by
    refine ⟨fun x y hxy => ?_⟩
    rw [Keyed.clash_symm]
    exact hxy
  have apart := t.unique.forall ha hb ne
  simp [h] at apart

/-- A change of rows that may touch constrained columns. Where it would break a constraint the
    table stays as it was. -/
def Table.revise (t : Table ρ) (f : ρ → ρ) : Table ρ :=
  if fits : (t.rows.map f).Pairwise (fun a b => clash a b = false) then ⟨t.rows.map f, fits⟩ else t

def Table.allows (t : Table ρ) (f : ρ → ρ) : Bool :=
  decide ((t.rows.map f).Pairwise (fun a b => clash a b = false))

theorem revise_rows {t : Table ρ} {f : ρ → ρ} (fits : t.allows f = true) :
    (t.revise f).rows = t.rows.map f := by
  have pairwise := of_decide_eq_true fits
  simp [Table.revise, pairwise]

theorem revise_refused {t : Table ρ} {f : ρ → ρ} (broken : t.allows f = false) : t.revise f = t := by
  have clashes := of_decide_eq_false broken
  simp [Table.revise, clashes]

theorem allows_iff {t : Table ρ} {f : ρ → ρ} :
    t.allows f = true ↔ ∀ a ∈ t.rows, ∀ b ∈ t.rows, a ≠ b → clash (f a) (f b) = false := by
  have symmetric : Std.Symm (fun a b : ρ => clash (f a) (f b) = false) := by
    refine ⟨fun x y apart => ?_⟩
    rw [Keyed.clash_symm]
    exact apart
  unfold Table.allows
  rw [decide_eq_true_iff, List.pairwise_map]
  constructor
  · intro apart a memA b memB ne
    exact apart.forall memA memB ne
  · exact List.Nodup.pairwise_of_forall_ne (rows_nodup t)

theorem any_revise {t : Table ρ} {f : ρ → ρ} {p : ρ → Bool} (keeps : ∀ r ∈ t.rows, p (f r) = p r) :
    (t.revise f).rows.any p = t.rows.any p := by
  cases fits : t.allows f with
  | true =>
    rw [revise_rows fits, Bool.eq_iff_iff]
    simp only [List.any_map, List.any_eq_true, Function.comp_apply]
    constructor
    · intro ⟨r, mem, holds⟩
      exact ⟨r, mem, by rw [← keeps r mem]; exact holds⟩
    · intro ⟨r, mem, holds⟩
      exact ⟨r, mem, by rw [keeps r mem]; exact holds⟩
  | false => rw [revise_refused fits]

theorem kept_revise {t : Table ρ} {f : ρ → ρ} {r : ρ} (mem : r ∈ t.rows) :
    r ∈ (t.revise f).rows ∨ f r ∈ (t.revise f).rows := by
  cases fits : t.allows f with
  | true =>
    rw [revise_rows fits]
    exact .inr (List.mem_map_of_mem mem)
  | false =>
    rw [revise_refused fits]
    exact .inl mem

section
variable [DecidableEq κ]

def Table.find? (t : Table ρ) (k : κ) : Option ρ := t.rows.find? (fun r => key r = k)

def editAt (k : κ) (e : Edit ρ) (r : ρ) : ρ := if key r = k then e.on r else r

theorem editAt_key (k : κ) (e : Edit ρ) (r : ρ) : key (editAt k e r) = key r := by
  unfold editAt
  split
  · exact e.keeps_key r
  · rfl

theorem editAt_clash (k : κ) (e : Edit ρ) (a b : ρ) :
    clash (editAt k e a) (editAt k e b) = clash a b := by
  have left : ∀ a b, clash (editAt k e a) b = clash a b := by
    intro a b
    unfold editAt
    split
    · exact e.keeps_clash a b
    · rfl
  rw [left, Keyed.clash_symm, left, Keyed.clash_symm]

def Table.update (t : Table ρ) (k : κ) (e : Edit ρ) : Table ρ :=
  ⟨t.rows.map (editAt k e), by
    rw [List.pairwise_map]
    exact t.unique.imp (by intro a b h; rw [editAt_clash]; exact h)⟩

@[simp] theorem update_rows (t : Table ρ) (k : κ) (e : Edit ρ) :
    (t.update k e).rows = t.rows.map (editAt k e) := rfl

theorem find?_some_iff {t : Table ρ} {k : κ} {r : ρ} :
    t.find? k = some r ↔ r ∈ t.rows ∧ key r = k := by
  constructor
  · intro h
    exact ⟨List.mem_of_find?_eq_some h, by simpa using List.find?_some h⟩
  · rintro ⟨mem, hk⟩
    cases found : t.find? k with
    | none =>
      have := List.find?_eq_none.mp found r mem
      simp [hk] at this
    | some a =>
      have ha : a ∈ t.rows := List.mem_of_find?_eq_some found
      have hka : key a = k := by simpa using List.find?_some found
      rw [same_row_of_clash ha mem (Keyed.clash_of_key a r (hka.trans hk.symm))]

theorem find?_none_iff {t : Table ρ} {k : κ} :
    t.find? k = none ↔ ∀ r ∈ t.rows, key r ≠ k := by
  simp [Table.find?, List.find?_eq_none]

theorem admits_key_free {t : Table ρ} {r : ρ} (free : t.admits r = true) :
    t.find? (key r) = none := by
  rw [find?_none_iff]
  intro a ha same
  have := admits_iff.mp free a ha
  simp [Keyed.clash_of_key a r same] at this

theorem find?_insert {t : Table ρ} {r : ρ} (free : t.admits r = true) (k : κ) :
    (t.insert r).find? k = if key r = k then some r else t.find? k := by
  have absent := admits_key_free free
  simp only [Table.find?, insert_rows free, List.find?_append, List.find?_cons, List.find?_nil]
  by_cases same : key r = k
  · subst same
    simp only [Table.find?] at absent
    simp [absent]
  · simp [same]

theorem find?_insert_other {t : Table ρ} {r : ρ} {k : κ} (other : key r ≠ k) :
    (t.insert r).find? k = t.find? k := by
  cases free : t.admits r with
  | true => rw [find?_insert free, if_neg other]
  | false => rw [insert_refused free]

theorem find?_update (t : Table ρ) (j k : κ) (e : Edit ρ) :
    (t.update j e).find? k = if j = k then (t.find? k).map e.on else t.find? k := by
  simp only [Table.find?, update_rows, List.find?_map]
  have same : (fun r => decide (key r = k)) ∘ editAt j e = fun r => decide (key r = k) := by
    funext r; simp [editAt_key]
  rw [same]
  cases found : t.rows.find? (fun r => decide (key r = k)) with
  | none => simp
  | some r =>
    have hk : key r = k := by simpa using List.find?_some found
    split
    · rename_i eq; simp [editAt, hk, eq]
    · rename_i ne; simp [editAt, hk, Ne.symm ne]

/-- A row outlives every change, up to the change. -/
theorem kept_update {t : Table ρ} {k : κ} {e : Edit ρ} {r : ρ} (mem : r ∈ t.rows) :
    editAt k e r ∈ (t.update k e).rows :=
  List.mem_map_of_mem mem

theorem find?_revise_other {t : Table ρ} {f : ρ → ρ} {k : κ} (keeps : ∀ r, key (f r) = key r)
    (spares : ∀ r, key r = k → f r = r) : (t.revise f).find? k = t.find? k := by
  cases fits : t.allows f with
  | false => rw [revise_refused fits]
  | true =>
    simp only [Table.find?, revise_rows fits, List.find?_map]
    have same : (fun r => decide (key r = k)) ∘ f = fun r => decide (key r = k) := by
      funext r
      simp [keeps]
    rw [same]
    cases found : t.rows.find? (fun r => decide (key r = k)) with
    | none => rfl
    | some r =>
      have own : key r = k := by simpa using List.find?_some found
      rw [Option.map_some, spares r own]

theorem find?_any {s t : Table ρ} {k : κ} (same : s.find? k = t.find? k) :
    s.rows.any (fun r => key r = k) = t.rows.any (fun r => key r = k) := by
  rw [← List.isSome_find?, ← List.isSome_find?]
  exact congrArg Option.isSome same

theorem find?_update_other {t : Table ρ} {j k : κ} {e : Edit ρ} (other : j ≠ k) :
    (t.update j e).find? k = t.find? k := by
  rw [find?_update, if_neg other]

theorem mem_update {t : Table ρ} {k : κ} {e : Edit ρ} {r : ρ} (h : r ∈ (t.update k e).rows) :
    ∃ a ∈ t.rows, r = editAt k e a := by
  obtain ⟨a, ha, same⟩ := List.mem_map.mp h
  exact ⟨a, ha, same.symm⟩

theorem map_edit_absent {rows : List ρ} {k : κ} {e : Edit ρ} (absent : ∀ r ∈ rows, key r ≠ k) :
    rows.map (editAt k e) = rows := by
  have fixed : ∀ r ∈ rows, editAt k e r = id r := by
    intro r hr
    simp [editAt, absent r hr]
  rw [List.map_congr_left fixed, List.map_id]

theorem any_update (t : Table ρ) (k : κ) (e : Edit ρ) (p : ρ → Bool)
    (blind : ∀ a, p (e.on a) = p a) : (t.update k e).rows.any p = t.rows.any p := by
  simp only [update_rows, List.any_map]
  congr 1
  funext a
  simp only [Function.comp_apply, editAt]
  split
  · exact blind a
  · rfl

omit [DecidableEq κ] in
theorem keys_nodup (t : Table ρ) : (t.rows.map (fun r => key r)).Nodup := by
  rw [List.Nodup, List.pairwise_map]
  apply t.unique.imp
  intro a b apart same
  simp [Keyed.clash_of_key a b same] at apart

omit [DecidableEq κ] in
theorem insert_back {t : Table ρ} {r a : ρ} (mem : a ∈ (t.insert r).rows) : a ∈ t.rows ∨ a = r := by
  cases free : t.admits r with
  | false =>
    rw [insert_refused free] at mem
    exact .inl mem
  | true => simpa [insert_rows free] using mem

omit [DecidableEq κ] in
theorem revise_back {t : Table ρ} {f : ρ → ρ} {a : ρ} (mem : a ∈ (t.revise f).rows) :
    a ∈ t.rows ∨ ∃ r ∈ t.rows, a = f r := by
  cases fits : t.allows f with
  | false =>
    rw [revise_refused fits] at mem
    exact .inl mem
  | true =>
    rw [revise_rows fits] at mem
    obtain ⟨r, old, same⟩ := List.mem_map.mp mem
    exact .inr ⟨r, old, same.symm⟩

omit [DecidableEq κ] in
theorem filter_insert {t : Table ρ} {r : ρ} {p : ρ → Bool} (other : p r = false) :
    (t.insert r).rows.filter p = t.rows.filter p := by
  cases free : t.admits r with
  | false => rw [insert_refused free]
  | true => simp [insert_rows free, other]

theorem filter_update_other (t : Table ρ) {k : κ} {e : Edit ρ} {p : ρ → Bool}
    (keeps : ∀ a, p (e.on a) = p a)
    (other : ∀ r ∈ t.rows, key r = k → p r = false) : (t.update k e).rows.filter p = t.rows.filter p := by
  rw [update_rows]
  generalize t.rows = rows at other
  induction rows with
  | nil => rfl
  | cons a rest ih =>
    have later := ih (fun r mem own => other r (List.mem_cons_of_mem a mem) own)
    by_cases mine : key a = k
    · have outside := other a List.mem_cons_self mine
      simp [editAt, mine, keeps, outside, later]
    · cases picked : p a <;> simp [editAt, mine, picked, later]

theorem filter_update_blind {β : Type} (t : Table ρ) (k : κ) {e : Edit ρ} {p : ρ → Bool} {g : ρ → β}
    (keeps : ∀ a, p (e.on a) = p a) (blind : ∀ a, g (e.on a) = g a) :
    ((t.update k e).rows.filter p).map g = (t.rows.filter p).map g := by
  rw [update_rows]
  induction t.rows with
  | nil => rfl
  | cons a rest ih =>
    by_cases mine : key a = k
    · cases picked : p a <;> simp [editAt, mine, keeps, picked, blind, ih]
    · cases picked : p a <;> simp [editAt, mine, picked, ih]

theorem filter_update (t : Table ρ) (k : κ) (e : Edit ρ) {p : ρ → Bool} (gone : ∀ a, p (e.on a) = false) :
    (t.update k e).rows.filter p = t.rows.filter (fun a => p a && decide (key a ≠ k)) := by
  rw [update_rows]
  induction t.rows with
  | nil => rfl
  | cons a rest ih =>
    by_cases mine : key a = k
    · simp [editAt, mine, gone, ih]
    · cases picked : p a <;> simp [editAt, mine, picked, ih]

theorem admits_update (t : Table ρ) (k : κ) (e : Edit ρ) (r : ρ) :
    (t.update k e).admits r = t.admits r := by
  simp only [Table.admits, update_rows, List.all_map]
  congr 1
  funext a
  simp only [Function.comp_apply, editAt]
  split
  · rw [e.keeps_clash]
  · rfl

omit [DecidableEq κ] in
theorem sum_le_filter {f g : ρ → Int} {p : ρ → Bool} {rows : List ρ}
    (less : ∀ a ∈ rows, f a ≤ if p a then g a else 0) :
    (rows.map f).sum ≤ ((rows.filter p).map g).sum := by
  induction rows with
  | nil => simp
  | cons a rows ih =>
    have head := less a (by simp)
    have tail := ih (fun b mem => less b (by simp [mem]))
    by_cases picked : p a = true
    · simp only [picked, if_true, List.filter_cons_of_pos, List.map_cons, List.sum_cons] at head ⊢
      omega
    · simp only [picked] at head
      rw [List.filter_cons_of_neg picked, List.map_cons, List.sum_cons]
      simp only [Bool.false_eq_true, if_false] at head
      omega

end

section
variable {M : Type} [AddCommGroup M]

def Table.total (t : Table ρ) (f : ρ → M) : M := (t.rows.map f).sum

theorem total_insert {t : Table ρ} {r : ρ} (free : t.admits r = true) (f : ρ → M) :
    (t.insert r).total f = t.total f + f r := by
  have := insert_rows (t := t) (r := r) free
  simp [Table.total, this]

end

section
variable {M : Type} [AddCommGroup M] [DecidableEq κ]

theorem sum_edit {rows : List ρ} (unique : rows.Pairwise (fun a b => clash a b = false))
    {k : κ} {e : Edit ρ} {r : ρ} (f : ρ → M) (mem : r ∈ rows) (hk : key r = k) :
    ((rows.map (editAt k e)).map f).sum = (rows.map f).sum - f r + f (e.on r) := by
  induction rows with
  | nil => simp at mem
  | cons a rest ih =>
    obtain ⟨first, tail⟩ := List.pairwise_cons.mp unique
    rcases List.mem_cons.mp mem with same | later
    · subst same
      have absent : ∀ b ∈ rest, key b ≠ k := by
        intro b hb same
        have := first b hb
        simp [Keyed.clash_of_key r b (hk.trans same.symm)] at this
      simp only [List.map_cons, map_edit_absent absent, editAt, hk, if_true, List.sum_cons]
      abel
    · have other : key a ≠ k := by
        intro same
        have := first r later
        simp [Keyed.clash_of_key a r (same.trans hk.symm)] at this
      have fixed : editAt k e a = a := by simp [editAt, other]
      simp only [List.map_cons, List.sum_cons, ih tail later, fixed]
      abel

theorem total_update {t : Table ρ} {k : κ} {e : Edit ρ} {r : ρ} (f : ρ → M)
    (found : t.find? k = some r) : (t.update k e).total f = t.total f - f r + f (e.on r) := by
  obtain ⟨mem, hk⟩ := find?_some_iff.mp found
  exact sum_edit t.unique f mem hk

theorem sum_at {rows : List ρ} (unique : rows.Pairwise (fun a b => clash a b = false)) (k : κ) (f : ρ → M) :
    (rows.map (fun r => if key r = k then f r else 0)).sum =
      ((rows.find? (fun r => key r = k)).map f).getD 0 := by
  induction rows with
  | nil => rfl
  | cons a rest ih =>
    obtain ⟨first, tail⟩ := List.pairwise_cons.mp unique
    by_cases mine : key a = k
    · have others : ∀ x ∈ rest.map (fun r => if key r = k then f r else 0), x = 0 := by
        intro x mem
        obtain ⟨b, inside, rfl⟩ := List.mem_map.mp mem
        apply if_neg
        intro same
        have apart := first b inside
        simp [Keyed.clash_of_key a b (mine.trans same.symm)] at apart
      simp [mine, List.sum_eq_zero others]
    · simp [mine, ih tail]

theorem total_at (t : Table ρ) (k : κ) (f : ρ → M) :
    t.total (fun r => if key r = k then f r else 0) = ((t.find? k).map f).getD 0 := by
  exact sum_at t.unique k f

end

section
variable [DecidableEq κ]

/-- Row `a` under key `k` has become `b`; the rest of the table is as it was. -/
structure Replaced (k : κ) (a b : ρ) (t u : Table ρ) : Prop where
  before : t.find? k = some a
  after : u.find? k = some b
  others : ∀ j, j ≠ k → u.find? j = t.find? j
  total : ∀ f : ρ → Int, u.total f = t.total f - f a + f b

theorem replaced_update {t : Table ρ} {k : κ} {a : ρ} (found : t.find? k = some a) (e : Edit ρ) :
    Replaced k a (e.on a) t (t.update k e) where
  before := found
  after := by
    rw [find?_update, if_pos rfl, found]
    rfl
  others _ other := find?_update_other (Ne.symm other)
  total f := total_update f found

theorem replaced_trans {t u v : Table ρ} {k : κ} {a b c : ρ} (left : Replaced k a b t u)
    (right : Replaced k b c u v) : Replaced k a c t v where
  before := left.before
  after := right.after
  others j other := (right.others j other).trans (left.others j other)
  total f := by
    rw [right.total, left.total]
    omega

end

/-- Whether a row is admitted hangs on tests of the table that together find every clash with it. -/
theorem admits_carried {s t : Table ρ} {r : ρ}
    (tests : ∀ a, clash a r = true → ∃ p : ρ → Bool, p a = true ∧
      (∀ b, p b = true → clash b r = true) ∧ s.rows.any p = t.rows.any p)
    (free : s.admits r = true) : t.admits r = true := by
  rw [admits_iff] at free ⊢
  intro a mem
  by_contra clashes
  obtain ⟨p, picked, only, same⟩ := tests a (by simpa using clashes)
  have taken : s.rows.any p = true := by
    rw [same]
    exact List.any_eq_true.mpr ⟨a, mem, picked⟩
  obtain ⟨b, there, own⟩ := List.any_eq_true.mp taken
  have apart := free b there
  rw [only b own] at apart
  cases apart

theorem filter_unique {t : Table ρ} {p : ρ → Bool} {r : ρ} (mem : r ∈ t.rows) (picked : p r = true)
    (only : ∀ a ∈ t.rows, p a = true → clash a r = true) : t.rows.filter p = [r] := by
  obtain ⟨rows, unique⟩ := t
  induction rows with
  | nil => simp at mem
  | cons a rest ih =>
    obtain ⟨first, tail⟩ := List.pairwise_cons.mp unique
    rcases List.mem_cons.mp mem with same | later
    · subst same
      have none_left : rest.filter p = [] := by
        rw [List.filter_eq_nil_iff]
        intro b hb pb
        have apart := first b hb
        rw [Keyed.clash_symm, only b (by simp [hb]) pb] at apart
        cases apart
      simp [picked, none_left]
    · have skip : p a = false := by
        by_contra pa
        have apart := first r later
        rw [only a (by simp) (by simpa using pa)] at apart
        cases apart
      have rest_only := ih tail later (fun b hb => only b (by simp [hb]))
      simpa [skip] using rest_only

theorem find?_both {t : Table ρ} {p q : ρ → Bool}
    (only : ∀ a ∈ t.rows, ∀ b ∈ t.rows, p a = true → p b = true → clash a b = true) :
    (t.rows.find? p).filter q = t.rows.find? (fun a => p a && q a) := by
  rw [← List.head?_filter, ← List.head?_filter]
  have both : t.rows.filter (fun a => p a && q a) = (t.rows.filter p).filter q := by
    rw [List.filter_filter]
    apply List.filter_congr
    intro a _
    exact Bool.and_comm _ _
  rw [both]
  cases found : t.rows.filter p with
  | nil => rfl
  | cons a rest =>
    have listed : a ∈ t.rows.filter p := by simp [found]
    obtain ⟨mem, picked⟩ := List.mem_filter.mp listed
    have alone := filter_unique mem picked (fun b row other => only b row a mem other picked)
    rw [found] at alone
    rw [alone]
    cases passes : q a <;> simp [passes]

end KeyedTable
