import Mathlib.Data.List.Infix

/- Python's `str.replace`: one scan from left to right, in which the occurrences that are
   replaced do not overlap and what replaces them is not scanned again. -/
namespace Replacing

variable {α : Type}

theorem prefix_past {new piece rest : List α} (within : ∀ x ∈ piece, x ∉ new) (filled : new ≠ [])
    (starts : piece <+: new ++ rest) : piece = [] := by
  obtain ⟨n, others, rfl⟩ := List.exists_cons_of_ne_nil filled
  cases piece with
  | nil => rfl
  | cons x piece =>
    have first : x = n := (List.cons_prefix_cons.mp starts).1
    exact absurd (first ▸ List.mem_cons_self) (within x List.mem_cons_self)

theorem infix_past {old new rest brought : List α} (apart : ∀ x ∈ old, x ∉ new)
    (given : ∀ x ∈ brought, x ∈ new) (some_old : old ≠ []) (occurs : old <:+: brought ++ rest) :
    old <:+: rest := by
  induction brought with
  | nil => exact occurs
  | cons n others ih =>
    rcases List.infix_cons_iff.mp occurs with starts | later
    · obtain ⟨x, piece, rfl⟩ := List.exists_cons_of_ne_nil some_old
      have first : x = n := (List.cons_prefix_cons.mp starts).1
      exact absurd (given x (first ▸ List.mem_cons_self)) (apart x List.mem_cons_self)
    · exact ih (fun x mem => given x (List.mem_cons_of_mem n mem)) later

variable [DecidableEq α]

/-- `skip` characters belong to the occurrence that was replaced last. -/
def replaceFrom (old new : List α) : Nat → List α → List α
  | _, [] => []
  | skip + 1, _ :: rest => replaceFrom old new skip rest
  | 0, c :: rest =>
    if old <+: c :: rest then new ++ replaceFrom old new (old.length - 1) rest
    else c :: replaceFrom old new 0 rest

def replace (old new text : List α) : List α := replaceFrom old new 0 text

@[simp] theorem replaceFrom_nil (old new : List α) (skip : Nat) : replaceFrom old new skip [] = [] := by
  cases skip <;> rfl

@[simp] theorem replaceFrom_skip (old new : List α) (skip : Nat) (c : α) (rest : List α) :
    replaceFrom old new (skip + 1) (c :: rest) = replaceFrom old new skip rest := rfl

theorem replaceFrom_here {old new rest : List α} {c : α} (occurs : old <+: c :: rest) :
    replaceFrom old new 0 (c :: rest) = new ++ replaceFrom old new (old.length - 1) rest := by
  rw [replaceFrom, if_pos occurs]

theorem replaceFrom_copy {old new rest : List α} {c : α} (absent : ¬ old <+: c :: rest) :
    replaceFrom old new 0 (c :: rest) = c :: replaceFrom old new 0 rest := by
  rw [replaceFrom, if_neg absent]

theorem mem_replaceFrom {old new text : List α} {skip : Nat} {x : α}
    (mem : x ∈ replaceFrom old new skip text) : x ∈ new ∨ x ∈ text := by
  induction text generalizing skip with
  | nil => simp at mem
  | cons c rest ih =>
    cases skip with
    | succ skip => exact (ih mem).imp_right (List.mem_cons_of_mem c)
    | zero =>
      by_cases occurs : old <+: c :: rest
      · rw [replaceFrom_here occurs] at mem
        rcases List.mem_append.mp mem with brought | later
        · exact Or.inl brought
        · exact (ih later).imp_right (List.mem_cons_of_mem c)
      · rw [replaceFrom_copy occurs] at mem
        rcases List.mem_cons.mp mem with here | later
        · exact Or.inr (here ▸ List.mem_cons_self)
        · exact (ih later).imp_right (List.mem_cons_of_mem c)

/-- A piece that shares nothing with `new` starts the result only where it starts the text: up to
    its end the scan has copied. -/
theorem starts_text {old new piece text : List α} (within : ∀ x ∈ piece, x ∉ new) (filled : new ≠ [])
    (starts : piece <+: replaceFrom old new 0 text) : piece <+: text := by
  induction text generalizing piece with
  | nil => exact starts
  | cons c rest ih =>
    by_cases occurs : old <+: c :: rest
    · rw [replaceFrom_here occurs] at starts
      rw [prefix_past within filled starts]
      exact List.nil_prefix
    · rw [replaceFrom_copy occurs] at starts
      cases piece with
      | nil => exact List.nil_prefix
      | cons x piece =>
        obtain ⟨same, others⟩ := List.cons_prefix_cons.mp starts
        have later := ih (fun y mem => within y (List.mem_cons_of_mem x mem)) others
        exact List.cons_prefix_cons.mpr ⟨same, later⟩

/-- Where `new` shares no character with `old`, the scan leaves no occurrence of `old` and makes
    none: one in the result would lie between two replacements, where the text was copied. -/
theorem replaceFrom_leaves_none {old new : List α} (apart : ∀ x ∈ old, x ∉ new) (some_old : old ≠ [])
    (filled : new ≠ []) (skip : Nat) (text : List α) : ¬ old <:+: replaceFrom old new skip text := by
  induction text generalizing skip with
  | nil =>
    rw [replaceFrom_nil]
    exact fun occurs => some_old (List.infix_nil.mp occurs)
  | cons c rest ih =>
    cases skip with
    | succ skip => exact ih skip
    | zero =>
      by_cases found : old <+: c :: rest
      · rw [replaceFrom_here found]
        exact fun occurs => ih _ (infix_past apart (fun _ mem => mem) some_old occurs)
      · intro occurs
        have copied := occurs
        rw [replaceFrom_copy found] at copied
        rcases List.infix_cons_iff.mp copied with starts | later
        · rw [← replaceFrom_copy found] at starts
          exact found (starts_text apart filled starts)
        · exact ih 0 later

theorem replace_leaves_none {old new : List α} (apart : ∀ x ∈ old, x ∉ new) (some_old : old ≠ [])
    (filled : new ≠ []) (text : List α) : ¬ old <:+: replace old new text :=
  replaceFrom_leaves_none apart some_old filled 0 text

end Replacing
