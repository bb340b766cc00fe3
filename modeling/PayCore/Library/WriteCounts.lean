import PayCore.Library.SessionSteps

/- How often a session may commit a write of some kind, and which writes it may commit at all. -/
namespace WriteCounts
open SessionProgram SessionSystem SessionSteps

variable {σ μ ω κ ε ρ χ α β ι : Type} {P : ω → Bool}

/-- On every path through the program at most `n` writes meet `P`. -/
def AtMost (P : ω → Bool) : Nat → Prog σ μ ω κ ε ρ χ α → Prop
  | _, .ret _ => True
  | _, .raise _ => True
  | n, .stmt _ writes _ next fault =>
      (∀ s m, ∃ left, (writes s m).countP P + left ≤ n ∧ AtMost P left (next s m)) ∧ AtMost P n fault
  | n, .call _ next fault => (∀ r, AtMost P n (next r)) ∧ AtMost P n fault
  | n, .commit next fault => AtMost P n next ∧ AtMost P n fault
  | n, .rollback next => AtMost P n next

theorem atMost_more {n m : Nat} {p : Prog σ μ ω κ ε ρ χ α} (le : n ≤ m) (few : AtMost P n p) :
    AtMost P m p := by
  induction p generalizing n m with
  | ret a => trivial
  | raise x => trivial
  | stmt rows writes memo next fault _ ihf =>
    refine ⟨?_, ihf le few.2⟩
    intro s memory
    obtain ⟨left, within, onward⟩ := few.1 s memory
    exact ⟨left, by omega, onward⟩
  | call request next fault ihn ihf => exact ⟨fun r => ihn r le (few.1 r), ihf le few.2⟩
  | commit next fault ihn ihf => exact ⟨ihn le few.1, ihf le few.2⟩
  | rollback next ih => exact ih le few

theorem atMost_seq {n m : Nat} {p : Prog σ μ ω κ ε ρ χ α} {f : α → Prog σ μ ω κ ε ρ χ β}
    (first : AtMost P n p) (rest : ∀ a, AtMost P m (f a)) : AtMost P (n + m) (p >>= f) := by
  change AtMost P (n + m) (p.bind f)
  induction p generalizing n with
  | ret a => exact atMost_more (Nat.le_add_left m n) (rest a)
  | raise x => trivial
  | stmt rows writes memo next fault ihn ihf =>
    refine ⟨?_, ihf first.2⟩
    intro s memory
    obtain ⟨left, within, onward⟩ := first.1 s memory
    exact ⟨left + m, by omega, ihn s memory onward⟩
  | call request next fault ihn ihf => exact ⟨fun r => ihn r (first.1 r), ihf first.2⟩
  | commit next fault ihn ihf => exact ⟨ihn first.1, ihf first.2⟩
  | rollback next ih => exact ih first

theorem atMost_none {p : Prog σ μ ω κ ε ρ χ α} (others : Emits (fun w => P w = false) p) :
    AtMost P 0 p := by
  induction p with
  | ret a => trivial
  | raise x => trivial
  | stmt rows writes memo next fault ihn ihf =>
    refine ⟨?_, ihf others.2⟩
    intro s memory
    have none : (writes s memory).countP P = 0 :=
      List.countP_eq_zero.mpr fun w mem => by simp [(others.1 s memory).1 w mem]
    exact ⟨0, by omega, ihn s memory (others.1 s memory).2⟩
  | call request next fault ihn ihf => exact ⟨fun r => ihn r (others.1 r), ihf others.2⟩
  | commit next fault ihn ihf => exact ⟨ihn others.1, ihf others.2⟩
  | rollback next ih => exact ih others

theorem atMost_before {n : Nat} {p : Prog σ μ ω κ ε ρ χ α} {f : α → Prog σ μ ω κ ε ρ χ β}
    (others : Emits (fun w => P w = false) p) (rest : ∀ a, AtMost P n (f a)) : AtMost P n (p >>= f) := by
  have whole := atMost_seq (atMost_none others) rest
  rwa [Nat.zero_add] at whole

theorem only_one {l : List α} {p : α → Bool} (few : l.countP p ≤ 1) {a b : α} (memA : a ∈ l)
    (memB : b ∈ l) (picksA : p a = true) (picksB : p b = true) : a = b := by
  induction l with
  | nil => cases memA
  | cons c l ih =>
    have none : p c = true → ∀ d ∈ l, ¬ p d = true := by
      intro picksC
      rw [List.countP_cons_of_pos picksC] at few
      exact List.countP_eq_zero.mp (by omega)
    rcases List.mem_cons.mp memA with rfl | laterA
    · rcases List.mem_cons.mp memB with rfl | laterB
      · rfl
      · exact absurd picksB (none picksA b laterB)
    · rcases List.mem_cons.mp memB with rfl | laterB
      · exact absurd picksA (none picksB a laterA)
      · apply ih _ laterA laterB
        rw [List.countP_cons] at few
        omega

section Runs

def entries (log : List (ι × List ω)) : List (ι × ω) :=
  log.flatMap fun commit => commit.2.map fun w => (commit.1, w)

@[simp] theorem entries_nil : entries ([] : List (ι × List ω)) = [] := rfl

@[simp] theorem entries_commit (log : List (ι × List ω)) (i : ι) (ws : List ω) :
    entries (log ++ [(i, ws)]) = entries log ++ ws.map fun w => (i, w) := by
  simp [entries]

def spent [DecidableEq ι] (P : ω → Bool) (i : ι) (log : List (ι × List ω)) : Nat :=
  (entries log).countP fun entry => entry.1 = i && P entry.2

theorem spent_mine [DecidableEq ι] (i : ι) (log : List (ι × List ω)) (ws : List ω) :
    spent P i (log ++ [(i, ws)]) = spent P i log + ws.countP P := by
  simp [spent, List.countP_map, Function.comp_def]

theorem spent_other [DecidableEq ι] {i j : ι} (other : j ≠ i) (log : List (ι × List ω)) (ws : List ω) :
    spent P i (log ++ [(j, ws)]) = spent P i log := by
  simp [spent, List.countP_map, Function.comp_def, other]

variable [DecidableEq ι]

/-- What the session has committed and written, with what it may still write, is within `n`. -/
def Within (P : ω → Bool) (n : Nat) (i : ι) (S : System ι σ μ ω κ ε ρ χ α) : Prop :=
  ∃ left, spent P i S.log + (S.session i).pending.countP P + left ≤ n ∧ AtMost P left (S.session i).prog

structure Vouched (P : ι → ω → Prop) (S : System ι σ μ ω κ ε ρ χ α) : Prop where
  emits : ∀ i, Emits (P i) (S.session i).prog
  pending : ∀ i, ∀ w ∈ (S.session i).pending, P i w
  log : ∀ entry ∈ entries S.log, P entry.1 entry.2

variable [Store ω σ κ] [Inhabited μ] {S T : System ι σ μ ω κ ε ρ χ α}

theorem within_step {n : Nat} {i j : ι} {k : Kind ρ} {committed : Option (List ω)}
    (stepped : Stepped j k S T committed)
    (within : Within P n i S) : Within P n i T := by
  obtain ⟨left, le, few⟩ := within
  by_cases mine : j = i
  · subst mine
    have goes := stepped.goes
    generalize after : T.session j = s at goes
    generalize heldBy T j = held at goes
    unfold Within
    rw [stepped.log, after]
    cases goes with
    | stmt prog ready =>
      rw [prog] at few
      obtain ⟨rest, enough, onward⟩ := few.1 (applyAll (S.session j).pending S.db) (S.session j).memory
      refine ⟨rest, ?_, onward⟩
      simp only [Option.toList_none, List.map_nil, List.append_nil, List.countP_append]
      omega
    | stmtFault prog =>
      rw [prog] at few
      refine ⟨left, ?_, few.2⟩
      simp only [Option.toList_none, List.map_nil, List.append_nil, List.countP_nil]
      omega
    | reply r prog =>
      rw [prog] at few
      refine ⟨left, ?_, few.1 r⟩
      simp only [Option.toList_none, List.map_nil, List.append_nil]
      exact le
    | unanswered prog =>
      rw [prog] at few
      refine ⟨left, ?_, few.2⟩
      simp only [Option.toList_none, List.map_nil, List.append_nil]
      exact le
    | commit prog ready =>
      rw [prog] at few
      refine ⟨left, ?_, few.1⟩
      simp only [Option.toList_some, List.map_cons, List.map_nil, spent_mine, List.countP_nil]
      omega
    | commitFault prog =>
      rw [prog] at few
      refine ⟨left, ?_, few.2⟩
      simp only [Option.toList_none, List.map_nil, List.append_nil, List.countP_nil]
      omega
    | rollback prog =>
      rw [prog] at few
      refine ⟨left, ?_, few⟩
      simp only [Option.toList_none, List.map_nil, List.append_nil, List.countP_nil]
      omega
    | close ended =>
      refine ⟨left, ?_, few⟩
      simp only [Option.toList_none, List.map_nil, List.append_nil, List.countP_nil]
      omega
  · refine ⟨left, ?_, ?_⟩
    · rw [stepped.log, stepped.others i (Ne.symm mine)]
      cases committed with
      | none => simpa using le
      | some ws => simpa [spent_other mine] using le
    · rw [stepped.others i (Ne.symm mine)]
      exact few

theorem vouched_step {P : ι → ω → Prop} {j : ι} {k : Kind ρ} {committed : Option (List ω)}
    (stepped : Stepped j k S T committed)
    (vouched : Vouched P S) : Vouched P T := by
  have emits := vouched.emits j
  have pending := vouched.pending j
  have mine : (Emits (P j) (T.session j).prog ∧ ∀ w ∈ (T.session j).pending, P j w) ∧
      ∀ ws ∈ committed, ∀ w ∈ ws, P j w := by
    have goes := stepped.goes
    generalize T.session j = s at goes
    generalize heldBy T j = held at goes
    cases goes with
    | stmt prog ready =>
      rw [prog] at emits
      obtain ⟨allowed, onward⟩ := emits.1 (applyAll (S.session j).pending S.db) (S.session j).memory
      refine ⟨⟨onward, ?_⟩, by simp⟩
      intro w mem
      exact (List.mem_append.mp mem).elim (pending w) (allowed w)
    | stmtFault prog =>
      rw [prog] at emits
      exact ⟨⟨emits.2, by simp⟩, by simp⟩
    | reply r prog =>
      rw [prog] at emits
      exact ⟨⟨emits.1 r, pending⟩, by simp⟩
    | unanswered prog =>
      rw [prog] at emits
      exact ⟨⟨emits.2, pending⟩, by simp⟩
    | commit prog ready =>
      rw [prog] at emits
      exact ⟨⟨emits.1, by simp⟩, by simpa using pending⟩
    | commitFault prog =>
      rw [prog] at emits
      exact ⟨⟨emits.2, by simp⟩, by simp⟩
    | rollback prog =>
      rw [prog] at emits
      exact ⟨⟨emits, by simp⟩, by simp⟩
    | close ended => exact ⟨⟨emits, by simp⟩, by simp⟩
  constructor
  · intro i
    by_cases self : i = j
    · exact self ▸ mine.1.1
    · exact stepped.others i self ▸ vouched.emits i
  · intro i
    by_cases self : i = j
    · exact self ▸ mine.1.2
    · exact stepped.others i self ▸ vouched.pending i
  · intro entry mem
    rw [stepped.log] at mem
    cases committed with
    | none => exact vouched.log entry (by simpa using mem)
    | some ws =>
      rcases List.mem_append.mp (entries_commit S.log j ws ▸ mem) with earlier | now
      · exact vouched.log entry earlier
      · obtain ⟨w, among, rfl⟩ := List.mem_map.mp now
        exact mine.2 ws rfl w among

omit [Store ω σ κ] in
theorem initial_within {n : Nat} {i : ι} {db : σ} {progs : ι → Prog σ μ ω κ ε ρ χ α}
    (few : AtMost P n (progs i)) : Within P n i (initial db progs : System ι σ μ ω κ ε ρ χ α) :=
  ⟨n, by simp [initial, spent], few⟩

omit [DecidableEq ι] [Store ω σ κ] in
theorem initial_vouched {P : ι → ω → Prop} {db : σ} {progs : ι → Prog σ μ ω κ ε ρ χ α}
    (emits : ∀ i, Emits (P i) (progs i)) : Vouched P (initial db progs : System ι σ μ ω κ ε ρ χ α) := by
  constructor
  · exact emits
  · intro i w mem
    simp [initial] at mem
  · intro entry mem
    simp [initial] at mem

end Runs

end WriteCounts
