import PayCore.Library.SessionSystem

/- What becomes of one session among others: its commits and the failures it meets, in their
   order. -/
namespace SessionHistories
open SessionProgram SessionSystem

variable {σ μ ω κ ε ρ χ α β ι : Type}

inductive Mark (ω ε : Type) where
  | commits (ws : List ω)
  | fails (call : Option ε)
  deriving Repr

def sinceCommit : List (Mark ω ε) → Option (List ω × List (Mark ω ε))
  | [] => none
  | .commits ws :: rest => some (ws, rest)
  | .fails _ :: rest => sinceCommit rest

theorem sinceCommit_append {h l rest : List (Mark ω ε)} {ws : List ω}
    (first : sinceCommit h = some (ws, rest)) :
    sinceCommit (h ++ l) = some (ws, rest ++ l) := by
  induction h with
  | nil => cases first
  | cons mark h ih =>
    cases mark with
    | commits vs =>
      cases first
      rfl
    | fails c => exact ih first

theorem sinceCommit_idle {h l : List (Mark ω ε)} (idle : sinceCommit h = none) :
    sinceCommit (h ++ l) = sinceCommit l := by
  induction h with
  | nil => rfl
  | cons mark h ih =>
    cases mark with
    | commits vs => cases idle
    | fails c => exact ih idle

structure Standing (μ ω ε : Type) where
  history : List (Mark ω ε)
  pending : List ω
  memory : μ
  aborted : Bool

section
variable [Inhabited μ]

/-- However the session goes on, in any states and through any failures, it ends in `Q`. -/
def recounts (Q : Except χ α → Standing μ ω ε → Prop) :
    Prog σ μ ω κ ε ρ χ α → Standing μ ω ε → Prop
  | .ret a, u => Q (.ok a) u
  | .raise x, u => Q (.error x) u
  | .stmt _ writes memo next fault, u =>
      (u.aborted = false → ∀ s, recounts Q (next s u.memory)
        { u with pending := u.pending ++ writes s u.memory, memory := memo s u.memory }) ∧
      recounts Q fault { u with history := u.history ++ [.fails none], pending := [], aborted := true }
  | .call request next fault, u =>
      (∀ r, recounts Q (next r) u) ∧
      recounts Q fault { u with history := u.history ++ [.fails (some request)] }
  | .commit next fault, u =>
      (u.aborted = false →
        recounts Q next { u with history := u.history ++ [.commits u.pending], pending := [] }) ∧
      recounts Q fault { u with history := u.history ++ [.fails none], pending := [], aborted := true }
  | .rollback next, u => recounts Q next ⟨u.history, [], default, false⟩

theorem recounts_mono {p : Prog σ μ ω κ ε ρ χ α} {Q Q' : Except χ α → Standing μ ω ε → Prop}
    {u : Standing μ ω ε} (weaker : ∀ r v, Q r v → Q' r v) (h : recounts Q p u) : recounts Q' p u := by
  induction p generalizing u with
  | ret a => exact weaker _ _ h
  | raise x => exact weaker _ _ h
  | stmt rows writes memo next fault ihn ihf =>
    exact ⟨fun ready s => ihn s _ (h.1 ready s), ihf h.2⟩
  | call request next fault ihn ihf => exact ⟨fun r => ihn r (h.1 r), ihf h.2⟩
  | commit next fault ihn ihf => exact ⟨fun ready => ihn (h.1 ready), ihf h.2⟩
  | rollback next ih => exact ih h

theorem seq_recounts {p : Prog σ μ ω κ ε ρ χ α} {f : α → Prog σ μ ω κ ε ρ χ β}
    {Q : Except χ β → Standing μ ω ε → Prop} {u : Standing μ ω ε}
    (h : recounts (fun r v => match r with
      | .ok a => recounts Q (f a) v
      | .error x => Q (.error x) v) p u) : recounts Q (p >>= f) u := by
  change recounts Q (p.bind f) u
  induction p generalizing u with
  | ret a => exact h
  | raise x => exact h
  | stmt rows writes memo next fault ihn ihf =>
    exact ⟨fun ready s => ihn s _ (h.1 ready s), ihf h.2⟩
  | call request next fault ihn ihf => exact ⟨fun r => ihn r (h.1 r), ihf h.2⟩
  | commit next fault ihn ihf => exact ⟨fun ready => ihn (h.1 ready), ihf h.2⟩
  | rollback next ih => exact ih h

theorem handle_recounts {p : Prog σ μ ω κ ε ρ χ α} {handler : χ → Prog σ μ ω κ ε ρ χ α}
    {Q : Except χ α → Standing μ ω ε → Prop} {u : Standing μ ω ε}
    (h : recounts (fun r v => match r with
      | .ok a => Q (.ok a) v
      | .error x => recounts Q (handler x) v) p u) : recounts Q (p.handle handler) u := by
  induction p generalizing u with
  | ret a => exact h
  | raise x => exact h
  | stmt rows writes memo next fault ihn ihf =>
    exact ⟨fun ready s => ihn s _ (h.1 ready s), ihf h.2⟩
  | call request next fault ihn ihf => exact ⟨fun r => ihn r (h.1 r), ihf h.2⟩
  | commit next fault ihn ihf => exact ⟨fun ready => ihn (h.1 ready), ihf h.2⟩
  | rollback next ih => exact ih h

def Commitless : Prog σ μ ω κ ε ρ χ α → Prop
  | .ret _ => True
  | .raise _ => True
  | .stmt _ _ _ next fault => (∀ s m, Commitless (next s m)) ∧ Commitless fault
  | .call _ next fault => (∀ r, Commitless (next r)) ∧ Commitless fault
  | .commit _ _ => False
  | .rollback next => Commitless next

omit [Inhabited μ] in
theorem commitless_seq {p : Prog σ μ ω κ ε ρ χ α} {f : α → Prog σ μ ω κ ε ρ χ β}
    (first : Commitless p) (rest : ∀ a, Commitless (f a)) : Commitless (p >>= f) := by
  change Commitless (p.bind f)
  induction p with
  | ret a => exact rest a
  | raise x => trivial
  | stmt rows writes memo next fault ihn ihf => exact ⟨fun s m => ihn s m (first.1 s m), ihf first.2⟩
  | call request next fault ihn ihf => exact ⟨fun r => ihn r (first.1 r), ihf first.2⟩
  | commit next fault _ _ => exact first.elim
  | rollback next ih => exact ih first

theorem commitless_recounts {p : Prog σ μ ω κ ε ρ χ α} {u : Standing μ ω ε} (commitless : Commitless p)
    (idle : sinceCommit u.history = none) : recounts (fun _ v => sinceCommit v.history = none) p u := by
  induction p generalizing u with
  | ret a => exact idle
  | raise x => exact idle
  | stmt rows writes memo next fault ihn ihf =>
    exact ⟨fun _ s => ihn s _ (commitless.1 s _) idle, ihf commitless.2 (sinceCommit_idle idle)⟩
  | call request next fault ihn ihf =>
    exact ⟨fun r => ihn r (commitless.1 r) idle, ihf commitless.2 (sinceCommit_idle idle)⟩
  | commit next fault _ _ => exact commitless.elim
  | rollback next ih => exact ih commitless idle

end

section
variable [Inhabited μ] [DecidableEq ι]

def marks (i : ι) (S : System ι σ μ ω κ ε ρ χ α) : Action ι ρ → List (Mark ω ε)
  | .run j =>
      if j = i then
        match (S.session i).prog with
        | .commit _ _ => [.commits (S.session i).pending]
        | _ => []
      else []
  | .fault j | .lose j =>
      if j = i then
        match (S.session i).prog with
        | .call request _ _ => [.fails (some request)]
        | _ => [.fails none]
      else []
  | .reply _ _ => []

variable [Store ω σ κ] [DecidableEq κ]

inductive History (i : ι) (S : System ι σ μ ω κ ε ρ χ α) :
    List (Mark ω ε) → System ι σ μ ω κ ε ρ χ α → Prop where
  | start : History i S [] S
  | next {history T U} {a : Action ι ρ} (before : History i S history T) (moves : step T a = some U) :
      History i S (history ++ marks i T a) U

theorem history_of_run {C : System ι σ μ ω κ ε ρ χ α → Action ι ρ → Prop} {i : ι}
    {S T : System ι σ μ ω κ ε ρ χ α} (run : Run C S T) : ∃ history, History i S history T := by
  induction run with
  | start => exact ⟨[], .start⟩
  | next before ok moves ih =>
    obtain ⟨history, reached⟩ := ih
    exact ⟨_, .next reached moves⟩

def chronicle (i : ι) (S : System ι σ μ ω κ ε ρ χ α) (acts : List (Action ι ρ)) :
    Option (List (Mark ω ε) × System ι σ μ ω κ ε ρ χ α) :=
  acts.foldlM (fun point a => (step point.2 a).map (fun U => (point.1 ++ marks i point.2 a, U))) ([], S)

theorem history_of_chronicle {i : ι} {S T : System ι σ μ ω κ ε ρ χ α} {acts : List (Action ι ρ)}
    {history : List (Mark ω ε)} (h : chronicle i S acts = some (history, T)) : History i S history T := by
  induction acts using List.reverseRecOn generalizing history T with
  | nil =>
    cases h
    exact .start
  | append_singleton acts a ih =>
    simp only [chronicle, List.foldlM_append, List.foldlM_cons, List.foldlM_nil, Option.bind_eq_bind,
      Option.bind_eq_some_iff] at h
    obtain ⟨⟨earlier, M⟩, reached, ⟨later, U⟩, moves, same⟩ := h
    cases same
    obtain ⟨V, moved, result⟩ := Option.map_eq_some_iff.mp moves
    cases result
    exact .next (ih reached) moved

variable {S T U : System ι σ μ ω κ ε ρ χ α} {history : List (Mark ω ε)} {i : ι}
  {Q : Except χ α → Standing μ ω ε → Prop}

theorem log_grows {a : Action ι ρ} (moves : step T a = some U) : T.log <+: U.log := by
  have same : T.log <+: T.log := List.prefix_refl _
  cases a with
  | run j =>
    cases prog : (T.session j).prog with
    | commit next fault =>
      simp only [step, runStep, prog] at moves
      split at moves
      · cases moves
        exact List.prefix_append _ _
      · cases moves
    | stmt rows writes memo next fault =>
      simp only [step, runStep, prog] at moves
      split at moves
      · cases moves
        exact same
      · cases moves
    | call request next fault => simp [step, runStep, prog] at moves
    | _ =>
      simp only [step, runStep, prog, Option.some.injEq] at moves
      subst moves
      exact same
  | fault j =>
    simp only [step, faultStep] at moves
    split at moves <;> cases moves <;> exact same
  | reply j r =>
    simp only [step] at moves
    split at moves <;> cases moves
    exact same
  | lose j =>
    simp only [step] at moves
    split at moves <;> cases moves
    exact same

omit [Store ω σ κ] [Inhabited μ] [DecidableEq κ] in
theorem marked_commit {a : Action ι ρ} {ws : List ω} (told : Mark.commits ws ∈ marks i T a) :
    a = .run i ∧ (T.session i).pending = ws ∧ ∃ next fault, (T.session i).prog = .commit next fault := by
  cases a with
  | run j =>
    simp only [marks] at told
    split at told
    · rename_i mine
      subst mine
      cases prog : (T.session j).prog with
      | commit next fault =>
        simp only [prog, List.mem_singleton, Mark.commits.injEq] at told
        exact ⟨rfl, told.symm, next, fault, rfl⟩
      | _ => simp [prog] at told
    · cases told
  | fault j =>
    simp only [marks] at told
    split at told
    · split at told <;> simp at told
    · cases told
  | lose j =>
    simp only [marks] at told
    split at told
    · split at told <;> simp at told
    · cases told
  | reply j r => cases told

theorem history_logged {ws : List ω} (run : History i S history T) (told : Mark.commits ws ∈ history) :
    (i, ws) ∈ T.log := by
  induction run with
  | start => cases told
  | next before moves ih =>
    rcases List.mem_append.mp told with earlier | now
    · exact (log_grows moves).subset (ih earlier)
    · obtain ⟨rfl, pending, next, fault, prog⟩ := marked_commit now
      simp only [step, runStep, prog] at moves
      split at moves
      · cases moves
        rw [pending]
        exact List.mem_append_right _ (List.mem_singleton.mpr rfl)
      · cases moves

def standing (history : List (Mark ω ε)) (S : System ι σ μ ω κ ε ρ χ α) (i : ι) : Standing μ ω ε :=
  ⟨history, (S.session i).pending, (S.session i).memory, (S.session i).aborted⟩

omit [Store ω σ κ] [DecidableEq κ] [DecidableEq ι] in
theorem others_recounts {trail : List (Mark ω ε)} (same : U.session i = T.session i)
    (silent : trail = []) (h : recounts Q (T.session i).prog (standing history T i)) :
    recounts Q (U.session i).prog (standing (history ++ trail) U i) := by
  rw [silent, List.append_nil, standing, same]
  exact h

theorem run_recounts (closes : ∀ r u, Q r u → Q r { u with pending := [], aborted := false })
    (moves : runStep i T = some U) (h : recounts Q (T.session i).prog (standing history T i)) :
    recounts Q (U.session i).prog (standing (history ++ marks i T (.run i : Action ι ρ)) U i) := by
  simp only [runStep, marks] at moves ⊢
  cases prog : (T.session i).prog with
  | stmt rows writes memo next fault =>
    rw [prog] at h
    simp only [prog] at moves ⊢
    split at moves
    · rename_i ready
      cases moves
      simpa [standing, become_self, ready.1] using h.1 ready.1 (applyAll (T.session i).pending T.db)
    · cases moves
  | commit next fault =>
    rw [prog] at h
    simp only [prog] at moves ⊢
    split at moves
    · rename_i ready
      cases moves
      simpa [standing, become_self, ready] using h.1 ready
    · cases moves
  | rollback next =>
    rw [prog] at h
    simp only [prog, Option.some.injEq] at moves ⊢
    subst moves
    simpa [standing, become_self, recounts] using h
  | call request next fault => simp [prog] at moves
  | ret a =>
    rw [prog] at h
    simp only [prog, Option.some.injEq] at moves ⊢
    subst moves
    simpa [standing, become_self, recounts] using closes _ _ h
  | raise x =>
    rw [prog] at h
    simp only [prog, Option.some.injEq] at moves ⊢
    subst moves
    simpa [standing, become_self, recounts] using closes _ _ h

omit [Store ω σ κ] [DecidableEq κ] in
theorem fault_recounts (moves : faultStep i T = some U)
    (h : recounts Q (T.session i).prog (standing history T i)) :
    recounts Q (U.session i).prog (standing (history ++ marks i T (.fault i : Action ι ρ)) U i) := by
  simp only [faultStep, marks] at moves ⊢
  cases prog : (T.session i).prog with
  | stmt rows writes memo next fault =>
    rw [prog] at h
    simp only [prog, Option.some.injEq] at moves ⊢
    subst moves
    simpa [standing, become_self] using h.2
  | call request next fault =>
    rw [prog] at h
    simp only [prog, Option.some.injEq] at moves ⊢
    subst moves
    simpa [standing, become_self] using h.2
  | commit next fault =>
    rw [prog] at h
    simp only [prog, Option.some.injEq] at moves ⊢
    subst moves
    simpa [standing, become_self] using h.2
  | _ => simp [prog] at moves

theorem step_recounts (closes : ∀ r u, Q r u → Q r { u with pending := [], aborted := false })
    {a : Action ι ρ} (moves : step T a = some U)
    (h : recounts Q (T.session i).prog (standing history T i)) :
    recounts Q (U.session i).prog (standing (history ++ marks i T a) U i) := by
  cases a with
  | run j =>
    by_cases mine : j = i
    · subst mine
      exact run_recounts closes moves h
    · exact others_recounts (runStep_other (Ne.symm mine) moves) (by simp [marks, mine]) h
  | fault j =>
    by_cases mine : j = i
    · subst mine
      exact fault_recounts moves h
    · exact others_recounts (faultStep_other (Ne.symm mine) moves) (by simp [marks, mine]) h
  | reply j r =>
    simp only [step] at moves
    split at moves
    · rename_i request next fault prog
      cases moves
      by_cases mine : i = j
      · subst mine
        rw [prog] at h
        simpa [standing, become_self, marks] using h.1 r
      · exact others_recounts (become_other _ mine) rfl h
    · cases moves
  | lose j =>
    simp only [step] at moves
    split at moves
    · rename_i request next fault prog
      cases moves
      by_cases mine : i = j
      · subst mine
        rw [prog] at h
        simpa [standing, become_self, marks, prog] using h.2
      · exact others_recounts (become_other _ mine) (by simp [marks, Ne.symm mine]) h
    · cases moves

/-- The rule for histories: a session ends as its program recounts. -/
theorem history_recounts (closes : ∀ r u, Q r u → Q r { u with pending := [], aborted := false })
    {db : σ} {progs : ι → Prog σ μ ω κ ε ρ χ α}
    (h : recounts Q (progs i) ⟨[], [], default, false⟩) (run : History i (initial db progs) history T) :
    recounts Q (T.session i).prog (standing history T i) := by
  induction run with
  | start => exact h
  | next before moves ih => exact step_recounts closes moves ih

end

end SessionHistories
