import PayCore.Library.SessionSystem

/- What one step of a run does to its session, to the database and to the log. -/
namespace SessionSteps
open SessionProgram SessionSystem

variable {σ μ ω κ ε ρ χ α ι : Type} [Store ω σ κ] [Inhabited μ]

inductive Kind (ρ : Type) where
  | run
  | reply (r : ρ)
  | failure

def kind : Action ι ρ → Kind ρ
  | .run _ => .run
  | .reply _ r => .reply r
  | .lose _ | .fault _ => .failure

def actor : Action ι ρ → ι
  | .run i | .reply i _ | .lose i | .fault i => i

/-- The moves of a session over the committed state `db`, with the writes of a commit and the rows
    that the session holds before and after. -/
inductive Goes (db : σ) (s : Session σ μ ω κ ε ρ χ α) (held : κ → Prop) :
    Kind ρ → Option (List ω) → Session σ μ ω κ ε ρ χ α → (κ → Prop) → Prop where
  | stmt {rows writes memo next fault} (prog : s.prog = .stmt rows writes memo next fault)
      (ready : s.aborted = false) :
      Goes db s held .run none ⟨next (applyAll s.pending db) s.memory,
        s.pending ++ writes (applyAll s.pending db) s.memory, memo (applyAll s.pending db) s.memory, false⟩
        (fun r => held r ∨ r ∈ needed rows (writes (applyAll s.pending db) s.memory))
  | stmtFault {rows writes memo next fault} (prog : s.prog = .stmt rows writes memo next fault) :
      Goes db s held .failure none ⟨fault, [], s.memory, true⟩ held
  | reply {request next fault} (r : ρ) (prog : s.prog = .call request next fault) :
      Goes db s held (.reply r) none { s with prog := next r } held
  | unanswered {request next fault} (prog : s.prog = .call request next fault) :
      Goes db s held .failure none { s with prog := fault } held
  | commit {next fault} (prog : s.prog = .commit next fault) (ready : s.aborted = false) :
      Goes db s held .run (some s.pending) ⟨next, [], s.memory, false⟩ (fun _ => False)
  | commitFault {next fault} (prog : s.prog = .commit next fault) :
      Goes db s held .failure none ⟨fault, [], s.memory, true⟩ (fun _ => False)
  | rollback {next} (prog : s.prog = .rollback next) :
      Goes db s held .run none ⟨next, [], default, false⟩ (fun _ => False)
  | close (ended : s.prog.finished = true) : Goes db s held .run none ⟨s.prog, [], s.memory, false⟩
      (fun _ => False)

def heldBy (S : System ι σ μ ω κ ε ρ χ α) (i : ι) : κ → Prop := fun r => S.owner r = some i

structure Stepped (i : ι) (k : Kind ρ) (S T : System ι σ μ ω κ ε ρ χ α)
    (committed : Option (List ω)) : Prop where
  goes : Goes S.db (S.session i) (heldBy S i) k committed (T.session i) (heldBy T i)
  others : ∀ j, j ≠ i → T.session j = S.session j
  locks : ∀ j, j ≠ i → heldBy T j = heldBy S j
  db : T.db = committed.elim S.db fun ws => applyAll ws S.db
  log : T.log = S.log ++ committed.toList.map fun ws => (i, ws)

theorem committed_pending {i : ι} {k : Kind ρ} {S T : System ι σ μ ω κ ε ρ χ α} {ws : List ω}
    (stepped : Stepped i k S T (some ws)) : ws = (S.session i).pending := by
  have goes := stepped.goes
  generalize T.session i = s at goes
  generalize heldBy T i = held at goes
  cases goes with
  | commit prog ready => rfl

variable [DecidableEq ι]

theorem stepped_become {i : ι} {k : Kind ρ} {S T : System ι σ μ ω κ ε ρ χ α}
    {s : Session σ μ ω κ ε ρ χ α}
    {committed : Option (List ω)} (goes : Goes S.db (S.session i) (heldBy S i) k committed s (heldBy T i))
    (sessions : T.session = (S.become i s).session) (locks : ∀ j, j ≠ i → heldBy T j = heldBy S j)
    (db : T.db = committed.elim S.db fun ws => applyAll ws S.db)
    (log : T.log = S.log ++ committed.toList.map fun ws => (i, ws)) : Stepped i k S T committed := by
  constructor
  · rw [sessions, become_self]
    exact goes
  · intro j other
    rw [sessions, become_other s other]
  · exact locks
  · exact db
  · exact log

theorem stepped_locked {i : ι} {k : Kind ρ} {S T : System ι σ μ ω κ ε ρ χ α}
    {s : Session σ μ ω κ ε ρ χ α}
    (goes : Goes S.db (S.session i) (heldBy S i) k none s (heldBy S i))
    (sessions : T.session = (S.become i s).session) (owner : T.owner = S.owner) (db : T.db = S.db)
    (log : T.log = S.log) : Stepped i k S T none := by
  have same : ∀ j, heldBy T j = heldBy S j := fun j => funext fun r => by simp only [heldBy, owner]
  have logged : T.log = S.log ++ (none : Option (List ω)).toList.map fun ws => (i, ws) :=
    log.trans (List.append_nil _).symm
  exact stepped_become (same i ▸ goes) sessions (fun j _ => same j) db logged

theorem stepped_released {i : ι} {k : Kind ρ} {S T : System ι σ μ ω κ ε ρ χ α}
    {s : Session σ μ ω κ ε ρ χ α}
    {committed : Option (List ω)}
    (goes : Goes S.db (S.session i) (heldBy S i) k committed s (fun _ => False))
    (sessions : T.session = (S.become i s).session) (owner : T.owner = release S.owner i)
    (db : T.db = committed.elim S.db fun ws => applyAll ws S.db)
    (log : T.log = S.log ++ committed.toList.map fun ws => (i, ws)) : Stepped i k S T committed := by
  have none : heldBy T i = fun _ => False := by
    funext r
    simp only [heldBy, owner]
    exact eq_false (release_mine S.owner i r)
  have others : ∀ j, j ≠ i → heldBy T j = heldBy S j := by
    intro j other
    funext r
    simp only [heldBy, owner]
    exact propext (release_other other)
  exact stepped_become (none ▸ goes) sessions others db log

theorem faultStep_stepped {i : ι} {S T : System ι σ μ ω κ ε ρ χ α} (moves : faultStep i S = some T) :
    Stepped i .failure S T none := by
  have quiet : S.log = S.log ++ (none : Option (List ω)).toList.map fun ws => (i, ws) :=
    (List.append_nil _).symm
  simp only [faultStep] at moves
  split at moves
  · rename_i prog
    cases moves
    exact stepped_locked (.stmtFault prog) rfl rfl rfl rfl
  · rename_i prog
    cases moves
    exact stepped_locked (.unanswered prog) rfl rfl rfl rfl
  · rename_i prog
    cases moves
    exact stepped_released (.commitFault prog) rfl rfl rfl quiet
  · cases moves

variable [DecidableEq κ] {S T : System ι σ μ ω κ ε ρ χ α}

theorem runStep_stepped {i : ι} (moves : runStep i S = some T) :
    ∃ committed, Stepped i .run S T committed := by
  have quiet : S.log = S.log ++ (none : Option (List ω)).toList.map fun ws => (i, ws) :=
    (List.append_nil _).symm
  simp only [runStep] at moves
  split at moves
  · rename_i rows writes memo next fault prog
    split at moves
    · rename_i ready
      cases moves
      have taken : ∀ r, take S.owner i (needed rows (writes (applyAll (S.session i).pending S.db)
          (S.session i).memory)) r = some i ↔ _ := fun r => take_mine r
      refine ⟨none, stepped_become ?_ rfl ?_ rfl quiet⟩
      · have goes : Goes S.db (S.session i) (heldBy S i) .run none _ _ := .stmt prog ready.1
        have held : heldBy { S with owner := take S.owner i (needed rows
            (writes (applyAll (S.session i).pending S.db) (S.session i).memory)) } i =
            fun r => heldBy S i r ∨
              r ∈ needed rows (writes (applyAll (S.session i).pending S.db) (S.session i).memory) :=
          funext fun r => propext (taken r)
        exact held ▸ goes
      · intro j other
        exact funext fun r => propext (take_other other ready.2)
    · cases moves
  · rename_i next fault prog
    split at moves
    · rename_i ready
      cases moves
      exact ⟨some (S.session i).pending, stepped_released (.commit prog ready) rfl rfl rfl rfl⟩
    · cases moves
  · rename_i prog
    cases moves
    exact ⟨none, stepped_released (.rollback prog) rfl rfl rfl quiet⟩
  · cases moves
  · rename_i noStmt noCommit noRollback noCall
    cases moves
    have ended : (S.session i).prog.finished = true := by
      cases prog : (S.session i).prog with
      | ret a => rfl
      | raise x => rfl
      | stmt rows writes memo next fault => exact absurd prog (noStmt rows writes memo next fault)
      | call request next fault => exact absurd prog (noCall request next fault)
      | commit next fault => exact absurd prog (noCommit next fault)
      | rollback next => exact absurd prog (noRollback next)
    exact ⟨none, stepped_released (.close ended) rfl rfl rfl quiet⟩

/-- The inversion of a step. -/
theorem step_stepped {a : Action ι ρ} (moves : step S a = some T) :
    ∃ committed, Stepped (actor a) (kind a) S T committed := by
  cases a with
  | run i => exact runStep_stepped moves
  | fault i => exact ⟨none, faultStep_stepped moves⟩
  | reply i r =>
    simp only [step] at moves
    split at moves
    · rename_i prog
      cases moves
      exact ⟨none, stepped_locked (.reply r prog) rfl rfl rfl rfl⟩
    · cases moves
  | lose i =>
    simp only [step] at moves
    split at moves
    · rename_i prog
      cases moves
      exact ⟨none, stepped_locked (.unanswered prog) rfl rfl rfl rfl⟩
    · cases moves

end SessionSteps
