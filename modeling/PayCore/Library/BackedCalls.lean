import PayCore.Library.LoneSessions
import PayCore.Library.RelyGuarantee
import PayCore.Library.SessionSteps

/- What stands behind the calls of sessions that run side by side. A condition on a call is
checked against the committed state at the moment of the call, and nothing that is committed
later breaks it. -/
namespace BackedCalls
open SessionProgram SessionSystem RelyGuarantee SessionSteps LoneSessions

variable {σ μ ω κ ε ρ χ α β ι : Type} [Store ω σ κ] [Inhabited μ]

section Rules
variable {R : (κ → Prop) → σ → σ → Prop} {G : List ω → σ → Prop} {C : ε → σ → Prop}
  {A : ε → ρ → Prop}

def backs (R : (κ → Prop) → σ → σ → Prop) (G : List ω → σ → Prop) (C : ε → σ → Prop)
    (A : ε → ρ → Prop) :
    Prog σ μ ω κ ε ρ χ α → Post σ μ ω κ χ α → View σ μ ω κ → Prop
  | .ret a, Q, v => Q (.ok a) v
  | .raise x, Q, v => Q (.error x) v
  | .stmt rows writes memo next fault, Q, v => ∀ db, R v.held v.db db →
      let seen := applyAll v.pending db
      let adds := writes seen v.memory
      backs R G C A fault Q { v with db := db, pending := [] } ∧
      backs R G C A (next seen v.memory) Q
        ⟨db, v.pending ++ adds, memo seen v.memory, fun r => v.held r ∨ r ∈ needed rows adds⟩
  | .call request next fault, Q, v => ∀ db, R v.held v.db db →
      C request db ∧ (∀ r, A request r → backs R G C A (next r) Q { v with db := db }) ∧
        backs R G C A fault Q { v with db := db }
  | .commit next fault, Q, v => ∀ db, R v.held v.db db →
      G v.pending db ∧ backs R G C A next Q ⟨applyAll v.pending db, [], v.memory, Nothing⟩ ∧
      backs R G C A fault Q ⟨db, [], v.memory, Nothing⟩
  | .rollback next, Q, v => ∀ db, R v.held v.db db →
      backs R G C A next Q ⟨db, [], default, Nothing⟩

theorem backs_mono {p : Prog σ μ ω κ ε ρ χ α} {Q Q' : Post σ μ ω κ χ α} {v : View σ μ ω κ}
    (weaker : ∀ r u, Q r u → Q' r u) (h : backs R G C A p Q v) : backs R G C A p Q' v := by
  induction p generalizing v with
  | ret a => exact weaker _ _ h
  | raise x => exact weaker _ _ h
  | stmt rows writes memo next fault ihn ihf =>
    intro db rely
    exact ⟨ihf (h db rely).1, ihn _ _ (h db rely).2⟩
  | call request next fault ihn ihf =>
    intro db rely
    obtain ⟨backed, answered, failed⟩ := h db rely
    exact ⟨backed, fun r within => ihn r (answered r within), ihf failed⟩
  | commit next fault ihn ihf =>
    intro db rely
    obtain ⟨good, committed, failed⟩ := h db rely
    exact ⟨good, ihn committed, ihf failed⟩
  | rollback next ih =>
    intro db rely
    exact ih (h db rely)

theorem seq_backs {p : Prog σ μ ω κ ε ρ χ α} {f : α → Prog σ μ ω κ ε ρ χ β}
    {Q : Post σ μ ω κ χ β} {v : View σ μ ω κ} (h : backs R G C A p (fun r u => match r with
        | .ok a => backs R G C A (f a) Q u
        | .error x => Q (.error x) u) v) : backs R G C A (p >>= f) Q v := by
  change backs R G C A (p.bind f) Q v
  induction p generalizing v with
  | ret a => exact h
  | raise x => exact h
  | stmt rows writes memo next fault ihn ihf =>
    intro db rely
    exact ⟨ihf (h db rely).1, ihn _ _ (h db rely).2⟩
  | call request next fault ihn ihf =>
    intro db rely
    obtain ⟨backed, answered, failed⟩ := h db rely
    exact ⟨backed, fun r within => ihn r (answered r within), ihf failed⟩
  | commit next fault ihn ihf =>
    intro db rely
    obtain ⟨good, committed, failed⟩ := h db rely
    exact ⟨good, ihn committed, ihf failed⟩
  | rollback next ih =>
    intro db rely
    exact ih (h db rely)

theorem handle_backs {p : Prog σ μ ω κ ε ρ χ α} {handler : χ → Prog σ μ ω κ ε ρ χ α}
    {Q : Post σ μ ω κ χ α} {v : View σ μ ω κ} (h : backs R G C A p (fun r u => match r with
        | .ok a => Q (.ok a) u
        | .error x => backs R G C A (handler x) Q u) v) : backs R G C A (p.handle handler) Q v := by
  induction p generalizing v with
  | ret a => exact h
  | raise x => exact h
  | stmt rows writes memo next fault ihn ihf =>
    intro db rely
    exact ⟨ihf (h db rely).1, ihn _ _ (h db rely).2⟩
  | call request next fault ihn ihf =>
    intro db rely
    obtain ⟨backed, answered, failed⟩ := h db rely
    exact ⟨backed, fun r within => ihn r (answered r within), ihf failed⟩
  | commit next fault ihn ihf =>
    intro db rely
    obtain ⟨good, committed, failed⟩ := h db rely
    exact ⟨good, ihn committed, ihf failed⟩
  | rollback next ih =>
    intro db rely
    exact ih (h db rely)

/-- Calls that nothing has to back add nothing to what is verified without them. -/
theorem free_backs {p : Prog σ μ ω κ ε ρ χ α} {Q : Post σ μ ω κ χ α} {v : View σ μ ω κ}
    (free : Asks (fun e => ∀ s, C e s) p) (h : wp R G (fun _ _ _ _ => True) p Q v) :
    backs R G C A p Q v := by
  induction p generalizing v with
  | ret a => exact h
  | raise x => exact h
  | stmt rows writes memo next fault ihn ihf =>
    intro db rely
    exact ⟨ihf free.2 (h db rely).1, ihn _ _ (free.1 _ _) ((h db rely).2 trivial)⟩
  | call request next fault ihn ihf =>
    intro db rely
    exact ⟨free.1 db, fun r _ => ihn r (free.2.1 r) ((h db rely).1 r), ihf free.2.2 (h db rely).2⟩
  | commit next fault ihn ihf =>
    intro db rely
    obtain ⟨good, committed, failed⟩ := h db rely
    exact ⟨good, ihn free.1 committed, ihf free.2 failed⟩
  | rollback next ih =>
    intro db rely
    exact ih free (h db rely)

theorem wp_anything {p : Prog σ μ ω κ ε ρ χ α} {v : View σ μ ω κ} :
    wp R (fun _ _ => True) (fun _ _ _ _ => True) p (fun _ _ => True) v := by
  induction p generalizing v with
  | ret a => trivial
  | raise x => trivial
  | stmt rows writes memo next fault ihn ihf => exact fun _ _ => ⟨ihf, fun _ => ihn _ _⟩
  | call request next fault ihn ihf => exact fun _ _ => ⟨fun r => ihn r, ihf⟩
  | commit next fault ihn ihf => exact fun _ _ => ⟨trivial, ihn, ihf⟩
  | rollback next ih => exact fun _ _ => ih

theorem backs_later (trans : ∀ held s t u, R held s t → R held t u → R held s u)
    {p : Prog σ μ ω κ ε ρ χ α}
    {v : View σ μ ω κ} {db : σ} (rely : R v.held v.db db) (h : backs R G C A p (fun _ _ => True) v) :
    backs R G C A p (fun _ _ => True) { v with db := db } := by
  cases p with
  | ret a => trivial
  | raise x => trivial
  | stmt rows writes memo next fault =>
    intro later more
    exact h later (trans _ _ _ _ rely more)
  | call request next fault =>
    intro later more
    exact h later (trans _ _ _ _ rely more)
  | commit next fault =>
    intro later more
    exact h later (trans _ _ _ _ rely more)
  | rollback next =>
    intro later more
    exact h later (trans _ _ _ _ rely more)

end Rules

section Runs
variable [DecidableEq ι] [DecidableEq κ] {G : List ω → σ → Prop} {C : ε → σ → Prop}
    {A : ε → ρ → Prop}
  {S T : System ι σ μ ω κ ε ρ χ α}

structure Backing (G : List ω → σ → Prop) (C : ε → σ → Prop) (A : ε → ρ → Prop)
    (S : System ι σ μ ω κ ε ρ χ α) :
    Prop where
  course : ∀ i, backs (Rely G) G C A (S.session i).prog (fun _ _ => True) (viewOf S i)
  orderly : Safe (fun _ _ => True) (fun _ _ _ _ _ => True) (fun _ _ _ => True) S

theorem step_calls {a : Action ι ρ} (moves : step S a = some T) : T.calls = S.calls ∨
    ∃ i request next fault, (S.session i).prog = .call request next fault ∧ T.db = S.db ∧
      T.calls = S.calls ++ [(i, request)] := by
  cases a with
  | run i =>
    simp only [step, runStep] at moves
    split at moves
    · split at moves <;> cases moves
      exact .inl rfl
    · split at moves <;> cases moves
      exact .inl rfl
    · cases moves
      exact .inl rfl
    · cases moves
    · cases moves
      exact .inl rfl
  | fault i =>
    simp only [step, faultStep] at moves
    split at moves <;> cases moves <;> exact .inl rfl
  | reply i r =>
    simp only [step] at moves
    split at moves
    · rename_i prog
      cases moves
      exact .inr ⟨i, _, _, _, prog, rfl, rfl⟩
    · cases moves
  | lose i =>
    simp only [step] at moves
    split at moves
    · rename_i prog
      cases moves
      exact .inr ⟨i, _, _, _, prog, rfl, rfl⟩
    · cases moves

omit [DecidableEq ι] [DecidableEq κ] in
theorem stepped_good (backing : Backing G C A S) {i : ι} {k : Kind ρ} {ws : List ω}
    (stepped : Stepped i k S T (some ws)) : G ws S.db := by
  have course := backing.course i
  have goes := stepped.goes
  have same := committed_pending stepped
  rw [same] at goes ⊢
  generalize T.session i = after at goes
  generalize heldBy T i = held at goes
  cases goes with
  | commit prog ready =>
    rw [prog] at course
    exact (course S.db (.refl _)).1

omit [DecidableEq ι] [DecidableEq κ] in
theorem stepped_rely (backing : Backing G C A S) {i : ι} {k : Kind ρ} {committed : Option (List ω)}
    (stepped : Stepped i k S T committed) (j : ι) (other : j ≠ i) : Rely G (heldBy S j) S.db T.db := by
  rw [stepped.db]
  cases written : committed with
  | none => exact .refl _
  | some ws =>
    rw [written] at stepped
    apply Rely.step (.refl _) (stepped_good backing stepped)
    intro r mine touches
    rw [committed_pending stepped] at touches
    have owner := backing.orderly.owned i r touches
    rw [heldBy, owner] at mine
    exact other (Option.some.inj mine).symm

omit [Inhabited μ] [DecidableEq ι] [DecidableEq κ] [Store ω σ κ] in
theorem answered_call {a : Action ι ρ} (answered : Answered A S a) {r : ρ} {request : ε}
    {next : ρ → Prog σ μ ω κ ε ρ χ α} {fault : Prog σ μ ω κ ε ρ χ α}
    (replied : kind a = .reply r)
    (prog : (S.session (actor a)).prog = .call request next fault) : A request r := by
  cases a with
  | reply i other =>
    cases replied
    change (S.session i).prog = _ at prog
    simpa [Answered, prog] using answered
  | _ => cases replied

theorem step_course (backing : Backing G C A S) {a : Action ι ρ} (answered : Answered A S a)
    (moves : step S a = some T) (j : ι) :
    backs (Rely G) G C A (T.session j).prog (fun _ _ => True) (viewOf T j) := by
  obtain ⟨committed, stepped⟩ := step_stepped moves
  have course := backing.course j
  by_cases own : j = actor a
  · have db := stepped.db
    have goes := stepped.goes
    unfold viewOf at course ⊢
    rw [own] at course ⊢
    change backs _ _ _ _ _ _ ⟨T.db, _, _, heldBy T (actor a)⟩
    rw [db]
    generalize T.session (actor a) = after at goes ⊢
    generalize heldBy T (actor a) = held at goes ⊢
    generalize replied : kind a = k at goes
    cases goes with
    | stmt prog ready =>
      rw [prog] at course
      exact (course _ (.refl _)).2
    | stmtFault prog =>
      rw [prog] at course
      exact (course _ (.refl _)).1
    | reply r prog =>
      rw [prog] at course
      exact (course _ (.refl _)).2.1 r (answered_call answered replied prog)
    | unanswered prog =>
      rw [prog] at course
      exact (course _ (.refl _)).2.2
    | commit prog ready =>
      rw [prog] at course
      exact (course _ (.refl _)).2.1
    | commitFault prog =>
      rw [prog] at course
      exact (course _ (.refl _)).2.2
    | rollback prog =>
      rw [prog] at course
      exact course _ (.refl _)
    | close ended =>
      cases prog : (S.session (actor a)).prog with
      | ret x => trivial
      | raise x => trivial
      | _ => simp [prog, Prog.finished] at ended
  · have rely := stepped_rely backing stepped j own
    unfold viewOf at course ⊢
    rw [stepped.others j own]
    change backs _ _ _ _ _ _ ⟨T.db, _, _, heldBy T j⟩
    rw [stepped.locks j own]
    exact backs_later (fun _ _ _ _ => rely_trans) rely course

theorem step_backing (backing : Backing G C A S) {a : Action ι ρ} (answered : Answered A S a)
    (moves : step S a = some T) : Backing G C A T where
  course := step_course backing answered moves
  orderly := by
    apply run_safe (fun _ _ _ _ _ h => h) backing.orderly
    exact .next (.start S) (fun _ _ _ _ _ _ _ _ => trivial) moves

/-- Every call of a run is backed by what is committed, from the call on. -/
theorem run_backed {db : σ} {progs : ι → Prog σ μ ω κ ε ρ χ α}
    (verified : ∀ i, backs (Rely G) G C A (progs i) (fun _ _ => True) ⟨db, [], default, Nothing⟩)
    (kept : ∀ e ws s, G ws s → C e s → C e (applyAll ws s))
    (run : Run (Answered A) (initial db progs : System ι σ μ ω κ ε ρ χ α) T) :
    ∀ call ∈ T.calls, C call.2 T.db := by
  suffices both : Backing G C A T ∧ ∀ call ∈ T.calls, C call.2 T.db from both.2
  induction run with
  | start =>
    refine ⟨⟨?_, initial_safe (fun i => wp_anything)⟩, ?_⟩
    · intro i
      have none_held : (fun r => (initial db progs : System ι σ μ ω κ ε ρ χ α).owner r = some i) =
          Nothing := by
        funext r
        simp [initial, Nothing]
      simp only [viewOf, none_held]
      exact verified i
    · intro call mem
      cases mem
  | @next U V a before answered moves ih =>
    obtain ⟨backing, backed⟩ := ih
    refine ⟨step_backing backing answered moves, ?_⟩
    rcases step_calls moves with quiet | ⟨i, request, next, fault, prog, same, calls⟩
    · intro call mem
      rw [quiet] at mem
      obtain ⟨committed, stepped⟩ := step_stepped moves
      rw [stepped.db]
      cases written : committed with
      | none => exact backed call mem
      | some ws =>
        rw [written] at stepped
        exact kept _ ws _ (stepped_good backing stepped) (backed call mem)
    · intro call mem
      rw [calls, List.mem_append, List.mem_singleton] at mem
      rw [same]
      rcases mem with old | rfl
      · exact backed call old
      · have course := backing.course i
        rw [prog] at course
        exact (course U.db (.refl _)).1

end Runs

end BackedCalls
