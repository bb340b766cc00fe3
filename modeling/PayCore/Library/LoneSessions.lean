import PayCore.Library.SessionSystem

/- A session with nobody else at work, step by step: any statement, call or commit may
   fail, and the run may stop anywhere. Its history keeps the calls it tried and the
   commits it made, in their order, each with the committed state at that point. -/
namespace LoneSessions
open SessionProgram SessionSystem

variable {σ μ ω κ ε ρ χ α β ι J : Type}

inductive Event (σ ω ε : Type) where
  | asked (request : ε) (db : σ)
  | committed (ws : List ω) (db : σ)
  deriving Repr

def Event.state : Event σ ω ε → σ
  | .asked _ db => db
  | .committed _ db => db

abbrev Lone (σ μ ω κ ε ρ χ α : Type) := System Unit σ μ ω κ ε ρ χ α

section
variable [Store ω σ κ] [Inhabited μ]

/-- A call counts whether or not it reaches the partner and whether or not its reply comes
    back. -/
def happens (S : Lone σ μ ω κ ε ρ χ α) : Action Unit ρ → List (Event σ ω ε)
  | .run i =>
      match (S.session i).prog with
      | .commit _ _ => [.committed (S.session i).pending (applyAll (S.session i).pending S.db)]
      | _ => []
  | .reply i _ | .lose i | .fault i =>
      match (S.session i).prog with
      | .call request _ _ => [.asked request S.db]
      | _ => []

def Answered (A : ε → ρ → Prop) (S : System ι σ μ ω κ ε ρ χ α) : Action ι ρ → Prop
  | .reply i r =>
      match (S.session i).prog with
      | .call request _ _ => A request r
      | _ => True
  | _ => True

instance (A : ε → ρ → Prop) [∀ request r, Decidable (A request r)] (S : System ι σ μ ω κ ε ρ χ α)
    (a : Action ι ρ) : Decidable (Answered A S a) :=
  match a with
  | .reply i r =>
      match h : (S.session i).prog with
      | .call request _ _ => decidable_of_iff (A request r) (by simp [Answered, h])
      | .ret _ | .raise _ | .stmt _ _ _ _ _ | .commit _ _ | .rollback _ => .isTrue (by simp [Answered, h])
  | .run _ | .lose _ | .fault _ => .isTrue trivial

def AnyReply (_ : ε) (_ : ρ) : Prop := True

instance (request : ε) (r : ρ) : Decidable (AnyReply request r) := .isTrue trivial

inductive Trace [DecidableEq κ] (A : ε → ρ → Prop) (S : Lone σ μ ω κ ε ρ χ α) :
    List (Event σ ω ε) → Lone σ μ ω κ ε ρ χ α → Prop where
  | start : Trace A S [] S
  | next {history T U} {a : Action Unit ρ} (before : Trace A S history T) (answered : Answered A T a)
      (moves : step T a = some U) : Trace A S (history ++ happens T a) U

def follow [DecidableEq κ] (A : ε → ρ → Prop) [∀ request r, Decidable (A request r)]
    (S : Lone σ μ ω κ ε ρ χ α) (acts : List (Action Unit ρ)) :
    Option (List (Event σ ω ε) × Lone σ μ ω κ ε ρ χ α) :=
  acts.foldlM
    (fun point a => if Answered A point.2 a
      then (step point.2 a).map (fun U => (point.1 ++ happens point.2 a, U))
      else none) ([], S)

theorem trace_of_follow [DecidableEq κ] {A : ε → ρ → Prop} [∀ request r, Decidable (A request r)]
    {S T : Lone σ μ ω κ ε ρ χ α} {acts : List (Action Unit ρ)} {history : List (Event σ ω ε)}
    (h : follow A S acts = some (history, T)) : Trace A S history T := by
  induction acts using List.reverseRecOn generalizing history T with
  | nil =>
    cases h
    exact .start
  | append_singleton acts a ih =>
    simp only [follow, List.foldlM_append, List.foldlM_cons, List.foldlM_nil, Option.bind_eq_bind,
      Option.bind_eq_some_iff] at h
    obtain ⟨⟨earlier, M⟩, reached, ⟨later, U⟩, moves, same⟩ := h
    cases same
    split at moves
    · rename_i answered
      obtain ⟨V, moved, result⟩ := Option.map_eq_some_iff.mp moves
      cases result
      exact .next (ih reached) answered moved
    · cases moves

/-- Jobs one after the other, each a lone session cut short wherever it may fail, with the
    history of them all. `E` is what else may change in between. -/
inductive Turns [DecidableEq κ] (A : ε → ρ → Prop) (K : J → Prop)
    (program : J → Prog σ μ ω κ ε ρ χ α)
    (E : σ → σ → Prop) (db : σ) : List (J × Event σ ω ε) → σ → Prop where
  | start : Turns A K program E db [] db
  | aside {history s t} (before : Turns A K program E db history s) (change : E s t) :
      Turns A K program E db history t
  | turn {history trail s} {j : J} {S : Lone σ μ ω κ ε ρ χ α} (before : Turns A K program E db history s)
      (kind : K j) (trace : Trace A (initial s fun _ => program j) trail S) :
      Turns A K program E db (history ++ trail.map (Prod.mk j)) S.db

def takeTurns [DecidableEq κ] (A : ε → ρ → Prop) [∀ request r, Decidable (A request r)]
    (program : J → Prog σ μ ω κ ε ρ χ α) (db : σ) (plan : List (J × List (Action Unit ρ))) :
    Option (List (J × Event σ ω ε) × σ) :=
  plan.foldlM (fun point turn =>
    (follow A (initial point.2 fun _ => program turn.1) turn.2).map
      (fun out => (point.1 ++ out.1.map (Prod.mk turn.1), out.2.db))) ([], db)

theorem turns_of_plan [DecidableEq κ] {A : ε → ρ → Prop} [∀ request r, Decidable (A request r)]
    {K : J → Prop} {program : J → Prog σ μ ω κ ε ρ χ α} {E : σ → σ → Prop} {db s : σ}
    {plan : List (J × List (Action Unit ρ))} {history : List (J × Event σ ω ε)}
    (kinds : ∀ turn ∈ plan, K turn.1) (h : takeTurns A program db plan = some (history, s)) :
    Turns A K program E db history s := by
  induction plan using List.reverseRecOn generalizing history s with
  | nil =>
    cases h
    exact .start
  | append_singleton plan turn ih =>
    simp only [takeTurns, List.foldlM_append, List.foldlM_cons, List.foldlM_nil, Option.bind_eq_bind,
      Option.bind_eq_some_iff] at h
    obtain ⟨⟨earlier, t⟩, reached, ⟨later, u⟩, moves, same⟩ := h
    cases same
    obtain ⟨⟨trail, S⟩, followed, result⟩ := Option.map_eq_some_iff.mp moves
    cases result
    have before := ih (fun turn mem => kinds turn (List.mem_append_left _ mem)) reached
    exact .turn before (kinds turn (by simp)) (trace_of_follow followed)

/-- Whatever fails, the program calls only where `C` holds of the committed state, commits
    only what `G` allows, and ends in `Q`. -/
def careful (A : ε → ρ → Prop) (C : ε → σ → Prop) (G : List ω → σ → Prop) :
    Prog σ μ ω κ ε ρ χ α → (Except χ α → Local σ μ ω ε → Prop) → Local σ μ ω ε → Prop
  | .ret a, Q, s => Q (.ok a) s
  | .raise x, Q, s => Q (.error x) s
  | .stmt _ writes memo next fault, Q, s =>
      careful A C G (next s.seen s.memory) Q
        { s with pending := s.pending ++ writes s.seen s.memory, memory := memo s.seen s.memory } ∧
      careful A C G fault Q { s with pending := [] }
  | .call request next fault, Q, s =>
      C request s.db ∧ (∀ r, A request r → careful A C G (next r) Q s) ∧ careful A C G fault Q s
  | .commit next fault, Q, s =>
      G s.pending s.db ∧ careful A C G next Q { s with db := s.seen, pending := [] } ∧
      careful A C G fault Q { s with pending := [] }
  | .rollback next, Q, s => careful A C G next Q { s with pending := [], memory := default }

variable {A : ε → ρ → Prop} {C : ε → σ → Prop} {G : List ω → σ → Prop}

theorem careful_mono {p : Prog σ μ ω κ ε ρ χ α} {Q Q' : Except χ α → Local σ μ ω ε → Prop}
    {s : Local σ μ ω ε} (weaker : ∀ r u, Q r u → Q' r u) (h : careful A C G p Q s) :
    careful A C G p Q' s := by
  induction p generalizing s with
  | ret a => exact weaker _ _ h
  | raise x => exact weaker _ _ h
  | stmt rows writes memo next fault ihn ihf => exact ⟨ihn _ _ h.1, ihf h.2⟩
  | call request next fault ihn ihf => exact ⟨h.1, fun r ok => ihn r (h.2.1 r ok), ihf h.2.2⟩
  | commit next fault ihn ihf => exact ⟨h.1, ihn h.2.1, ihf h.2.2⟩
  | rollback next ih => exact ih h

theorem seq_careful {p : Prog σ μ ω κ ε ρ χ α} {f : α → Prog σ μ ω κ ε ρ χ β}
    {Q : Except χ β → Local σ μ ω ε → Prop} {s : Local σ μ ω ε}
    (h : careful A C G p (fun r u => match r with
      | .ok a => careful A C G (f a) Q u
      | .error x => Q (.error x) u) s) : careful A C G (p >>= f) Q s := by
  change careful A C G (p.bind f) Q s
  induction p generalizing s with
  | ret a => exact h
  | raise x => exact h
  | stmt rows writes memo next fault ihn ihf => exact ⟨ihn _ _ h.1, ihf h.2⟩
  | call request next fault ihn ihf => exact ⟨h.1, fun r ok => ihn r (h.2.1 r ok), ihf h.2.2⟩
  | commit next fault ihn ihf => exact ⟨h.1, ihn h.2.1, ihf h.2.2⟩
  | rollback next ih => exact ih h

def Asks (P : ε → Prop) : Prog σ μ ω κ ε ρ χ α → Prop
  | .ret _ => True
  | .raise _ => True
  | .stmt _ _ _ next fault => (∀ s m, Asks P (next s m)) ∧ Asks P fault
  | .call request next fault => P request ∧ (∀ r, Asks P (next r)) ∧ Asks P fault
  | .commit next fault => Asks P next ∧ Asks P fault
  | .rollback next => Asks P next

omit [Store ω σ κ] [Inhabited μ] in
theorem asks_anything (p : Prog σ μ ω κ ε ρ χ α) : Asks (fun _ => True) p := by
  induction p with
  | ret a => trivial
  | raise x => trivial
  | stmt rows writes memo next fault ihn ihf => exact ⟨fun s m => ihn s m, ihf⟩
  | call request next fault ihn ihf => exact ⟨trivial, ihn, ihf⟩
  | commit next fault ihn ihf => exact ⟨ihn, ihf⟩
  | rollback next ih => exact ih

omit [Store ω σ κ] [Inhabited μ] in
theorem asks_seq {P : ε → Prop} {p : Prog σ μ ω κ ε ρ χ α} {f : α → Prog σ μ ω κ ε ρ χ β}
    (first : Asks P p) (rest : ∀ a, Asks P (f a)) : Asks P (p >>= f) := by
  change Asks P (p.bind f)
  induction p with
  | ret a => exact rest a
  | raise x => trivial
  | stmt rows writes memo next fault ihn ihf => exact ⟨fun s m => ihn s m (first.1 s m), ihf first.2⟩
  | call request next fault ihn ihf => exact ⟨first.1, fun r => ihn r (first.2.1 r), ihf first.2.2⟩
  | commit next fault ihn ihf => exact ⟨ihn first.1, ihf first.2⟩
  | rollback next ih => exact ih first

omit [Store ω σ κ] [Inhabited μ] in
theorem asks_handle {P : ε → Prop} {p : Prog σ μ ω κ ε ρ χ α} {h : χ → Prog σ μ ω κ ε ρ χ α}
    (first : Asks P p) (rest : ∀ x, Asks P (h x)) : Asks P (p.handle h) := by
  induction p with
  | ret a => trivial
  | raise x => exact rest x
  | stmt rows writes memo next fault ihn ihf => exact ⟨fun s m => ihn s m (first.1 s m), ihf first.2⟩
  | call request next fault ihn ihf => exact ⟨first.1, fun r => ihn r (first.2.1 r), ihf first.2.2⟩
  | commit next fault ihn ihf => exact ⟨ihn first.1, ihf first.2⟩
  | rollback next ih => exact ih first

theorem emits_careful {P : ω → Prop} {P' : ε → Prop} {p : Prog σ μ ω κ ε ρ χ α}
    {s : Local σ μ ω ε} (asked : ∀ request db, P' request → C request db)
    (allowed : ∀ ws db, (∀ w ∈ ws, P w) → G ws db) (asks : Asks P' p) (emits : Emits P p)
    (pending : ∀ w ∈ s.pending, P w) : careful A C G p (fun _ _ => True) s := by
  have none_left : ∀ w ∈ ([] : List ω), P w := by simp
  induction p generalizing s with
  | ret a => trivial
  | raise x => trivial
  | stmt rows writes memo next fault ihn ihf =>
    constructor
    · apply ihn _ _ (asks.1 _ _) (emits.1 _ _).2
      intro w mem
      rcases List.mem_append.mp mem with old | new
      · exact pending w old
      · exact (emits.1 _ _).1 w new
    · exact ihf asks.2 emits.2 none_left
  | call request next fault ihn ihf =>
    exact ⟨asked _ _ asks.1, fun r _ => ihn r (asks.2.1 r) (emits.1 r) pending,
      ihf asks.2.2 emits.2 pending⟩
  | commit next fault ihn ihf =>
    exact ⟨allowed _ _ pending, ihn asks.1 emits.1 none_left, ihf asks.2 emits.2 none_left⟩
  | rollback next ih => exact ih asks emits none_left

inductive Chain (C : ε → σ → Prop) (G : List ω → σ → Prop) (db : σ) :
    List (Event σ ω ε) → σ → Prop where
  | start : Chain C G db [] db
  | asked {history s} {request : ε} (before : Chain C G db history s) (ok : C request s) :
      Chain C G db (history ++ [.asked request s]) s
  | committed {history s} {ws : List ω} (before : Chain C G db history s) (ok : G ws s) :
      Chain C G db (history ++ [.committed ws (applyAll ws s)]) (applyAll ws s)

def standing (S : Lone σ μ ω κ ε ρ χ α) : Local σ μ ω ε :=
  ⟨S.db, (S.session ()).pending, (S.session ()).memory, []⟩

variable [DecidableEq κ] {S T U : Lone σ μ ω κ ε ρ χ α} {history : List (Event σ ω ε)}

theorem step_careful {a : Action Unit ρ} (answered : Answered A T a) (moves : step T a = some U)
    (stands : careful A C G (T.session ()).prog (fun _ _ => True) (standing T))
    (chain : Chain C G S.db history T.db) :
    Chain C G S.db (history ++ happens T a) U.db ∧
      careful A C G (U.session ()).prog (fun _ _ => True) (standing U) := by
  have silent : ∀ {V : Lone σ μ ω κ ε ρ χ α}, V.db = T.db → Chain C G S.db (history ++ []) V.db := by
    intro V same
    rw [List.append_nil, same]
    exact chain
  cases a with
  | run i =>
    simp only [step, runStep] at moves
    cases prog : (T.session ()).prog with
    | stmt rows writes memo next fault =>
      rw [prog] at stands
      simp only [prog, happens] at moves ⊢
      split at moves
      · cases moves
        apply And.intro (silent rfl)
        simpa [standing, become_self, Local.seen] using stands.1
      · cases moves
    | commit next fault =>
      rw [prog] at stands
      simp only [prog, happens] at moves ⊢
      split at moves
      · cases moves
        apply And.intro (.committed chain stands.1)
        simpa [standing, become_self, Local.seen] using stands.2.1
      · cases moves
    | rollback next =>
      rw [prog] at stands
      simp only [prog, happens, Option.some.injEq] at moves ⊢
      subst moves
      apply And.intro (silent rfl)
      have onward :
          careful A C G next (fun _ _ => True) { standing T with pending := [], memory := default } :=
        stands
      simpa [standing, become_self] using onward
    | call request next fault => simp [prog] at moves
    | ret a =>
      simp only [prog, happens, Option.some.injEq] at moves ⊢
      subst moves
      apply And.intro (silent rfl)
      simp [become_self, careful]
    | raise x =>
      simp only [prog, happens, Option.some.injEq] at moves ⊢
      subst moves
      apply And.intro (silent rfl)
      simp [become_self, careful]
  | reply i r =>
    simp only [step] at moves
    split at moves
    · rename_i request next fault prog
      rw [prog] at stands
      cases moves
      simp only [happens, prog]
      apply And.intro (.asked chain stands.1)
      simp only [Answered, prog] at answered
      have onward := stands.2.1 r answered
      simpa [standing, become_self] using onward
    · cases moves
  | lose i =>
    simp only [step] at moves
    split at moves
    · rename_i request next fault prog
      rw [prog] at stands
      cases moves
      simp only [happens, prog]
      apply And.intro (.asked chain stands.1)
      simpa [standing, become_self] using stands.2.2
    · cases moves
  | fault i =>
    simp only [step, faultStep] at moves
    cases prog : (T.session ()).prog with
    | stmt rows writes memo next fault =>
      rw [prog] at stands
      simp only [prog, happens, Option.some.injEq] at moves ⊢
      subst moves
      apply And.intro (silent rfl)
      simpa [standing, become_self] using stands.2
    | call request next fault =>
      rw [prog] at stands
      simp only [prog, happens, Option.some.injEq] at moves ⊢
      subst moves
      apply And.intro (.asked chain stands.1)
      simpa [standing, become_self] using stands.2.2
    | commit next fault =>
      rw [prog] at stands
      simp only [prog, happens, Option.some.injEq] at moves ⊢
      subst moves
      apply And.intro (silent rfl)
      simpa [standing, become_self] using stands.2.2
    | _ => simp [prog] at moves

/-- The rule for lone runs: the history of a careful program keeps to its conditions. -/
theorem trace_chain (stands : careful A C G (S.session ()).prog (fun _ _ => True) (standing S))
    (trace : Trace A S history T) : Chain C G S.db history T.db := by
  have both : Chain C G S.db history T.db ∧
      careful A C G (T.session ()).prog (fun _ _ => True) (standing T) := by
    induction trace with
    | start => exact ⟨.start, stands⟩
    | next before answered moves ih => exact step_careful answered moves ih.2 ih.1
  exact both.1

end

end LoneSessions
