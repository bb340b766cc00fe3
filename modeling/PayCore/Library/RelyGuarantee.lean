import PayCore.Library.SessionSystem

/- A program logic for sessions at READ COMMITTED. Every commit of every session
   meets a guarantee `G`; what a session may rely on between two of its own
   statements is then any number of such commits that leave its locked rows alone. -/
namespace RelyGuarantee
open SessionProgram SessionSystem

variable {σ μ ω κ ε ρ χ α β ι : Type}

structure View (σ μ ω κ : Type) where
  db : σ
  pending : List ω
  memory : μ
  held : κ → Prop

abbrev Post (σ μ ω κ χ α : Type) := Except χ α → View σ μ ω κ → Prop

section
variable [Store ω σ κ]

inductive Rely (G : List ω → σ → Prop) (held : κ → Prop) : σ → σ → Prop where
  | refl (s : σ) : Rely G held s s
  | step {s t : σ} {ws : List ω} (before : Rely G held s t) (ok : G ws t)
      (spares : ∀ r, held r → r ∉ touched ws) : Rely G held s (applyAll ws t)

theorem rely_trans {G : List ω → σ → Prop} {held : κ → Prop} {s t u : σ}
    (left : Rely G held s t) (right : Rely G held t u) : Rely G held s u := by
  induction right with
  | refl => exact left
  | step before ok spares ih => exact .step ih ok spares

theorem rely_frame {G : List ω → σ → Prop} {held : κ → Prop} {s t : σ}
    (rely : Rely G held s t) {r : κ} (mine : held r) : Store.Same ω r s t := by
  induction rely with
  | refl => exact Store.same_refl r s
  | step before ok spares ih =>
    exact Store.same_trans ih (applyAll_frame _ (spares r mine))

theorem rely_keeps {G : List ω → σ → Prop} {held : κ → Prop} {s t : σ} {P : σ → Prop}
    (rely : Rely G held s t) (keeps : ∀ ws u, G ws u → P u → P (applyAll ws u)) (h : P s) :
    P t := by
  induction rely with
  | refl => exact h
  | step before ok spares ih => exact keeps _ _ ok ih

theorem rely_weaken {G : List ω → σ → Prop} {held less : κ → Prop} {s t : σ}
    (rely : Rely G held s t) (fewer : ∀ r, less r → held r) : Rely G less s t := by
  induction rely with
  | refl => exact .refl _
  | step before ok spares ih => exact .step ih ok (fun r hr => spares r (fewer r hr))

variable [Inhabited μ]

def Nothing : κ → Prop := fun _ => False

/-- Whatever the others commit between its statements (`R`), the program commits
   only what `G` allows and ends in `Q`. A statement takes effect only where `F` holds. -/
def wp (R : (κ → Prop) → σ → σ → Prop) (G : List ω → σ → Prop)
    (F : σ → μ → List κ → List ω → Prop) :
    Prog σ μ ω κ ε ρ χ α → Post σ μ ω κ χ α → View σ μ ω κ → Prop
  | .ret a, Q, v => Q (.ok a) v
  | .raise x, Q, v => Q (.error x) v
  | .stmt rows writes memo next fault, Q, v => ∀ db, R v.held v.db db →
      let seen := applyAll v.pending db
      let adds := writes seen v.memory
      wp R G F fault Q { v with db := db, pending := [] } ∧
      (F seen v.memory rows adds →
        wp R G F (next seen v.memory) Q
          ⟨db, v.pending ++ adds, memo seen v.memory, fun r => v.held r ∨ r ∈ needed rows adds⟩)
  | .call _ next fault, Q, v => ∀ db, R v.held v.db db →
      (∀ r, wp R G F (next r) Q { v with db := db }) ∧ wp R G F fault Q { v with db := db }
  | .commit next fault, Q, v => ∀ db, R v.held v.db db →
      G v.pending db ∧
      wp R G F next Q ⟨applyAll v.pending db, [], v.memory, Nothing⟩ ∧
      wp R G F fault Q ⟨db, [], v.memory, Nothing⟩
  | .rollback next, Q, v => ∀ db, R v.held v.db db →
      wp R G F next Q ⟨db, [], default, Nothing⟩

variable {R : (κ → Prop) → σ → σ → Prop} {G : List ω → σ → Prop}
    {F : σ → μ → List κ → List ω → Prop}

theorem wp_bind (p : Prog σ μ ω κ ε ρ χ α) (f : α → Prog σ μ ω κ ε ρ χ β)
    (Q : Post σ μ ω κ χ β) (v : View σ μ ω κ) :
    wp R G F (p.bind f) Q v ↔
      wp R G F p (fun r u => match r with
        | .ok a => wp R G F (f a) Q u
        | .error x => Q (.error x) u) v := by
  induction p generalizing v with
  | ret a => rfl
  | raise x => rfl
  | stmt rows writes memo next fault ihn ihf => simp only [Prog.bind, wp, ihn, ihf]
  | call request next fault ihn ihf => simp only [Prog.bind, wp, ihn, ihf]
  | commit next fault ihn ihf => simp only [Prog.bind, wp, ihn, ihf]
  | rollback next ih => simp only [Prog.bind, wp, ih]

theorem wp_seq (p : Prog σ μ ω κ ε ρ χ α) (f : α → Prog σ μ ω κ ε ρ χ β)
    (Q : Post σ μ ω κ χ β) (v : View σ μ ω κ) :
    wp R G F (p >>= f) Q v ↔
      wp R G F p (fun r u => match r with
        | .ok a => wp R G F (f a) Q u
        | .error x => Q (.error x) u) v :=
  wp_bind p f Q v

theorem seq_wp {p : Prog σ μ ω κ ε ρ χ α} {f : α → Prog σ μ ω κ ε ρ χ β}
    {Q : Post σ μ ω κ χ β} {v : View σ μ ω κ} (h : wp R G F p (fun r u => match r with
        | .ok a => wp R G F (f a) Q u
        | .error x => Q (.error x) u) v) : wp R G F (p >>= f) Q v :=
  (wp_seq p f Q v).mpr h

theorem wp_handle (p : Prog σ μ ω κ ε ρ χ α) (h : χ → Prog σ μ ω κ ε ρ χ α)
    (Q : Post σ μ ω κ χ α) (v : View σ μ ω κ) :
    wp R G F (p.handle h) Q v ↔
      wp R G F p (fun r u => match r with
        | .ok a => Q (.ok a) u
        | .error x => wp R G F (h x) Q u) v := by
  induction p generalizing v with
  | ret a => rfl
  | raise x => rfl
  | stmt rows writes memo next fault ihn ihf => simp only [Prog.handle, wp, ihn, ihf]
  | call request next fault ihn ihf => simp only [Prog.handle, wp, ihn, ihf]
  | commit next fault ihn ihf => simp only [Prog.handle, wp, ihn, ihf]
  | rollback next ih => simp only [Prog.handle, wp, ih]

theorem handle_wp {p : Prog σ μ ω κ ε ρ χ α} {h : χ → Prog σ μ ω κ ε ρ χ α}
    {Q : Post σ μ ω κ χ α} {v : View σ μ ω κ} (body : wp R G F p (fun r u => match r with
        | .ok a => Q (.ok a) u
        | .error x => wp R G F (h x) Q u) v) : wp R G F (p.handle h) Q v :=
  (wp_handle p h Q v).mpr body

theorem wp_mono {p : Prog σ μ ω κ ε ρ χ α} {Q Q' : Post σ μ ω κ χ α} {v : View σ μ ω κ}
    (weaker : ∀ r u, Q r u → Q' r u) (h : wp R G F p Q v) : wp R G F p Q' v := by
  induction p generalizing v with
  | ret a => exact weaker _ _ h
  | raise x => exact weaker _ _ h
  | stmt rows writes memo next fault ihn ihf =>
    intro db rely
    exact ⟨ihf (h db rely).1, fun ok => ihn _ _ ((h db rely).2 ok)⟩
  | call request next fault ihn ihf =>
    intro db rely
    exact ⟨fun r => ihn r ((h db rely).1 r), ihf (h db rely).2⟩
  | commit next fault ihn ihf =>
    intro db rely
    obtain ⟨good, committed, failed⟩ := h db rely
    exact ⟨good, ihn committed, ihf failed⟩
  | rollback next ih =>
    intro db rely
    exact ih (h db rely)

theorem wp_condition {F' : σ → μ → List κ → List ω → Prop} {p : Prog σ μ ω κ ε ρ χ α}
    {Q : Post σ μ ω κ χ α} {v : View σ μ ω κ}
    (stronger : ∀ s m rows adds, F' s m rows adds → F s m rows adds)
    (h : wp R G F p Q v) : wp R G F' p Q v := by
  induction p generalizing v with
  | ret a => exact h
  | raise x => exact h
  | stmt rows writes memo next fault ihn ihf =>
    intro db rely
    exact ⟨ihf (h db rely).1, fun ok => ihn _ _ ((h db rely).2 (stronger _ _ _ _ ok))⟩
  | call request next fault ihn ihf =>
    intro db rely
    exact ⟨fun r => ihn r ((h db rely).1 r), ihf (h db rely).2⟩
  | commit next fault ihn ihf =>
    intro db rely
    obtain ⟨good, committed, failed⟩ := h db rely
    exact ⟨good, ihn committed, ihf failed⟩
  | rollback next ih =>
    intro db rely
    exact ih (h db rely)

theorem wp_guarantee {G' : List ω → σ → Prop} {p : Prog σ μ ω κ ε ρ χ α} {Q : Post σ μ ω κ χ α}
    {v : View σ μ ω κ} (weaker : ∀ ws s, G ws s → G' ws s) (h : wp R G F p Q v) : wp R G' F p Q v := by
  induction p generalizing v with
  | ret a => exact h
  | raise x => exact h
  | stmt rows writes memo next fault ihn ihf =>
    intro db rely
    exact ⟨ihf (h db rely).1, fun ok => ihn _ _ ((h db rely).2 ok)⟩
  | call request next fault ihn ihf =>
    intro db rely
    exact ⟨fun r => ihn r ((h db rely).1 r), ihf (h db rely).2⟩
  | commit next fault ihn ihf =>
    intro db rely
    obtain ⟨good, committed, failed⟩ := h db rely
    exact ⟨weaker _ _ good, ihn committed, ihf failed⟩
  | rollback next ih =>
    intro db rely
    exact ih (h db rely)

theorem wp_both {G' : List ω → σ → Prop} {p : Prog σ μ ω κ ε ρ χ α} {Q Q' : Post σ μ ω κ χ α}
    {v : View σ μ ω κ} (left : wp R G F p Q v) (right : wp R G' F p Q' v) :
    wp R (fun ws s => G ws s ∧ G' ws s) F p (fun r u => Q r u ∧ Q' r u) v := by
  induction p generalizing v with
  | ret a => exact ⟨left, right⟩
  | raise x => exact ⟨left, right⟩
  | stmt rows writes memo next fault ihn ihf =>
    intro db rely
    exact ⟨ihf (left db rely).1 (right db rely).1,
      fun ok => ihn _ _ ((left db rely).2 ok) ((right db rely).2 ok)⟩
  | call request next fault ihn ihf =>
    intro db rely
    exact ⟨fun r => ihn r ((left db rely).1 r) ((right db rely).1 r),
      ihf (left db rely).2 (right db rely).2⟩
  | commit next fault ihn ihf =>
    intro db rely
    obtain ⟨good, committed, failed⟩ := left db rely
    obtain ⟨good', committed', failed'⟩ := right db rely
    exact ⟨⟨good, good'⟩, ihn committed committed', ihf failed failed'⟩
  | rollback next ih =>
    intro db rely
    exact ih (left db rely) (right db rely)

theorem emits_wp {P : ω → Prop} {p : Prog σ μ ω κ ε ρ χ α} {v : View σ μ ω κ}
    (allowed : ∀ ws s, (∀ w ∈ ws, P w) → G ws s) (emits : Emits P p) (pending : ∀ w ∈ v.pending, P w) :
    wp R G F p (fun _ _ => True) v := by
  have none_left : ∀ w ∈ ([] : List ω), P w := by simp
  induction p generalizing v with
  | ret a => trivial
  | raise x => trivial
  | stmt rows writes memo next fault ihn ihf =>
    intro db _
    constructor
    · exact ihf emits.2 none_left
    · intro _
      apply ihn _ _ (emits.1 _ _).2
      intro w mem
      rcases List.mem_append.mp mem with old | new
      · exact pending w old
      · exact (emits.1 _ _).1 w new
  | call request next fault ihn ihf =>
    intro db _
    exact ⟨fun r => ihn r (emits.1 r) pending, ihf emits.2 pending⟩
  | commit next fault ihn ihf =>
    intro db _
    exact ⟨allowed _ _ pending, ihn emits.1 none_left, ihf emits.2 none_left⟩
  | rollback next ih =>
    intro db _
    exact ih emits none_left

theorem emits_wp_under {P : ω → Prop} {I : σ → Prop} {p : Prog σ μ ω κ ε ρ χ α} {v : View σ μ ω κ}
    (keeps : ∀ ws s, G ws s → I s → I (applyAll ws s))
    (allowed : ∀ ws s, I s → (∀ w ∈ ws, P w) → G ws s)
    (emits : Emits P p) (pending : ∀ w ∈ v.pending, P w) (holds : I v.db) :
    wp (Rely G) G F p (fun _ _ => True) v := by
  have none_left : ∀ w ∈ ([] : List ω), P w := by simp
  have later : ∀ {v : View σ μ ω κ} {db : σ}, I v.db → Rely G v.held v.db db → I db :=
    fun holds rely => rely_keeps rely keeps holds
  induction p generalizing v with
  | ret a => trivial
  | raise x => trivial
  | stmt rows writes memo next fault ihn ihf =>
    intro db rely
    constructor
    · exact ihf emits.2 none_left (later holds rely)
    · intro _
      apply ihn _ _ (emits.1 _ _).2 _ (later holds rely)
      intro w mem
      rcases List.mem_append.mp mem with old | new
      · exact pending w old
      · exact (emits.1 _ _).1 w new
  | call request next fault ihn ihf =>
    intro db rely
    exact ⟨fun r => ihn r (emits.1 r) pending (later holds rely), ihf emits.2 pending (later holds rely)⟩
  | commit next fault ihn ihf =>
    intro db rely
    have here := later holds rely
    have good := allowed _ _ here pending
    exact ⟨good, ihn emits.1 none_left (keeps _ _ good here), ihf emits.2 none_left here⟩
  | rollback next ih =>
    intro db rely
    exact ih emits none_left (later holds rely)

/-- A program whose pending writes keep `J` towards the committed state. `J` looks only at
   rows that those writes lock, so no commit of another session spoils it. -/
theorem locked_wp {P : ω → Prop} {J : List ω → σ → Prop} {p : Prog σ μ ω κ ε ρ χ α}
    {v : View σ μ ω κ} (blank : ∀ s, J [] s)
    (stays : ∀ ws s t, J ws s → (∀ r ∈ touched ws, Store.Same ω r s t) → J ws t)
    (grows : ∀ ws adds s m rows, J ws s → (∀ w ∈ adds, P w) → F (applyAll ws s) m rows adds →
      J (ws ++ adds) s)
    (fits : ∀ ws s, J ws s → G ws s) (emits : Emits P p) (holds : J v.pending v.db)
    (locked : ∀ r ∈ touched v.pending, v.held r) :
    wp (Rely G) G F p (fun _ _ => True) v := by
  have still : ∀ {v : View σ μ ω κ} {db : σ}, J v.pending v.db →
      (∀ r ∈ touched v.pending, v.held r) →
      Rely G v.held v.db db → J v.pending db := by
    intro v db holds locked rely
    exact stays _ _ _ holds (fun r mem => rely_frame rely (locked r mem))
  induction p generalizing v with
  | ret a => trivial
  | raise x => trivial
  | stmt rows writes memo next fault ihn ihf =>
    intro db rely
    constructor
    · exact ihf emits.2 (blank db) (by simp)
    · intro ok
      apply ihn _ _ (emits.1 _ _).2 (grows _ _ _ _ _ (still holds locked rely) (emits.1 _ _).1 ok)
      intro r mem
      rw [touched_append, List.mem_append] at mem
      rcases mem with old | new
      · exact .inl (locked r old)
      · exact .inr (List.mem_append_right _ new)
  | call request next fault ihn ihf =>
    intro db rely
    have here := still holds locked rely
    exact ⟨fun r => ihn r (emits.1 r) here locked, ihf emits.2 here locked⟩
  | commit next fault ihn ihf =>
    intro db rely
    have here := still holds locked rely
    exact ⟨fits _ _ here, ihn emits.1 (blank _) (by simp), ihf emits.2 (blank _) (by simp)⟩
  | rollback next ih =>
    intro db rely
    exact ih emits (blank db) (by simp)

def Stable (R : (κ → Prop) → σ → σ → Prop) (Q : Post σ μ ω κ χ α) : Prop :=
  ∀ r v db, R v.held v.db db → Q r v → Q r { v with db := db }

theorem wp_stable {p : Prog σ μ ω κ ε ρ χ α} {Q : Post σ μ ω κ χ α} {v : View σ μ ω κ} {db : σ}
    (trans : ∀ held s t u, R held s t → R held t u → R held s u) (stable : Stable R Q)
    (rely : R v.held v.db db) (h : wp R G F p Q v) : wp R G F p Q { v with db := db } := by
  cases p with
  | ret a => exact stable _ v db rely h
  | raise x => exact stable _ v db rely h
  | stmt rows writes memo next fault =>
    intro later more
    exact h later (trans _ _ _ _ rely more)
  | call request next fault =>
    intro later more
    exact h later (trans _ _ _ _ rely more)
  | commit next fault =>
    intro later more
    exact h later (trans _ _ _ _ rely more)
  | rollback next =>
    intro later more
    exact h later (trans _ _ _ _ rely more)

end

section
variable [Store ω σ κ] [Inhabited μ] [DecidableEq ι] [DecidableEq κ]

def viewOf (S : System ι σ μ ω κ ε ρ χ α) (i : ι) : View σ μ ω κ :=
  ⟨S.db, (S.session i).pending, (S.session i).memory, fun r => S.owner r = some i⟩

/-- Every session is verified from where it stands, and holds the rows it has written. Session `i`
   commits what `O i` allows, and relies on `G` of the others. -/
structure SafeBy (G : List ω → σ → Prop) (O : ι → List ω → σ → Prop)
    (F : ι → σ → μ → List κ → List ω → Prop) (Q : ι → Except χ α → σ → Prop)
    (S : System ι σ μ ω κ ε ρ χ α) : Prop where
  verified : ∀ i, wp (Rely G) (O i) (F i) (S.session i).prog (fun r v => Q i r v.db) (viewOf S i)
  owned : ∀ i r, r ∈ touched (S.session i).pending → S.owner r = some i

abbrev SafeWhen (G : List ω → σ → Prop) (K : ι → List ω → σ → Prop)
    (F : ι → σ → μ → List κ → List ω → Prop)
    (Q : ι → Except χ α → σ → Prop) : System ι σ μ ω κ ε ρ χ α → Prop :=
  SafeBy G (fun i ws s => K i ws s → G ws s) F Q

structure Safe (G : List ω → σ → Prop) (F : ι → σ → μ → List κ → List ω → Prop)
    (Q : ι → Except χ α → σ → Prop) (S : System ι σ μ ω κ ε ρ χ α) : Prop where
  verified : ∀ i, wp (Rely G) G (F i) (S.session i).prog (fun r v => Q i r v.db) (viewOf S i)
  owned : ∀ i r, r ∈ touched (S.session i).pending → S.owner r = some i

def Lasting (G : List ω → σ → Prop) (Q : ι → Except χ α → σ → Prop) : Prop :=
  ∀ i r s t, Rely G Nothing s t → Q i r s → Q i r t

variable {G : List ω → σ → Prop} {K O : ι → List ω → σ → Prop}
    {F : ι → σ → μ → List κ → List ω → Prop}
  {Q : ι → Except χ α → σ → Prop} {S T : System ι σ μ ω κ ε ρ χ α}

omit [Inhabited μ] [DecidableEq ι] [DecidableEq κ] in
theorem lasting_stable (lasting : Lasting G Q) (i : ι) :
    Stable (Rely G) (fun r (v : View σ μ ω κ) => Q i r v.db) :=
  fun r _ _ rely h => lasting i r _ _ (rely_weaken rely (fun _ none => none.elim)) h

omit [DecidableEq κ] in
theorem safe_after (lasting : Lasting G Q) (safe : SafeBy G O F Q S) (i : ι)
    (same : ∀ j, j ≠ i → T.session j = S.session j)
    (locks : ∀ j r, j ≠ i → (T.owner r = some j ↔ S.owner r = some j))
    (moves : ∀ j, j ≠ i → Rely G (fun r => S.owner r = some j) S.db T.db)
    (mine : wp (Rely G) (O i) (F i) (T.session i).prog (fun r v => Q i r v.db) (viewOf T i))
    (owned : ∀ r, r ∈ touched (T.session i).pending → T.owner r = some i) :
    SafeBy G O F Q T := by
  constructor
  · intro j
    by_cases self : j = i
    · rw [self]
      exact mine
    · have view : viewOf T j = { viewOf S j with db := T.db } := by
        simp only [viewOf, same j self, View.mk.injEq, true_and]
        funext r
        exact propext (locks j r self)
      rw [view, same j self]
      exact wp_stable (fun _ _ _ _ => rely_trans) (lasting_stable lasting j) (moves j self)
        (safe.verified j)
  · intro j r touches
    by_cases self : j = i
    · rw [self] at touches ⊢
      exact owned r touches
    · rw [same j self] at touches
      exact (locks j r self).mpr (safe.owned j r touches)

omit [Store ω σ κ] [Inhabited μ] [DecidableEq κ] in
theorem released_nothing (owner : κ → Option ι) (i : ι) :
    (fun r => release owner i r = some i) = Nothing := by
  funext r
  exact propext ⟨fun h => (release_mine owner i r h).elim, fun h => h.elim⟩

inductive Advance (G : List ω → σ → Prop) (O : ι → List ω → σ → Prop)
    (S T : System ι σ μ ω κ ε ρ χ α) : Prop where
  | quiet (db : T.db = S.db) (log : T.log = S.log)
  | commit (i : ι) (ws : List ω) (own : O i ws S.db) (ok : G ws S.db) (db : T.db = applyAll ws S.db)
      (log : T.log = S.log ++ [(i, ws)])

omit [DecidableEq κ] in
theorem ended_safe (lasting : Lasting G Q) (safe : SafeBy G O F Q S) (i : ι)
    (p : Prog σ μ ω κ ε ρ χ α) (aborted : Bool) (mine : wp (Rely G) (O i) (F i) p (fun r v => Q i r v.db)
      ⟨S.db, [], (S.session i).memory, Nothing⟩) :
    SafeBy G O F Q { S.become i ⟨p, [], (S.session i).memory, aborted⟩ with
      owner := release S.owner i } := by
  refine safe_after lasting safe i ?_ (fun j r other => release_other other)
    (fun j _ => .refl _) ?_ ?_
  · intro j other
    exact become_other _ other
  · simpa only [viewOf, become_self, become_db, released_nothing] using mine
  · intro r touches
    simp [become_self] at touches

theorem stmt_safe (lasting : Lasting G Q) (safe : SafeBy G O F Q S) {i : ι}
    {rows : List κ} {writes : σ → μ → List ω} {memo : σ → μ → μ}
    {next : σ → μ → Prog σ μ ω κ ε ρ χ α} {fault : Prog σ μ ω κ ε ρ χ α}
    (prog : (S.session i).prog = .stmt rows writes memo next fault)
    (meets : Meets F S (.run i : Action ι ρ)) (moves : runStep i S = some T) : SafeBy G O F Q T := by
  have ok := meets i rows writes memo next fault rfl prog
  have verified := safe.verified i
  rw [prog] at verified
  have after := (verified S.db (.refl _)).2 ok
  simp only [runStep, prog] at moves
  split at moves
  · rename_i guard
    obtain ⟨_, avail⟩ := guard
    cases moves
    refine safe_after lasting safe i ?_ (fun j r other => take_other other avail)
      (fun j _ => .refl _) ?_ ?_
    · intro j other
      exact become_other _ other
    · simp only [viewOf, become_self, become_db, take_mine]
      exact after
    · intro r touches
      simp only [become_self, touched_append, List.mem_append] at touches
      refine (take_mine r).mpr ?_
      rcases touches with old | new
      · exact Or.inl (safe.owned i r old)
      · exact Or.inr (by simp [needed, new])
  · cases moves

theorem commit_safe (lasting : Lasting G Q) (safe : SafeBy G O F Q S) {i : ι}
    {next fault : Prog σ μ ω κ ε ρ χ α} (prog : (S.session i).prog = .commit next fault)
    (commits : Commits (fun i ws s => O i ws s → G ws s) S (.run i : Action ι ρ))
    (moves : runStep i S = some T) :
    SafeBy G O F Q T ∧ Advance G O S T := by
  have verified := safe.verified i
  rw [prog] at verified
  obtain ⟨own, committed, _⟩ := verified S.db (.refl _)
  have good : G (S.session i).pending S.db := commits i next fault rfl prog own
  simp only [runStep, prog] at moves
  split at moves
  · cases moves
    refine ⟨safe_after lasting safe i ?_ (fun j r other => release_other other) ?_ ?_ ?_, ?_⟩
    · intro j other
      exact become_other _ other
    · -- What `i` commits touches only rows it owns, so none that `j` holds.
      intro j other
      refine .step (.refl _) good ?_
      intro r held touches
      have mine := safe.owned i r touches
      rw [held] at mine
      exact other (Option.some.inj mine)
    · simp only [viewOf, become_self, released_nothing]
      exact committed
    · intro r touches
      simp [become_self] at touches
    · exact .commit i (S.session i).pending own good rfl rfl
  · cases moves

omit [DecidableEq κ] in
theorem fault_safe (lasting : Lasting G Q) (safe : SafeBy G O F Q S) {i : ι}
    (moves : faultStep i S = some T) : SafeBy G O F Q T ∧ Advance G O S T := by
  have verified := safe.verified i
  cases prog : (S.session i).prog with
  | stmt rows writes memo next fault =>
    rw [prog] at verified
    simp only [faultStep, prog, Option.some.injEq] at moves
    subst moves
    refine ⟨safe_after lasting safe i ?_ (fun j r _ => Iff.rfl) (fun j _ => .refl _) ?_ ?_,
      .quiet rfl rfl⟩
    · intro j other
      exact become_other _ other
    · simp only [viewOf, become_self, become_db]
      exact (verified S.db (.refl _)).1
    · intro r touches
      simp [become_self] at touches
  | call request next fault =>
    rw [prog] at verified
    simp only [faultStep, prog, Option.some.injEq] at moves
    subst moves
    refine ⟨safe_after lasting safe i ?_ (fun j r _ => Iff.rfl) (fun j _ => .refl _) ?_ ?_,
      .quiet rfl rfl⟩
    · intro j other
      exact become_other _ other
    · simp only [viewOf, become_self, become_db]
      exact (verified S.db (.refl _)).2
    · intro r touches
      simp only [become_self] at touches
      exact safe.owned i r touches
  | commit next fault =>
    rw [prog] at verified
    simp only [faultStep, prog, Option.some.injEq] at moves
    subst moves
    exact ⟨ended_safe lasting safe i fault true (verified S.db (.refl _)).2.2, .quiet rfl rfl⟩
  | ret a => simp [faultStep, prog] at moves
  | raise x => simp [faultStep, prog] at moves
  | rollback next => simp [faultStep, prog] at moves

omit [DecidableEq κ] in
theorem call_safe (lasting : Lasting G Q) (safe : SafeBy G O F Q S) {i : ι}
    {p : Prog σ μ ω κ ε ρ χ α} {calls : List (ι × ε)}
    (mine : wp (Rely G) (O i) (F i) p (fun r v => Q i r v.db) (viewOf S i)) :
    SafeBy G O F Q { S.become i { S.session i with prog := p } with calls := calls } := by
  refine safe_after lasting safe i ?_ (fun j r _ => Iff.rfl) (fun j _ => .refl _) ?_ ?_
  · intro j other
    exact become_other _ other
  · simpa only [viewOf, become_self, become_db, become_owner] using mine
  · intro r touches
    simp only [become_self] at touches
    exact safe.owned i r touches

theorem step_safe (lasting : Lasting G Q) (safe : SafeBy G O F Q S) {a : Action ι ρ}
    (meets : Meets F S a) (commits : Commits (fun i ws s => O i ws s → G ws s) S a)
    (moves : step S a = some T) :
    SafeBy G O F Q T ∧ Advance G O S T := by
  cases a with
  | run i =>
    have verified := safe.verified i
    cases prog : (S.session i).prog with
    | stmt rows writes memo next fault =>
      refine ⟨stmt_safe lasting safe prog meets moves, ?_⟩
      simp only [step, runStep, prog] at moves
      split at moves
      · cases moves
        exact .quiet rfl rfl
      · cases moves
    | commit next fault => exact commit_safe lasting safe prog commits moves
    | rollback next =>
      rw [prog] at verified
      simp only [step, runStep, prog, Option.some.injEq] at moves
      subst moves
      refine ⟨safe_after lasting safe i ?_ (fun j r other => release_other other)
        (fun j _ => .refl _) ?_ ?_, .quiet rfl rfl⟩
      · intro j other
        exact become_other _ other
      · simp only [viewOf, become_self, become_db, released_nothing]
        exact verified S.db (.refl _)
      · intro r touches
        simp [become_self] at touches
    | call request next fault => simp [step, runStep, prog] at moves
    | ret a =>
      rw [prog] at verified
      simp only [step, runStep, prog, Option.some.injEq] at moves
      subst moves
      exact ⟨ended_safe lasting safe i (.ret a) false verified, .quiet rfl rfl⟩
    | raise x =>
      rw [prog] at verified
      simp only [step, runStep, prog, Option.some.injEq] at moves
      subst moves
      exact ⟨ended_safe lasting safe i (.raise x) false verified, .quiet rfl rfl⟩
  | fault i => exact fault_safe lasting safe moves
  | reply i r =>
    have verified := safe.verified i
    simp only [step] at moves
    split at moves
    · rename_i request next fault prog
      rw [prog] at verified
      cases moves
      exact ⟨call_safe lasting safe ((verified S.db (.refl _)).1 r), .quiet rfl rfl⟩
    · cases moves
  | lose i =>
    have verified := safe.verified i
    simp only [step] at moves
    split at moves
    · rename_i request next fault prog
      rw [prog] at verified
      cases moves
      exact ⟨call_safe lasting safe (verified S.db (.refl _)).2, .quiet rfl rfl⟩
    · cases moves

abbrev RunWhen (K : ι → List ω → σ → Prop) (F : ι → σ → μ → List κ → List ω → Prop) :
    System ι σ μ ω κ ε ρ χ α → System ι σ μ ω κ ε ρ χ α → Prop :=
  Run (fun S (a : Action ι ρ) => Meets F S a ∧ Commits K S a)

theorem run_safe_by (lasting : Lasting G Q) (safe : SafeBy G O F Q S)
    (run : RunWhen (fun i ws s => O i ws s → G ws s) F S T) : SafeBy G O F Q T := by
  induction run with
  | start => exact safe
  | next before ok moves ih => exact (step_safe lasting ih ok.1 ok.2 moves).1

/-- The induction rule for runs of verified sessions: what every guaranteed commit
   keeps of the log and the committed state, every run keeps. -/
theorem run_keeps_by (lasting : Lasting G Q) (safe : SafeBy G O F Q S)
    (run : RunWhen (fun i ws s => O i ws s → G ws s) F S T) {P : List (ι × List ω) → σ → Prop}
    (keeps : ∀ i ws log s, O i ws s → G ws s → P log s → P (log ++ [(i, ws)]) (applyAll ws s))
    (h : P S.log S.db) : P T.log T.db := by
  induction run with
  | start => exact h
  | next before ok moves ih =>
    have reached := run_safe_by lasting safe before
    rcases (step_safe lasting reached ok.1 ok.2 moves).2 with ⟨db, log⟩ | ⟨i, ws, own, good, db, log⟩
    · rw [db, log]
      exact ih
    · rw [db, log]
      exact keeps i ws _ _ own good ih

omit [Store ω σ κ] [Inhabited μ] [DecidableEq ι] [DecidableEq κ] in
theorem commits_mono {K' : ι → List ω → σ → Prop} (weaker : ∀ i ws s, K i ws s → K' i ws s)
    {a : Action ι ρ} (commits : Commits K S a) : Commits K' S a :=
  fun i next fault moves prog => weaker _ _ _ (commits i next fault moves prog)

theorem run_by (run : RunWhen K F S T) : RunWhen (fun i ws s => (K i ws s → G ws s) → G ws s) F S T := by
  apply run_weaken _ run
  rintro S a ⟨meets, commits⟩
  exact ⟨meets, commits_mono (fun _ _ _ holds allowed => allowed holds) commits⟩

theorem run_safe_when (lasting : Lasting G Q) (safe : SafeWhen G K F Q S) (run : RunWhen K F S T) :
    SafeWhen G K F Q T :=
  run_safe_by lasting safe (run_by run)

theorem run_keeps_when (lasting : Lasting G Q) (safe : SafeWhen G K F Q S) (run : RunWhen K F S T)
    {P : List (ι × List ω) → σ → Prop}
    (keeps : ∀ i ws log s, G ws s → P log s → P (log ++ [(i, ws)]) (applyAll ws s))
    (h : P S.log S.db) : P T.log T.db :=
  run_keeps_by lasting safe (run_by run) (fun i ws log s _ good before => keeps i ws log s good before) h

omit [DecidableEq ι] [DecidableEq κ] in
theorem safe_unconditional : Safe G F Q S ↔ SafeWhen G (fun _ _ _ => True) F Q S := by
  constructor
  · intro safe
    exact ⟨fun i => wp_guarantee (fun _ _ good _ => good) (safe.verified i), safe.owned⟩
  · intro safe
    exact ⟨fun i => wp_guarantee (fun _ _ allowed => allowed trivial) (safe.verified i), safe.owned⟩

theorem run_allowed (allowed : ∀ i ws s, O i ws s → G ws s)
    (run : Run (Meets F : _ → Action ι ρ → Prop) S T) :
    RunWhen (fun i ws s => O i ws s → G ws s) F S T := by
  apply run_weaken _ run
  intro S a meets
  exact ⟨meets, fun i _ _ _ _ => allowed i _ _⟩

theorem run_when (run : Run (Meets F : _ → Action ι ρ → Prop) S T) : RunWhen (fun _ _ _ => True) F S T := by
  apply run_weaken _ run
  intro S a meets
  exact ⟨meets, fun _ _ _ _ _ => trivial⟩

theorem run_safe (lasting : Lasting G Q) (safe : Safe G F Q S)
    (run : Run (Meets F : _ → Action ι ρ → Prop) S T) : Safe G F Q T :=
  safe_unconditional.mpr (run_safe_when lasting (safe_unconditional.mp safe) (run_when run))

theorem run_keeps (lasting : Lasting G Q) (safe : Safe G F Q S)
    (run : Run (Meets F : _ → Action ι ρ → Prop) S T) {P : List (ι × List ω) → σ → Prop}
    (keeps : ∀ i ws log s, G ws s → P log s → P (log ++ [(i, ws)]) (applyAll ws s))
    (h : P S.log S.db) : P T.log T.db :=
  run_keeps_when lasting (safe_unconditional.mp safe) (run_when run) keeps h

omit [DecidableEq ι] in
theorem run_unconditional [DecidableEq ι]
    (run : Run (Anyhow : System ι σ μ ω κ ε ρ χ α → Action ι ρ → Prop) S T) :
    Run (Meets (fun _ _ _ _ _ => True)) S T := by
  apply run_weaken _ run
  intro S a _ i rows writes memo next fault _ _
  trivial

omit [DecidableEq ι] [DecidableEq κ] in
theorem initial_safe_by {db : σ} {progs : ι → Prog σ μ ω κ ε ρ χ α}
    (verified : ∀ i, wp (Rely G) (O i) (F i) (progs i) (fun r v => Q i r v.db) ⟨db, [], default, Nothing⟩) :
    SafeBy G O F Q (initial db progs : System ι σ μ ω κ ε ρ χ α) := by
  constructor
  · intro i
    have none_held : (fun r => (initial db progs : System ι σ μ ω κ ε ρ χ α).owner r = some i) =
        Nothing := by
      funext r
      simp [initial, Nothing]
    simp only [viewOf, none_held]
    exact verified i
  · intro i r touches
    simp [initial] at touches

omit [DecidableEq ι] [DecidableEq κ] in
theorem initial_safe {db : σ} {progs : ι → Prog σ μ ω κ ε ρ χ α}
    (verified : ∀ i, wp (Rely G) G (F i) (progs i) (fun r v => Q i r v.db) ⟨db, [], default, Nothing⟩) :
    Safe G F Q (initial db progs : System ι σ μ ω κ ε ρ χ α) := by
  apply safe_unconditional.mpr
  apply initial_safe_by
  intro i
  exact wp_guarantee (fun _ _ good _ => good) (verified i)

end

end RelyGuarantee
