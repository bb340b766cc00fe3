import Mathlib.Logic.Relation
import PayCore.Library.RelyGuarantee

/- Deadlock freedom by an order on the rows: a session that asks for rows only above those that it
   holds never waits in a circle. -/
namespace LockOrder
open SessionProgram SessionSystem RelyGuarantee

variable {σ μ ω κ ε ρ χ α β ι R : Type}

/-- A session between two statements: a state that it has seen, the objects it keeps, and the rows
    that it holds. -/
structure Point (σ μ κ : Type) where
  world : σ
  memory : μ
  held : κ → Prop

section
variable [Store ω σ κ] [Inhabited μ] [Preorder R]

def Above (rank : κ → Option R) (held : κ → Prop) (rows : List κ) : Prop :=
  ∀ r ∈ rows, ¬ held r → ∀ n, rank r = some n → ∀ h m, held h → rank h = some m → m < n

/-- The program takes its locks upwards, in every state that meets `D` and comes after what the
    session has seen before (`L`). A lost commit or a rollback drops what was seen. -/
def climbs (D : σ → Prop) (L : σ → σ → Prop) (rank : κ → Option R) :
    Prog σ μ ω κ ε ρ χ α → (Except χ α → Point σ μ κ → Prop) → Point σ μ κ → Prop
  | .ret a, Q, v => Q (.ok a) v
  | .raise x, Q, v => Q (.error x) v
  | .stmt rows writes memo next fault, Q, v =>
      (∀ s, D s → L v.world s →
        let asked := needed rows (writes s v.memory)
        Above rank v.held asked ∧
          climbs D L rank (next s v.memory) Q ⟨s, memo s v.memory, fun r => v.held r ∨ r ∈ asked⟩) ∧
        ∀ w, climbs D L rank fault Q { v with world := w }
  | .call _ next fault, Q, v =>
      (∀ r, climbs D L rank (next r) Q v) ∧ climbs D L rank fault Q v
  | .commit next fault, Q, v => ∀ w,
      climbs D L rank next Q ⟨w, v.memory, Nothing⟩ ∧ climbs D L rank fault Q ⟨w, v.memory, Nothing⟩
  | .rollback next, Q, _ => ∀ w, climbs D L rank next Q ⟨w, default, Nothing⟩

variable {D : σ → Prop} {L : σ → σ → Prop} {rank : κ → Option R}

theorem climbs_mono {p : Prog σ μ ω κ ε ρ χ α} {Q Q' : Except χ α → Point σ μ κ → Prop}
    {v : Point σ μ κ}
    (weaker : ∀ r u, Q r u → Q' r u) (h : climbs D L rank p Q v) : climbs D L rank p Q' v := by
  induction p generalizing v with
  | ret a => exact weaker _ _ h
  | raise x => exact weaker _ _ h
  | stmt rows writes memo next fault ihn ihf =>
    constructor
    · intro s sound later
      exact ⟨(h.1 s sound later).1, ihn _ _ (h.1 s sound later).2⟩
    · exact fun w => ihf (h.2 w)
  | call request next fault ihn ihf => exact ⟨fun r => ihn r (h.1 r), ihf h.2⟩
  | commit next fault ihn ihf => exact fun w => ⟨ihn (h w).1, ihf (h w).2⟩
  | rollback next ih => exact fun w => ih (h w)

theorem climbs_seq (p : Prog σ μ ω κ ε ρ χ α) (f : α → Prog σ μ ω κ ε ρ χ β)
    (Q : Except χ β → Point σ μ κ → Prop) (v : Point σ μ κ) :
    climbs D L rank (p >>= f) Q v ↔ climbs D L rank p (fun r u => match r with
      | .ok a => climbs D L rank (f a) Q u
      | .error x => Q (.error x) u) v := by
  change climbs D L rank (p.bind f) Q v ↔ _
  induction p generalizing v with
  | ret a => rfl
  | raise x => rfl
  | stmt rows writes memo next fault ihn ihf => simp only [Prog.bind, climbs, ihn, ihf]
  | call request next fault ihn ihf => simp only [Prog.bind, climbs, ihn, ihf]
  | commit next fault ihn ihf => simp only [Prog.bind, climbs, ihn, ihf]
  | rollback next ih => simp only [Prog.bind, climbs, ih]

theorem handle_climbs {p : Prog σ μ ω κ ε ρ χ α} {handler : χ → Prog σ μ ω κ ε ρ χ α}
    {Q : Except χ α → Point σ μ κ → Prop} {v : Point σ μ κ}
    (h : climbs D L rank p (fun r u => match r with
      | .ok a => Q (.ok a) u
      | .error x => climbs D L rank (handler x) Q u) v) : climbs D L rank (p.handle handler) Q v := by
  induction p generalizing v with
  | ret a => exact h
  | raise x => exact h
  | stmt rows writes memo next fault ihn ihf =>
    constructor
    · intro s sound later
      exact ⟨(h.1 s sound later).1, ihn _ _ (h.1 s sound later).2⟩
    · exact fun w => ihf (h.2 w)
  | call request next fault ihn ihf => exact ⟨fun r => ihn r (h.1 r), ihf h.2⟩
  | commit next fault ihn ihf => exact fun w => ⟨ihn (h w).1, ihf (h w).2⟩
  | rollback next ih => exact fun w => ih (h w)

theorem climbs_held {p : Prog σ μ ω κ ε ρ χ α} {w : σ} {m : μ} {held less : κ → Prop}
    (same : ∀ r, (rank r).isSome → (held r ↔ less r))
    (h : climbs D L rank p (fun _ _ => True) ⟨w, m, held⟩) :
    climbs D L rank p (fun _ _ => True) ⟨w, m, less⟩ := by
  induction p generalizing w m held less with
  | ret a => trivial
  | raise x => trivial
  | stmt rows writes memo next fault ihn ihf =>
    constructor
    · intro s sound later
      obtain ⟨above, onward⟩ := h.1 s sound later
      constructor
      · intro r mem free n asked q k mine ranked
        have rankedR : (rank r).isSome := by simp [asked]
        have rankedQ : (rank q).isSome := by simp [ranked]
        exact above r mem (fun held => free ((same r rankedR).mp held)) n asked q k
          ((same q rankedQ).mpr mine) ranked
      · refine ihn _ _ ?_ onward
        intro r ranked
        exact or_congr (same r ranked) Iff.rfl
    · exact fun w => ihf same (h.2 w)
  | call request next fault ihn ihf => exact ⟨fun r => ihn r same (h.1 r), ihf same h.2⟩
  | commit next fault ihn ihf => exact h
  | rollback next ih => exact h

end

section
variable [Store ω σ κ]

/-- What the sessions may write keeps `D`, and what a session has seen stays behind it (`L`),
    whoever writes. -/
structure Steady (D : σ → Prop) (L : ι → σ → σ → Prop) (P : ι → ω → Prop) : Prop where
  sound : ∀ i w s, P i w → D s → D (Store.apply w s)
  still : ∀ i s, L i s s
  own : ∀ i w s t, P i w → L i s t → L i s (Store.apply w t)
  others : ∀ i j ws vs s db, (∀ w ∈ ws, P i w) → (∀ w ∈ vs, P j w) → L i s (applyAll ws db) →
    L i s (applyAll ws (applyAll vs db))

variable {D : σ → Prop} {L : ι → σ → σ → Prop} {P : ι → ω → Prop}

theorem sound_all (steady : Steady D L P) {i : ι} {ws : List ω} {s : σ} (allowed : ∀ w ∈ ws, P i w)
    (sound : D s) : D (applyAll ws s) := by
  induction ws generalizing s with
  | nil => exact sound
  | cons w ws ih =>
    exact ih (fun v mem => allowed v (List.mem_cons_of_mem w mem))
      (steady.sound i w s (allowed w (by simp)) sound)

theorem own_all (steady : Steady D L P) {i : ι} {ws : List ω} {s t : σ} (allowed : ∀ w ∈ ws, P i w)
    (later : L i s t) : L i s (applyAll ws t) := by
  induction ws generalizing t with
  | nil => exact later
  | cons w ws ih =>
    exact ih (fun v mem => allowed v (List.mem_cons_of_mem w mem))
      (steady.own i w s t (allowed w (by simp)) later)

variable [Inhabited μ] [Preorder R]

structure Climbing (D : σ → Prop) (L : ι → σ → σ → Prop) (P : ι → ω → Prop)
    (rank : κ → Option R) (S : System ι σ μ ω κ ε ρ χ α) : Prop where
  sound : D S.db
  emits : ∀ i, Emits (P i) (S.session i).prog
  owed : ∀ i, ∀ w ∈ (S.session i).pending, P i w
  ordered : ∀ i, ∃ world, L i world (applyAll (S.session i).pending S.db) ∧
    climbs D (L i) rank (S.session i).prog (fun _ _ => True)
      ⟨world, (S.session i).memory, fun r => S.owner r = some i⟩

variable {rank : κ → Option R} {S T U : System ι σ μ ω κ ε ρ χ α}

theorem initial_climbing (steady : Steady D L P) {db : σ} {progs : ι → Prog σ μ ω κ ε ρ χ α}
    (sound : D db) (emits : ∀ i, Emits (P i) (progs i))
    (climb : ∀ i w, climbs D (L i) rank (progs i) (fun _ _ => True) ⟨w, default, Nothing⟩) :
    Climbing D L P rank (initial db progs : System ι σ μ ω κ ε ρ χ α) := by
  refine ⟨sound, emits, ?_, ?_⟩
  · intro i w mem
    simp [initial] at mem
  · intro i
    have nothing : (fun r => (initial db progs : System ι σ μ ω κ ε ρ χ α).owner r = some i) = Nothing :=
      funext fun r => propext ⟨fun mine => by simp [initial] at mine, fun none => none.elim⟩
    refine ⟨db, steady.still i db, ?_⟩
    rw [nothing]
    exact climb i db

section
variable (among : κ → Prop)

def Awaits (S : System ι σ μ ω κ ε ρ χ α) (i : ι) (r : κ) (j : ι) : Prop :=
  j ≠ i ∧ (S.session i).aborted = false ∧ among r ∧ S.owner r = some j ∧
    match (S.session i).prog with
    | .stmt rows writes _ _ _ =>
        r ∈ needed rows (writes (applyAll (S.session i).pending S.db) (S.session i).memory)
    | _ => False

def Waits (S : System ι σ μ ω κ ε ρ χ α) (i j : ι) : Prop := ∃ r, Awaits among S i r j

end

variable {among : κ → Prop}

theorem awaits_above (steady : Steady D L P) (climbing : Climbing D L P rank S) {i j : ι}
    {r h : κ} {n m : R}
    (awaits : Awaits among S i r j) (asked : rank r = some n) (mine : S.owner h = some i)
    (ranked : rank h = some m) : m < n := by
  obtain ⟨other, _, _, owned, next⟩ := awaits
  obtain ⟨world, later, climb⟩ := climbing.ordered i
  cases prog : (S.session i).prog with
  | stmt rows writes memo next' fault =>
    rw [prog] at climb next
    have above := (climb.1 _ (sound_all steady (climbing.owed i) climbing.sound) later).1
    refine above r next ?_ n asked h m mine ranked
    intro held
    change S.owner r = some i at held
    rw [owned] at held
    exact other (Option.some.inj held)
  | _ => simp [prog] at next

theorem chain_rises (steady : Steady D L P) (climbing : Climbing D L P rank S)
    (ordered : ∀ r, among r → (rank r).isSome) {i j : ι}
    (chain : Relation.TransGen (Waits among S) i j) {h : κ} {m : R} (mine : S.owner h = some i)
    (ranked : rank h = some m) : ∃ r n, S.owner r = some j ∧ rank r = some n ∧ m < n := by
  induction chain with
  | single waits =>
    obtain ⟨r, awaits⟩ := waits
    obtain ⟨n, asked⟩ := Option.isSome_iff_exists.mp (ordered r awaits.2.2.1)
    exact ⟨r, n, awaits.2.2.2.1, asked, awaits_above steady climbing awaits asked mine ranked⟩
  | tail earlier waits ih =>
    obtain ⟨r, n, owned, rankedR, rises⟩ := ih
    obtain ⟨q, awaits⟩ := waits
    obtain ⟨k, asked⟩ := Option.isSome_iff_exists.mp (ordered q awaits.2.2.1)
    exact ⟨q, k, awaits.2.2.2.1, asked,
      rises.trans (awaits_above steady climbing awaits asked owned rankedR)⟩

/-- Sessions that take their locks upwards never wait for each other in a circle. -/
theorem no_circle (steady : Steady D L P) (climbing : Climbing D L P rank S)
    (ordered : ∀ r, among r → (rank r).isSome) (i : ι) : ¬ Relation.TransGen (Waits among S) i i := by
  intro circle
  cases circle with
  | single waits =>
    obtain ⟨r, awaits⟩ := waits
    exact awaits.1 rfl
  | tail earlier waits =>
    -- The last session of the circle asks for a row of the first one, above all that it holds.
    obtain ⟨r, awaits⟩ := waits
    obtain ⟨n, ranked⟩ := Option.isSome_iff_exists.mp (ordered r awaits.2.2.1)
    obtain ⟨q, m, owned, rankedQ, rises⟩ :=
      chain_rises steady climbing ordered earlier awaits.2.2.2.1 ranked
    exact lt_asymm rises (awaits_above steady climbing awaits ranked owned rankedQ)

section
variable [DecidableEq ι]

/-- A step of session `i` that commits `ws`, which may be nothing: the others go on as before. -/
theorem climbing_after (steady : Steady D L P) (climbing : Climbing D L P rank S) (i : ι) (ws : List ω)
    (allowed : ∀ w ∈ ws, P i w) (db : T.db = applyAll ws S.db)
    (same : ∀ j, j ≠ i → T.session j = S.session j)
    (locks : ∀ j r, j ≠ i → (T.owner r = some j ↔ S.owner r = some j))
    (emits : Emits (P i) (T.session i).prog) (owed : ∀ w ∈ (T.session i).pending, P i w)
    (ordered : ∃ world, L i world (applyAll (T.session i).pending T.db) ∧
      climbs D (L i) rank (T.session i).prog (fun _ _ => True)
        ⟨world, (T.session i).memory, fun r => T.owner r = some i⟩) : Climbing D L P rank T := by
  constructor
  · rw [db]
    exact sound_all steady allowed climbing.sound
  · intro j
    by_cases self : j = i
    · rw [self]
      exact emits
    · rw [same j self]
      exact climbing.emits j
  · intro j
    by_cases self : j = i
    · rw [self]
      exact owed
    · rw [same j self]
      exact climbing.owed j
  · intro j
    by_cases self : j = i
    · rw [self]
      exact ordered
    · obtain ⟨world, later, climb⟩ := climbing.ordered j
      have held : (fun r => T.owner r = some j) = fun r => S.owner r = some j :=
        funext fun r => propext (locks j r self)
      rw [same j self, held, db]
      exact ⟨world, steady.others j i _ _ _ _ (climbing.owed j) allowed later, climb⟩

theorem climbing_onward (steady : Steady D L P) (climbing : Climbing D L P rank S) (i : ι)
    {p : Prog σ μ ω κ ε ρ χ α} {pending : List ω} {aborted : Bool} {calls : List (ι × ε)}
    (emits : Emits (P i) p) (owed : ∀ w ∈ pending, P i w)
    (ordered : ∃ world, L i world (applyAll pending S.db) ∧ climbs D (L i) rank p (fun _ _ => True)
      ⟨world, (S.session i).memory, fun r => S.owner r = some i⟩) :
    Climbing D L P rank { S.become i ⟨p, pending, (S.session i).memory, aborted⟩ with calls := calls } := by
  refine climbing_after steady climbing i [] (by simp) rfl ?_ (fun _ _ _ => Iff.rfl) ?_ ?_ ?_
  · intro j other
    exact become_other _ other
  · simpa [become_self] using emits
  · simpa [become_self] using owed
  · simpa [become_self] using ordered

theorem climbing_released (steady : Steady D L P) (climbing : Climbing D L P rank S) (i : ι)
    (ws : List ω) (allowed : ∀ w ∈ ws, P i w) {p : Prog σ μ ω κ ε ρ χ α} {memory : μ} {aborted : Bool}
    {log : List (ι × List ω)} (emits : Emits (P i) p)
    (climb : ∀ w, climbs D (L i) rank p (fun _ _ => True) ⟨w, memory, Nothing⟩) :
    Climbing D L P rank { S.become i ⟨p, [], memory, aborted⟩ with
      db := applyAll ws S.db, owner := release S.owner i, log := log } := by
  refine climbing_after steady climbing i ws allowed rfl ?_ (fun j r other => release_other other) ?_ ?_ ?_
  · intro j other
    exact become_other _ other
  · simpa [become_self] using emits
  · simp [become_self]
  · refine ⟨applyAll ws S.db, ?_, ?_⟩
    · simp only [become_self, applyAll_nil]
      exact steady.still i _
    · simp only [become_self, released_nothing]
      exact climb _

variable [DecidableEq κ]

theorem stmt_climbing (steady : Steady D L P) (climbing : Climbing D L P rank S) {i : ι}
    {rows : List κ} {writes : σ → μ → List ω} {memo : σ → μ → μ}
    {next : σ → μ → Prog σ μ ω κ ε ρ χ α} {fault : Prog σ μ ω κ ε ρ χ α}
    (prog : (S.session i).prog = .stmt rows writes memo next fault)
    (moves : runStep i S = some T) : Climbing D L P rank T := by
  obtain ⟨world, later, climb⟩ := climbing.ordered i
  have emits := climbing.emits i
  have owed := climbing.owed i
  rw [prog] at climb emits
  have here := (climb.1 _ (sound_all steady owed climbing.sound) later).2
  obtain ⟨allowed, onward⟩ := emits.1 (applyAll (S.session i).pending S.db) (S.session i).memory
  simp only [runStep, prog] at moves
  split at moves
  · rename_i ready
    cases moves
    refine climbing_after steady climbing i [] (by simp) rfl ?_ (fun j r other => take_other other ready.2)
      ?_ ?_ ?_
    · intro j other
      exact become_other _ other
    · simpa [become_self] using onward
    · simp only [become_self]
      intro w mem
      rcases List.mem_append.mp mem with old | new
      · exact owed w old
      · exact allowed w new
    · refine ⟨applyAll (S.session i).pending S.db, ?_, ?_⟩
      · simp only [become_self, become_db, applyAll_append]
        exact own_all steady allowed (steady.still i _)
      · have grown : ∀ rows : List κ, (fun r => take S.owner i rows r = some i) =
            fun r => S.owner r = some i ∨ r ∈ rows :=
          fun rows => funext fun r => propext (take_mine r)
        simp only [become_self, grown]
        exact here
  · cases moves

theorem step_climbing (steady : Steady D L P) (climbing : Climbing D L P rank S) {a : Action ι ρ}
    (moves : step S a = some T) : Climbing D L P rank T := by
  cases a with
  | run i =>
    obtain ⟨world, later, climb⟩ := climbing.ordered i
    have emits := climbing.emits i
    cases prog : (S.session i).prog with
    | stmt rows writes memo next fault => exact stmt_climbing steady climbing prog moves
    | commit next fault =>
      rw [prog] at climb emits
      simp only [step, runStep, prog] at moves
      split at moves
      · cases moves
        exact climbing_released steady climbing i _ (climbing.owed i) emits.1 (fun w => (climb w).1)
      · cases moves
    | rollback next =>
      rw [prog] at climb emits
      simp only [step, runStep, prog, Option.some.injEq] at moves
      subst moves
      exact climbing_released steady climbing i [] (by simp) emits climb
    | call request next fault => simp [step, runStep, prog] at moves
    | ret a =>
      simp only [step, runStep, prog, Option.some.injEq] at moves
      subst moves
      exact climbing_released (p := .ret a) steady climbing i [] (by simp) trivial (fun _ => trivial)
    | raise x =>
      simp only [step, runStep, prog, Option.some.injEq] at moves
      subst moves
      exact climbing_released (p := .raise x) steady climbing i [] (by simp) trivial (fun _ => trivial)
  | fault i =>
    obtain ⟨world, later, climb⟩ := climbing.ordered i
    have emits := climbing.emits i
    cases prog : (S.session i).prog with
    | stmt rows writes memo next fault =>
      rw [prog] at climb emits
      simp only [step, faultStep, prog, Option.some.injEq] at moves
      subst moves
      exact climbing_onward steady climbing i emits.2 (by simp) ⟨S.db, steady.still i _, climb.2 _⟩
    | call request next fault =>
      rw [prog] at climb emits
      simp only [step, faultStep, prog, Option.some.injEq] at moves
      subst moves
      exact climbing_onward steady climbing i emits.2 (climbing.owed i) ⟨world, later, climb.2⟩
    | commit next fault =>
      rw [prog] at climb emits
      simp only [step, faultStep, prog, Option.some.injEq] at moves
      subst moves
      exact climbing_released steady climbing i [] (by simp) emits.2 (fun w => (climb w).2)
    | ret a => simp [step, faultStep, prog] at moves
    | raise x => simp [step, faultStep, prog] at moves
    | rollback next => simp [step, faultStep, prog] at moves
  | reply i r =>
    obtain ⟨world, later, climb⟩ := climbing.ordered i
    have emits := climbing.emits i
    simp only [step] at moves
    split at moves
    · rename_i request next fault prog
      rw [prog] at climb emits
      cases moves
      exact climbing_onward steady climbing i (emits.1 r) (climbing.owed i) ⟨world, later, climb.1 r⟩
    · cases moves
  | lose i =>
    obtain ⟨world, later, climb⟩ := climbing.ordered i
    have emits := climbing.emits i
    simp only [step] at moves
    split at moves
    · rename_i request next fault prog
      rw [prog] at climb emits
      cases moves
      exact climbing_onward steady climbing i emits.2 (climbing.owed i) ⟨world, later, climb.2⟩
    · cases moves

theorem run_climbing (steady : Steady D L P) (climbing : Climbing D L P rank S)
    {C : System ι σ μ ω κ ε ρ χ α → Action ι ρ → Prop} (run : Run C S T) :
    Climbing D L P rank T := by
  induction run with
  | start => exact climbing
  | next before ok moves ih => exact step_climbing steady ih moves

end

end

end LockOrder
