import Mathlib.Logic.Basic

/- Programs that talk to a database through one session. A program is the tree
   of the statements it may issue: each statement sees the database as the
   session sees it (the committed state under the session's own writes), may
   add writes, and decides how to go on. Calls leave the database for a partner
   outside, who may answer or not. -/
namespace SessionProgram

/-- How writes act on a state, and which rows each one locks. `Same r` says that
   two states agree on everything the lock of `r` protects. -/
class Store (ω : Type) (σ κ : outParam Type) where
  apply : ω → σ → σ
  targets : ω → List κ
  Same : κ → σ → σ → Prop
  same_refl : ∀ r s, Same r s s
  same_trans : ∀ {r s t u}, Same r s t → Same r t u → Same r s u
  frame : ∀ {r w} s, r ∉ targets w → Same r s (apply w s)

variable {σ μ ω κ ε ρ χ α β γ : Type}

section
variable [Store ω σ κ]

def applyAll (ws : List ω) (s : σ) : σ := ws.foldl (fun s w => Store.apply w s) s

def touched (ws : List ω) : List κ := ws.flatMap Store.targets

@[simp] theorem applyAll_nil (s : σ) : applyAll ([] : List ω) s = s := rfl

@[simp] theorem applyAll_cons (w : ω) (ws : List ω) (s : σ) :
    applyAll (w :: ws) s = applyAll ws (Store.apply w s) := rfl

theorem applyAll_append (ws vs : List ω) (s : σ) :
    applyAll (ws ++ vs) s = applyAll vs (applyAll ws s) := by
  simp [applyAll]

@[simp] theorem touched_nil : touched ([] : List ω) = [] := rfl

@[simp] theorem touched_cons (w : ω) (ws : List ω) :
    touched (w :: ws) = Store.targets w ++ touched ws := by
  simp [touched]

@[simp] theorem touched_append (ws vs : List ω) : touched (ws ++ vs) = touched ws ++ touched vs := by
  simp [touched]

theorem applyAll_frame {r : κ} {ws : List ω} (s : σ) (untouched : r ∉ touched ws) :
    Store.Same ω r s (applyAll ws s) := by
  induction ws generalizing s with
  | nil => exact Store.same_refl r s
  | cons w ws ih =>
    simp only [touched_cons, List.mem_append, not_or] at untouched
    exact Store.same_trans (Store.frame s untouched.1) (ih _ untouched.2)

end

/-- A statement locks `rows` and the rows of its writes before it takes effect.
   `fault` is how the program goes on when the driver reports an error. -/
inductive Prog (σ μ ω κ ε ρ χ α : Type) : Type where
  | ret (a : α)
  | raise (x : χ)
  | stmt (rows : List κ) (writes : σ → μ → List ω) (memo : σ → μ → μ)
      (next : σ → μ → Prog σ μ ω κ ε ρ χ α) (fault : Prog σ μ ω κ ε ρ χ α)
  | call (request : ε) (next : ρ → Prog σ μ ω κ ε ρ χ α) (fault : Prog σ μ ω κ ε ρ χ α)
  | commit (next fault : Prog σ μ ω κ ε ρ χ α)
  | rollback (next : Prog σ μ ω κ ε ρ χ α)

def Prog.bind :
    Prog σ μ ω κ ε ρ χ α → (α → Prog σ μ ω κ ε ρ χ β) → Prog σ μ ω κ ε ρ χ β
  | .ret a, f => f a
  | .raise x, _ => .raise x
  | .stmt rows writes memo next fault, f =>
      .stmt rows writes memo (fun s m => (next s m).bind f) (fault.bind f)
  | .call request next fault, f => .call request (fun r => (next r).bind f) (fault.bind f)
  | .commit next fault, f => .commit (next.bind f) (fault.bind f)
  | .rollback next, f => .rollback (next.bind f)

/-- try/except: the handler takes over where the program raises. -/
def Prog.handle :
    Prog σ μ ω κ ε ρ χ α → (χ → Prog σ μ ω κ ε ρ χ α) → Prog σ μ ω κ ε ρ χ α
  | .ret a, _ => .ret a
  | .raise x, h => h x
  | .stmt rows writes memo next fault, h =>
      .stmt rows writes memo (fun s m => (next s m).handle h) (fault.handle h)
  | .call request next fault, h => .call request (fun r => (next r).handle h) (fault.handle h)
  | .commit next fault, h => .commit (next.handle h) (fault.handle h)
  | .rollback next, h => .rollback (next.handle h)

def Prog.finished : Prog σ μ ω κ ε ρ χ α → Bool
  | .ret _ => true
  | .raise _ => true
  | _ => false

def Prog.returned : Prog σ μ ω κ ε ρ χ α → Bool
  | .ret _ => true
  | _ => false

theorem returned_ret {p : Prog σ μ ω κ ε ρ χ α} (h : p.returned = true) : ∃ a, p = .ret a := by
  cases p with
  | ret a => exact ⟨a, rfl⟩
  | _ => cases h

instance : Monad (Prog σ μ ω κ ε ρ χ) where
  pure := .ret
  bind := .bind

instance : MonadExceptOf χ (Prog σ μ ω κ ε ρ χ) where
  throw := .raise
  tryCatch := .handle

@[simp] theorem ret_seq (a : α) (f : α → Prog σ μ ω κ ε ρ χ β) :
    (Prog.ret a : Prog σ μ ω κ ε ρ χ α) >>= f = f a := rfl

theorem bind_ret (p : Prog σ μ ω κ ε ρ χ α) : p.bind .ret = p := by
  induction p with
  | ret a => rfl
  | raise x => rfl
  | stmt rows writes memo next fault ihn ihf => simp [Prog.bind, ihn, ihf]
  | call request next fault ihn ihf => simp [Prog.bind, ihn, ihf]
  | commit next fault ihn ihf => simp [Prog.bind, ihn, ihf]
  | rollback next ih => simp [Prog.bind, ih]

theorem bind_assoc (p : Prog σ μ ω κ ε ρ χ α) (f : α → Prog σ μ ω κ ε ρ χ β)
    (g : β → Prog σ μ ω κ ε ρ χ γ) : (p.bind f).bind g = p.bind (fun a => (f a).bind g) := by
  induction p with
  | ret a => rfl
  | raise x => rfl
  | stmt rows writes memo next fault ihn ihf => simp [Prog.bind, ihn, ihf]
  | call request next fault ihn ihf => simp [Prog.bind, ihn, ihf]
  | commit next fault ihn ihf => simp [Prog.bind, ihn, ihf]
  | rollback next ih => simp [Prog.bind, ih]

theorem seq_seq (p : Prog σ μ ω κ ε ρ χ α) (f : α → Prog σ μ ω κ ε ρ χ β)
    (g : β → Prog σ μ ω κ ε ρ χ γ) :
    (p >>= f) >>= g = p >>= fun a => f a >>= g :=
  bind_assoc p f g

instance : LawfulMonad (Prog σ μ ω κ ε ρ χ) :=
  LawfulMonad.mk' _ bind_ret (fun _ _ => rfl) bind_assoc

def Emits (P : ω → Prop) : Prog σ μ ω κ ε ρ χ α → Prop
  | .ret _ => True
  | .raise _ => True
  | .stmt _ writes _ next fault =>
      (∀ s m, (∀ w ∈ writes s m, P w) ∧ Emits P (next s m)) ∧ Emits P fault
  | .call _ next fault => (∀ r, Emits P (next r)) ∧ Emits P fault
  | .commit next fault => Emits P next ∧ Emits P fault
  | .rollback next => Emits P next

theorem emits_mono {P P' : ω → Prop} (weaker : ∀ w, P w → P' w) {p : Prog σ μ ω κ ε ρ χ α}
    (h : Emits P p) : Emits P' p := by
  induction p with
  | ret a => trivial
  | raise x => trivial
  | stmt rows writes memo next fault ihn ihf =>
    constructor
    · intro s m
      exact ⟨fun w mem => weaker w ((h.1 s m).1 w mem), ihn s m (h.1 s m).2⟩
    · exact ihf h.2
  | call request next fault ihn ihf => exact ⟨fun r => ihn r (h.1 r), ihf h.2⟩
  | commit next fault ihn ihf => exact ⟨ihn h.1, ihf h.2⟩
  | rollback next ih => exact ih h

theorem emits_seq {P : ω → Prop} {p : Prog σ μ ω κ ε ρ χ α} {f : α → Prog σ μ ω κ ε ρ χ β}
    (first : Emits P p) (rest : ∀ a, Emits P (f a)) : Emits P (p >>= f) := by
  change Emits P (p.bind f)
  induction p with
  | ret a => exact rest a
  | raise x => trivial
  | stmt rows writes memo next fault ihn ihf =>
    constructor
    · intro s m
      exact ⟨(first.1 s m).1, ihn s m (first.1 s m).2⟩
    · exact ihf first.2
  | call request next fault ihn ihf => exact ⟨fun r => ihn r (first.1 r), ihf first.2⟩
  | commit next fault ihn ihf => exact ⟨ihn first.1, ihf first.2⟩
  | rollback next ih => exact ih first

theorem emits_handle {P : ω → Prop} {p : Prog σ μ ω κ ε ρ χ α} {h : χ → Prog σ μ ω κ ε ρ χ α}
    (first : Emits P p) (rest : ∀ x, Emits P (h x)) : Emits P (p.handle h) := by
  induction p with
  | ret a => trivial
  | raise x => exact rest x
  | stmt rows writes memo next fault ihn ihf =>
    constructor
    · intro s m
      exact ⟨(first.1 s m).1, ihn s m (first.1 s m).2⟩
    · exact ihf first.2
  | call request next fault ihn ihf => exact ⟨fun r => ihn r (first.1 r), ihf first.2⟩
  | commit next fault ihn ihf => exact ⟨ihn first.1, ihf first.2⟩
  | rollback next ih => exact ih first

/-- What a session knows between two statements: the committed state, its own
   uncommitted writes, the objects it keeps in memory, and the calls it made. -/
structure Local (σ μ ω ε : Type) where
  db : σ
  pending : List ω
  memory : μ
  calls : List ε

section
variable [Store ω σ κ] [Inhabited μ]

def Local.seen (s : Local σ μ ω ε) : σ := applyAll s.pending s.db

def start (db : σ) : Local σ μ ω ε := ⟨db, [], default, []⟩

/-- The whole program with nobody else at work. The partner's reply to each call
   is `answer`; a call without an answer faults. -/
def exec (answer : ε → Option ρ) : Prog σ μ ω κ ε ρ χ α → Local σ μ ω ε →
    Except χ α × Local σ μ ω ε
  | .ret a, s => (.ok a, s)
  | .raise x, s => (.error x, s)
  | .stmt _ writes memo next _, s =>
      exec answer (next s.seen s.memory)
        { s with pending := s.pending ++ writes s.seen s.memory, memory := memo s.seen s.memory }
  | .call request next fault, s =>
      match answer request with
      | some r => exec answer (next r) { s with calls := s.calls ++ [request] }
      | none => exec answer fault { s with calls := s.calls ++ [request] }
  | .commit next _, s => exec answer next { s with db := s.seen, pending := [] }
  | .rollback next, s => exec answer next { s with pending := [], memory := default }

def Yields (answer : ε → Option ρ) (p : Prog σ μ ω κ ε ρ χ α) (s : Local σ μ ω ε) (a : α)
    (u : Local σ μ ω ε) : Prop :=
  exec answer p s = (.ok a, u)

theorem exec_seq (answer : ε → Option ρ) (p : Prog σ μ ω κ ε ρ χ α)
    (f : α → Prog σ μ ω κ ε ρ χ β)
    (s : Local σ μ ω ε) : exec answer (p >>= f) s = match exec answer p s with
      | (.ok a, u) => exec answer (f a) u
      | (.error x, u) => (.error x, u) := by
  change exec answer (p.bind f) s = _
  induction p generalizing s with
  | ret a => rfl
  | raise x => rfl
  | stmt rows writes memo next fault ihn ihf => exact ihn _ _ _
  | call request next fault ihn ihf =>
    simp only [exec, Prog.bind]
    cases answer request with
    | some r => exact ihn r _
    | none => exact ihf _
  | commit next fault ihn ihf => exact ihn _
  | rollback next ih => exact ih _

theorem exec_handle (answer : ε → Option ρ) (p : Prog σ μ ω κ ε ρ χ α)
    (h : χ → Prog σ μ ω κ ε ρ χ α) (s : Local σ μ ω ε) :
    exec answer (p.handle h) s = match exec answer p s with
      | (.ok a, u) => (.ok a, u)
      | (.error x, u) => exec answer (h x) u := by
  induction p generalizing s with
  | ret a => rfl
  | raise x => rfl
  | stmt rows writes memo next fault ihn ihf => exact ihn _ _ _
  | call request next fault ihn ihf =>
    simp only [exec, Prog.handle]
    cases answer request with
    | some r => exact ihn r _
    | none => exact ihf _
  | commit next fault ihn ihf => exact ihn _
  | rollback next ih => exact ih _

theorem calls_grow (answer : ε → Option ρ) (p : Prog σ μ ω κ ε ρ χ α) (s : Local σ μ ω ε) :
    s.calls <+: (exec answer p s).2.calls := by
  induction p generalizing s with
  | ret a => exact List.prefix_refl _
  | raise x => exact List.prefix_refl _
  | stmt rows writes memo next fault ihn ihf =>
    exact ihn _ _ { s with pending := s.pending ++ writes s.seen s.memory, memory := memo s.seen s.memory }
  | call request next fault ihn ihf =>
    have longer : s.calls <+: s.calls ++ [request] := List.prefix_append _ _
    simp only [exec]
    cases answer request with
    | some r => exact longer.trans (ihn r { s with calls := s.calls ++ [request] })
    | none => exact longer.trans (ihf { s with calls := s.calls ++ [request] })
  | commit next fault ihn ihf => exact ihn { s with db := s.seen, pending := [] }
  | rollback next ih => exact ih { s with pending := [], memory := default }

def Calls (answer : ε → Option ρ) (p : Prog σ μ ω κ ε ρ χ α) (s : Local σ μ ω ε) : Prop :=
  (exec answer p s).2.calls ≠ []

theorem calls_call {answer : ε → Option ρ} {request : ε} {next : ρ → Prog σ μ ω κ ε ρ χ α}
    {fault : Prog σ μ ω κ ε ρ χ α} {s : Local σ μ ω ε} : Calls answer (.call request next fault) s := by
  intro silent
  have grown : s.calls ++ [request] <+: (exec answer (.call request next fault) s).2.calls := by
    simp only [exec]
    cases answer request with
    | some r => exact calls_grow answer (next r) { s with calls := s.calls ++ [request] }
    | none => exact calls_grow answer fault { s with calls := s.calls ++ [request] }
  rw [silent, List.prefix_nil] at grown
  simp at grown

theorem yields_seq {answer : ε → Option ρ} {p : Prog σ μ ω κ ε ρ χ α}
    {f : α → Prog σ μ ω κ ε ρ χ β} {s u v : Local σ μ ω ε} {a : α} {b : β}
    (first : Yields answer p s a u) (rest : Yields answer (f a) u b v) :
    Yields answer (p >>= f) s b v := by
  unfold Yields at first rest ⊢
  rw [exec_seq, first]
  exact rest

theorem calls_seq {answer : ε → Option ρ} {p : Prog σ μ ω κ ε ρ χ α}
    {f : α → Prog σ μ ω κ ε ρ χ β}
    {s u : Local σ μ ω ε} {a : α} (first : Yields answer p s a u) (rest : Calls answer (f a) u) :
    Calls answer (p >>= f) s := by
  unfold Calls Yields at *
  rw [exec_seq, first]
  exact rest

theorem yields_handle {answer : ε → Option ρ} {p : Prog σ μ ω κ ε ρ χ α}
    {h : χ → Prog σ μ ω κ ε ρ χ α} {s u : Local σ μ ω ε} {a : α} (body : Yields answer p s a u) :
    Yields answer (p.handle h) s a u := by
  unfold Yields at body ⊢
  rw [exec_handle, body]

def Reads : Prog σ μ ω κ ε ρ χ α → Prop
  | .ret _ => True
  | .raise _ => True
  | .stmt _ writes _ next _ => ∀ s m, writes s m = [] ∧ Reads (next s m)
  | .call _ next fault => (∀ r, Reads (next r)) ∧ Reads fault
  | .commit _ _ => False
  | .rollback _ => False

theorem reads_exec (answer : ε → Option ρ) {p : Prog σ μ ω κ ε ρ χ α} (reads : Reads p)
    (s : Local σ μ ω ε) : (exec answer p s).2.db = s.db ∧ (exec answer p s).2.pending = s.pending := by
  induction p generalizing s with
  | ret a => exact ⟨rfl, rfl⟩
  | raise x => exact ⟨rfl, rfl⟩
  | stmt rows writes memo next fault ihn ihf =>
    obtain ⟨silent, onward⟩ := reads s.seen s.memory
    obtain ⟨db, pending⟩ := ihn s.seen s.memory onward
      { s with pending := s.pending ++ writes s.seen s.memory, memory := memo s.seen s.memory }
    exact ⟨db, pending.trans (by rw [silent, List.append_nil])⟩
  | call request next fault ihn ihf =>
    simp only [exec]
    cases answer request with
    | some r => exact ihn r (reads.1 r) _
    | none => exact ihf reads.2 _
  | commit next fault _ _ => exact reads.elim
  | rollback next _ => exact reads.elim

omit [Store ω σ κ] [Inhabited μ] in
theorem reads_seq {p : Prog σ μ ω κ ε ρ χ α} {f : α → Prog σ μ ω κ ε ρ χ β} (first : Reads p)
    (rest : ∀ a, Reads (f a)) : Reads (p >>= f) := by
  change Reads (p.bind f)
  induction p with
  | ret a => exact rest a
  | raise x => trivial
  | stmt rows writes memo next fault ihn ihf =>
    intro s m
    exact ⟨(first s m).1, ihn s m (first s m).2⟩
  | call request next fault ihn ihf => exact ⟨fun r => ihn r (first.1 r), ihf first.2⟩
  | commit next fault _ _ => exact first.elim
  | rollback next _ => exact first.elim

def Leaves (answer : ε → Option ρ) (p : Prog σ μ ω κ ε ρ χ α) (s : Local σ μ ω ε)
    (Q : σ → Prop) :
    Prop :=
  Q (exec answer p s).2.db

theorem leaves_reads {answer : ε → Option ρ} {p : Prog σ μ ω κ ε ρ χ α} {s : Local σ μ ω ε}
    {Q : σ → Prop} (reads : Reads p) (stays : Q s.db) : Leaves answer p s Q := by
  unfold Leaves
  rw [(reads_exec answer reads s).1]
  exact stays

theorem leaves_after {answer : ε → Option ρ} {p : Prog σ μ ω κ ε ρ χ α}
    {f : α → Prog σ μ ω κ ε ρ χ β} {s : Local σ μ ω ε} {Q : σ → Prop} (reads : Reads p)
    (stays : Q s.db) (rest : ∀ a u, u.db = s.db → u.pending = s.pending → Leaves answer (f a) u Q) :
    Leaves answer (p >>= f) s Q := by
  obtain ⟨db, pending⟩ := reads_exec answer reads s
  unfold Leaves
  rw [exec_seq]
  cases ends : exec answer p s with
  | mk r u =>
    rw [ends] at db pending
    cases r with
    | ok a => exact rest a u db pending
    | error x =>
      change Q u.db
      rw [show u.db = s.db from db]
      exact stays

theorem leaves_mono {answer : ε → Option ρ} {p : Prog σ μ ω κ ε ρ χ α} {s : Local σ μ ω ε}
    {Q Q' : σ → Prop} (weaker : ∀ db, Q db → Q' db) (h : Leaves answer p s Q) : Leaves answer p s Q' :=
  weaker _ h

theorem leaves_yields {answer : ε → Option ρ} {p : Prog σ μ ω κ ε ρ χ α}
    {f : α → Prog σ μ ω κ ε ρ χ β} {s u : Local σ μ ω ε} {a : α} {Q : σ → Prop}
    (first : Yields answer p s a u) (rest : Leaves answer (f a) u Q) : Leaves answer (p >>= f) s Q := by
  unfold Leaves Yields at *
  rw [exec_seq, first]
  exact rest

theorem leaves_ignored {answer : ε → Option ρ} {p : Prog σ μ ω κ ε ρ χ α} {s : Local σ μ ω ε}
    {Q : σ → Prop} {b : β} (body : Leaves answer p s Q) :
    Leaves answer (p >>= fun _ => (.ret b : Prog σ μ ω κ ε ρ χ β)) s Q := by
  unfold Leaves at body ⊢
  rw [exec_seq]
  cases ends : exec answer p s with
  | mk r u =>
    rw [ends] at body
    cases r with
    | ok a => exact body
    | error x => exact body

theorem leaves_swallowed {answer : ε → Option ρ} {p : Prog σ μ ω κ ε ρ χ α} {s : Local σ μ ω ε}
    {Q : σ → Prop} {a : α} (body : Leaves answer p s Q) :
    Leaves answer (p.handle (fun _ => .ret a)) s Q := by
  unfold Leaves at body ⊢
  rw [exec_handle]
  cases ends : exec answer p s with
  | mk r u =>
    rw [ends] at body
    cases r with
    | ok b => exact body
    | error x => exact body

/-- Closing the session discards what it has not committed. -/
def runAlone (answer : ε → Option ρ) (p : Prog σ μ ω κ ε ρ χ α) (db : σ) : Except χ α × σ :=
  let finish := exec answer p (start db)
  (finish.1, finish.2.db)

def EndsIn (answer : ε → Option ρ) (p : Prog σ μ ω κ ε ρ χ α) (s : Local σ μ ω ε)
    (Q : σ → Prop) :
    Prop :=
  ∃ a u, Yields answer p s a u ∧ Q u.db

theorem endsIn_seq {answer : ε → Option ρ} {p : Prog σ μ ω κ ε ρ χ α}
    {f : α → Prog σ μ ω κ ε ρ χ β} {s u : Local σ μ ω ε} {a : α} {Q : σ → Prop}
    (first : Yields answer p s a u) (rest : EndsIn answer (f a) u Q) : EndsIn answer (p >>= f) s Q := by
  obtain ⟨b, v, onward, holds⟩ := rest
  exact ⟨b, v, yields_seq first onward, holds⟩

theorem endsIn_alone {answer : ε → Option ρ} {p : Prog σ μ ω κ ε ρ χ α} {db : σ} {Q : σ → Prop}
    (h : EndsIn answer p (start db) Q) : Q (runAlone answer p db).2 := by
  obtain ⟨a, u, ends, holds⟩ := h
  unfold Yields at ends
  simpa [runAlone, ends] using holds

theorem endsIn_swallowed {answer : ε → Option ρ} {p : Prog σ μ ω κ ε ρ χ α} {s : Local σ μ ω ε}
    {Q : σ → Prop}
    {a : α} (body : Leaves answer p s Q) : EndsIn answer (p.handle (fun _ => .ret a)) s Q := by
  unfold Leaves at body
  unfold EndsIn Yields
  rw [exec_handle]
  cases ends : exec answer p s with
  | mk r u =>
    rw [ends] at body
    cases r with
    | ok b => exact ⟨b, u, rfl, body⟩
    | error x => exact ⟨a, u, rfl, body⟩

end

end SessionProgram
