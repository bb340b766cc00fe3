import PayCore.Library.SessionHistories
import PayCore.Proof.TokenRules

/- The single use of refresh tokens, over every interleaving of logins, refreshes and logouts. -/
namespace PayCoreSingleUseTokens
open KeyedTable SessionProgram SessionSystem SessionHistories RelyGuarantee Lineages PayCoreTables
open PayCoreWrites PayCoreSessions PayCoreRepositories PayCoreSupport PayCoreAccounts
open PayCoreRegistration PayCoreJobs PayCoreTokenRules

variable {ι : Type}

abbrev Signing (ι : Type) := System ι Database IdentityMap Write Row Request PaystackData AppError Unit

def signing (db : Database) (requests : ι → TokenRequest) : Signing ι :=
  initial db (fun i => (requests i).program)

/-- The exchanges that are committed, the presented token before the one that was given for it. -/
def exchanges (log : List (ι × List Write)) : List (String × String) :=
  log.flatMap fun entry => handover entry.2

/-- A token buys one response, and one commit, and has one unrevoked descendant at most. -/
structure SingleUse (requests : ι → TokenRequest) (T : Signing ι) : Prop where
  answered : ∀ i j hash, (requests i).presents = some hash → (requests j).presents = some hash →
    (T.session i).prog.returned = true → (T.session j).prog.returned = true → i = j
  committed : ∀ hash, ((exchanges T.log).map Prod.fst).count hash ≤ 1
  unrevoked : ∀ root a b, Descends (exchanges T.log) root a → Descends (exchanges T.log) root b →
    Live T.db a → Live T.db b → a = b

/-- The UPDATE of every refresh finds the presented token still unrevoked. -/
def FirstUses (requests : ι → TokenRequest) (i : ι) : Database → IdentityMap → List Row →
    List Write → Prop :=
  FirstUse (requests i)

instance (requests : ι → TokenRequest) (i : ι) (s : Database) (m : IdentityMap) (rows : List Row)
    (adds : List Write) : Decidable (FirstUses requests i s m rows adds) :=
  inferInstanceAs (Decidable (FirstUse (requests i) s m rows adds))

section Answers

/-- A refresh that answers has committed its exchange. -/
def Bought (hash : String) (r : Except AppError Unit) (u : Standing IdentityMap Write Request) : Prop :=
  r = .ok () → ∃ ws, Mark.commits ws ∈ u.history ∧ hash ∈ (handover ws).map Prod.fst

theorem unbought {hash : String} {x : AppError} {u : Standing IdentityMap Write Request} :
    Bought hash (.error x) u := by
  intro same
  cases same

theorem rotate_bought {token : RefreshToken} {user : Uuid} {cfg : Settings} {fresh : String}
    {now : Timestamp}
    {u : Standing IdentityMap Write Request} (bare : u.pending = []) (unrevoked : token.isRevoked = false) :
    recounts (Bought token.tokenHash) (RefreshTokenRepository.revoke token >>= fun _ =>
      storeRefreshToken cfg user fresh now >>= fun _ => commit >>= fun _ => (.ret () : Tx Unit)) u := by
  have writes : (if token.isRevoked then [] else [AccountWrite.revokeRefreshToken token.tokenHash]) =
      [.revokeRefreshToken token.tokenHash] := by simp [unrevoked]
  unfold RefreshTokenRepository.revoke
  rw [writes]
  apply seq_recounts
  refine ⟨fun _ s => ?_, unbought⟩
  apply seq_recounts
  refine ⟨fun _ later => ?_, unbought⟩
  dsimp only
  split
  · refine ⟨fun _ _ => ?_, unbought⟩
    refine ⟨_, List.mem_append_right _ (List.mem_singleton.mpr rfl), ?_⟩
    simp [bare, handover, revoked, issued]
  · exact unbought

theorem given_bought {β : Type} {value : Option β} {error : AppError} {k : β → Tx Unit} {hash : String}
    {u : Standing IdentityMap Write Request}
    (onward : ∀ b, value = some b → recounts (Bought hash) (k b) u) :
    recounts (Bought hash) (orRaise value error >>= k) u := by
  cases value with
  | none => exact unbought
  | some b => exact onward b rfl

theorem refresh_bought {cfg : Settings} {hash : String} {draws : TokenDraws} :
    recounts (Bought hash) (TokenRequest.refresh cfg hash draws).program ⟨[], [], default, false⟩ := by
  unfold TokenRequest.program quietly PayCoreAccounts.refresh
  simp only [seq_seq]
  apply seq_recounts
  refine ⟨fun _ s => ?_, unbought⟩
  apply given_bought
  intro token picked
  obtain ⟨found, unrevoked⟩ := Option.filter_eq_some_iff.mp picked
  have presented : token.tokenHash = hash := (find?_some_iff.mp found).2
  subst presented
  cases decide (draws.utcNow ≤ token.expiresAt) with
  | false => exact unbought
  | true =>
    apply seq_recounts
    refine ⟨fun _ later => ?_, unbought⟩
    apply given_bought
    intro user _
    exact rotate_bought rfl (by simpa using unrevoked)

end Answers

variable [DecidableEq ι] {db : Database} {requests : ι → TokenRequest} {T : Signing ι}

theorem answer_logged {C : Signing ι → Action ι PaystackData → Prop}
    (run : Run C (signing db requests) T) {i : ι}
    {hash : String} (presents : (requests i).presents = some hash)
    (answered : (T.session i).prog.returned = true) :
    ∃ ws, (i, ws) ∈ T.log ∧ hash ∈ (handover ws).map Prod.fst := by
  obtain ⟨history, told⟩ := history_of_run (i := i) run
  cases request : requests i with
  | refresh cfg tokenHash draws =>
    rw [request] at presents
    cases presents
    have bought : recounts (Bought hash) (requests i).program ⟨[], [], default, false⟩ := by
      rw [request]
      exact refresh_bought
    have ends : recounts (Bought hash) (T.session i).prog (standing history T i) := by
      apply history_recounts _ _ told
      · exact fun _ _ h => h
      · exact bought
    obtain ⟨a, prog⟩ := returned_ret answered
    rw [prog] at ends
    obtain ⟨ws, committed, among⟩ := ends rfl
    exact ⟨ws, history_logged told committed, among⟩
  | _ =>
    rw [request] at presents
    cases presents

theorem exchanged_apart {log : List (ι × List Write)} (once : ((exchanges log).map Prod.fst).Nodup)
    {i j : ι}
    {left right : List Write} {hash : String} (first : (i, left) ∈ log) (second : (j, right) ∈ log)
    (inLeft : hash ∈ (handover left).map Prod.fst)
    (inRight : hash ∈ (handover right).map Prod.fst) : i = j := by
  rw [exchanges, List.map_flatMap, List.nodup_flatMap] at once
  by_contra apart
  have other : (i, left) ≠ (j, right) := fun same => apart (congrArg Prod.fst same)
  have symmetric : Std.Symm (Function.onFun List.Disjoint
      fun entry : ι × List Write => (handover entry.2).map Prod.fst) :=
    ⟨fun _ _ apart _ right left => apart left right⟩
  have disjoint := once.2.forall first second other
  exact disjoint inLeft inRight

theorem one_line (run : Run (Meets (FirstUses requests)) (signing db requests) T) :
    Lineage (exchanges T.log) (Known T.db) (Live T.db) := by
  have safe : Safe TokenCommit (FirstUses requests) (fun _ _ _ => True) (signing db requests) := by
    apply initial_safe
    intro i
    exact request_secured (requests i) rfl
  have lasting : Lasting TokenCommit (fun (_ : ι) (_ : Except AppError Unit) (_ : Database) => True) :=
    fun _ _ _ _ _ h => h
  refine run_keeps lasting safe run (P := fun log s => Lineage (exchanges log) (Known s) (Live s))
    ?_ lineage_start
  intro i ws log s commit line
  have more : exchanges (log ++ [(i, ws)]) = exchanges log ++ handover ws := by
    simp [exchanges]
  rw [more]
  exact lineage_commit line commit

theorem refresh_tokens_are_single_use (run : Run (Meets (FirstUses requests)) (signing db requests) T) :
    SingleUse requests T := by
  have line := one_line run
  constructor
  · intro i j hash presentsI presentsJ answeredI answeredJ
    obtain ⟨left, first, inLeft⟩ := answer_logged run presentsI answeredI
    obtain ⟨right, second, inRight⟩ := answer_logged run presentsJ answeredJ
    exact exchanged_apart line.once first second inLeft inRight
  · exact List.nodup_iff_count_le_one.mp line.once
  · intro root a b fromA fromB aliveA aliveB
    exact one_living_end line aliveA aliveB fromA fromB

section Theft

def owner : User := { id := 1, email := "alice", hashedPassword := "", fullName := "Alice" }

def stored : RefreshToken := { userId := 1, tokenHash := "t0", expiresAt := 100 }

def tokenDb : Database :=
  { emptyDatabase with
    users := ⟨[owner], by decide⟩
    refreshTokens := ⟨[stored], by decide⟩ }

def drawing (fresh : String) : TokenDraws := ⟨"", "", fresh, 0⟩

def presenting (hash fresh : String) : TokenRequest := .refresh {} hash (drawing fresh)

/-- The owner and a thief present the token at the same time. -/
def both (i : Fin 2) : TokenRequest := presenting "t0" (if i = 0 then "t1" else "t2")

def overlap : List (Action (Fin 2) PaystackData) :=
  [.run 0, .run 1] ++ List.replicate 4 (.run 0) ++ List.replicate 4 (.run 1)

theorem stolen_token_is_used_twice :
    ¬ ∀ (db : Database) (requests : Fin 2 → TokenRequest) (T : Signing (Fin 2)),
    Run Anyhow (signing db requests) T → SingleUse requests T := by
  intro claim
  have computed : (schedule Anyhow (signing tokenDb both) overlap).map (fun T =>
      ((T.session 0).prog.returned, (T.session 1).prog.returned)) = some (true, true) := by decide +kernel
  obtain ⟨T, run, answered⟩ := reached_of_schedule computed
  have same : (0 : Fin 2) = 1 := (claim _ _ T run).answered 0 1 "t0" rfl rfl (congrArg Prod.fst answered)
    (congrArg Prod.snd answered)
  cases same

def again (i : Fin 3) : TokenRequest :=
  if i = 0 then .login {} id (fun _ _ => true) "alice" "" (drawing "t1")
  else presenting "t1" (if i = 1 then "t2" else "t3")

def inTurn : List (Action (Fin 3) PaystackData) :=
  List.replicate 5 (.run 0) ++ [.run 1, .run 1] ++ List.replicate 4 (.run 1) ++ [.run 2]

theorem token_of_a_login_is_used_once : ∃ T : Signing (Fin 3),
    T.db.refreshTokens.rows.map (fun t => (t.tokenHash, t.isRevoked)) =
    [("t0", false), ("t1", true), ("t2", false)] ∧
    SingleUse again T := by
  have computed : (schedule (Meets (FirstUses again)) (signing tokenDb again) inTurn).map (fun T =>
      T.db.refreshTokens.rows.map (fun t => (t.tokenHash, t.isRevoked))) =
      some [("t0", false), ("t1", true), ("t2", false)] := by decide +kernel
  obtain ⟨T, run, values⟩ := reached_of_schedule computed
  exact ⟨T, values, refresh_tokens_are_single_use run⟩

end Theft

end PayCoreSingleUseTokens
