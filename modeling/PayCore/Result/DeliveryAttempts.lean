import PayCore.Proof.DeliveryRules

/- The attempts at one delivery, made by executions that do not overlap: how many POSTs they send
   and when, and what becomes of a record that has failed. -/
namespace PayCoreDeliveryAttempts
open GuardedRuns KeyedTable PayCoreTables PayCoreSessions PayCoreSupport PayCoreWebhooks
open PayCoreDeliveryQueue PayCoreDeliveryRules

variable {w : World} {id : Uuid}

/-- A worker takes up a task of the record only when no execution of it is running, and an execution
    that has sent its POST goes on to its commit. -/
def Apart (id : Uuid) (w : World) : Move → Prop
  | .load k => w.queue[k]? = some id → w.own id = []
  | .fail k _ => ∀ e, w.running[k]? = some e → e.delivery.id = id → e.outcome = none
  | _ => True

/-- A task of the record that comes to its POST has found it pending, with a time that has come. -/
def InTime (id : Uuid) (w : World) : Move → Prop
  | .post k sentAt _ => ∀ e, w.running[k]? = some e → e.toPost = true → e.delivery.id = id →
      e.delivery.status = .pending ∧ ∀ t, e.delivery.nextRetryAt = some t → t ≤ sentAt
  | _ => True

instance (id : Uuid) (w : World) (m : Move) : Decidable (Apart id w m) :=
  match m with
  | .load k => inferInstanceAs (Decidable (w.queue[k]? = some id → w.own id = []))
  | .fail k _ =>
      match here : w.running[k]? with
      | none => .isTrue (by simp [Apart, here])
      | some e => decidable_of_iff (e.delivery.id = id → e.outcome = none) (by simp [Apart, here])
  | .create .. | .configure _ | .sweep .. | .post .. | .commit .. => .isTrue trivial

instance (id : Uuid) (w : World) (m : Move) : Decidable (InTime id w m) :=
  match m with
  | .post k sentAt _ =>
      match here : w.running[k]? with
      | none => .isTrue (by simp [InTime, here])
      | some e =>
          decidable_of_iff (e.toPost = true → e.delivery.id = id →
            e.delivery.status = .pending ∧ e.delivery.nextRetryAt.all (· ≤ sentAt) = true)
            (by simp [InTime, here, Option.all_eq_true])
  | .create .. | .configure _ | .sweep .. | .load _ | .commit .. | .fail .. => .isTrue trivial

def HasFailed (id : Uuid) (w : World) : Prop := ∃ r, w.row id = some r ∧ r.status = .failed

structure Scheduled (id : Uuid) (w : World) : Prop where
  posts : (w.postsOf id).length ≤ maxAttempts
  attempts : ∀ r, w.row id = some r → r.attemptCount ≤ maxAttempts
  backoff : ∀ p ∈ w.postsOf id, ∀ t, p.row.nextRetryAt = some t → t ≤ p.sentAt
  unfailed : ∀ p ∈ w.postsOf id, p.row.status ≠ .failed

/-- After the move the schedule is kept, and a record that has failed is left alone. -/
def Orderly (id : Uuid) (w : World) (m : Move) : Prop :=
  Scheduled id (step w m) ∧
    (HasFailed id w → HasFailed id (step w m) ∧ (step w m).postsOf id = w.postsOf id)

section Phases

def counted (w : World) (id : Uuid) : Nat := (w.row id).elim 0 WebhookDelivery.attemptCount

/-- At most one execution of the record is at work, with a copy that is current. Every POST is
    counted, but for the one whose execution has not committed. -/
inductive Phase (id : Uuid) (w : World) : Prop where
  | idle (own : w.own id = []) (count : (w.postsOf id).length = counted w id)
  | begun (e : Execution) (own : w.own id = [e]) (current : w.row id = some e.delivery)
      (unsent : e.outcome = none) (unfinished : e.delivery.status ≠ .delivered)
      (count : (w.postsOf id).length = e.delivery.attemptCount)
  | sent (e : Execution) (own : w.own id = [e]) (current : w.row id = some e.delivery)
      (made : e.outcome.isSome = true) (pending : e.delivery.status = .pending)
      (count : (w.postsOf id).length = e.delivery.attemptCount + 1)

def Within (r : WebhookDelivery) : Prop :=
  r.attemptCount ≤ maxAttempts ∧ (r.status = .pending → r.attemptCount < maxAttempts)

structure Paced (id : Uuid) (w : World) : Prop where
  phase : Phase id w
  within : ∀ r, w.row id = some r → Within r
  backoff : ∀ p ∈ w.postsOf id, ∀ t, p.row.nextRetryAt = some t → t ≤ p.sentAt
  unfailed : ∀ p ∈ w.postsOf id, p.row.status ≠ .failed

theorem paced_scheduled (paced : Paced id w) : Scheduled id w where
  posts := by
    cases paced.phase with
    | idle own count =>
      rw [count, counted]
      cases found : w.row id with
      | none => exact Nat.zero_le _
      | some r => exact (paced.within r found).1
    | begun e own current unsent unfinished count => exact count ▸ (paced.within _ current).1
    | sent e own current made pending count => exact count ▸ (paced.within _ current).2 pending
  attempts r found := (paced.within r found).1
  backoff := paced.backoff
  unfailed := paced.unfailed

theorem phase_aside {v : World} (row : v.row id = w.row id) (own : (w.own id).Perm (v.own id))
    (posts : v.postsOf id = w.postsOf id) (phase : Phase id w) : Phase id v := by
  cases phase with
  | idle none count =>
    rw [none] at own
    exact .idle (List.nil_perm.mp own) (by rw [posts, count, counted, counted, row])
  | begun e one current unsent unfinished count =>
    rw [one] at own
    exact .begun e (List.singleton_perm.mp own).symm (row.trans current) unsent unfinished (posts ▸ count)
  | sent e one current made pending count =>
    rw [one] at own
    exact .sent e (List.singleton_perm.mp own).symm (row.trans current) made pending (posts ▸ count)

theorem paced_aside {v : World} (row : v.row id = w.row id) (own : (w.own id).Perm (v.own id))
    (posts : v.postsOf id = w.postsOf id) (paced : Paced id w) : Paced id v where
  phase := phase_aside row own posts paced.phase
  within r found := paced.within r (row.symm.trans found)
  backoff := posts ▸ paced.backoff
  unfailed := posts ▸ paced.unfailed

theorem only_own {e f : Execution} {rest : List Execution} (perm : (w.own id).Perm (e :: rest))
    (own : w.own id = [f]) : f = e ∧ rest = [] := by
  rw [own] at perm
  have same := List.singleton_perm.mp perm
  exact ⟨(List.cons.inj same).1, (List.cons.inj same).2.symm⟩

theorem none_own {e : Execution} {rest : List Execution} (perm : (w.own id).Perm (e :: rest)) :
    w.own id ≠ [] := by
  intro none
  rw [none] at perm
  cases List.nil_perm.mp perm

/-- What a current copy commits counts every POST and leaves the record within its attempts. -/
theorem concluded_within {e : Execution} {d : WebhookDelivery} (conclusion : Conclusion e d)
    (within : Within e.delivery) (pending : e.outcome.isSome = true → e.delivery.status = .pending) :
    Within d ∧ d.attemptCount = e.delivery.attemptCount + if e.outcome.isSome then 1 else 0 := by
  cases conclusion with
  | withoutUrl silent =>
    rw [silent]
    exact ⟨⟨within.1, by rintro ⟨⟩⟩, rfl⟩
  | delivered statusCode success =>
    have made : e.outcome.isSome = true := by
      rw [Execution.succeeded, Option.any_eq_true] at success
      obtain ⟨outcome, heard, -⟩ := success
      rw [heard]
      rfl
    have left := within.2 (pending made)
    rw [made]
    exact ⟨⟨left, by rintro ⟨⟩⟩, rfl⟩
  | scheduled responseCode errorMsg nextRetry made failure more =>
    rw [made]
    exact ⟨⟨Nat.le_of_lt more, fun _ => more⟩, rfl⟩
  | exhausted responseCode errorMsg made failure last =>
    have left := within.2 (pending made)
    rw [made]
    exact ⟨⟨left, by rintro ⟨⟩⟩, rfl⟩

end Phases

section Steps
variable {m : Move}

theorem step_paced (paced : Paced id w) (apart : Apart id w m) (inTime : InTime id w m) :
    Paced id (step w m) := by
  cases view w id m with
  | aside row own posts => exact paced_aside row own posts paced
  | created merchant transactionId eventType reachable move free url row own posts =>
    constructor
    · cases paced.phase with
      | idle none count =>
        refine .idle (own.trans none) ?_
        rw [posts, count, counted, counted, free, row]
        rfl
      | begun e one current unsent unfinished count =>
        rw [free] at current
        cases current
      | sent e one current made pending count =>
        rw [free] at current
        cases current
    · intro r found
      rw [row] at found
      cases found
      exact ⟨Nat.zero_le _, fun _ => (by decide : 0 < maxAttempts)⟩
    · exact posts ▸ paced.backoff
    · exact posts ▸ paced.unfailed
  | loaded k e move taken current fresh unfinished row own posts =>
    subst move
    have alone := apart taken
    rw [alone] at own
    constructor
    · cases paced.phase with
      | idle none count =>
        refine .begun e own (row.trans current) fresh unfinished ?_
        rw [posts, count, counted, current]
        rfl
      | begun f one => simp [alone] at one
      | sent f one => simp [alone] at one
    · intro r found
      exact paced.within r (row.symm.trans found)
    · exact posts ▸ paced.backoff
    · exact posts ▸ paced.unfailed
  | posted k sentAt outcome e move here mine ready rest before own row posts =>
    subst move
    obtain ⟨pending, timely⟩ := inTime e here ready mine
    have unsent : e.outcome = none := by
      simp only [Execution.toPost, Bool.and_eq_true, Option.isNone_iff_eq_none] at ready
      exact ready.2
    cases paced.phase with
    | idle none count => exact absurd none (none_own before)
    | begun f one current _ unfinished count =>
      obtain ⟨rfl, rfl⟩ := only_own before one
      rw [current, Option.getD_some] at posts
      constructor
      · refine .sent { f with outcome := some outcome } own (row.trans current) rfl pending ?_
        rw [posts, List.length_append, count]
        rfl
      · intro r found
        exact paced.within r (row.symm.trans found)
      · intro p mem
        rw [posts] at mem
        rcases List.mem_append.mp mem with old | new
        · exact paced.backoff p old
        · rw [List.mem_singleton.mp new]
          exact timely
      · intro p mem
        rw [posts] at mem
        rcases List.mem_append.mp mem with old | new
        · exact paced.unfailed p old
        · rw [List.mem_singleton.mp new]
          simp [pending]
    | sent f one current made =>
      obtain ⟨rfl, rfl⟩ := only_own before one
      simp [unsent] at made
  | committed k utcNow e move here mine ready own row posts =>
    have conclusion := conclusion_of e utcNow
    have committed (current : w.row id = some e.delivery)
        (pending : e.outcome.isSome = true → e.delivery.status = .pending) (none : (step w m).own id = [])
        (count : (w.postsOf id).length = e.delivery.attemptCount + if e.outcome.isSome then 1 else 0) :
        Paced id (step w m) := by
      obtain ⟨within, counts⟩ := concluded_within conclusion (paced.within _ current) pending
      rw [current, Option.map_some, overwrite_current conclusion] at row
      constructor
      · refine .idle none ?_
        rw [posts, count, counted, row]
        exact counts.symm
      · intro r found
        rw [row] at found
        cases found
        exact within
      · exact posts ▸ paced.backoff
      · exact posts ▸ paced.unfailed
    cases paced.phase with
    | idle none count => exact absurd none (none_own own)
    | begun f one current unsent unfinished count =>
      obtain ⟨rfl, rest⟩ := only_own own one
      exact committed current (by simp [unsent]) rest (by simp [unsent, count])
    | sent f one current made pending count =>
      obtain ⟨rfl, rest⟩ := only_own own one
      exact committed current (fun _ => pending) rest (by simp [made, count])
  | failed k redelivered e move here mine own row posts =>
    subst move
    have unsent := apart e here mine
    constructor
    · cases paced.phase with
      | idle none count => exact absurd none (none_own own)
      | begun f one current _ unfinished count =>
        obtain ⟨rfl, rest⟩ := only_own own one
        refine .idle rest ?_
        rw [posts, count, counted, row, current]
        rfl
      | sent f one current made =>
        obtain ⟨rfl, rest⟩ := only_own own one
        simp [unsent] at made
    · intro r found
      exact paced.within r (row.symm.trans found)
    · exact posts ▸ paced.backoff
    · exact posts ▸ paced.unfailed

theorem failed_stays (paced : Paced id w) (inTime : InTime id w m) (failed : HasFailed id w) :
    HasFailed id (step w m) ∧ (step w m).postsOf id = w.postsOf id := by
  obtain ⟨r, found, status⟩ := failed
  cases view w id m with
  | aside row own posts => exact ⟨⟨r, row.trans found, status⟩, posts⟩
  | created merchant transactionId eventType reachable move free url row own posts =>
    rw [free] at found
    cases found
  | loaded k e move taken current fresh unfinished row own posts =>
      exact ⟨⟨r, row.trans found, status⟩, posts⟩
  | posted k sentAt outcome e move here mine ready rest before own row posts =>
    subst move
    obtain ⟨pending, -⟩ := inTime e here ready mine
    have current : w.row id = some e.delivery := by
      cases paced.phase with
      | idle none => exact absurd none (none_own before)
      | begun f one current => exact (only_own before one).1 ▸ current
      | sent f one current => exact (only_own before one).1 ▸ current
    rw [current] at found
    cases found
    simp [pending] at status
  | committed k utcNow e move here mine ready own row posts =>
    cases paced.phase with
    | idle none count => exact absurd none (none_own own)
    | begun f one current unsent =>
      obtain ⟨rfl, -⟩ := only_own own one
      have closed : concluded f utcNow = withoutUrl f.delivery := by simp [concluded, unsent]
      rw [current, Option.map_some, overwrite_current (conclusion_of f utcNow), closed] at row
      exact ⟨⟨_, row, rfl⟩, posts⟩
    | sent f one current made pending =>
      rw [current] at found
      cases found
      simp [pending] at status
  | failed k redelivered e move here mine own row posts => exact ⟨⟨r, row.trans found, status⟩, posts⟩

theorem step_orderly (paced : Paced id w) (apart : Apart id w m) : InTime id w m ↔ Orderly id w m := by
  constructor
  · intro inTime
    exact ⟨paced_scheduled (step_paced paced apart inTime), failed_stays paced inTime⟩
  · rintro ⟨scheduled, -⟩
    cases m with
    | post k sentAt outcome =>
      intro e here ready mine
      have one : e ∈ w.own id := mem_own.mpr ⟨List.mem_of_getElem? here, mine⟩
      have known : w.row id = some e.delivery ∧ e.delivery.status ≠ .delivered := by
        cases paced.phase with
        | idle none => simp [none] at one
        | begun f own current unsent unfinished =>
          rw [own, List.mem_singleton] at one
          exact one ▸ ⟨current, unfinished⟩
        | sent f own current made pending =>
          rw [own, List.mem_singleton] at one
          subst one
          exact ⟨current, by simp [pending]⟩
      have posts := posts_sent here ready mine sentAt outcome
      rw [known.1, Option.getD_some] at posts
      have sent : ⟨e.delivery, sentAt, outcome⟩ ∈ (step w (.post k sentAt outcome)).postsOf id := by
        change _ ∈ (w.post k sentAt outcome).postsOf id
        rw [posts]
        exact List.mem_append_right _ (List.mem_singleton.mpr rfl)
      have unfailed := scheduled.unfailed _ sent
      refine ⟨?_, scheduled.backoff _ sent⟩
      cases status : e.delivery.status with
      | pending => rfl
      | delivered => exact absurd status known.2
      | failed => exact absurd status unfailed
    | _ => trivial

end Steps

theorem unused_paced (unused : w.Unused) (id : Uuid) : Paced id w := by
  obtain ⟨rows, queue, running, posts⟩ := unused
  have free : w.row id = none := by
    rw [World.row, find?_none_iff, rows]
    simp
  have unsent : w.postsOf id = [] := by simp [World.postsOf, posts]
  constructor
  · exact .idle (by simp [World.own, running]) (by simp [unsent, counted, free])
  · simp [free]
  · simp [unsent]
  · simp [unsent]

theorem attempts_keep_to_the_schedule (unused : w.Unused) (id : Uuid) (moves : List Move)
    (apart : Along step (Apart id) w moves) :
    Along step (Orderly id) w moves ↔ Along step (InTime id) w moves := by
  have both : Along step (fun w m => Apart id w m ∧ InTime id w m) w moves ↔
      Along step (fun w m => Apart id w m ∧ Orderly id w m) w moves := by
    apply along_iff (I := Paced id) _ _ (unused_paced unused id)
    · rintro w m paced ⟨apart, inTime⟩
      exact step_paced paced apart inTime
    · intro w m paced
      exact and_congr_right fun apart => step_orderly paced apart
  rw [along_and, along_and, and_iff_right apart, and_iff_right apart] at both
  exact both.symm

section Runs

def shopWorld : World := { db := { emptyDatabase with merchants := emptyDatabase.merchants.insert shop } }

def anyOrder : RowOrder := ⟨fun rows => rows, fun _ => .refl _⟩

def attemptAt (n : Nat) (outcome : Outcome) : List Move :=
  [.load 0, .post 0 (minutes n) outcome, .commit 0 (minutes n)]

def sweepAt (n : Nat) : Move := .sweep anyOrder (minutes n) fun _ => true

/-- Refused at once, and accepted when the first sweep has enqueued it again. -/
def retried : List Move :=
  .create shop 5 7 "payment.received" true :: attemptAt 0 (.response 500) ++
    sweepAt 5 :: attemptAt 6 (.response 200)

theorem retried_keeps_to_the_schedule : Along step (Orderly 7) shopWorld retried :=
  (attempts_keep_to_the_schedule ⟨rfl, rfl, rfl, rfl⟩ 7 retried (by decide +kernel)).mpr (by decide +kernel)

/-- Six sweeps enqueue the record before a worker is free. Five of their tasks use up its attempts. -/
def backlog : List Move :=
  .create shop 5 7 "payment.received" true :: attemptAt 0 (.response 500) ++
    [sweepAt 5, sweepAt 10, sweepAt 15, sweepAt 20, sweepAt 25, sweepAt 30] ++
    (List.range 5).flatMap fun n => attemptAt (31 + n) (.response 500)

/-- The last task sends a seventh POST for the record that has failed, and turns it DELIVERED. -/
theorem backlog_outlives_failure :
    shopWorld.Unused ∧ Along step (Apart 7) shopWorld (backlog ++ attemptAt 36 (.response 200)) ∧
      (((run step shopWorld backlog).row 7).map WebhookDelivery.status = some .failed) ∧
      (((run step shopWorld (backlog ++ attemptAt 36 (.response 200))).row 7).map fun r =>
        (r.status, r.attemptCount)) = some (.delivered, 7) ∧
      ¬Along step (Orderly 7) shopWorld (backlog ++ attemptAt 36 (.response 200)) := by
  refine ⟨⟨rfl, rfl, rfl, rfl⟩, by decide +kernel, by decide +kernel, by decide +kernel, fun orderly => ?_⟩
  obtain ⟨-, loaded, posted, -⟩ := along_append.mp orderly
  have failed : HasFailed 7 (run step shopWorld backlog) := by
    have status : ((run step shopWorld backlog).row 7).map WebhookDelivery.status = some .failed := by
      decide +kernel
    obtain ⟨r, found, failed⟩ := Option.map_eq_some_iff.mp status
    exact ⟨r, found, failed⟩
  have silent := (posted.2 (loaded.2 failed).1).2
  exact absurd silent (by decide +kernel)

end Runs

end PayCoreDeliveryAttempts
