import PayCore.Result.DeliveryAttempts

/- One delivery under executions that overlap in any way: how many POSTs the merchant accepts, and
   what later commits make of a record that is DELIVERED. -/
namespace PayCoreDeliveredOnce
open GuardedRuns KeyedTable PayCoreTables PayCoreSessions PayCoreSupport PayCoreWebhooks
open PayCoreDeliveryQueue PayCoreDeliveryRules PayCoreDeliveryAttempts

variable {w : World} {id : Uuid} {m : Move}

def GoesOn (id : Uuid) (w : World) : Move → Prop
  | .fail k _ => ∀ e, w.running[k]? = some e → e.delivery.id = id → e.outcome = none
  | _ => True

/-- No execution acts on a stale copy. It POSTs while its copy is the row and no other has POSTed without
    having committed, and it commits while its copy is still the row. -/
def Current (id : Uuid) (w : World) : Move → Prop
  | .post k _ _ => ∀ e, w.running[k]? = some e → e.toPost = true → e.delivery.id = id →
      w.row id = some e.delivery ∧ ∀ f ∈ w.own id, f.outcome = none
  | .commit k _ => ∀ e, w.running[k]? = some e → e.toPost = false → e.delivery.id = id →
      w.row id = some e.delivery
  | _ => True

instance (id : Uuid) (w : World) (m : Move) : Decidable (GoesOn id w m) :=
  match m with
  | .fail k redelivered => inferInstanceAs (Decidable (Apart id w (.fail k redelivered)))
  | .create .. | .configure _ | .sweep .. | .load _ | .post .. | .commit .. => .isTrue trivial

instance (id : Uuid) (w : World) (m : Move) : Decidable (Current id w m) :=
  match m with
  | .post k _ _ =>
      match here : w.running[k]? with
      | none => .isTrue (by simp [Current, here])
      | some e =>
          decidable_of_iff (e.toPost = true → e.delivery.id = id →
            w.row id = some e.delivery ∧ ∀ f ∈ w.own id, f.outcome = none)
            (by simp [Current, here])
  | .commit k _ =>
      match here : w.running[k]? with
      | none => .isTrue (by simp [Current, here])
      | some e =>
          decidable_of_iff (e.toPost = false → e.delivery.id = id → w.row id = some e.delivery)
            (by simp [Current, here])
  | .create .. | .configure _ | .sweep .. | .load _ | .fail .. => .isTrue trivial

def accepted (w : World) (id : Uuid) : Nat := (w.postsOf id).countP fun p => p.outcome.succeeded

structure DeliveredOnce (id : Uuid) (w : World) : Prop where
  once : accepted w id ≤ 1
  unscheduled : ∀ r, w.row id = some r → r.status = .delivered → r.nextRetryAt = none

/-- After the move the record is delivered once at most, and stays so. -/
def Final (id : Uuid) (w : World) (m : Move) : Prop :=
  DeliveredOnce id (step w m) ∧ ∀ r, w.row id = some r → r.status = .delivered →
    ∃ s, (step w m).row id = some s ∧ s.status = .delivered

section Tallies

def isDelivered (w : World) (id : Uuid) : Bool := (w.row id).any fun r => r.status = .delivered

def unsaved (w : World) (id : Uuid) : Nat := (w.own id).countP Execution.succeeded

/-- Every success is committed or is still held by its execution. -/
structure Tallied (id : Uuid) (w : World) : Prop where
  tally : accepted w id = (isDelivered w id).toNat + unsaved w id
  delivered : DeliveredOnce id w
  copies : ∀ e ∈ w.own id, e.delivery.status ≠ .delivered ∧ ∃ r, w.row id = some r

theorem isDelivered_false (other : ∀ r, w.row id = some r → r.status ≠ .delivered) :
    isDelivered w id = false := by
  cases found : w.row id with
  | none => simp [isDelivered, found]
  | some r => simp [isDelivered, found, other r found]

theorem unsent_unsuccessful {e : Execution} (unsent : e.outcome = none) : e.succeeded = false := by
  simp [Execution.succeeded, unsent]

theorem toPost_unsuccessful {e : Execution} (ready : e.toPost = true) : e.succeeded = false := by
  simp only [Execution.toPost, Bool.and_eq_true, Option.isNone_iff_eq_none] at ready
  exact unsent_unsuccessful ready.2

theorem tallied_aside {v : World} (row : v.row id = w.row id) (own : (w.own id).Perm (v.own id))
    (posts : v.postsOf id = w.postsOf id) (tallied : Tallied id w) : Tallied id v where
  tally := by
    have counts := tallied.tally
    unfold accepted isDelivered unsaved at counts ⊢
    rw [row, posts, counts, own.countP_eq]
  delivered := by
    refine ⟨?_, fun r found => tallied.delivered.unscheduled r (row.symm.trans found)⟩
    rw [accepted, posts]
    exact tallied.delivered.once
  copies e mem := by
    rw [row]
    exact tallied.copies e (own.mem_iff.mpr mem)

theorem success_concludes {e : Execution} {d : WebhookDelivery} (conclusion : Conclusion e d)
    (success : e.succeeded = true) : d.status = .delivered ∧ d.nextRetryAt = none := by
  cases conclusion with
  | withoutUrl silent => simp [unsent_unsuccessful silent] at success
  | scheduled responseCode errorMsg nextRetry made failure more => simp [success] at failure
  | exhausted responseCode errorMsg made failure last => simp [success] at failure
  | delivered statusCode _ => exact ⟨rfl, rfl⟩

theorem failure_concludes {e : Execution} {d : WebhookDelivery} (conclusion : Conclusion e d)
    (failure : e.succeeded = false) (unfinished : e.delivery.status ≠ .delivered) :
    d.status ≠ .delivered := by
  cases conclusion with
  | withoutUrl silent => simp [withoutUrl]
  | delivered statusCode success => simp [failure] at success
  | scheduled responseCode errorMsg nextRetry made _ more => exact unfinished
  | exhausted responseCode errorMsg made _ last => simp [exhausted]

end Tallies

section Steps

theorem step_tallied (tallied : Tallied id w) (goesOn : GoesOn id w m) (current : Current id w m) :
    Tallied id (step w m) := by
  have counts := tallied.tally
  have once := tallied.delivered.once
  cases view w id m with
  | aside row own posts => exact tallied_aside row own posts tallied
  | created merchant transactionId eventType reachable move free url row own posts =>
    have before : isDelivered w id = false := isDelivered_false (by simp [free])
    have after : isDelivered (step w m) id = false := isDelivered_false (by simp [row, opened])
    constructor
    · rw [before] at counts
      rw [after, accepted, unsaved, posts, own]
      exact counts
    · refine ⟨by rw [accepted, posts]; exact once, ?_⟩
      intro r found status
      rw [row] at found
      cases found
      rfl
    · intro e mem
      rw [own] at mem
      exact ⟨(tallied.copies e mem).1, _, row⟩
  | loaded k e move taken stored fresh unfinished row own posts =>
    have same : isDelivered (step w m) id = isDelivered w id := by rw [isDelivered, isDelivered, row]
    have held : unsaved (step w m) id = unsaved w id := by
      rw [unsaved, own, List.countP_append, ← unsaved]
      simp [unsent_unsuccessful fresh]
    constructor
    · rw [same, held, accepted, posts, ← accepted, counts]
    · refine ⟨by rw [accepted, posts]; exact once, fun r found => ?_⟩
      exact tallied.delivered.unscheduled r (row.symm.trans found)
    · intro f mem
      rw [own] at mem
      rw [row]
      rcases List.mem_append.mp mem with old | new
      · exact tallied.copies f old
      · rw [List.mem_singleton.mp new]
        exact ⟨unfinished, _, stored⟩
  | posted k sentAt outcome e move here mine ready rest before own row posts =>
    subst move
    obtain ⟨own_copy, idle⟩ := current e here ready mine
    -- The copy has passed the guard, and it is the row.
    obtain ⟨unfinished, _⟩ := tallied.copies e (before.mem_iff.mpr List.mem_cons_self)
    have none : accepted w id = 0 := by
      have held : unsaved w id = 0 :=
        List.countP_eq_zero.mpr fun f mem => by simp [unsent_unsuccessful (idle f mem)]
      rw [counts, held]
      simp [isDelivered, own_copy, unfinished]
    have kept : unsaved w id = rest.countP Execution.succeeded := by
      rw [unsaved, before.countP_eq, List.countP_cons, toPost_unsuccessful ready]
      rfl
    have held : unsaved (step w (.post k sentAt outcome)) id = unsaved w id + outcome.succeeded.toNat := by
      rw [unsaved, own, List.countP_append, kept]
      cases up : outcome.succeeded <;> simp [up, Execution.succeeded]
    have same : isDelivered (step w (.post k sentAt outcome)) id = isDelivered w id := by
      rw [isDelivered, isDelivered, row]
    have added : accepted (step w (.post k sentAt outcome)) id =
        accepted w id + outcome.succeeded.toNat := by
      rw [accepted, posts, List.countP_append, ← accepted]
      cases up : outcome.succeeded <;> simp [up]
    constructor
    · rw [added, counts, same, held]
      omega
    · refine ⟨?_, fun r found => tallied.delivered.unscheduled r (row.symm.trans found)⟩
      rw [added, none]
      cases outcome.succeeded <;> decide
    · intro f mem
      rw [own] at mem
      rw [row]
      rcases List.mem_append.mp mem with old | new
      · exact tallied.copies f (before.mem_iff.mpr (List.mem_cons_of_mem _ old))
      · rw [List.mem_singleton.mp new]
        exact tallied.copies e (before.mem_iff.mpr List.mem_cons_self)
  | committed k utcNow e move here mine ready own row posts =>
    subst move
    have conclusion := conclusion_of e utcNow
    obtain ⟨unfinished, _⟩ := tallied.copies e (own.mem_iff.mpr List.mem_cons_self)
    have own_copy := current e here ready mine
    rw [own_copy, Option.map_some, overwrite_current conclusion] at row
    have before : isDelivered w id = false := by simp [isDelivered, own_copy, unfinished]
    have held : unsaved w id = unsaved (step w (.commit k utcNow)) id + e.succeeded.toNat := by
      rw [unsaved, own.countP_eq, List.countP_cons, ← unsaved]
      cases e.succeeded <;> rfl
    have copies : ∀ f ∈ (step w (.commit k utcNow)).own id,
        f.delivery.status ≠ .delivered ∧ ∃ s, (step w (.commit k utcNow)).row id = some s := by
      intro f mem
      exact ⟨(tallied.copies f (own.mem_iff.mpr (List.mem_cons_of_mem _ mem))).1, _, row⟩
    rw [before, held] at counts
    cases success : e.succeeded with
    | true =>
      obtain ⟨status, unscheduled⟩ := success_concludes conclusion success
      constructor
      · rw [accepted, posts, ← accepted, counts, isDelivered, row, success]
        simp [status, Nat.add_comm]
      · refine ⟨by rw [accepted, posts]; exact once, ?_⟩
        intro s later _
        rw [row] at later
        cases later
        exact unscheduled
      · exact copies
    | false =>
      have status := failure_concludes conclusion success unfinished
      constructor
      · rw [accepted, posts, ← accepted, counts, isDelivered, row, success]
        simp [status]
      · refine ⟨by rw [accepted, posts]; exact once, ?_⟩
        intro s later delivered
        rw [row] at later
        cases later
        exact absurd delivered status
      · exact copies
  | failed k redelivered e move here mine own row posts =>
    subst move
    have unsuccessful := unsent_unsuccessful (goesOn e here mine)
    have same : isDelivered (step w (.fail k redelivered)) id = isDelivered w id := by
      rw [isDelivered, isDelivered, row]
    constructor
    · rw [same, accepted, posts, ← accepted, counts, unsaved, own.countP_eq, List.countP_cons, unsuccessful]
      rfl
    · refine ⟨by rw [accepted, posts]; exact once, fun r found => ?_⟩
      exact tallied.delivered.unscheduled r (row.symm.trans found)
    · intro f mem
      rw [row]
      exact tallied.copies f (own.mem_iff.mpr (List.mem_cons_of_mem _ mem))

theorem step_final (tallied : Tallied id w) (goesOn : GoesOn id w m) (current : Current id w m) :
    Final id w m := by
  refine ⟨(step_tallied tallied goesOn current).delivered, fun r found status => ?_⟩
  have unchanged (row : (step w m).row id = w.row id) :
      ∃ s, (step w m).row id = some s ∧ s.status = .delivered := ⟨r, row.trans found, status⟩
  cases view w id m with
  | aside row own posts => exact unchanged row
  | created merchant transactionId eventType reachable move free url row own posts =>
    rw [free] at found
    cases found
  | loaded k e move taken stored fresh unfinished row own posts => exact unchanged row
  | posted k sentAt outcome e move here mine ready rest before own row posts => exact unchanged row
  | committed k utcNow e move here mine ready own row posts =>
    subst move
    rw [current e here ready mine] at found
    cases found
    exact absurd status (tallied.copies e (own.mem_iff.mpr List.mem_cons_self)).1
  | failed k redelivered e move here mine own row posts => exact unchanged row

theorem unused_tallied (unused : w.Unused) (id : Uuid) : Tallied id w := by
  obtain ⟨rows, queue, running, posts⟩ := unused
  have free : w.row id = none := by
    rw [World.row, find?_none_iff, rows]
    simp
  have unsent : accepted w id = 0 := by simp [accepted, World.postsOf, posts]
  have idle : w.own id = [] := by simp [World.own, running]
  constructor
  · simp [unsent, isDelivered, free, unsaved, idle]
  · exact ⟨by simp [unsent], by simp [free]⟩
  · simp [idle]

end Steps

/-- While no execution acts on a stale copy, the guard of the task lets one POST at most succeed, and a
    DELIVERED record stays as it is. -/
theorem delivered_at_most_once (unused : w.Unused) (id : Uuid) (moves : List Move)
    (goesOn : Along step (GoesOn id) w moves) (current : Along step (Current id) w moves) :
    Along step (Final id) w moves := by
  apply along_mono (I := Tallied id) _ _ (unused_tallied unused id) (along_and.mpr ⟨goesOn, current⟩)
  · rintro w m tallied ⟨goesOn, current⟩
    exact step_tallied tallied goesOn current
  · rintro w m tallied ⟨goesOn, current⟩
    exact step_final tallied goesOn current

section Apart

/-- The only execution of the record has a copy that is current. -/
def Sole (id : Uuid) (w : World) : Prop :=
  w.own id = [] ∨ ∃ e, w.own id = [e] ∧ w.row id = some e.delivery

theorem sole_aside {v : World} (row : v.row id = w.row id) (own : (w.own id).Perm (v.own id))
    (sole : Sole id w) : Sole id v := by
  rcases sole with none | ⟨e, one, current⟩
  · rw [none] at own
    exact .inl (List.nil_perm.mp own)
  · rw [one] at own
    exact .inr ⟨e, (List.singleton_perm.mp own).symm, row.trans current⟩

theorem sole_current (sole : Sole id w) {e : Execution} {rest : List Execution}
    (perm : (w.own id).Perm (e :: rest)) : w.own id = [e] ∧ rest = [] ∧ w.row id = some e.delivery := by
  rcases sole with none | ⟨f, one, current⟩
  · exact absurd none (none_own perm)
  · obtain ⟨rfl, empty⟩ := only_own perm one
    exact ⟨one, empty, current⟩

theorem step_sole (sole : Sole id w) (apart : Apart id w m) : Sole id (step w m) := by
  cases view w id m with
  | aside row own posts => exact sole_aside row own sole
  | created merchant transactionId eventType reachable move free url row own posts =>
    rcases sole with none | ⟨e, one, current⟩
    · exact .inl (own.trans none)
    · rw [free] at current
      cases current
  | loaded k e move taken current fresh unfinished row own posts =>
    subst move
    rw [apart taken] at own
    exact .inr ⟨e, own, row.trans current⟩
  | posted k sentAt outcome e move here mine ready rest before own row posts =>
    obtain ⟨one, empty, current⟩ := sole_current sole before
    rw [empty] at own
    exact .inr ⟨_, own, row.trans current⟩
  | committed k utcNow e move here mine ready own row posts => exact .inl (sole_current sole own).2.1
  | failed k redelivered e move here mine own row posts => exact .inl (sole_current sole own).2.1

theorem apart_current (sole : Sole id w) (apart : Apart id w m) : GoesOn id w m ∧ Current id w m := by
  cases m with
  | post k sentAt outcome =>
    refine ⟨trivial, fun e here ready mine => ?_⟩
    obtain ⟨one, -, current⟩ := sole_current sole (own_mine here mine)
    refine ⟨current, fun f mem => ?_⟩
    rw [one, List.mem_singleton] at mem
    simp only [Execution.toPost, Bool.and_eq_true, Option.isNone_iff_eq_none] at ready
    rw [mem]
    exact ready.2
  | commit k utcNow =>
    refine ⟨trivial, fun e here ready mine => ?_⟩
    exact (sole_current sole (own_mine here mine)).2.2
  | fail k redelivered => exact ⟨apart, trivial⟩
  | _ => exact ⟨trivial, trivial⟩

/-- Executions that do not overlap never act on a stale copy. -/
theorem apart_delivered_once (unused : w.Unused) (id : Uuid) (moves : List Move)
    (apart : Along step (Apart id) w moves) : Along step (Final id) w moves := by
  have initially : Sole id w := by
    obtain ⟨-, -, running, -⟩ := unused
    exact .inl (by simp [World.own, running])
  have fine := along_mono (I := Sole id) (fun _ _ => step_sole) (fun _ _ => apart_current) initially apart
  obtain ⟨goesOn, current⟩ := along_and.mp fine
  exact delivered_at_most_once unused id moves goesOn current

end Apart

section Runs

/-- Three sweeps enqueue a record before a worker is free. -/
def enqueuedThrice : List Move :=
  .create shop 5 7 "payment.received" true :: attemptAt 0 (.response 500) ++ [sweepAt 5, sweepAt 10,
    sweepAt 15]

/-- A second worker has loaded the record when the first POSTs, and loses its connection; the
success comes later. -/
def takingTurns : List Move :=
  enqueuedThrice ++ [.load 0, .load 0, .post 0 (minutes 16) (.response 503), .commit 1 (minutes 16),
    .fail 0 true,
    .load 0, .post 0 (minutes 27) (.response 200), .commit 0 (minutes 27), .load 0]

theorem takingTurns_delivered_once :
    accepted (run step shopWorld takingTurns) 7 = 1 ∧ Along step (Final 7) shopWorld takingTurns := by
  refine ⟨by decide +kernel, ?_⟩
  exact delivered_at_most_once ⟨rfl, rfl, rfl, rfl⟩ 7 takingTurns (by decide +kernel) (by decide +kernel)

/-- All of them overlap: two are answered with success, and the third commits last. -/
def racing : List Move :=
  enqueuedThrice ++ [.load 0, .load 0, .load 0, .post 0 (minutes 16) (.response 200),
    .post 0 (minutes 16) (.response 200), .post 0 (minutes 16) (.response 500), .commit 0 (minutes 16),
    .commit 0 (minutes 16)]

theorem racing_delivered_twice :
    shopWorld.Unused ∧ Along step (GoesOn 7) shopWorld (racing ++ [.commit 0 (minutes 17)]) ∧
      (((run step shopWorld (racing ++ [.commit 0 (minutes 17)])).row 7).map fun r =>
        (r.status, r.nextRetryAt)) = some (.delivered, some (minutes 21)) ∧
      ¬Along step (Final 7) shopWorld (racing ++ [.commit 0 (minutes 17)]) := by
  refine ⟨⟨rfl, rfl, rfl, rfl⟩, by decide +kernel, by decide +kernel, fun final => ?_⟩
  have once := (along_append.mp final).2.1.1.once
  exact absurd once (by decide +kernel)

end Runs

end PayCoreDeliveredOnce
