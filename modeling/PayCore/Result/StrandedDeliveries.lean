import PayCore.Proof.DeliveryRules

/- No delivery is stranded: one that is still pending has a task, or the sweep will find it. -/
namespace PayCoreStrandedDeliveries
open GuardedRuns KeyedTable PayCoreTables PayCoreSessions PayCoreSupport PayCoreWebhooks
open PayCoreDeliveryQueue PayCoreDeliveryRules

def Tasked (w : World) (deliveryId : Uuid) : Prop :=
  deliveryId ∈ w.queue ∨ ∃ e ∈ w.running, e.delivery.id = deliveryId

/-- From some time on every sweep may select the record. -/
def Awaited (r : WebhookDelivery) : Prop :=
  ∃ t, r.nextRetryAt = some t ∧ ∀ now, t ≤ now → due now r = true

def NoneStranded (w : World) : Prop :=
  ∀ r ∈ w.db.webhookDeliveries.rows, r.status = .pending → Tasked w r.id ∨ Awaited r

/-- Pending with no time for a retry. The model's comment has it that NULL means "enqueue immediately". -/
def Immediate (r : WebhookDelivery) : Prop := r.status = .pending ∧ r.nextRetryAt = none

instance (r : WebhookDelivery) : Decidable (Immediate r) :=
  inferInstanceAs (Decidable (_ ∧ _))

/-- The new record's task reaches the broker, and no execution fails that holds the only task of a
    record that no sweep looks for. -/
def KeepsTask (w : World) : Move → Prop
  | .create merchant _ deliveryId _ reachable =>
      w.row deliveryId = none → truthy merchant.webhookUrl = true → reachable = true
  | .fail k redelivered =>
      ∀ e, w.running[k]? = some e → redelivered = true ∨ e.delivery.id ∈ w.queue ∨
        (∃ f ∈ w.running.eraseIdx k, f.delivery.id = e.delivery.id) ∨
        ∀ r, w.row e.delivery.id = some r → ¬Immediate r
  | _ => True

theorem awaited_iff {r : WebhookDelivery} (pending : r.status = .pending) : Awaited r ↔ ¬Immediate r := by
  unfold Awaited Immediate
  cases next : r.nextRetryAt with
  | none => simp [pending]
  | some t => simp [pending, due, next]

theorem noneStranded_iff {w : World} :
    NoneStranded w ↔ ∀ id r, w.row id = some r → Immediate r → Tasked w id := by
  constructor
  · intro none id r found now
    obtain ⟨mem, same⟩ := find?_some_iff.mp found
    cases none r mem now.1 with
    | inl tasked => exact same ▸ tasked
    | inr awaited => exact absurd now ((awaited_iff now.1).mp awaited)
  · intro tasked r mem pending
    by_cases now : Immediate r
    · exact .inl (tasked r.id r (find?_some_iff.mpr ⟨mem, rfl⟩) now)
    · exact .inr ((awaited_iff pending).mpr now)

section Rows

structure Onward (r s : WebhookDelivery) : Prop where
  settled : r.status ≠ .pending → s.status ≠ .pending
  scheduled : ¬Immediate r → ¬Immediate s

theorem onward_refl (r : WebhookDelivery) : Onward r r := ⟨id, id⟩

theorem onward_trans {r s t : WebhookDelivery} (first : Onward r s) (next : Onward s t) : Onward r t :=
  ⟨next.settled ∘ first.settled, next.scheduled ∘ first.scheduled⟩

/-- An execution that commits, however old its copy, leaves a record that is not immediate. -/
theorem commit_settles {e : Execution} {d r : WebhookDelivery} (conclusion : Conclusion e d)
    (copied : Onward e.delivery r) :
    Onward r (overwrite e.delivery d r) ∧ ¬Immediate (overwrite e.delivery d r) := by
  -- A conclusion that settles the record writes the status, unless the copy was settled before.
  have closes : d.status ≠ .pending → (overwrite e.delivery d r).status ≠ .pending := by
    intro closed
    rw [overwrite_status]
    split
    · rename_i clean
      exact copied.settled (clean ▸ closed)
    · exact closed
  have closed : d.status ≠ .pending →
      Onward r (overwrite e.delivery d r) ∧ ¬Immediate (overwrite e.delivery d r) := by
    intro final
    have settled := closes final
    exact ⟨⟨fun _ => settled, fun _ now => settled now.1⟩, fun now => settled now.1⟩
  cases conclusion with
  | withoutUrl silent => exact closed (by simp [withoutUrl])
  | delivered statusCode success => exact closed (by simp [delivered])
  | exhausted responseCode errorMsg made failure last => exact closed (by simp [exhausted])
  | scheduled responseCode errorMsg nextRetry made failure more =>
    have status : (overwrite e.delivery (scheduled e.delivery responseCode errorMsg nextRetry) r).status =
        r.status := by
      rw [overwrite_status]
      simp [PayCoreWebhooks.scheduled]
    have dated :
        ¬Immediate (overwrite e.delivery (scheduled e.delivery responseCode errorMsg nextRetry) r) := by
      rintro ⟨pending, bare⟩
      rw [status] at pending
      rw [overwrite_nextRetryAt] at bare
      split at bare
      · rename_i clean
        -- The copy had that time already, so that the row has one too.
        have held : ¬Immediate e.delivery := by
          rintro ⟨-, nothing⟩
          rw [nothing] at clean
          simp [PayCoreWebhooks.scheduled] at clean
        exact copied.scheduled held ⟨pending, bare⟩
      · simp [PayCoreWebhooks.scheduled] at bare
    exact ⟨⟨fun settled => by rw [status]; exact settled, fun _ => dated⟩, dated⟩

end Rows

structure Sound (w : World) : Prop where
  queued : ∀ id ∈ w.queue, ∃ r, w.row id = some r
  copied : ∀ e ∈ w.running, ∃ r, w.row e.delivery.id = some r ∧ Onward e.delivery r

section Steps
variable {w : World}

theorem row_onward (sound : Sound w) (m : Move) {id : Uuid} {r : WebhookDelivery}
    (found : w.row id = some r) : ∃ s, (step w m).row id = some s ∧ Onward r s := by
  have unchanged (row : (step w m).row id = w.row id) : ∃ s, (step w m).row id = some s ∧ Onward r s :=
    ⟨r, row.trans found, onward_refl r⟩
  cases view w id m with
  | aside row own posts => exact unchanged row
  | created merchant transactionId eventType reachable move free url row own posts =>
    rw [free] at found
    cases found
  | loaded k e move taken current fresh unfinished row own posts => exact unchanged row
  | posted k sentAt outcome e move here mine ready rest before own row posts => exact unchanged row
  | committed k utcNow e move here mine ready own row posts =>
    obtain ⟨s, present, copied⟩ := sound.copied e (List.mem_of_getElem? here)
    rw [mine, found] at present
    cases present
    exact ⟨_, by rw [row, found]; rfl, (commit_settles (conclusion_of e utcNow) copied).1⟩
  | failed k redelivered e move here mine own row posts => exact unchanged row

theorem present_onward (sound : Sound w) (m : Move) {id : Uuid} (present : ∃ r, w.row id = some r) :
    ∃ s, (step w m).row id = some s := by
  obtain ⟨r, found⟩ := present
  obtain ⟨s, later, -⟩ := row_onward sound m found
  exact ⟨s, later⟩

theorem queue_step (m : Move) {id : Uuid} (queued : id ∈ (step w m).queue) :
    id ∈ w.queue ∨ (∃ e ∈ w.running, e.delivery.id = id) ∨ ∃ r, (step w m).row id = some r := by
  cases m with
  | create merchant transactionId deliveryId eventType reachable =>
    by_cases goes : w.row deliveryId = none ∧ truthy merchant.webhookUrl = true
    · simp only [step, create_done goes.1 goes.2, List.mem_append] at queued ⊢
      cases queued with
      | inl old => exact .inl old
      | inr new =>
        have own : id = deliveryId := by
          split at new
          · exact List.mem_singleton.mp new
          · cases new
        subst own
        exact .inr (.inr ⟨_, inserted_self (d := opened merchant transactionId id eventType) goes.1⟩)
    · simp only [step, create_idle goes] at queued
      exact .inl queued
  | configure merchants => exact .inl queued
  | sweep order now reachable =>
    simp only [step, sweep_done, List.mem_append] at queued ⊢
    cases queued with
    | inl old => exact .inl old
    | inr new =>
      obtain ⟨r, found, -⟩ := due_row ((List.takeWhile_prefix _).subset new)
      exact .inr (.inr ⟨r, found⟩)
  | load k =>
    left
    cases waiting : w.queue[k]? with
    | none => simpa [step, World.load, waiting] using queued
    | some deliveryId =>
      cases goes : loadable w.db deliveryId with
      | none =>
        simp only [step, load_dropped waiting goes] at queued
        exact List.mem_of_mem_eraseIdx queued
      | some found =>
        simp only [step, load_done waiting goes] at queued
        exact List.mem_of_mem_eraseIdx queued
  | post k sentAt outcome =>
    left
    simp only [step, World.post] at queued
    split at queued
    · exact queued
    · split at queued <;> exact queued
  | commit k utcNow =>
    left
    cases here : w.running[k]? with
    | none => simpa [step, World.commit, here] using queued
    | some e =>
      cases ready : e.toPost with
      | true => simpa [step, World.commit, here, ready] using queued
      | false =>
        obtain ⟨logs, done⟩ := commit_done utcNow here ready
        simpa only [step, done] using queued
  | fail k redelivered =>
    simp only [step, World.fail] at queued
    split at queued
    · exact .inl queued
    · rename_i e here
      dsimp only at queued
      split at queued
      · rcases List.mem_append.mp queued with old | new
        · exact .inl old
        · exact .inr (.inl ⟨e, List.mem_of_getElem? here, (List.mem_singleton.mp new).symm⟩)
      · exact .inl queued

theorem sound_step (sound : Sound w) (m : Move) : Sound (step w m) where
  queued id queued := by
    rcases queue_step m queued with old | ⟨e, mem, own⟩ | present
    · exact present_onward sound m (sound.queued id old)
    · obtain ⟨r, found, -⟩ := sound.copied e mem
      exact present_onward sound m ⟨r, own ▸ found⟩
    · exact present
  copied f mem := by
    rcases running_step m mem with ⟨e, old, same⟩ | present
    · obtain ⟨r, found, copied⟩ := sound.copied e old
      obtain ⟨s, later, onward⟩ := row_onward sound m found
      rw [same] at later copied
      exact ⟨s, later, onward_trans copied onward⟩
    · exact row_onward sound m present

/-- How a record may lose a task: its load finds nothing to do, or its execution ends. -/
inductive Loses (w : World) (id : Uuid) : Move → Prop where
  | dropped (k : Nat) (nothing : loadable w.db id = none) : Loses w id (.load k)
  | committed (k : Nat) (utcNow : Timestamp) (e : Execution) (here : w.running[k]? = some e)
      (ready : e.toPost = false) (own : e.delivery.id = id) : Loses w id (.commit k utcNow)
  | failed (k : Nat) (e : Execution) (here : w.running[k]? = some e) (own : e.delivery.id = id)
      (last : id ∉ w.queue ∧ ∀ f ∈ w.running.eraseIdx k, f.delivery.id ≠ id) : Loses w id (.fail k false)

theorem tasked_step (m : Move) {id : Uuid} (tasked : Tasked w id) : Tasked (step w m) id ∨
    Loses w id m := by
  cases m with
  | create merchant transactionId deliveryId eventType reachable =>
    left
    by_cases goes : w.row deliveryId = none ∧ truthy merchant.webhookUrl = true
    · simp only [step, create_done goes.1 goes.2]
      exact tasked.imp (List.mem_append_left _) fun running => running
    · simpa only [step, create_idle goes] using tasked
  | configure merchants => exact .inl tasked
  | sweep order now reachable =>
    simp only [step, sweep_done]
    exact .inl (tasked.imp (List.mem_append_left _) fun running => running)
  | load k =>
    cases waiting : w.queue[k]? with
    | none =>
      simp only [step, World.load, waiting]
      exact .inl tasked
    | some deliveryId =>
      cases goes : loadable w.db deliveryId with
      | none =>
        simp only [step, load_dropped waiting goes]
        rcases tasked with queued | running
        · rcases (mem_picked waiting).mp queued with taken | kept
          · exact .inr (.dropped k (taken ▸ goes))
          · exact .inl (.inl kept)
        · exact .inl (.inr running)
      | some found =>
        simp only [step, load_done waiting goes]
        left
        rcases tasked with queued | ⟨e, mem, own⟩
        · rcases (mem_picked waiting).mp queued with taken | kept
          · exact .inr ⟨_, List.mem_append_right _ (List.mem_singleton.mpr rfl),
              taken ▸ row_id (loadable_some goes).1⟩
          · exact .inl kept
        · exact .inr ⟨e, List.mem_append_left _ mem, own⟩
  | post k sentAt outcome =>
    left
    simp only [step, World.post]
    split
    · exact tasked
    · rename_i e here
      split
      · rcases tasked with queued | ⟨f, mem, own⟩
        · exact .inl queued
        · rcases (mem_picked here).mp mem with posted | other
          · subst posted
            exact .inr ⟨_, List.mem_append_right _ (List.mem_singleton.mpr rfl), own⟩
          · exact .inr ⟨f, List.mem_append_left _ other, own⟩
      · exact tasked
  | commit k utcNow =>
    cases here : w.running[k]? with
    | none =>
      simp only [step, World.commit, here]
      exact .inl tasked
    | some e =>
      cases ready : e.toPost with
      | true =>
        simp only [step, World.commit, here, ready, if_true]
        exact .inl tasked
      | false =>
        obtain ⟨logs, done⟩ := commit_done utcNow here ready
        simp only [step, done]
        rcases tasked with queued | ⟨f, mem, own⟩
        · exact .inl (.inl queued)
        · rcases (mem_picked here).mp mem with ended | other
          · exact .inr (.committed k utcNow e here ready (ended ▸ own))
          · exact .inl (.inr ⟨f, other, own⟩)
  | fail k redelivered =>
    cases here : w.running[k]? with
    | none =>
      simp only [step, World.fail, here]
      exact .inl tasked
    | some e =>
      simp only [step, World.fail, here]
      by_cases elsewhere : id ∈ w.queue ∨ ∃ f ∈ w.running.eraseIdx k, f.delivery.id = id
      · left
        refine elsewhere.imp (fun queued => ?_) fun other => other
        dsimp only
        split
        · exact List.mem_append_left _ queued
        · exact queued
      · rw [not_or] at elsewhere
        have own : e.delivery.id = id := by
          rcases tasked with queued | ⟨f, mem, own⟩
          · exact absurd queued elsewhere.1
          · rcases (mem_picked here).mp mem with ended | other
            · exact ended ▸ own
            · exact absurd ⟨f, other, own⟩ elsewhere.2
        cases redelivered with
        | true => exact .inl (.inl (by simp [own]))
        | false =>
          refine .inr (.failed k e here own ⟨elsewhere.1, fun f other same => ?_⟩)
          exact elsewhere.2 ⟨f, other, same⟩

theorem committed_settled (sound : Sound w) {k : Nat} {utcNow : Timestamp} {e : Execution} {id : Uuid}
    {r : WebhookDelivery} (here : w.running[k]? = some e) (mine : e.delivery.id = id)
    (found : (w.row id).map (overwrite e.delivery (concluded e utcNow)) = some r) : ¬Immediate r := by
  obtain ⟨s, present, copied⟩ := sound.copied e (List.mem_of_getElem? here)
  rw [mine] at present
  rw [present] at found
  cases found
  exact (commit_settles (conclusion_of e utcNow) copied).2

theorem step_in_reach (sound : Sound w) (reach : NoneStranded w) (m : Move) (keeps : KeepsTask w m) :
    NoneStranded (step w m) := by
  rw [noneStranded_iff] at reach ⊢
  intro id r found now
  have unchanged (row : (step w m).row id = w.row id) : Tasked (step w m) id := by
    have before := row.symm.trans found
    rcases tasked_step m (reach id r before now) with still | lost
    · exact still
    · cases lost with
      | dropped k nothing =>
        have done := loadable_none nothing before
        exact absurd (done.symm.trans now.1) (by decide)
      | committed k utcNow e here ready own =>
        obtain ⟨logs, done⟩ := commit_done utcNow here ready
        have written := (saved_row w.db e.delivery (concluded e utcNow) id).trans (if_pos own)
        rw [step, done] at found
        exact absurd now (committed_settled sound here own (written.symm.trans found))
      | failed k e here own last =>
        rcases keeps e here with again | queued | ⟨f, other, same⟩ | settled
        · cases again
        · exact absurd (own ▸ queued) last.1
        · exact absurd (same.trans own) (last.2 f other)
        · exact absurd now (settled r (by rw [own]; exact before))
  cases view w id m with
  | aside row own posts => exact unchanged row
  | created merchant transactionId eventType reachable move free url row own posts =>
    subst move
    cases keeps free url
    left
    simp [step, create_done free url]
  | loaded k e move taken current fresh unfinished row own posts => exact unchanged row
  | posted k sentAt outcome e move here mine ready rest before own row posts => exact unchanged row
  | committed k utcNow e move here mine ready own row posts =>
    exact absurd now (committed_settled sound here mine (row.symm.trans found))
  | failed k redelivered e move here mine own row posts => exact unchanged row

/-- A move that may lose the only task does lose it. -/
theorem kept_task (sound : Sound w) (m : Move) (reach : NoneStranded (step w m)) : KeepsTask w m := by
  rw [noneStranded_iff] at reach
  cases m with
  | create merchant transactionId deliveryId eventType reachable =>
    intro free url
    have found : (step w (.create merchant transactionId deliveryId eventType reachable)).row deliveryId =
        some (opened merchant transactionId deliveryId eventType) := by
      simp only [step, create_done free url]
      exact inserted_self (d := opened merchant transactionId deliveryId eventType) free
    have tasked := reach deliveryId _ found ⟨rfl, rfl⟩
    simp only [step, create_done free url] at tasked
    rcases tasked with queued | ⟨e, mem, own⟩
    · rcases List.mem_append.mp queued with old | new
      · obtain ⟨r, present⟩ := sound.queued _ old
        rw [free] at present
        cases present
      · by_contra unreached
        simp [unreached] at new
    · obtain ⟨r, present, -⟩ := sound.copied e mem
      rw [own, free] at present
      cases present
  | fail k redelivered =>
    intro e here
    cases redelivered with
    | true => exact .inl rfl
    | false =>
      by_cases settled : ∀ r, w.row e.delivery.id = some r → ¬Immediate r
      · exact .inr (.inr (.inr settled))
      · obtain ⟨r, found, now⟩ : ∃ r, w.row e.delivery.id = some r ∧ Immediate r := by simpa using settled
        simp only [step, World.fail, here] at reach
        rcases reach e.delivery.id r found now with queued | other
        · exact .inr (.inl queued)
        · exact .inr (.inr (.inl other))
  | _ => trivial

end Steps

theorem unused_sound {w : World} (unused : w.Unused) : Sound w ∧ NoneStranded w := by
  obtain ⟨rows, queue, running, -⟩ := unused
  refine ⟨⟨by simp [queue], by simp [running]⟩, ?_⟩
  intro r mem
  rw [rows] at mem
  cases mem

theorem deliveries_stay_in_reach {w : World} (unused : w.Unused) (moves : List Move) :
    (∀ done, done <+: moves → NoneStranded (run step w done)) ↔ Along step KeepsTask w moves := by
  have initially := unused_sound unused
  rw [throughout_iff, and_iff_right initially.2]
  apply Iff.symm
  apply along_iff (I := fun w => Sound w ∧ NoneStranded w) _ _ initially
  · rintro w m ⟨sound, reach⟩ keeps
    exact ⟨sound_step sound m, step_in_reach sound reach m keeps⟩
  · rintro w m ⟨sound, reach⟩
    exact ⟨step_in_reach sound reach m, kept_task sound m⟩

theorem refused_delivery_stays_in_reach :
    (World.Unused { db := emptyDatabase }) ∧
      ∀ done, done <+: [Move.create shop 5 7 "payment.received" true, .load 0, .post 0 10 (.response 500),
          .commit 0 11] →
        NoneStranded (run step { db := emptyDatabase } done) := by
  have unused : World.Unused { db := emptyDatabase } := ⟨rfl, rfl, rfl, rfl⟩
  exact ⟨unused, (deliveries_stay_in_reach unused _).mpr ⟨fun _ _ => rfl, trivial, trivial,
    trivial, trivial⟩⟩

/-- The broker is down when the payment is made. No sweep looks for the record, although the service
    logs that the retry sweep will pick it up. -/
theorem unreached_broker_strands :
    (World.Unused { db := emptyDatabase }) ∧
      ¬∀ done, done <+: [Move.create shop 5 7 "payment.received" false] →
        NoneStranded (run step { db := emptyDatabase } done) := by
  refine ⟨⟨rfl, rfl, rfl, rfl⟩, fun always => ?_⟩
  have reach := noneStranded_iff.mp (always _ (List.prefix_refl _)) 7 _ rfl ⟨rfl, rfl⟩
  rcases reach with queued | ⟨e, mem, -⟩
  · cases queued
  · cases mem

end PayCoreStrandedDeliveries
