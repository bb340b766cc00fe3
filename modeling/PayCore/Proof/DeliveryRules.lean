import PayCore.Service.DeliveryQueue

/- What each move of a delivery does to the records, the queue, the executions and the POSTs. -/
namespace PayCoreDeliveryRules
open SessionProgram GuardedRuns KeyedTable PayCoreTables PayCoreWrites PayCoreSessions
open PayCoreSupport PayCoreWebhooks PayCoreDeliveryQueue

/-- A row after an UPDATE of the columns in which `delivery` differs from what was loaded. -/
def overwrite (loaded delivery row : WebhookDelivery) : WebhookDelivery :=
  (deliveryEdit (dirtyColumns loaded delivery)).on row

section Columns
variable (loaded delivery row : WebhookDelivery)

@[simp] theorem overwrite_id : (overwrite loaded delivery row).id = row.id := rfl

theorem overwrite_status : (overwrite loaded delivery row).status =
    if delivery.status = loaded.status then row.status else delivery.status := by
  simp only [overwrite, deliveryEdit, dirtyColumns]
  split <;> rfl

theorem overwrite_nextRetryAt : (overwrite loaded delivery row).nextRetryAt =
    if delivery.nextRetryAt = loaded.nextRetryAt then row.nextRetryAt else delivery.nextRetryAt := by
  simp only [overwrite, deliveryEdit, dirtyColumns]
  split <;> rfl

end Columns

def afterFailure (d : WebhookDelivery) (responseCode : Option Nat) (errorMsg : String)
    (utcNow : Timestamp) : WebhookDelivery :=
  if more : d.attemptCount + 1 < maxAttempts then
    scheduled d responseCode errorMsg (utcNow + minutes (retryDelaysMinutes[d.attemptCount + 1]))
  else exhausted d responseCode errorMsg

def afterAttempt (d : WebhookDelivery) (utcNow : Timestamp) : Outcome → WebhookDelivery
  | .response statusCode =>
      if isSuccess statusCode then delivered d statusCode
      else afterFailure d (some statusCode) ("HTTP " ++ toString statusCode) utcNow
  | .exception text => afterFailure d none text utcNow

def concluded (e : Execution) (utcNow : Timestamp) : WebhookDelivery :=
  match e.outcome with
  | some outcome => afterAttempt e.delivery utcNow outcome
  | none => withoutUrl e.delivery

section Runs
variable {answer : Request → Option PaystackData}

theorem update_nothing (t : Table WebhookDelivery) (id : Uuid) : t.update id (deliveryEdit {}) = t := by
  obtain ⟨rows, unique⟩ := t
  simp only [Table.update, Table.mk.injEq]
  have same : editAt id (deliveryEdit {}) = fun d : WebhookDelivery => d := by
    funext d
    simp [editAt, deliveryEdit]
  rw [same, List.map_id']

def saved (db : Database) (loaded delivery : WebhookDelivery) : Database :=
  { db with
    webhookDeliveries := db.webhookDeliveries.update loaded.id
      (deliveryEdit (dirtyColumns loaded delivery)) }

/-- A session between two transactions. -/
def between (db : Database) (calls : List Request) : Local Database IdentityMap Write Request :=
  ⟨db, [], default, calls⟩

theorem save_exec (loaded delivery : WebhookDelivery) (db : Database) (calls : List Request) :
    exec answer (save loaded delivery)
    (between db calls) = (.ok (), between (saved db loaded delivery) calls) := by
  unfold save
  by_cases clean : dirtyColumns loaded delivery = {}
  · simp only [clean, if_true, saved, update_nothing]
    rfl
  · simp only [clean, if_false]
    rfl

theorem auditLog_exec (entry : AuditLog) (db : Database) (calls : List Request) :
    exec answer (auditLog entry) (between db calls) =
      (.ok (), between { db with auditLogs := db.auditLogs ++ [entry] } calls) := rfl

theorem attemptFailed_exec (d : WebhookDelivery) (code : Option Nat) (text : String)
    (utcNow : Timestamp) (db : Database) (calls : List Request) :
    ∃ logs, exec answer (attemptFailed d code text utcNow) (between db calls) =
      (.ok (), between { saved db d (afterFailure d code text utcNow) with auditLogs := logs } calls) := by
  unfold attemptFailed afterFailure
  by_cases more : d.attemptCount + 1 < maxAttempts
  · simp only [more, dif_pos]
    exact ⟨db.auditLogs, save_exec _ _ _ _⟩
  · simp only [more, dif_neg, not_false_eq_true, exec_seq, save_exec, auditLog_exec]
    exact ⟨_, rfl⟩

theorem attemptMade_exec (d : WebhookDelivery) (outcome : Outcome) (utcNow : Timestamp) (db : Database)
    (calls : List Request) :
    ∃ logs, exec answer (attemptMade d outcome utcNow) (between db calls) =
      (.ok (), between { saved db d (afterAttempt d utcNow outcome) with auditLogs := logs } calls) := by
  cases outcome with
  | response statusCode =>
    simp only [attemptMade, afterAttempt]
    split
    · exact ⟨db.auditLogs, save_exec _ _ _ _⟩
    · exact attemptFailed_exec _ _ _ _ _ _
  | exception text => exact attemptFailed_exec _ _ _ _ _ _

theorem conclusion_exec (e : Execution) (utcNow : Timestamp) (db : Database) (calls : List Request) :
    ∃ logs, exec answer (e.conclusion utcNow) (between db calls) =
      (.ok (), between { saved db e.delivery (concluded e utcNow) with auditLogs := logs } calls) := by
  unfold Execution.conclusion concluded
  cases e.outcome with
  | some outcome => exact attemptMade_exec _ _ _ _ _
  | none => exact ⟨db.auditLogs, save_exec _ _ _ _⟩

def loadable (db : Database) (deliveryId : Uuid) : Option (WebhookDelivery × Option String) :=
  match db.webhookDeliveries.find? deliveryId with
  | none => none
  | some d =>
    if d.status = .delivered then none
    else some (d, ((db.merchants.find? d.merchantId).bind Merchant.webhookUrl).filter (· ≠ ""))

theorem query_exec {α β : Type} (f : Database → α) (k : α → Tx β) (db : Database) :
    exec answer (query f >>= k) (start db) = exec answer (k (f db)) (start db) := rfl

theorem loadDelivery_exec (deliveryId : Uuid) (db : Database) :
    exec answer (loadDelivery deliveryId) (start db) = (.ok (loadable db deliveryId), start db) := by
  unfold loadDelivery loadable
  rw [query_exec]
  cases db.webhookDeliveries.find? deliveryId with
  | none => rfl
  | some d =>
    dsimp only
    split
    · rfl
    · rw [query_exec]
      rfl

theorem loadable_some {db : Database} {deliveryId : Uuid} {d : WebhookDelivery} {url : Option String}
    (h : loadable db deliveryId = some (d, url)) :
    db.webhookDeliveries.find? deliveryId = some d ∧ d.status ≠ .delivered := by
  unfold loadable at h
  cases found : db.webhookDeliveries.find? deliveryId with
  | none =>
    rw [found] at h
    cases h
  | some r =>
    rw [found] at h
    dsimp only at h
    split at h
    · cases h
    · cases h
      exact ⟨rfl, by assumption⟩

theorem loadable_none {db : Database} {deliveryId : Uuid} (h : loadable db deliveryId = none)
    {d : WebhookDelivery} (found : db.webhookDeliveries.find? deliveryId = some d) :
    d.status = .delivered := by
  unfold loadable at h
  rw [found] at h
  by_contra other
  simp [other] at h

theorem enqueueAll_exec (reachable : Uuid → Bool) (ids : List Uuid)
    (s : Local Database IdentityMap Write Request) :
    ∃ tried, (exec (broker reachable) (enqueueAll ids) s).2 = { s with calls := s.calls ++ tried } ∧
      tried.filterMap (accepted reachable) = ids.takeWhile reachable := by
  induction ids generalizing s with
  | nil =>
    refine ⟨[], ?_, rfl⟩
    rw [List.append_nil]
    rfl
  | cons id rest ih =>
    let asked := { s with calls := s.calls ++ [Request.delay (.deliverMerchantWebhook id)] }
    cases up : reachable id with
    | true =>
      obtain ⟨tried, run, took⟩ := ih asked
      refine ⟨.delay (.deliverMerchantWebhook id) :: tried, ?_, ?_⟩
      · have first : exec (broker reachable) (enqueueAll (id :: rest)) s =
            exec (broker reachable) (enqueueAll rest) asked := by
          simp [enqueueAll, enqueue, exec_seq, exec, broker, up, asked]
        rw [first, run]
        simp [asked]
      · simp [accepted, up, took]
    | false =>
      refine ⟨[.delay (.deliverMerchantWebhook id)], ?_, ?_⟩
      · simp [enqueueAll, enqueue, exec_seq, exec, broker, up]
      · simp [accepted, up]

end Runs

section Moves
variable {w : World}

/-- The record that a payment leaves for its merchant. -/
def opened (merchant : Merchant) (transactionId deliveryId : Uuid) (eventType : String) : WebhookDelivery :=
  { id := deliveryId, merchantId := merchant.id, transactionId, eventType }

theorem delivery_admits {t : Table WebhookDelivery} {d : WebhookDelivery} (free : t.find? d.id = none) :
    t.admits d = true := by
  rw [admits_iff]
  intro r mem
  have other : r.id ≠ d.id := find?_none_iff.mp free r mem
  simpa [Keyed.clash] using other

theorem perform_done {reachable : Uuid → Bool} {p : Tx Unit} (db : Database) (calls : List Request)
    (ends : (exec (broker reachable) p (start w.db)).2 = ⟨db, [], default, calls⟩) :
    w.perform reachable p =
      { w with db := db, queue := w.queue ++ calls.filterMap (accepted reachable) } := by
  unfold World.perform
  rw [ends]

theorem create_done {merchant : Merchant} {transactionId deliveryId : Uuid} {eventType : String}
    {reachable : Bool} (free : w.row deliveryId = none) (url : truthy merchant.webhookUrl = true) :
    w.create merchant transactionId deliveryId eventType reachable =
      { w with
        db := { w.db with
          webhookDeliveries := w.db.webhookDeliveries.insert
            (opened merchant transactionId deliveryId eventType) }
        queue := w.queue ++ if reachable then [deliveryId] else [] } := by
  unfold World.create
  rw [free, Option.isSome_none, if_neg Bool.false_ne_true]
  rw [perform_done _ [.delay (.deliverMerchantWebhook deliveryId)]]
  · cases reachable <;> rfl
  · unfold createAndEnqueue
    rw [if_pos url]
    cases reachable <;> rfl

theorem create_idle {merchant : Merchant} {transactionId deliveryId : Uuid} {eventType : String}
    {reachable : Bool} (idle : ¬(w.row deliveryId = none ∧ truthy merchant.webhookUrl = true)) :
    w.create merchant transactionId deliveryId eventType reachable = w := by
  unfold World.create
  cases taken : w.row deliveryId with
  | some d => rfl
  | none =>
    have silent : ¬truthy merchant.webhookUrl = true := fun url => idle ⟨taken, url⟩
    rw [Option.isSome_none, if_neg Bool.false_ne_true, perform_done w.db []]
    · simp
    · unfold createAndEnqueue
      rw [if_neg silent]
      rfl

theorem sweep_done (order : RowOrder) (now : Timestamp) (reachable : Uuid → Bool) :
    w.perform reachable (retryPendingWebhooks order now) =
      { w with queue := w.queue ++ (dueForRetry order now w.db).takeWhile reachable } := by
  obtain ⟨tried, run, took⟩ := enqueueAll_exec reachable (dueForRetry order now w.db) (start w.db)
  rw [perform_done w.db tried, took]
  unfold retryPendingWebhooks
  rw [query_exec, run]
  rfl

theorem load_done {k : Nat} {deliveryId : Uuid} {d : WebhookDelivery} {url : Option String}
    (waiting : w.queue[k]? = some deliveryId) (goes : loadable w.db deliveryId = some (d, url)) :
    w.load k = { w with
      queue := w.queue.eraseIdx k
      running := w.running ++ [{ delivery := d, webhookUrl := url }] } := by
  unfold World.load runAlone
  rw [waiting]
  dsimp only
  rw [loadDelivery_exec, goes]

theorem load_dropped {k : Nat} {deliveryId : Uuid} (waiting : w.queue[k]? = some deliveryId)
    (nothing : loadable w.db deliveryId = none) : w.load k = { w with queue := w.queue.eraseIdx k } := by
  unfold World.load runAlone
  rw [waiting]
  dsimp only
  rw [loadDelivery_exec, nothing]

theorem commit_done {k : Nat} (utcNow : Timestamp) {e : Execution} (here : w.running[k]? = some e)
    (ready : e.toPost = false) :
    ∃ logs, w.commit k utcNow = { w with
      db := { saved w.db e.delivery (concluded e utcNow) with auditLogs := logs }
      running := w.running.eraseIdx k } := by
  obtain ⟨logs, run⟩ := conclusion_exec e utcNow w.db []
  refine ⟨logs, ?_⟩
  unfold World.commit
  rw [here]
  simp only [ready, Bool.false_eq_true, if_false]
  rw [perform_done _ [] (congrArg Prod.snd run)]
  simp

def heard (answer : Request → Option PaystackData) (failure webhookUrl : String)
    (deliveryId : Uuid) : Outcome :=
  match answer (.postWebhook webhookUrl deliveryId) with
  | some resp => .response resp.statusCode
  | none => .exception failure

theorem called_exec (answer : Request → Option PaystackData) (failure webhookUrl : String)
    (deliveryId : Uuid) (d : WebhookDelivery) (utcNow : Timestamp) (db : Database) :
    ∃ logs, exec answer
      (.call (.postWebhook webhookUrl deliveryId)
        (fun resp => attemptMade d (.response resp.statusCode) utcNow)
        (attemptMade d (.exception failure) utcNow)) (start db) =
      (.ok (), between
        { saved db d (afterAttempt d utcNow (heard answer failure webhookUrl deliveryId))
          with auditLogs := logs }
        [.postWebhook webhookUrl deliveryId]) := by
  simp only [exec, heard]
  cases answer (.postWebhook webhookUrl deliveryId) with
  | some resp => exact attemptMade_exec d (.response resp.statusCode) utcNow db _
  | none => exact attemptMade_exec d (.exception failure) utcNow db _

/-- The task, run on its own, is its load, its POST and its commit. -/
theorem delivery_in_moves (answer : Request → Option PaystackData) (failure : String)
    (deliveryId : Uuid) (utcNow sentAt : Timestamp) (db : Database) :
    let webhookUrl := ((loadable db deliveryId).bind Prod.snd).getD ""
    let moves := [.load 0, .post 0 sentAt (heard answer failure webhookUrl deliveryId), .commit 0 utcNow]
    let done := run step { db := db, queue := [deliveryId] } moves
    (exec answer (deliverMerchantWebhook deliveryId failure utcNow) (start db)).2.db.webhookDeliveries =
      done.db.webhookDeliveries ∧ done.queue = [] ∧ done.running = [] := by
  have loads : exec answer (loadDelivery deliveryId) (start db) =
      (.ok (loadable db deliveryId), start db) :=
    loadDelivery_exec deliveryId db
  let idle : World := { db := db, queue := [deliveryId] }
  have waiting : idle.queue[0]? = some deliveryId := rfl
  simp only [deliverMerchantWebhook, exec_seq, loads, run_cons, run_nil]
  cases goes : loadable db deliveryId with
  | none =>
    have taken : step idle (.load 0) = { db := db } := load_dropped waiting goes
    rw [taken]
    exact ⟨rfl, rfl, rfl⟩
  | some found =>
    obtain ⟨d, url⟩ := found
    have taken : step idle (.load 0) = { db := db, running := [⟨d, url, none⟩] } := load_done waiting goes
    rw [taken]
    cases url with
    | none =>
      -- Nothing is sent: the record is closed at once.
      let before : World := { db := db, running := [⟨d, none, none⟩] }
      obtain ⟨logs, ends⟩ := commit_done (w := before) (k := 0) (e := ⟨d, none, none⟩) utcNow rfl rfl
      have written : exec answer (save d (withoutUrl d)) (start db) = _ := save_exec d (withoutUrl d) db []
      change (exec answer (save d (withoutUrl d)) (start db)).2.db.webhookDeliveries =
        (before.commit 0 utcNow).db.webhookDeliveries ∧ _
      rw [written]
      exact ⟨by rw [ends]; rfl, congrArg World.queue ends, congrArg World.running ends⟩
    | some webhookUrl =>
      let outcome := heard answer failure webhookUrl deliveryId
      let after : World :=
        { db := db
          running := [⟨d, some webhookUrl, some outcome⟩]
          posts := [⟨(World.row { db := db } d.id).getD d, sentAt, outcome⟩] }
      obtain ⟨logs, ends⟩ :=
        commit_done (w := after) (k := 0) (e := ⟨d, some webhookUrl, some outcome⟩) utcNow rfl rfl
      obtain ⟨others, written⟩ := called_exec answer failure webhookUrl deliveryId d utcNow db
      dsimp only
      rw [written]
      exact ⟨(congrArg (fun w => w.db.webhookDeliveries) ends).symm, congrArg World.queue ends,
        congrArg World.running ends⟩

end Moves

section Conclusions
variable {e : Execution} {d : WebhookDelivery}

/-- What an execution may commit, with what it has seen of its POST. -/
inductive Conclusion (e : Execution) : WebhookDelivery → Prop where
  | withoutUrl (silent : e.outcome = none) : Conclusion e (withoutUrl e.delivery)
  | delivered (statusCode : Nat) (success : e.succeeded = true) :
      Conclusion e (delivered e.delivery statusCode)
  | scheduled (responseCode : Option Nat) (errorMsg : String) (nextRetry : Timestamp)
      (made : e.outcome.isSome = true) (failure : e.succeeded = false)
      (more : e.delivery.attemptCount + 1 < maxAttempts) :
      Conclusion e (scheduled e.delivery responseCode errorMsg nextRetry)
  | exhausted (responseCode : Option Nat) (errorMsg : String) (made : e.outcome.isSome = true)
      (failure : e.succeeded = false) (last : maxAttempts ≤ e.delivery.attemptCount + 1) :
      Conclusion e (exhausted e.delivery responseCode errorMsg)

theorem failure_conclusion {responseCode : Option Nat} {errorMsg : String} {utcNow : Timestamp}
    (made : e.outcome.isSome = true) (failure : e.succeeded = false) :
    Conclusion e (afterFailure e.delivery responseCode errorMsg utcNow) := by
  unfold afterFailure
  split
  · exact .scheduled _ _ _ made failure (by assumption)
  · exact .exhausted _ _ made failure (by omega)

theorem conclusion_of (e : Execution) (utcNow : Timestamp) : Conclusion e (concluded e utcNow) := by
  unfold concluded
  cases ended : e.outcome with
  | none => exact .withoutUrl ended
  | some outcome =>
    have made : e.outcome.isSome = true := by rw [ended]; rfl
    have result : e.succeeded = outcome.succeeded := by rw [Execution.succeeded, ended]; rfl
    cases outcome with
    | exception text => exact failure_conclusion made result
    | response statusCode =>
      simp only [afterAttempt]
      split
      · exact .delivered _ (by rw [result]; assumption)
      · have failure : isSuccess statusCode = false := by simpa using ‹¬isSuccess statusCode = true›
        exact failure_conclusion made (by rw [result]; exact failure)

theorem overwrite_current (conclusion : Conclusion e d) : overwrite e.delivery d e.delivery = d := by
  have same : d.id = e.delivery.id ∧ d.merchantId = e.delivery.merchantId ∧
      d.transactionId = e.delivery.transactionId ∧ d.eventType = e.delivery.eventType := by
    cases conclusion <;> exact ⟨rfl, rfl, rfl, rfl⟩
  obtain ⟨id, merchant, transaction, event⟩ := same
  generalize e.delivery = loaded at *
  cases d
  cases loaded
  simp only at id merchant transaction event
  subst id merchant transaction event
  simp only [overwrite, deliveryEdit, dirtyColumns, WebhookDelivery.mk.injEq, true_and]
  refine ⟨?_, ?_, ?_, ?_, ?_⟩ <;> split <;> simp [*]

end Conclusions

section Rows
variable {w : World}

theorem saved_row (db : Database) (loaded delivery : WebhookDelivery) (id : Uuid) :
    (saved db loaded delivery).webhookDeliveries.find? id =
      if loaded.id = id then (db.webhookDeliveries.find? id).map (overwrite loaded delivery)
      else db.webhookDeliveries.find? id :=
  find?_update _ _ _ _

theorem inserted_row {t : Table WebhookDelivery} {d : WebhookDelivery} (free : t.find? d.id = none)
    (id : Uuid) :
    (t.insert d).find? id = if d.id = id then some d else t.find? id :=
  find?_insert (delivery_admits free) id

theorem inserted_self {t : Table WebhookDelivery} {d : WebhookDelivery} (free : t.find? d.id = none) :
    (t.insert d).find? d.id = some d := by
  rw [inserted_row free, if_pos rfl]

theorem row_id {id : Uuid} {r : WebhookDelivery} (found : w.row id = some r) : r.id = id :=
  (find?_some_iff.mp found).2

theorem due_row {order : RowOrder} {now : Timestamp} {id : Uuid}
    (selected : id ∈ dueForRetry order now w.db) : ∃ r, w.row id = some r ∧ due now r = true := by
  obtain ⟨r, chosen, same⟩ := List.mem_map.mp selected
  have matching := (order.perm _).mem_iff.mp (List.mem_of_mem_take chosen)
  obtain ⟨mem, ready⟩ := List.mem_filter.mp matching
  exact ⟨r, find?_some_iff.mpr ⟨mem, same⟩, ready⟩

end Rows

section Views
variable {w : World} {id : Uuid}

/-- What a move is to one record. -/
inductive View (w : World) (id : Uuid) (m : Move) (v : World) : Prop where
  | aside (row : v.row id = w.row id) (own : (w.own id).Perm (v.own id))
      (posts : v.postsOf id = w.postsOf id)
  | created (merchant : Merchant) (transactionId : Uuid) (eventType : String) (reachable : Bool)
      (move : m = .create merchant transactionId id eventType reachable) (free : w.row id = none)
      (url : truthy merchant.webhookUrl = true)
      (row : v.row id = some (opened merchant transactionId id eventType)) (own : v.own id = w.own id)
      (posts : v.postsOf id = w.postsOf id)
  | loaded (k : Nat) (e : Execution) (move : m = .load k) (taken : w.queue[k]? = some id)
      (current : w.row id = some e.delivery) (fresh : e.outcome = none)
      (unfinished : e.delivery.status ≠ .delivered) (row : v.row id = w.row id)
      (own : v.own id = w.own id ++ [e]) (posts : v.postsOf id = w.postsOf id)
  | posted (k : Nat) (sentAt : Timestamp) (outcome : Outcome) (e : Execution)
      (move : m = .post k sentAt outcome) (here : w.running[k]? = some e) (mine : e.delivery.id = id)
      (ready : e.toPost = true) (rest : List Execution) (before : (w.own id).Perm (e :: rest))
      (own : v.own id = rest ++ [{ e with outcome := some outcome }]) (row : v.row id = w.row id)
      (posts : v.postsOf id =
        w.postsOf id ++ [{ row := (w.row id).getD e.delivery, sentAt := sentAt, outcome := outcome }])
  | committed (k : Nat) (utcNow : Timestamp) (e : Execution) (move : m = .commit k utcNow)
      (here : w.running[k]? = some e) (mine : e.delivery.id = id) (ready : e.toPost = false)
      (own : (w.own id).Perm (e :: v.own id))
      (row : v.row id = (w.row id).map (overwrite e.delivery (concluded e utcNow)))
      (posts : v.postsOf id = w.postsOf id)
  | failed (k : Nat) (redelivered : Bool) (e : Execution) (move : m = .fail k redelivered)
      (here : w.running[k]? = some e) (mine : e.delivery.id = id) (own : (w.own id).Perm (e :: v.own id))
      (row : v.row id = w.row id) (posts : v.postsOf id = w.postsOf id)

theorem own_mine {k : Nat} {e : Execution} (here : w.running[k]? = some e) (mine : e.delivery.id = id) :
    (w.own id).Perm (e :: (w.running.eraseIdx k).filter fun f => f.delivery.id = id) := by
  have parted := (picked_perm here).filter (fun f => decide (f.delivery.id = id))
  rwa [List.filter_cons_of_pos (by simpa using mine)] at parted

theorem own_other {k : Nat} {e : Execution} (here : w.running[k]? = some e) (other : e.delivery.id ≠ id) :
    (w.own id).Perm ((w.running.eraseIdx k).filter fun f => f.delivery.id = id) := by
  have parted := (picked_perm here).filter (fun f => decide (f.delivery.id = id))
  rwa [List.filter_cons_of_neg (by simpa using other)] at parted

theorem view_aside {m : Move} {v : World} (row : v.row id = w.row id) (running : v.running = w.running)
    (posts : v.posts = w.posts) : View w id m v :=
  .aside row (by rw [World.own, World.own, running]) (by rw [World.postsOf, World.postsOf, posts])

theorem load_view (k : Nat) : View w id (.load k) (w.load k) := by
  cases waiting : w.queue[k]? with
  | none =>
    simp only [World.load, waiting]
    exact view_aside rfl rfl rfl
  | some deliveryId =>
    cases goes : loadable w.db deliveryId with
    | none =>
      rw [load_dropped waiting goes]
      exact view_aside rfl rfl rfl
    | some found =>
      obtain ⟨d, url⟩ := found
      obtain ⟨present, unfinished⟩ := loadable_some goes
      rw [load_done waiting goes]
      have named : d.id = deliveryId := row_id present
      by_cases mine : deliveryId = id
      · subst mine
        exact .loaded k ⟨d, url, none⟩ rfl waiting present rfl unfinished rfl
          (by simp [World.own, named]) rfl
      · exact .aside rfl (by simp [World.own, named, mine]) rfl

theorem posts_sent {k : Nat} {e : Execution} (here : w.running[k]? = some e) (ready : e.toPost = true)
    (mine : e.delivery.id = id) (sentAt : Timestamp) (outcome : Outcome) :
    (w.post k sentAt outcome).postsOf id =
      w.postsOf id ++ [{ row := (w.row id).getD e.delivery, sentAt := sentAt, outcome := outcome }] := by
  have named : ((w.row id).getD e.delivery).id = id := by
    cases found : w.row id with
    | none => exact mine
    | some r => exact row_id found
  simp [World.post, here, ready, World.postsOf, mine, named]

theorem post_view (k : Nat) (sentAt : Timestamp) (outcome : Outcome) :
    View w id (.post k sentAt outcome) (w.post k sentAt outcome) := by
  cases here : w.running[k]? with
  | none =>
    simp only [World.post, here]
    exact view_aside rfl rfl rfl
  | some e =>
    cases ready : e.toPost with
    | false =>
      simp only [World.post, here, ready, Bool.false_eq_true, if_false]
      exact view_aside rfl rfl rfl
    | true =>
      by_cases mine : e.delivery.id = id
      · refine .posted k sentAt outcome e rfl here mine ready _ (own_mine here mine) ?_ ?_
          (posts_sent here ready mine sentAt outcome)
        · simp [World.post, here, ready, World.own, mine]
        · simp only [World.post, here, ready, if_true]
          rfl
      · have named : ((w.row e.delivery.id).getD e.delivery).id = e.delivery.id := by
          cases found : w.row e.delivery.id with
          | none => rfl
          | some r => exact row_id found
        simp only [World.post, here, ready, if_true]
        refine .aside rfl ?_ ?_
        · simpa [World.own, mine] using own_other here mine
        · simp [World.postsOf, mine, named]

theorem commit_view (k : Nat) (utcNow : Timestamp) : View w id (.commit k utcNow) (w.commit k utcNow) := by
  cases here : w.running[k]? with
  | none =>
    simp only [World.commit, here]
    exact view_aside rfl rfl rfl
  | some e =>
    cases ready : e.toPost with
    | true =>
      simp only [World.commit, here, ready, if_true]
      exact view_aside rfl rfl rfl
    | false =>
      obtain ⟨logs, done⟩ := commit_done utcNow here ready
      rw [done]
      have written (d : Uuid) := saved_row w.db e.delivery (concluded e utcNow) d
      by_cases mine : e.delivery.id = id
      · refine .committed k utcNow e rfl here mine ready (own_mine here mine) ?_ rfl
        exact (written id).trans (if_pos mine)
      · exact .aside ((written id).trans (if_neg mine)) (own_other here mine) rfl

theorem fail_view (k : Nat) (redelivered : Bool) :
    View w id (.fail k redelivered) (w.fail k redelivered) := by
  cases here : w.running[k]? with
  | none =>
    simp only [World.fail, here]
    exact view_aside rfl rfl rfl
  | some e =>
    simp only [World.fail, here]
    by_cases mine : e.delivery.id = id
    · exact .failed k redelivered e rfl here mine (own_mine here mine) rfl rfl
    · exact .aside rfl (own_other here mine) rfl

/-- Every move is one of these to every record. -/
theorem view (w : World) (id : Uuid) (m : Move) : View w id m (step w m) := by
  cases m with
  | create merchant transactionId deliveryId eventType reachable =>
    by_cases goes : w.row deliveryId = none ∧ truthy merchant.webhookUrl = true
    · have made := inserted_row (d := opened merchant transactionId deliveryId eventType) goes.1
      simp only [step, create_done goes.1 goes.2]
      by_cases mine : deliveryId = id
      · subst mine
        exact .created _ _ _ _ rfl goes.1 goes.2 ((made deliveryId).trans (if_pos rfl)) rfl rfl
      · exact view_aside ((made id).trans (if_neg mine)) rfl rfl
    · simp only [step, create_idle goes]
      exact view_aside rfl rfl rfl
  | configure merchants => exact view_aside rfl rfl rfl
  | sweep order now reachable =>
    simp only [step, sweep_done]
    exact view_aside rfl rfl rfl
  | load k => exact load_view k
  | post k sentAt outcome => exact post_view k sentAt outcome
  | commit k utcNow => exact commit_view k utcNow
  | fail k redelivered => exact fail_view k redelivered

theorem mem_own {f : Execution} : f ∈ w.own id ↔ f ∈ w.running ∧ f.delivery.id = id := by
  simp [World.own]

theorem running_step (m : Move) {f : Execution} (mem : f ∈ (step w m).running) :
    (∃ e ∈ w.running, e.delivery = f.delivery) ∨ w.row f.delivery.id = some f.delivery := by
  have mine : f ∈ (step w m).own f.delivery.id := mem_own.mpr ⟨mem, rfl⟩
  have before (e : Execution) (held : e ∈ w.own f.delivery.id) (same : e.delivery = f.delivery) :
      ∃ e ∈ w.running, e.delivery = f.delivery := ⟨e, (mem_own.mp held).1, same⟩
  cases view w f.delivery.id m with
  | aside row own posts => exact .inl (before f (own.mem_iff.mpr mine) rfl)
  | created merchant transactionId eventType reachable move free url row own posts =>
    exact .inl (before f (own ▸ mine) rfl)
  | loaded k e move taken current fresh unfinished row own posts =>
    rw [own] at mine
    rcases List.mem_append.mp mine with old | new
    · exact .inl (before f old rfl)
    · cases List.mem_singleton.mp new
      exact .inr current
  | posted k sentAt outcome e move here own_ ready rest perm own row posts =>
    rw [own] at mine
    rcases List.mem_append.mp mine with old | new
    · exact .inl (before f (perm.mem_iff.mpr (List.mem_cons_of_mem _ old)) rfl)
    · rw [List.mem_singleton.mp new]
      exact .inl ⟨e, List.mem_of_getElem? here, rfl⟩
  | committed k utcNow e move here own_ ready own row posts =>
    exact .inl (before f (own.mem_iff.mpr (List.mem_cons_of_mem _ mine)) rfl)
  | failed k redelivered e move here own_ own row posts =>
    exact .inl (before f (own.mem_iff.mpr (List.mem_cons_of_mem _ mine)) rfl)

end Views

def shop : Merchant :=
  { id := 1, userId := 2, businessName := "Shop", webhookUrl := some "https://shop.example/hooks" }

end PayCoreDeliveryRules
