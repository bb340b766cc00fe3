import PayCore.Library.ChosenRows
import PayCore.Proof.LoneRules
import PayCore.Proof.Regularity
import PayCore.Service.Operations

/- What the bank account services commit, whatever fails, and the default accounts after it. -/
namespace PayCoreBankAccountRules
open KeyedTable ChosenRows SessionProgram LoneSessions PayCoreTables PayCoreWrites PayCoreSessions
open PayCoreRepositories PayCoreSupport PayCoreWithdrawals PayCoreRegularity PayCoreLoneRules

def isLive (a : BankAccount) : Prop := a.deletedAt = none

def leads (a : BankAccount) : Prop := a.isDefault = true

/-- Each user with a live account has one default account, and it is live. -/
def OneDefault (db : Database) : Prop := Chosen BankAccount.userId isLive leads db.bankAccounts.rows

/-- What a removal has checked: the account is live, and no active withdrawal of its owner
    names it. -/
structure Removable (a : BankAccount) (db : Database) : Prop where
  stored : db.bankAccounts.find? a.id = some a
  live : isLive a
  unnamed : ∀ t ∈ db.transactions.rows, isActiveWithdrawal a.userId t = true →
    t.extraData.bind (·.bankAccountId) ≠ some a.id

def alter (a : BankAccount) (set : BankAccountUpdate) : Write := .account (.updateBankAccount a.id set)

def unset (a : BankAccount) : Write := alter a { isDefault := some false }

def promote (a : BankAccount) : Write := alter a { isDefault := some true }

def dismiss (a : BankAccount) (now : Timestamp) : Write :=
  alter a { isDefault := some false, deletedAt := some now }

def succession : List BankAccount → List Write
  | [] => []
  | oldest :: _ => if oldest.isDefault then [] else [promote oldest]

inductive AccountCommit (ws : List Write) (db : Database) : Prop where
  | added (a : BankAccount) (live : isLive a)
      (first : a.isDefault = ((BankAccountRepository.liveOf a.userId db).length == 0))
      (free : db.bankAccounts.admits a = true) (only : ws = [.account (.insertBankAccount a)])
  | removed (a : BankAccount) (now : Timestamp) (ok : Removable a db) (plain : a.isDefault = false)
      (only : ws = [alter a { deletedAt := some now }])
  | replaced (a : BankAccount) (now : Timestamp) (ok : Removable a db) (default_ : a.isDefault = true)
      (both : ws = dismiss a now ::
        succession (BankAccountRepository.liveOf a.userId (applyWrite (dismiss a now) db)))
  | chosen (a : BankAccount) (stored : db.bankAccounts.find? a.id = some a) (live : isLive a)
      (all : ws = (BankAccountRepository.liveOf a.userId db).map unset ++ [promote a])

section Commits
variable {db : Database} {a b : BankAccount}

theorem mem_liveOf {userId : Uuid} :
    a ∈ BankAccountRepository.liveOf userId db ↔ a ∈ db.bankAccounts.rows ∧ a.userId = userId ∧
    isLive a := by
  simp [BankAccountRepository.liveOf, isLive]

theorem same_account (stored : db.bankAccounts.find? a.id = some a) (mem : b ∈ db.bankAccounts.rows)
    (same : b.id = a.id) : b = a := by
  have found : db.bankAccounts.find? a.id = some b := find?_some_iff.mpr ⟨mem, same⟩
  rw [stored] at found
  exact (Option.some.inj found).symm

theorem alter_rows (set : BankAccountUpdate) : (applyWrite (alter a set) db).bankAccounts.rows =
    db.bankAccounts.rows.map (editAt a.id (bankAccountEdit set)) := rfl

theorem edit_here (set : BankAccountUpdate) :
    editAt a.id (bankAccountEdit set) a = (bankAccountEdit set).on a :=
  if_pos rfl

theorem edit_elsewhere {set : BankAccountUpdate} (other : b.id ≠ a.id) :
    editAt a.id (bankAccountEdit set) b = b :=
  if_neg other

theorem edit_user (set : BankAccountUpdate) (id : Uuid) :
    (editAt id (bankAccountEdit set) b).userId = b.userId := by
  unfold editAt
  split <;> rfl

theorem edit_outside {set : BankAccountUpdate} (other : b.userId ≠ a.userId)
    (stored : db.bankAccounts.find? a.id = some a) (mem : b ∈ db.bankAccounts.rows) :
    editAt a.id (bankAccountEdit set) b = b := by
  apply edit_elsewhere
  intro same
  exact other (by rw [same_account stored mem same])

theorem default_added (h : OneDefault db) (live : isLive a)
    (first : a.isDefault = ((BankAccountRepository.liveOf a.userId db).length == 0))
    (free : db.bankAccounts.admits a = true) :
    OneDefault (applyWrite (.account (.insertBankAccount a)) db) := by
  have rows : (applyWrite (.account (.insertBankAccount a)) db).bankAccounts.rows =
      db.bankAccounts.rows ++ [a] :=
    insert_rows free
  unfold OneDefault
  rw [rows]
  apply chosen_append h live
  unfold leads
  rw [first, beq_iff_eq, List.length_eq_zero_iff, List.eq_nil_iff_forall_not_mem]
  constructor
  · intro empty b mem same lives
    exact empty b (mem_liveOf.mpr ⟨mem, same, lives⟩)
  · intro alone b mem
    obtain ⟨among, same, lives⟩ := mem_liveOf.mp mem
    exact alone b among same lives

theorem default_removed {now : Timestamp} (h : OneDefault db) (stored : db.bankAccounts.find? a.id = some a)
    (plain : a.isDefault = false) : OneDefault (applyWrite (alter a { deletedAt := some now }) db) := by
  unfold OneDefault
  rw [alter_rows]
  -- The flags are what they were, and the row that is gone had none.
  have flags : ∀ b ∈ db.bankAccounts.rows,
      leads (editAt a.id (bankAccountEdit { deletedAt := some now }) b) → b.id ≠ a.id ∧ leads b := by
    intro b mem led
    by_cases same : b.id = a.id
    · cases same_account stored mem same
      rw [edit_here] at led
      have flag : a.isDefault = true := led
      rw [plain] at flag
      cases flag
    · rw [edit_elsewhere same] at led
      exact ⟨same, led⟩
  apply chosen_regroup (g := a.userId) h
  · intro b _
    exact edit_user _ _
  · intro b mem other
    exact edit_outside other stored mem
  · intro b mem _ led
    obtain ⟨other, leading⟩ := flags b mem led
    rw [edit_elsewhere other]
    exact h.alive b mem leading
  · intro b memB c memC sameB sameC ledB ledC
    exact h.single b memB c memC (sameB.trans sameC.symm) (flags b memB ledB).2 (flags c memC ledC).2
  · intro b mem same lives
    by_cases here : b.id = a.id
    · cases same_account stored mem here
      rw [edit_here] at lives
      cases lives
    · rw [edit_elsewhere here] at lives
      obtain ⟨c, among, mine, leading⟩ := h.led b mem lives
      refine ⟨c, among, mine.trans same, ?_⟩
      have other : c.id ≠ a.id := by
        intro gone
        cases same_account stored among gone
        have flag : a.isDefault = true := leading
        rw [plain] at flag
        cases flag
      rw [edit_elsewhere other]
      exact leading

/-- The default account of a user is the only one with the flag. -/
theorem plain_beside (h : OneDefault db) (stored : db.bankAccounts.find? a.id = some a)
    (flag : a.isDefault = true)
    (mem : b ∈ db.bankAccounts.rows) (same : b.userId = a.userId) (other : b.id ≠ a.id) : ¬ leads b := by
  intro leading
  have one : b = a := h.single b mem a (find?_some_iff.mp stored).1 same leading flag
  exact other (by rw [one])

def dismissal (now : Timestamp) : BankAccountUpdate := { isDefault := some false, deletedAt := some now }

theorem dismissed_rows (now : Timestamp) : (applyWrite (dismiss a now) db).bankAccounts.rows =
    db.bankAccounts.rows.map (editAt a.id (bankAccountEdit (dismissal now))) := rfl

theorem dismissed_dead (now : Timestamp) : ¬ isLive ((bankAccountEdit (dismissal now)).on a) := by
  simp [isLive, bankAccountEdit, dismissal]

theorem dismissed_plain {now : Timestamp} (h : OneDefault db) (stored : db.bankAccounts.find? a.id = some a)
    (flag : a.isDefault = true) (mem : b ∈ db.bankAccounts.rows) (same : b.userId = a.userId) :
    ¬ leads (editAt a.id (bankAccountEdit (dismissal now)) b) := by
  intro leading
  by_cases here : b.id = a.id
  · cases same_account stored mem here
    rw [edit_here] at leading
    cases leading
  · rw [edit_elsewhere here] at leading
    exact plain_beside h stored flag mem same here leading

theorem remaining_before {now : Timestamp} (stored : db.bankAccounts.find? a.id = some a)
    (remains : b ∈ BankAccountRepository.liveOf a.userId (applyWrite (dismiss a now) db)) :
    b ∈ db.bankAccounts.rows ∧ b.userId = a.userId ∧ isLive b ∧ b.id ≠ a.id := by
  obtain ⟨among, mine, lives⟩ := mem_liveOf.mp remains
  rw [dismissed_rows] at among
  obtain ⟨c, mem, same⟩ := List.mem_map.mp among
  have other : c.id ≠ a.id := by
    intro here
    cases same_account stored mem here
    rw [edit_here] at same
    rw [← same] at lives
    exact dismissed_dead now lives
  rw [edit_elsewhere other] at same
  cases same
  exact ⟨mem, mine, lives, other⟩

theorem default_dismissed {now : Timestamp} (h : OneDefault db)
    (stored : db.bankAccounts.find? a.id = some a) (flag : a.isDefault = true)
    (nobody : BankAccountRepository.liveOf a.userId (applyWrite (dismiss a now) db) = []) :
    OneDefault (applyWrite (dismiss a now) db) := by
  unfold OneDefault
  rw [dismissed_rows]
  apply chosen_regroup (g := a.userId) h
  · intro b _
    exact edit_user _ _
  · intro b mem other
    exact edit_outside other stored mem
  · intro b mem same leading
    exact absurd leading (dismissed_plain h stored flag mem same)
  · intro b mem c _ same _ leading _
    exact absurd leading (dismissed_plain h stored flag mem same)
  · intro b mem same lives
    have among :
        editAt a.id (bankAccountEdit (dismissal now)) b ∈
          (applyWrite (dismiss a now) db).bankAccounts.rows := by
      rw [dismissed_rows]
      exact List.mem_map_of_mem mem
    have remains := mem_liveOf.mpr ⟨among, (edit_user _ _).trans same, lives⟩
    rw [nobody] at remains
    cases remains

def handover (a b : BankAccount) (now : Timestamp) (c : BankAccount) : BankAccount :=
  editAt b.id (bankAccountEdit { isDefault := some true }) (editAt a.id (bankAccountEdit (dismissal now)) c)

theorem handover_gone {now : Timestamp} (other : b.id ≠ a.id) :
    handover a b now a = (bankAccountEdit (dismissal now)).on a := by
  unfold handover
  rw [edit_here]
  exact edit_elsewhere (Ne.symm other)

theorem handover_heir {now : Timestamp} (other : b.id ≠ a.id) :
    handover a b now b = (bankAccountEdit { isDefault := some true }).on b := by
  unfold handover
  rw [edit_elsewhere other, edit_here]

theorem handover_others {now : Timestamp} {c : BankAccount} (first : c.id ≠ a.id) (second : c.id ≠ b.id) :
    handover a b now c = c := by
  unfold handover
  rw [edit_elsewhere first, edit_elsewhere second]

theorem default_passed {now : Timestamp} (h : OneDefault db) (stored : db.bankAccounts.find? a.id = some a)
    (flag : a.isDefault = true) (heir : b ∈ db.bankAccounts.rows) (mine : b.userId = a.userId)
    (lives : isLive b)
    (other : b.id ≠ a.id) : OneDefault (applyWrite (promote b) (applyWrite (dismiss a now) db)) := by
  have found : db.bankAccounts.find? b.id = some b := find?_some_iff.mpr ⟨heir, rfl⟩
  have rows : (applyWrite (promote b) (applyWrite (dismiss a now) db)).bankAccounts.rows =
      db.bankAccounts.rows.map (handover a b now) := by
    rw [promote, alter_rows, dismissed_rows, List.map_map]
    rfl
  have promoted : ∀ c ∈ db.bankAccounts.rows, c.userId = a.userId → leads (handover a b now c) → c = b := by
    intro c mem same leading
    by_cases gone : c.id = a.id
    · cases same_account stored mem gone
      rw [handover_gone other] at leading
      cases leading
    · by_cases here : c.id = b.id
      · exact same_account found mem here
      · rw [handover_others gone here] at leading
        exact absurd leading (plain_beside h stored flag mem same gone)
  unfold OneDefault
  rw [rows]
  apply chosen_regroup (g := a.userId) h
  · intro c _
    exact (edit_user _ _).trans (edit_user _ _)
  · intro c mem outside
    apply handover_others
    · intro gone
      exact outside (by rw [same_account stored mem gone])
    · intro here
      exact outside (by rw [same_account found mem here, mine])
  · intro c mem same leading
    cases promoted c mem same leading
    rw [handover_heir other]
    simpa [isLive, bankAccountEdit] using lives
  · intro c memC d memD sameC sameD leadsC leadsD
    rw [promoted c memC sameC leadsC, promoted d memD sameD leadsD]
  · intro c _ _ _
    refine ⟨b, heir, mine, ?_⟩
    rw [handover_heir other]
    rfl

theorem default_replaced {now : Timestamp} (h : OneDefault db)
    (stored : db.bankAccounts.find? a.id = some a) (flag : a.isDefault = true) :
    OneDefault
    (applyAll (succession (BankAccountRepository.liveOf a.userId (applyWrite (dismiss a now) db)))
      (applyWrite (dismiss a now) db)) := by
  cases remaining : BankAccountRepository.liveOf a.userId (applyWrite (dismiss a now) db) with
  | nil => exact default_dismissed h stored flag remaining
  | cons heir rest =>
    have remains : heir ∈ BankAccountRepository.liveOf a.userId (applyWrite (dismiss a now) db) := by
      rw [remaining]
      exact List.mem_cons_self
    obtain ⟨mem, mine, lives, other⟩ := remaining_before stored remains
    have plain : heir.isDefault = false := by
      have beside := plain_beside h stored flag mem mine other
      simpa [leads] using beside
    simp only [succession, plain, Bool.false_eq_true, if_false]
    exact default_passed h stored flag mem mine lives other

/-- The bulk UPDATE, row by row. -/
theorem unset_rows (accounts : List BankAccount) (db : Database) :
    (applyAll (accounts.map unset) db).bankAccounts.rows = db.bankAccounts.rows.map (fun b =>
      if b.id ∈ accounts.map (·.id) then { b with isDefault := false } else b) := by
  induction accounts generalizing db with
  | nil => simp
  | cons a rest ih =>
    simp only [List.map_cons, applyAll_cons]
    rw [ih]
    change List.map _ (applyWrite (alter a { isDefault := some false }) db).bankAccounts.rows = _
    rw [alter_rows, List.map_map]
    apply List.map_congr_left
    intro b _
    by_cases here : b.id = a.id
    · simp [editAt, bankAccountEdit, here]
    · simp [editAt, bankAccountEdit, here]

theorem live_ids {userId : Uuid} (mem : b ∈ db.bankAccounts.rows) :
    b.id ∈ (BankAccountRepository.liveOf userId db).map (·.id) ↔ b.userId = userId ∧ isLive b := by
  rw [List.mem_map]
  constructor
  · rintro ⟨c, among, same⟩
    obtain ⟨there, mine, lives⟩ := mem_liveOf.mp among
    have one : c = b := same_account (find?_some_iff.mpr ⟨mem, rfl⟩) there same
    rw [← one]
    exact ⟨mine, lives⟩
  · intro facts
    exact ⟨b, mem_liveOf.mpr ⟨mem, facts⟩, rfl⟩

/-- All flags of the user's live accounts cleared, and one of them set. -/
def crown (a : BankAccount) (db : Database) (b : BankAccount) : BankAccount :=
  editAt a.id (bankAccountEdit { isDefault := some true })
    (if b.id ∈ (BankAccountRepository.liveOf a.userId db).map (·.id)
      then { b with isDefault := false } else b)

theorem crown_here (live : isLive a) : leads (crown a db a) ∧ isLive (crown a db a) := by
  unfold crown
  split <;> simpa [editAt, bankAccountEdit, leads, isLive] using live

theorem crown_beside (h : OneDefault db) (mem : b ∈ db.bankAccounts.rows) (same : b.userId = a.userId)
    (other : b.id ≠ a.id) : ¬ leads (crown a db b) := by
  intro leading
  by_cases lives : isLive b
  · rw [crown, if_pos ((live_ids mem).mpr ⟨same, lives⟩)] at leading
    have cleared : editAt a.id (bankAccountEdit { isDefault := some true }) { b with isDefault := false } =
        { b with isDefault := false } := if_neg other
    rw [cleared] at leading
    cases leading
  · rw [crown, if_neg (fun among => lives ((live_ids mem).mp among).2), edit_elsewhere other] at leading
    exact lives (h.alive b mem leading)

theorem crown_outside (mem : b ∈ db.bankAccounts.rows) (other : b.userId ≠ a.userId)
    (stored : db.bankAccounts.find? a.id = some a) : crown a db b = b := by
  rw [crown, if_neg (fun among => other ((live_ids mem).mp among).1)]
  exact edit_outside other stored mem

theorem crown_user : (crown a db b).userId = b.userId := by
  unfold crown
  rw [edit_user]
  split <;> rfl

theorem default_chosen (h : OneDefault db) (stored : db.bankAccounts.find? a.id = some a)
    (live : isLive a) :
    OneDefault (applyAll ((BankAccountRepository.liveOf a.userId db).map unset ++ [promote a]) db) := by
  have rows :
      (applyAll ((BankAccountRepository.liveOf a.userId db).map unset ++ [promote a])
        db).bankAccounts.rows =
      db.bankAccounts.rows.map (crown a db) := by
    rw [applyAll_append]
    change (applyWrite (alter a { isDefault := some true }) _).bankAccounts.rows = _
    rw [alter_rows, unset_rows, List.map_map]
    rfl
  have mine := (find?_some_iff.mp stored).1
  have crowned : ∀ b ∈ db.bankAccounts.rows, b.userId = a.userId → leads (crown a db b) → b = a := by
    intro b mem same leading
    by_contra different
    have other : b.id ≠ a.id := fun here => different (same_account stored mem here)
    exact crown_beside h mem same other leading
  unfold OneDefault
  rw [rows]
  apply chosen_regroup (g := a.userId) h
  · intro b _
    exact crown_user
  · intro b mem other
    exact crown_outside mem other stored
  · intro b mem same leading
    cases crowned b mem same leading
    exact (crown_here live).2
  · intro b memB c memC sameB sameC leadsB leadsC
    rw [crowned b memB sameB leadsB, crowned c memC sameC leadsC]
  · intro b _ _ _
    exact ⟨a, mine, rfl, (crown_here live).1⟩

theorem default_commit {ws : List Write} (h : OneDefault db) (commit : AccountCommit ws db) :
    OneDefault (applyAll ws db) := by
  cases commit with
  | added a live first free only =>
    subst only
    exact default_added h live first free
  | removed a now ok plain only =>
    subst only
    exact default_removed h ok.stored plain
  | replaced a now ok flag both =>
    subst both
    exact default_replaced h ok.stored flag
  | chosen a stored live all =>
    subst all
    exact default_chosen h stored live

end Commits

section Services
variable {A : Request → PaystackData → Prop} {G : List Write → Database → Prop} {db : Database}

abbrev Freely (_ : Request) (_ : Database) : Prop := True

theorem verifyAccount_then {α : Type} {cfg : Settings} {accountNumber bankCode : String} {s : Held}
    {k : Option String → Tx α} (onward : ∀ name, Sure A Freely G (k name) s) :
    Sure A Freely G (verifyAccount cfg accountNumber bankCode >>= k) s := by
  unfold verifyAccount
  split
  · exact onward none
  · exact ⟨trivial, fun reply _ => onward _, onward none⟩

theorem addBankAccount_sure (allowed : ∀ ws s, AccountCommit ws s → G ws s) (cfg : Settings) (user : User)
    (accountName accountNumber bankCode bankName : String) (accountId : Uuid) :
    Sure A Freely G (addBankAccount cfg user accountName accountNumber bankCode bankName accountId)
      ⟨db, [], default, []⟩ := by
  unfold addBankAccount
  apply verifyAccount_then
  intro name
  apply query_then
  unfold BankAccountRepository.create
  apply nested_then
  apply insertAccount_then
  intro free
  apply commit_then
  · apply allowed
    refine .added _ ?_ rfl free rfl
    exact (rfl : Option.none = none)
  · trivial

theorem getActiveWithdrawal_then {α : Type} {userId : Uuid} {k : Option Transaction → Tx α}
    {calls : List Request} (onward : ∀ active m,
      TransactionRepository.scalarOneOrNone
      (db.transactions.rows.filter (isActiveWithdrawal userId)) = .ok active →
      Sure A Freely G (k active) ⟨db, [], m, calls⟩) :
    Sure A Freely G (getActiveWithdrawal userId >>= k) ⟨db, [], default, calls⟩ := by
  apply silent_then
  simp only [Local.seen, applyAll_nil]
  cases picked :
    TransactionRepository.scalarOneOrNone (db.transactions.rows.filter (isActiveWithdrawal userId)) with
  | error x => trivial
  | ok active =>
    cases active with
    | none => exact onward none _ picked
    | some row => exact onward (some row) _ picked

/-- The active withdrawal that is found is the only one. -/
theorem active_only {userId : Uuid} {active : Option Transaction} {t : Transaction}
    (picked : TransactionRepository.scalarOneOrNone
      (db.transactions.rows.filter (isActiveWithdrawal userId)) = .ok active)
    (mem : t ∈ db.transactions.rows) (is : isActiveWithdrawal userId t = true) : active = some t := by
  have among : t ∈ db.transactions.rows.filter (isActiveWithdrawal userId) := List.mem_filter.mpr ⟨mem, is⟩
  cases rows : db.transactions.rows.filter (isActiveWithdrawal userId) with
  | nil =>
    rw [rows] at among
    cases among
  | cons first rest =>
    rw [rows] at among picked
    cases rest with
    | nil =>
      cases picked
      rw [List.mem_singleton.mp among]
    | cons second rest => cases picked

theorem softDelete_sure (allowed : ∀ ws s, AccountCommit ws s → G ws s) {account : BankAccount}
    (ok : Removable account db) (now : Timestamp) (m : IdentityMap) :
    Sure A Freely G (BankAccountRepository.softDelete account now >>= fun _ => commit) ⟨db, [], m, []⟩ := by
  unfold BankAccountRepository.softDelete
  cases flag : account.isDefault with
  | false =>
    simp only [Bool.false_eq_true, if_false]
    apply flushAccount_then
    refine ⟨allowed _ _ (.removed account now ok flag rfl), trivial, trivial⟩
  | true =>
    simp only [if_true]
    apply nested_then
    apply flushAccount_then
    apply nested_then
    apply query_then
    have both : AccountCommit (dismiss account now ::
        succession
          (BankAccountRepository.liveOf account.userId (applyWrite (dismiss account now) db))) db :=
      .replaced account now ok flag rfl
    change Sure A Freely G ((match BankAccountRepository.liveOf account.userId
      (applyWrite (dismiss account now) db) with
        | [] => pure ()
        | oldest :: _ => flushAccount (if oldest.isDefault then [] else
            [.updateBankAccount oldest.id { isDefault := some true }])) >>= fun _ => commit) _
    cases remaining : BankAccountRepository.liveOf account.userId (applyWrite (dismiss account now) db) with
    | nil =>
      rw [remaining] at both
      exact ⟨allowed _ _ both, trivial, trivial⟩
    | cons oldest rest =>
      rw [remaining] at both
      apply flushAccount_then
      refine ⟨?_, trivial, trivial⟩
      have writes : (if oldest.isDefault = true then [] else
          [AccountWrite.updateBankAccount oldest.id { isDefault := some true }]).map Write.account =
          succession (oldest :: rest) := by
        by_cases first : oldest.isDefault = true <;> simp [succession, first, promote, alter]
      rw [writes]
      exact allowed _ _ both

theorem removeBankAccount_sure (allowed : ∀ ws s, AccountCommit ws s → G ws s) (user : User)
    (bankAccountId : Uuid) (now : Timestamp) :
    Sure A Freely G (removeBankAccount user bankAccountId now) ⟨db, [], default, []⟩ := by
  unfold removeBankAccount BankAccountRepository.getById
  apply query_then
  apply orRaise_then
  intro account found
  obtain ⟨picked, owner⟩ := Option.filter_eq_some_iff.mp found
  obtain ⟨stored, live⟩ := Option.filter_eq_some_iff.mp picked
  have key : account.id = bankAccountId := (find?_some_iff.mp stored).2
  subst key
  have own : account.userId = user.id := by simpa using owner
  apply getActiveWithdrawal_then
  intro active m picked
  apply require_then
  intro unnamed
  apply softDelete_sure allowed
  refine ⟨stored, by simpa [isLive] using live, ?_⟩
  intro t mem is
  rw [own] at is
  rw [active_only picked mem is] at unnamed
  simpa using unnamed

/-- No router calls set_default: this is a session that loads a live account and does. -/
def chooseDefault (accountId : Uuid) : Tx Unit := do
  let account ← BankAccountRepository.getById accountId
  let account ← orRaise account (.notFound "Bank account")
  let _ ← BankAccountRepository.setDefault account
  commit

theorem chooseDefault_sure (allowed : ∀ ws s, AccountCommit ws s → G ws s) (accountId : Uuid) :
    Sure A Freely G (chooseDefault accountId) ⟨db, [], default, []⟩ := by
  unfold chooseDefault BankAccountRepository.getById
  apply query_then
  apply orRaise_then
  intro account found
  obtain ⟨stored, live⟩ := Option.filter_eq_some_iff.mp found
  have key : account.id = accountId := (find?_some_iff.mp stored).2
  subst key
  unfold BankAccountRepository.setDefault
  apply nested_then
  refine ⟨?_, trivial⟩
  apply nested_then
  apply flushAccount_then
  refine ⟨allowed _ _ (.chosen account stored (by simpa [isLive] using live) rfl), trivial, trivial⟩

end Services

end PayCoreBankAccountRules
