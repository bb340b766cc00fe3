import PayCore.Proof.Estates
import PayCore.Proof.Vetting
import PayCore.Service.Traffic

/- The sessions of the platform, each of whose commits is sanctioned by the reviews behind it. -/
namespace PayCoreVettingRules
open KeyedTable SessionProgram SessionSystem RelyGuarantee PayCoreTables PayCoreWrites
open PayCoreSessions PayCoreRepositories PayCoreSupport PayCoreAccounts PayCorePayments
open PayCoreWithdrawals PayCoreFunding PayCoreKyc PayCoreJobs PayCoreOperations PayCoreEndpoints
open PayCoreTraffic PayCorePersistence PayCoreStatements PayCoreGuaranteeRules PayCoreRegularity
open PayCoreRoleRules PayCoreOwnRows PayCoreEstates PayCoreVetting

section Sessions
variable {admin : Uuid → Prop} {cfg : Settings}
    {F : Database → IdentityMap → List Row → List Write → Prop} {α : Type}
  {s t : Database} {held : Row → Prop} {v : Window} {userId id : Uuid} {tier : Nat}

abbrev Vetting (admin : Uuid → Prop) (cfg : Settings)
    (F : Database → IdentityMap → List Row → List Write → Prop)
    (p : Tx α) (v : Window) : Prop :=
  Guarantees (Rely (VettedCommit admin cfg)) (VettedCommit admin cfg) F p v

theorem vetted_rely (rely : Rely (VettedCommit admin cfg) held s t) (h : Vetted admin cfg s) :
    Vetted admin cfg t :=
  rely_keeps rely (fun _ _ commit vetted => vetted_commit commit vetted) h

theorem asked_rely {G : List Write → Database → Prop} (rely : Rely G held s t)
    (h : Asked userId id tier s) :
    Asked userId id tier t :=
  rely_keeps rely (fun ws _ _ asked => asked_all ws asked) h

/-- A write that no review has to stand behind. -/
def ordinary : Write → Prop
  | .insertUser u => u.role ≠ .admin ∧ u.kycTier = 0
  | .insertTransaction t => ¬ spends t.type
  | .account (.updateUser _ set) => set.role ≠ some .admin ∧ set.kycTier = none
  | .account (.reviewSubmission _ _) => False
  | _ => True

theorem ordinary_sanctioned {db : Database} {w : Write} (h : ordinary w) : Sanctioned admin cfg db w := by
  cases w with
  | insertUser u => exact h
  | insertTransaction t => exact fun spending => absurd spending h
  | account w =>
    cases w with
    | updateUser id set =>
      refine ⟨h.1, ?_⟩
      intro tier sets
      rw [h.2] at sets
      cases sets
    | reviewSubmission id review => exact h.elim
    | _ => trivial
  | _ => trivial

theorem ordinary_vetting {p : Tx α} (emits : Emits ordinary p) (bare : v.pending = []) :
    Vetting admin cfg F p v := by
  apply emits_wp _ emits (by simp [bare])
  intro ws db all
  exact vetted_plain (fun w mem => ordinary_sanctioned (all w mem))

section Orders
variable {type : TransactionType} {amount : Int} {user : User}

/-- The writes of a request by which the user spends the amount. -/
def spending (type : TransactionType) (userId : Uuid) (amount : Int) : Write → Prop
  | .insertTransaction t => t.type = type ∧ t.initiatedByUserId = userId ∧ t.amount = amount
  | w => ordinary w

theorem spending_sanctioned {db : Database} {w : Write} (enough : Suffices cfg type amount tier)
    (reviewed : Reviewed admin userId tier db) (h : spending type userId amount w) :
    Sanctioned admin cfg db w := by
  cases w with
  | insertTransaction t =>
    obtain ⟨kind, owner, sum⟩ := h
    intro _
    rw [kind, owner, sum]
    exact ⟨tier, enough, reviewed⟩
  | _ => exact ordinary_sanctioned h

theorem spending_vetting {P : Write → Prop} {p : Tx α} (emits : Emits P p)
    (own : ∀ w, P w → spending type user.id amount w)
    (blocked : ¬ Suffices cfg type amount user.kycTier → Emits ordinary p)
    (reviewed : user.kycTier ≠ 0 → Reviewed admin user.id user.kycTier v.db) (bare : v.pending = []) :
    Vetting admin cfg F p v := by
  by_cases enough : Suffices cfg type amount user.kycTier
  · apply emits_wp_under (I := Reviewed admin user.id user.kycTier) (P := P)
    · exact fun ws db commit known => reviewed_commit commit known
    · intro ws db known all
      exact vetted_plain (fun w mem => spending_sanctioned enough known (own w (all w mem)))
    · exact emits
    · simp [bare]
    · exact reviewed enough.1
  · exact ordinary_vetting (blocked enough) bare

variable {P : Write → Prop} {β : Type} {k : Unit → Tx β} {now : Timestamp}

theorem emits_overLimit (short : ¬ (user.kycTier ≠ 0 ∧ amount ≤ singleLimit cfg user.kycTier)) :
    Emits P (enforceKycSingleLimit cfg user.kycTier amount >>= k) := by
  unfold enforceKycSingleLimit
  by_cases none : user.kycTier = 0
  · rw [if_pos none]
    trivial
  · have exceeds :
        ¬ amount ≤ kobo (if user.kycTier = 1 then cfg.kycTier1SingleLimit else cfg.kycTier2SingleLimit) :=
      fun within => short ⟨none, within⟩
    rw [if_neg none]
    simp only [exceeds, decide_false]
    trivial

theorem blocked_transfer {normalize : String → String} {recipient : Recipient} {key : Option String}
    {draws : Draws} (short : ¬ Suffices cfg .transfer amount user.kycTier) :
    Emits P (initiateTransfer normalize user cfg recipient amount key draws) := by
  unfold initiateTransfer resolveTransfer
  apply emits_seq
  · apply emits_seq (emits_selectWallet _ _)
    intro _
    apply emits_seq (emits_orRaise _ _)
    intro _
    apply emits_seq
    · cases recipient <;> exact emits_query _
    intro _
    apply emits_seq (emits_orRaise _ _)
    intro _
    apply emits_seq (emits_require _ _)
    intro _
    apply emits_seq (emits_selectWallet _ _)
    intro _
    exact emits_seq (emits_orRaise _ _) (fun _ => trivial)
  rintro ⟨senderWallet, recipientWallet⟩
  apply emits_seq (emits_lookupKey _)
  intro existing
  cases existing with
  | some txn => trivial
  | none =>
    dsimp only
    unfold checkTransfer
    rw [seq_seq]
    apply emits_overLimit
    exact fun both => short ⟨both.1, by simp, both.2⟩

theorem blocked_payment {merchantId : Uuid} {key : Option String} {draws : Draws}
    (short : ¬ Suffices cfg .merchantPayment amount user.kycTier) :
    Emits P (initiatePayment user cfg merchantId amount key draws) := by
  unfold initiatePayment resolvePayment
  apply emits_seq
  · apply emits_seq (emits_query _)
    intro _
    apply emits_seq (emits_orRaise _ _)
    intro _
    apply emits_seq (emits_require _ _)
    intro _
    apply emits_seq (emits_require _ _)
    intro _
    apply emits_seq (emits_selectWallet _ _)
    intro _
    apply emits_seq (emits_orRaise _ _)
    intro _
    apply emits_seq (emits_selectWallet _ _)
    intro _
    exact emits_seq (emits_orRaise _ _) (fun _ => trivial)
  rintro ⟨merchant, payerWallet, merchantWallet⟩
  apply emits_seq (emits_lookupKey _)
  intro existing
  cases existing with
  | some txn => trivial
  | none =>
    dsimp only
    unfold checkMerchantPayment
    rw [seq_seq]
    apply emits_overLimit
    exact fun both => short ⟨both.1, by simp, both.2⟩

theorem blocked_withdrawal {bankAccountId : Uuid} {draws : WithdrawalDraws}
    (short : ¬ Suffices cfg .withdrawal amount user.kycTier) :
    Emits P (initiateWithdrawal cfg user bankAccountId amount draws) := by
  unfold initiateWithdrawal
  apply emits_seq (emits_selectWallet _ _)
  intro _
  apply emits_seq (emits_orRaise _ _)
  intro _
  unfold checkWithdrawal
  rw [seq_seq]
  by_cases second : 2 ≤ user.kycTier
  · apply emits_seq (emits_require _ _)
    intro _
    rw [seq_seq]
    apply emits_overLimit
    exact fun both => short ⟨both.1, fun _ => second, both.2⟩
  · simp only [second, decide_false]
    trivial

theorem moves_spending (w : Write) (h : moves type user.id amount w) : spending type user.id amount w := by
  cases w with
  | insertTransaction t => exact ⟨h.1, h.2.1, h.2.2.1⟩
  | setBalance | insertEntry | insertDelivery | insertAuditLog => trivial
  | _ => exact h.elim

theorem opens_spending (w : Write) (h : opens type user.id amount w) : spending type user.id amount w := by
  cases w with
  | insertTransaction t => exact ⟨h.1, h.2.1, h.2.2.1⟩
  | setBalance | insertAuditLog => trivial
  | _ => exact h.elim

theorem opens_ordinary (w : Write) (h : opens .funding user.id amount w) : ordinary w := by
  cases w with
  | insertTransaction t =>
    intro spending
    rw [h.1] at spending
    exact spending
  | setBalance | insertAuditLog => trivial
  | _ => exact h.elim

theorem job_vetting (order : Order) (reviewed : user.kycTier ≠ 0 → Reviewed admin user.id user.kycTier v.db)
    (bare : v.pending = []) : Vetting admin cfg F (order.job cfg user).program v := by
  cases order with
  | fundWallet amount key draws =>
    exact ordinary_vetting
      (emits_mono opens_ordinary (emits_job (.initiateFunding user amount key draws))) bare
  | initiateTransfer normalize recipient amount key draws =>
    apply spending_vetting (emits_job (.initiateTransfer normalize user cfg recipient amount key draws))
      moves_spending _ reviewed bare
    exact fun short => emits_quietly (blocked_transfer short)
  | payMerchant merchantId amount key draws =>
    apply spending_vetting (emits_job (.initiatePayment user cfg merchantId amount key draws))
      moves_spending _ reviewed bare
    exact fun short => emits_quietly (blocked_payment short)
  | initiateWithdrawal bankAccountId amount draws =>
    apply spending_vetting (emits_job (.initiateWithdrawal cfg user bankAccountId amount draws))
      opens_spending _ reviewed bare
    exact fun short => emits_quietly (blocked_withdrawal short)

theorem getCurrentUser_vetting {currentUserId : Uuid} {k : User → Tx α} (vetted : Vetted admin cfg v.db)
    (bare : v.pending = [])
    (onward : ∀ user u, user ∈ u.db.users.rows → Vetted admin cfg u.db → u.pending = [] →
      Vetting admin cfg F (k user) u) :
    Vetting admin cfg F (getCurrentUser currentUserId >>= k) v := by
  unfold getCurrentUser
  rw [seq_seq]
  apply read_then
  intro u first
  have bare1 := bare_read bare first
  rw [bare1, applyAll_nil, seq_seq]
  apply given_then
  intro user found
  rw [seq_seq]
  apply checked_then
  intro _
  have row := (Option.filter_eq_some_iff.mp found).1
  exact onward user u (find?_some_iff.mp row).1 (vetted_rely first.rely vetted) bare1

theorem order_vetting {currentUserId : Uuid} (order : Order) (vetted : Vetted admin cfg v.db)
    (bare : v.pending = []) :
    Vetting admin cfg F (order.program cfg currentUserId) v := by
  apply getCurrentUser_vetting vetted bare
  intro user u row vetted1 bare1
  exact job_vetting order (vetted1.tiers user row) bare1

end Orders

section Reviews
variable {db : Database} {submissionId : Uuid} {reviewer : User} {review : Review} {utcNow : Timestamp}

theorem review_sanctioned (asked : Asked userId id tier db) (status : review.status ≠ .pending)
    (vouched : admin review.reviewerId) (other : review.reviewerId ≠ userId) :
    Sanctioned admin cfg db (.account (.reviewSubmission id review)) := by
  obtain ⟨s, mem, own, owner, _⟩ := asked
  refine ⟨status, vouched, s, mem, own, ?_⟩
  rw [owner]
  exact Ne.symm other

theorem reviewed_now (asked : Asked userId id tier db) (status : review.status ≠ .pending)
    (vouched : admin review.reviewerId) (other : review.reviewerId ≠ userId) :
    Reviewed admin userId tier (applyWrite (.account (.reviewSubmission id review)) db) := by
  obtain ⟨s, mem, own, owner, tier_asked⟩ := asked
  refine ⟨editAt id (reviewEdit review) s, kept_update (t := db.kycSubmissions) mem, ?_⟩
  have moved : editAt id (reviewEdit review) s = (reviewEdit review).on s := if_pos own
  rw [moved]
  exact ⟨owner, Nat.le_of_eq tier_asked.symm, status, review.reviewerId, rfl, other, vouched⟩

theorem promoted_vetted (asked : Asked userId id tier db) (status : review.status ≠ .pending)
    (vouched : admin review.reviewerId) (other : review.reviewerId ≠ userId) (ws : List AccountWrite)
    (climbs : ws = [] ∨ ws = [.updateUser userId { kycTier := some tier }]) :
    VettedCommit admin cfg (.account (.reviewSubmission id review) :: ws.map .account) db := by
  refine ⟨review_sanctioned asked status vouched other, ?_⟩
  apply vetted_plain
  intro w mem
  rcases climbs with rfl | rfl
  · cases mem
  · rw [List.mem_singleton.mp mem]
    refine ⟨by simp, ?_⟩
    intro n sets _
    rw [← Option.some.inj sets]
    exact reviewed_now asked status vouched other

theorem audited_vetting {entry : AuditLog} {a : α} (bare : v.pending = []) :
    Vetting admin cfg F (auditLog entry >>= fun _ => (.ret a : Tx α)) v :=
  ordinary_vetting (emits_audited (fun _ => trivial) _ _) bare

theorem getSubmission_vetting {k : KYCSubmission → Tx α} (bare : v.pending = [])
    (onward : ∀ sub u, u.pending = [] → Asked sub.userId sub.id sub.requestedTier u.db →
      Vetting admin cfg F (k sub) u) :
    Vetting admin cfg F (getSubmission submissionId >>= k) v := by
  unfold getSubmission
  rw [seq_seq]
  apply read_then
  intro u first
  have bare1 := bare_read bare first
  rw [bare1, applyAll_nil]
  apply given_then
  intro sub found
  exact onward sub u bare1 ⟨sub, (find?_some_iff.mp found).1, rfl, rfl, rfl⟩

theorem approveKyc_vetting (vouched : admin reviewer.id) (bare : v.pending = []) :
    Vetting admin cfg F (approveKyc submissionId reviewer utcNow) v := by
  unfold approveKyc
  apply getSubmission_vetting bare
  intro sub v1 bare1 asked
  apply checked_then
  intro _
  apply checked_then
  intro _
  apply checked_then
  intro other
  unfold KYCRepository.review
  rw [seq_seq]
  apply flush_then
  intro v2 second _
  change Vetting admin cfg F (updateKycTier sub.userId sub.requestedTier >>= _) v2
  unfold updateKycTier
  rw [seq_seq]
  apply read_then
  intro v3 third
  rw [seq_seq]
  apply given_then
  intro user found
  have named : user.id = sub.userId := (find?_some_iff.mp (Option.filter_eq_some_iff.mp found).1).2
  unfold UserRepository.updateKycTier
  rw [seq_seq]
  apply flush_then
  intro v4 fourth _
  apply committed_then
  · intro db rely
    have rows := fourth.pending
    rw [third.pending, second.pending, bare1, named] at rows
    rw [rows]
    have still :=
      asked_rely rely (asked_rely fourth.rely (asked_rely third.rely (asked_rely second.rely asked)))
    apply promoted_vetted still
    · simp
    · exact vouched
    · simpa using other
    · split
      · exact .inl rfl
      · exact .inr rfl
  · intro v5 bare5
    exact audited_vetting bare5

theorem rejectKyc_vetting {reason : String} (vouched : admin reviewer.id) (bare : v.pending = []) :
    Vetting admin cfg F (rejectKyc submissionId reviewer reason utcNow) v := by
  unfold rejectKyc
  apply getSubmission_vetting bare
  intro sub v1 bare1 asked
  apply checked_then
  intro _
  apply checked_then
  intro other
  unfold KYCRepository.review
  rw [seq_seq]
  apply flush_then
  intro v2 second _
  apply committed_then
  · intro db rely
    have rows := second.pending
    rw [bare1] at rows
    rw [rows]
    apply promoted_vetted (asked_rely rely (asked_rely second.rely asked)) _ _ _ []
    · exact .inl rfl
    · simp
    · exact vouched
    · simpa using other
  · intro v3 bare3
    exact audited_vetting bare3

theorem requireAdmin_vetting {currentUserId : Uuid} {k : User → Tx α} (vetted : Vetted admin cfg v.db)
    (bare : v.pending = [])
    (onward : ∀ user u, admin user.id → u.pending = [] → Vetting admin cfg F (k user) u) :
    Vetting admin cfg F (requireRole [.admin] currentUserId >>= k) v := by
  unfold requireRole
  rw [seq_seq]
  apply getCurrentUser_vetting vetted bare
  intro user u row vetted1 bare1
  rw [seq_seq]
  apply checked_then
  intro role
  apply onward user u _ bare1
  exact vetted1.admins user row (by simpa using role)

end Reviews

theorem own_sanctioned {db : Database} {w : Write} (h : Own userId db w) : ordinary w := by
  cases w with
  | account w =>
    cases w with
    | updateUser id set => exact ⟨h.2.2, h.2.1⟩
    | reviewSubmission => exact h.elim
    | _ => trivial
  | insertRefreshToken | insertAuditLog | insertWallet => trivial
  | _ => exact h.elim

theorem signs_ordinary {w : Write} (h : signs w) : ordinary w := by
  cases w with
  | account w =>
    cases w with
    | revokeRefreshToken => trivial
    | _ => exact h.elim
  | insertRefreshToken | insertAuditLog => trivial
  | _ => exact h.elim

theorem settles_ordinary (w : Write) (h : settles w) : ordinary w := by
  cases w with
  | updateTransaction | setBalance | insertEntry | setRecipientCode | insertAuditLog => trivial
  | _ => exact h.elim

theorem ordinary_commit {ws : List Write} {db : Database} (all : ∀ w ∈ ws, ordinary w) :
    VettedCommit admin cfg ws db :=
  vetted_plain fun w mem => ordinary_sanctioned (all w mem)

theorem endpoint_vetting (e : Endpoint) (reachable : routed (.endpoint e) = true)
    (vetted : Vetted admin cfg v.db) (bare : v.pending = []) : Vetting admin cfg F e.program v := by
  by_cases review : isReview e
  · cases e with
    | request op =>
      cases op with
      | approveKyc => simp [routed] at reachable
      | rejectKyc => simp [routed] at reachable
      | _ => exact review.elim
    | approveKyc =>
      apply requireAdmin_vetting vetted bare
      intro user u vouched bare1
      exact quietly_guarantees (approveKyc_vetting vouched bare1)
    | rejectKyc =>
      apply requireAdmin_vetting vetted bare
      intro user u vouched bare1
      exact quietly_guarantees (rejectKyc_vetting vouched bare1)
    | runReconciliation => exact review.elim
  · by_cases money : isMoney e
    · cases e with
      | request op =>
        cases op with
        | money job =>
          cases job with
          | register =>
            apply ordinary_vetting _ bare
            apply emits_quietly
            apply emits_register _ (fun _ _ _ => trivial) (fun _ => trivial) (fun _ => trivial)
            intro u tier role
            exact ⟨by rw [role]; simp, tier⟩
          | _ => simp [routed] at reachable
        | _ => exact money.elim
      | _ => exact money.elim
    · apply account_guarantees e money bare
      · exact fun _ _ ws db own => ordinary_commit (fun w mem => own_sanctioned (own w mem))
      · exact fun ws db signed => ordinary_commit (fun w mem => signs_ordinary (signed w mem))
      · exact fun reviewing => absurd reviewing review

theorem job_ordinary (job : Job) (settling : Job.issues job = settles) (bare : v.pending = []) :
    Vetting admin cfg F job.program v := by
  have emits := emits_job job
  rw [settling] at emits
  exact ordinary_vetting (emits_mono settles_ordinary emits) bare

theorem traffic_vetting (traffic : Traffic) (vetted : Vetted admin cfg v.db) (bare : v.pending = []) :
    Vetting admin cfg F (traffic.program cfg) v := by
  cases traffic with
  | ordered currentUserId order => exact order_vetting order vetted bare
  | other work reachable =>
    cases work with
    | endpoint e => exact endpoint_vetting e reachable vetted bare
    | processPaystackWebhook eventType data =>
      change Vetting admin cfg F (dispatch eventType data) v
      exact ordinary_vetting
        (emits_mono settles_ordinary (emits_dispatch settling_settles eventType data)) bare
    | processWithdrawal transactionId => exact job_ordinary (.executePayout transactionId) rfl bare
    | checkStaleTransactions sweep =>
        exact ordinary_vetting (emits_mono settles_ordinary (emits_reconcile sweep)) bare

end Sessions

end PayCoreVettingRules
