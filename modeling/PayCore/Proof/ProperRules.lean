import PayCore.Library.StandingInvariants
import PayCore.Proof.GuaranteeRules
import PayCore.Proof.ProperCommits

/- The steps of a session whose every commit is to be proper: what it has read stays recorded,
   what it has written is in order, and the state stays sound. -/
namespace PayCoreProperRules
open KeyedTable SessionProgram SessionSystem RelyGuarantee StandingInvariants PayCoreTables
open PayCoreWrites PayCoreSessions PayCoreRepositories PayCoreSupport PayCorePersistence
open PayCoreStatements PayCoreGuaranteeRules PayCoreForeignKeys PayCoreKeptRecords
open PayCoreProperCommits

variable {F : Database → IdentityMap → List Row → List Write → Prop} {α β : Type} {v u : Window}

abbrev Proper (F : Database → IdentityMap → List Row → List Write → Prop) (p : Tx α) (v : Window) : Prop :=
  Guarantees (Rely ProperCommit) ProperCommit F p v

theorem sound_wp {p : Tx α} {Q : Post Database IdentityMap Write Row AppError α} (sound : Sound v.db)
    (h : wp (Rely ProperCommit) ProperCommit F p (fun r u => Sound u.db → Kept v.db u.db → Q r u) v) :
    wp (Rely ProperCommit) ProperCommit F p Q v := by
  apply standing_wp (I := fun db => Sound db ∧ Kept v.db db)
  · intro ws s commit holds
    exact ⟨sound_commit holds.1 commit, kept_trans holds.2 (kept_all (commit_steady commit))⟩
  · exact ⟨sound, kept_refl v.db⟩
  · exact wp_mono (fun _ _ holds both => holds both.1 both.2) h

structure Clear (v : Window) : Prop where
  sound : Sound v.db
  bare : v.pending = []

/-- The session stands in a sound state, and each of its writes is in order. -/
structure Upheld (v : Window) : Prop where
  sound : Sound v.db
  fine : ∀ w ∈ v.pending, Fine v.db w

theorem clear_upheld (clear : Clear v) : Upheld v where
  sound := clear.sound
  fine w mem := by
    rw [clear.bare] at mem
    cases mem

section Onward
variable {ws : List Write}

theorem kept_onward (onward : Onward (Rely ProperCommit) v u ws) : Kept v.db u.db := kept_rely onward.rely

theorem upheld_onward (h : Upheld v) (onward : Onward (Rely ProperCommit) v u ws)
    (own : ∀ w ∈ ws, Fine u.db w) : Upheld u where
  sound := sound_rely onward.rely h.sound
  fine w mem := by
    rw [onward.pending, List.mem_append] at mem
    rcases mem with old | new
    · exact fine_kept (kept_onward onward) (h.fine w old)
    · exact own w new

theorem upheld_read (h : Upheld v) (onward : Onward (Rely ProperCommit) v u []) : Upheld u :=
  upheld_onward h onward (fun _ mem => by cases mem)

theorem clear_read (h : Clear v) (onward : Onward (Rely ProperCommit) v u []) : Clear u where
  sound := sound_rely onward.rely h.sound
  bare := by rw [onward.pending, h.bare, List.append_nil]

end Onward

theorem goes_sound (goes : Goes (Rely ProperCommit) v u) (h : Sound v.db) : Sound u.db :=
  sound_rely goes.steady h

theorem goes_kept (goes : Goes (Rely ProperCommit) v u) : Kept v.db u.db := kept_rely goes.steady

theorem goes_clear (goes : Goes (Rely ProperCommit) v u) (h : Clear v) (pending : u.pending = v.pending) :
    Clear u where
  sound := goes_sound goes h.sound
  bare := pending.trans h.bare

theorem upheld_steady {db : Database} (rely : Rely ProperCommit v.held v.db db) (upheld : Upheld v) :
    ∀ w ∈ v.pending, Steady db w :=
  fun w mem => steady_kept (kept_rely rely) (upheld.fine w mem).steady

theorem upheld_wp {Q : Post Database IdentityMap Write Row AppError Unit} (upheld : Upheld v)
    (failed : ∀ u, Q (.error .database) u)
    (done : ∀ db u, Rely ProperCommit v.held v.db db → u.db = applyAll v.pending db → Clear u →
      Kept v.db u.db → Q (.ok ()) u) : wp (Rely ProperCommit) ProperCommit F commit Q v := by
  intro db rely
  have fine : ∀ w ∈ v.pending, Fine db w := fun w mem => fine_kept (kept_rely rely) (upheld.fine w mem)
  have good : ProperCommit v.pending db := .plain fine
  refine ⟨good, ?_, failed _⟩
  apply done db _ rely rfl
  · exact ⟨sound_commit (sound_rely rely upheld.sound) good, rfl⟩
  · exact kept_trans (kept_rely rely) (kept_all (commit_steady good))

theorem upheld_then {k : Unit → Tx α} (upheld : Upheld v)
    (onward : ∀ db u, Rely ProperCommit v.held v.db db → u.db = applyAll v.pending db → Clear u →
      Kept v.db u.db → Proper F (k ()) u) : Proper F (commit >>= k) v :=
  seq_wp (upheld_wp upheld (fun _ => trivial) onward)

theorem upheld_commit (upheld : Upheld v) : Proper F commit v :=
  upheld_wp upheld (fun _ => trivial) (fun _ _ _ _ _ _ => trivial)

theorem attested_fine {db : Database} {entry : AuditLog} (attested : Attested db entry) :
    Fine db (.insertAuditLog entry) where
  steady := trivial
  linked _ mem := by cases mem
  warranted := attested

theorem audited_wp {entry : AuditLog} {Q : Post Database IdentityMap Write Row AppError Unit}
    (clear : Clear v)
    (attested : Attested v.db entry) (done : ∀ u, Clear u → Kept v.db u.db → Q (.ok ()) u) :
    wp (Rely ProperCommit) ProperCommit F (auditLog entry) Q v := by
  have recover : ∀ w : Window, Sound w.db → Kept v.db w.db →
      wp (Rely ProperCommit) ProperCommit F rollback Q w := by
    intro w sound kept db rely
    exact done _ ⟨sound_rely rely sound, rfl⟩ (kept_trans kept (kept_rely rely))
  unfold auditLog
  rw [wp_handle, wp_seq]
  apply stmt_wp proper_env
  · intro u goes _ _
    exact recover u (goes_sound goes clear.sound) (goes_kept goes)
  · intro u seen adds goes _ added _ _ pending _
    rw [clear.bare, added, List.nil_append] at pending
    have upheld : Upheld u := by
      refine ⟨goes_sound goes clear.sound, ?_⟩
      intro write mem
      rw [pending, List.mem_singleton] at mem
      rw [mem]
      exact attested_fine (attested_kept (goes_kept goes) attested)
    intro db rely
    have fine : ∀ w ∈ u.pending, Fine db w := fun w mem => fine_kept (kept_rely rely) (upheld.fine w mem)
    have good : ProperCommit u.pending db := .plain fine
    have here := sound_rely rely upheld.sound
    have kept := kept_trans (goes_kept goes) (kept_rely rely)
    refine ⟨good, ?_, recover _ here kept⟩
    exact done _ ⟨sound_commit here good, rfl⟩ (kept_trans kept (kept_all (commit_steady good)))

theorem audited_then {entry : AuditLog} {k : Unit → Tx α} (clear : Clear v) (attested : Attested v.db entry)
    (onward : ∀ u, Clear u → Kept v.db u.db → Proper F (k ()) u) : Proper F (auditLog entry >>= k) v :=
  seq_wp (audited_wp clear attested onward)

theorem audited_proper {entry : AuditLog} {a : α} (clear : Clear v) (attested : Attested v.db entry) :
    Proper F (auditLog entry >>= fun _ => (.ret a : Tx α)) v :=
  audited_then clear attested (fun _ _ _ => trivial)

theorem enqueued_then {task : Task} {k : Unit → Tx α} (clear : Clear v)
    (onward : ∀ u, Clear u → Kept v.db u.db → Proper F (k ()) u) : Proper F (enqueue task >>= k) v := by
  apply called_then
  intro _ u first
  exact onward u (clear_read clear first) (kept_onward first)

theorem attempted_then {task : Task} {k : Unit → Tx α} (clear : Clear v)
    (onward : ∀ u, Clear u → Kept v.db u.db → Proper F (k ()) u) :
    Proper F (Prog.handle (enqueue task) (fun _ => .ret ()) >>= k) v := by
  apply seq_wp
  apply handle_wp
  apply call_wp proper_env
  · intro u goes same _
    exact onward u (goes_clear goes clear same) (goes_kept goes)
  · intro u _ goes same _
    exact onward u (goes_clear goes clear same) (goes_kept goes)

section Entries
variable {s t : Database}

/-- A row that was free when its INSERT locked its entries is still free at the commit. -/
theorem user_admits_kept {a : User} (same : ∀ r ∈ writeTargets (.insertUser a), Same r s t)
    (free : s.users.admits a = true) : t.users.admits a = true := by
  apply admits_carried _ free
  intro b clashes
  simp only [clash, Bool.or_eq_true, beq_iff_eq] at clashes
  rcases clashes with (id | email) | phone
  · refine ⟨fun r => key r = a.id, decide_eq_true id, ?_,
      find?_any (same (.user a.id) (by simp [writeTargets]))⟩
    intro r own
    have key : r.id = a.id := of_decide_eq_true own
    simp [clash, key]
  · refine ⟨fun r => r.email == a.email,
      by simpa using email, ?_, same (.email a.email) (by simp [writeTargets])⟩
    intro r own
    simp [clash, beq_iff_eq.mp own]
  · obtain ⟨number, held, given⟩ := sharesSome_iff.mp phone
    refine ⟨fun r => r.phone == some number, by simpa using held, ?_,
      same (.phone number) (by simp [writeTargets, given])⟩
    intro r own
    have shared : sharesSome r.phone a.phone = true := sharesSome_iff.mpr ⟨number, beq_iff_eq.mp own, given⟩
    simp [clash, shared]

theorem merchant_admits_kept {a : Merchant} (same : ∀ r ∈ accountTargets (.insertMerchant a), Same r s t)
    (free : s.merchants.admits a = true) : t.merchants.admits a = true := by
  apply admits_carried _ free
  intro b clashes
  simp only [clash, Bool.or_eq_true, beq_iff_eq] at clashes
  rcases clashes with id | owner
  · refine ⟨fun r => key r = a.id, decide_eq_true id, ?_,
      find?_any (same (.merchant a.id) (by simp [accountTargets]))⟩
    intro r own
    have key : r.id = a.id := of_decide_eq_true own
    simp [clash, key]
  · refine ⟨fun r => r.userId == a.userId, by simpa using owner, ?_,
      same (.merchantOwner a.userId) (by simp [accountTargets])⟩
    intro r own
    simp [clash, beq_iff_eq.mp own]

theorem submission_admits_kept {a : KYCSubmission} (same : Same (.submission a.id) s t)
    (free : s.kycSubmissions.admits a = true) : t.kycSubmissions.admits a = true := by
  apply admits_carried _ free
  intro b clashes
  have id : b.id = a.id := by simpa [clash] using clashes
  refine ⟨fun r => key r = a.id, decide_eq_true id, ?_, find?_any same⟩
  intro r own
  have key : r.id = a.id := of_decide_eq_true own
  simp [clash, key]

end Entries

end PayCoreProperRules
